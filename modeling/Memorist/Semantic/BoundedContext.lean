import Memorist.Semantic.Binding
import Memorist.Storage.Conversation
import Memorist.Text.CanonicalHash

/-!
The context window of a message (`memory_worker/semantic/bounded_context.py`, over the SQLite
source of `memory_worker/semantic/runtime_adapters.py`).

* `listPriorContextRecords`: the newest earlier units, as many as the scan may take;
* `ineligibleReason`: why a unit may not be shown;
* `resolve`: the last of the eligible units among these;
* `contextWindow`: the last of all the eligible units of the session;
* `resolve_contextWindow_iff`: when the two agree.
-/

namespace Memorist

open Checks (require)

/-! ### The source -/

/-- What the run knows of its message. -/
structure CurrentContextScope where
  messageUuid : String
  rawText : Text
  deriving DecidableEq, Repr

/-- The current message in its session, with what its authority rests on. -/
structure SessionContextScope extends CurrentContextScope where
  messageVersionUuid : Option String
  sessionUuid : String
  workspaceUuid : Option String
  projectUuid : Option String
  userUuid : Option String
  actorWorkspaceUuid : Option String
  role : String
  turnIndex : Option ℤ
  visibility : String := "visible"
  isDeleted : Bool := false
  redactionStatus : String := "none"
  deriving DecidableEq, Repr

/-- A text unit of an earlier message. -/
structure PriorContextRecord where
  userUuid : Option String
  sessionUuid : String
  workspaceUuid : Option String
  projectUuid : Option String
  messageUuid : String
  messageVersionUuid : Option String
  versionRawText : Option Text
  role : String
  turnIndex : Option ℤ
  visibility : String
  isDeleted : Bool
  redactionStatus : String
  textUnitUuid : String
  unitIndex : ℕ
  rawStart : ℕ
  rawEnd : ℕ
  unitText : Text
  deriving DecidableEq, Repr

/-- A name, unless it is empty. -/
def optionalString (value : Option String) : Option String := value.filter fun s => s ≠ ""

/-- The message and its session, its actor and its latest version. -/
def loadCurrentContextScope (store : ConversationStore) (messageUuid : String) :
    Except String SessionContextScope :=
  match (store.messages.get? messageUuid).bind fun message =>
    (store.sessions.get? message.sessionUuid).map fun session => (message, session) with
  | none => .error s!"message not found: {messageUuid}"
  | some (message, session) =>
      let rawText := message.rawText.getD []
      let actor := store.sessionActors.get? message.sessionUuid
      let version := (store.latestVersion message.messageUuid).filter fun version =>
        version.rawText.all fun text => text = rawText
      .ok
        { messageUuid := message.messageUuid
          rawText := rawText
          messageVersionUuid := version.map MessageVersionRow.messageVersionUuid
          sessionUuid := message.sessionUuid
          workspaceUuid := optionalString session.workspaceUuid
          projectUuid := optionalString session.projectUuid
          userUuid := optionalString (actor.map SessionActorRow.userUuid)
          actorWorkspaceUuid := optionalString (actor.map SessionActorRow.workspaceUuid)
          role := message.role
          turnIndex := message.turnIndex
          visibility := message.visibility
          isDeleted := message.isDeleted
          redactionStatus := message.redactionStatus }

/-- What the query joins to a text unit. -/
def priorContextRecord (store : ConversationStore) (unit : MessageTextUnitRow) :
    Option PriorContextRecord := do
  let message ← store.messages.get? unit.messageUuid
  let session ← store.sessions.get? message.sessionUuid
  let actor := store.sessionActors.get? message.sessionUuid
  let version := store.latestVersion message.messageUuid
  pure
    { userUuid := optionalString (actor.map SessionActorRow.userUuid)
      sessionUuid := message.sessionUuid
      workspaceUuid := optionalString session.workspaceUuid
      projectUuid := optionalString session.projectUuid
      messageUuid := message.messageUuid
      messageVersionUuid := optionalString (version.map MessageVersionRow.messageVersionUuid)
      versionRawText := version.bind MessageVersionRow.rawText
      role := message.role
      turnIndex := message.turnIndex
      visibility := message.visibility
      isDeleted := message.isDeleted
      redactionStatus := message.redactionStatus
      textUnitUuid := unit.textUnitUuid
      unitIndex := unit.unitIndex
      rawStart := unit.startChar
      rawEnd := unit.endChar
      unitText := unit.text }

/-- Every stored text unit with its message and session. -/
def contextRecords (store : ConversationStore) : List PriorContextRecord :=
  store.textUnits.rows.filterMap (priorContextRecord store)

/-- Whether a turn comes before another. -/
def isPriorTurn : Option ℤ → Option ℤ → Bool
  | some turn, some current => turn < current
  | _, _ => false

/-- The order of text units in a conversation. -/
def PriorContextRecord.key (record : PriorContextRecord) : ℤ ×ₗ ℕ ×ₗ List Char ×ₗ List Char :=
  toLex (record.turnIndex.getD 0, toLex (record.unitIndex,
    toLex (record.messageUuid.toList, record.textUnitUuid.toList)))

/-- The condition of the query. -/
def isPriorRow (scope : SessionContextScope) (record : PriorContextRecord) : Bool :=
  record.sessionUuid = scope.sessionUuid && record.messageUuid ≠ scope.messageUuid &&
    isPriorTurn record.turnIndex scope.turnIndex

/-- The newest text units of earlier turns of the session. -/
def listPriorContextRecords (store : ConversationStore) (scope : SessionContextScope)
    (scanLimit : ℕ) : List PriorContextRecord :=
  match scope.turnIndex with
  | none => []
  | some _ =>
      KeySort.newest PriorContextRecord.key scanLimit
        ((contextRecords store).filter (isPriorRow scope))

/-! ### The resolver -/

/-- Whether the actor of the session is known and of its workspace. -/
def scopeAuthorityComplete (scope : SessionContextScope) : Bool :=
  (optionalString scope.userUuid).isSome && scope.turnIndex.isSome &&
    !(scope.workspaceUuid.isSome && scope.actorWorkspaceUuid ≠ scope.workspaceUuid)

/-- Whether a unit is where its version says; offsets are not negative here. -/
def spanIsCurrent (record : PriorContextRecord) (versionRawText : Text) : Bool :=
  record.rawStart < record.rawEnd && record.rawEnd ≤ versionRawText.length &&
    slice versionRawText record.rawStart record.rawEnd = record.unitText

/-- Why a unit may not be shown. -/
def ineligibleReason (U : UnicodeData) (scope : SessionContextScope)
    (record : PriorContextRecord) : Option String :=
  if record.userUuid ≠ scope.userUuid ∨ record.sessionUuid ≠ scope.sessionUuid ∨
      record.workspaceUuid ≠ scope.workspaceUuid ∨ record.projectUuid ≠ scope.projectUuid then
    some "cross_authority_boundary"
  else if record.messageUuid = scope.messageUuid then some "current_message_excluded"
  else if ¬isPriorTurn record.turnIndex scope.turnIndex then some "non_prior_turn"
  else if record.role ≠ "user" ∧ record.role ≠ "assistant" then some "role_excluded"
  else if record.visibility ≠ "visible" ∨ record.isDeleted ∨ record.redactionStatus ≠ "none" then
    some "hidden_deleted_or_redacted"
  else match record.messageVersionUuid, record.versionRawText with
    | some _, some versionRawText =>
        if ¬spanIsCurrent record versionRawText then some "stale_or_invalid_text_unit_span"
        else if classifySensitivity U record.unitText ≠ .normal then
          some "sensitive_context_excluded"
        else none
    | _, _ => some "immutable_message_version_missing"

/-- Whether a unit may be shown. -/
def isEligible (U : UnicodeData) (scope : SessionContextScope) (record : PriorContextRecord) :
    Bool :=
  (ineligibleReason U scope record).isNone

/-- The version of the resolver. -/
def boundedContextResolverVersion : String := "memorist.semantic_candidate.bounded_context.v1"

/-- The namespace of context items. -/
def contextItemNamespace : String := "740a0732-fce8-5f8c-ad65-d5183e30e0bc"

/-- The role of a context item. -/
def contextRole (role : String) : Except String ContextRole :=
  if role = "user" then .ok .user
  else if role = "assistant" then .ok .assistant
  else if role = "tool" then .ok .tool
  else .error "BoundedContextItem.role: Input should be user, assistant or tool"

/-- What a context item is named by. -/
def contextIdentity (scope : SessionContextScope) (record : PriorContextRecord)
    (textHash : String) : IJson :=
  .obj
    [field "resolver_version" (jsonString boundedContextResolverVersion),
     field "user_uuid" (jsonOption scope.userUuid),
     field "session_uuid" (jsonString record.sessionUuid),
     field "workspace_uuid" (jsonOption record.workspaceUuid),
     field "project_uuid" (jsonOption record.projectUuid),
     field "message_uuid" (jsonString record.messageUuid),
     field "message_version_uuid" (jsonOption record.messageVersionUuid),
     field "text_unit_uuid" (jsonString record.textUnitUuid),
     field "role" (jsonString record.role),
     field "turn_index" (record.turnIndex.elim .null IJson.int),
     field "unit_index" (jsonNat record.unitIndex),
     field "raw_start" (jsonNat record.rawStart),
     field "raw_end" (jsonNat record.rawEnd),
     field "raw_text_hash" (jsonString textHash)]

section

variable (P : Platform)

/-- The fields of a context item. -/
def contextItem (scope : SessionContextScope) (record : PriorContextRecord) (identityHash : String)
    (role : ContextRole) (turnIndex : ℤ) : BoundedContextItem where
  contextItemId := P.uuid5 contextItemNamespace identityHash
  userUuid := pyStr scope.userUuid
  sessionUuid := record.sessionUuid
  workspaceUuid := record.workspaceUuid
  projectUuid := record.projectUuid
  messageUuid := record.messageUuid
  messageVersionUuid := record.messageVersionUuid
  textUnitUuid := record.textUnitUuid
  role := role
  turnIndex := turnIndex.toNat
  unitIndex := record.unitIndex
  rawStart := record.rawStart
  rawEnd := record.rawEnd
  text := record.unitText
  rawTextHash := P.sha256 record.unitText
  sourceAuthorityCeiling := if record.role = "user" then .userExplicit else .assistantClaim

/-- The context item of a text unit. -/
def toItem (scope : SessionContextScope) (record : PriorContextRecord) :
    Except String BoundedContextItem := do
  let identityHash ← canonicalHashIjson P
    (contextIdentity scope record (P.sha256 record.unitText))
  require (record.turnIndex.isSome = true) "AssertionError"
  let turnIndex := record.turnIndex.getD 0
  require (0 ≤ turnIndex)
    "BoundedContextItem.turn_index: Input should be greater than or equal to 0"
  let role ← contextRole record.role
  let item := contextItem P scope record identityHash role turnIndex
  item.integrity P "BoundedContextItem"
  pure item

/-- What the resolver found. -/
structure BoundedContextResolution where
  scope : SessionContextScope
  boundary : SemanticContextBoundary
  items : List BoundedContextItem
  authorityComplete : Bool
  exclusionReasonCodes : List String
  deriving DecidableEq, Repr

/-- Whether the text may refer to earlier turns. -/
def TextEnvelope.requiresConversationContext (envelope : TextEnvelope) : Bool :=
  !envelope.contextDependencyHints.isEmpty

/-- How many units the window holds. -/
def effectiveLimit (envelope : TextEnvelope) : ℕ :=
  if envelope.requiresConversationContext then 6 else 2

/-- How many rows the query may return. -/
def scanLimit (envelope : TextEnvelope) : ℕ := max 32 (effectiveLimit envelope * 8)

/-- The boundary of a scope. -/
def contextBoundary (scope : SessionContextScope) (envelope : TextEnvelope) :
    SemanticContextBoundary where
  userUuid := (optionalString scope.userUuid).getD ("unbound-session:" ++ scope.sessionUuid)
  sessionUuid := scope.sessionUuid
  workspaceUuid := scope.workspaceUuid
  projectUuid := scope.projectUuid
  effectiveLimit := effectiveLimit envelope
  dependencyExpansion := envelope.requiresConversationContext

/-- The window of a message: the last eligible units among the newest rows. -/
def resolve (store : ConversationStore) (messageUuid : String) (envelope : TextEnvelope) :
    Except String BoundedContextResolution := do
  let scope ← loadCurrentContextScope store messageUuid
  let boundary := contextBoundary scope envelope
  boundary.expansionMatchesLimit
  if scopeAuthorityComplete scope then
    let records := listPriorContextRecords store scope (scanLimit envelope)
    let eligible := records.filter (isEligible P.unicode scope)
    let selected :=
      (KeySort.sortBy PriorContextRecord.key eligible).rtake (effectiveLimit envelope)
    let items ← selected.mapM (toItem P scope)
    pure
      { scope := scope
        boundary := boundary
        items := items
        authorityComplete := true
        exclusionReasonCodes := (records.filterMap (ineligibleReason P.unicode scope)).eraseDups }
  else
    pure
      { scope := scope
        boundary := boundary
        items := []
        authorityComplete := false
        exclusionReasonCodes := ["missing_or_conflicting_session_actor"] }

end

/-! ### The window -/

/-- The last eligible units of the session. -/
def contextWindow (U : UnicodeData) (store : ConversationStore) (scope : SessionContextScope)
    (limit : ℕ) : List PriorContextRecord :=
  (KeySort.sortBy PriorContextRecord.key
    ((contextRecords store).filter (isEligible U scope))).rtake limit

/-- The window holds enough of the eligible units, or all of them, when the scan does. -/
def ScanSuffices (U : UnicodeData) (store : ConversationStore) (scope : SessionContextScope)
    (limit scan : ℕ) : Prop :=
  min limit ((contextRecords store).filter (isEligible U scope)).length ≤
    ((listPriorContextRecords store scope scan).filter (isEligible U scope)).length

/-- A record that can be shown: named, its numbers ones that every JSON reader represents. -/
structure PriorContextRecord.Presentable (record : PriorContextRecord) : Prop where
  messageUuid : record.messageUuid ≠ ""
  textUnitUuid : record.textUnitUuid ≠ ""
  turnIndex : ∀ turn ∈ record.turnIndex, 0 ≤ turn ∧ turn ≤ maxSafeInteger
  unitIndex : (record.unitIndex : ℤ) ≤ maxSafeInteger
  rawEnd : (record.rawEnd : ℤ) ≤ maxSafeInteger

section

variable {P : Platform} {U : UnicodeData} {store : ConversationStore}
variable {scope : SessionContextScope} {record : PriorContextRecord}

lemma isPriorTurn_eq_true {turn current : Option ℤ} :
    isPriorTurn turn current = true ↔ ∃ a b, turn = some a ∧ current = some b ∧ a < b := by
  cases turn <;> cases current <;> simp [isPriorTurn]

/-- What an eligible unit satisfies. -/
structure EligibleFacts (U : UnicodeData) (scope : SessionContextScope)
    (record : PriorContextRecord) : Prop where
  userUuid : record.userUuid = scope.userUuid
  isPriorRow : isPriorRow scope record = true
  role : record.role = "user" ∨ record.role = "assistant"
  orderedSpan : record.rawStart < record.rawEnd
  normal : classifySensitivity U record.unitText = .normal

lemma isEligible_facts (h : isEligible U scope record = true) : EligibleFacts U scope record := by
  rw [isEligible, Option.isNone_iff_eq_none, ineligibleReason] at h
  split_ifs at h with hscope hmessage hturn hrole hvisible hsensitive
  · -- a sensitive text has a reason whatever its version
    split at h
    · split_ifs at h
    · exact absurd h (by simp)
  · split at h
    · split_ifs at h with hspan
      simp only [ne_eq, not_or, not_not] at hscope hspan hsensitive hturn
      simp only [spanIsCurrent, Bool.and_eq_true, decide_eq_true_eq] at hspan
      refine ⟨hscope.1, ?_, by tauto, hspan.1.1, hsensitive⟩
      simp [isPriorRow, hscope.2.1, hmessage, hturn]
    · exact absurd h (by simp)

/-- The text unit of a record is its name. -/
lemma textUnitUuid_of_priorContextRecord {unit : MessageTextUnitRow}
    (h : priorContextRecord store unit = some record) :
    record.textUnitUuid = unit.textUnitUuid := by
  simp only [priorContextRecord, Option.bind_eq_bind, Option.bind_eq_some_iff, Option.pure_def,
    Option.some_inj] at h
  obtain ⟨_, _, _, _, rfl⟩ := h
  rfl

/-- Records of one text unit are one. -/
lemma contextRecords_inj : ∀ a ∈ contextRecords store, ∀ b ∈ contextRecords store,
    a.textUnitUuid = b.textUnitUuid → a = b := by
  intro a ha b hb hname
  obtain ⟨unit, hunit, hrecord⟩ := List.mem_filterMap.mp ha
  obtain ⟨unit', hunit', hrecord'⟩ := List.mem_filterMap.mp hb
  have hrow := Table.get?_of_mem hunit
  have hrow' := Table.get?_of_mem hunit'
  rw [← textUnitUuid_of_priorContextRecord hrecord] at hrow
  rw [← textUnitUuid_of_priorContextRecord hrecord', ← hname, hrow, Option.some_inj] at hrow'
  rw [hrow', hrecord', Option.some_inj] at hrecord
  exact hrecord.symm

/-- The order tells the records of a store apart. -/
lemma key_inj : ∀ a ∈ contextRecords store, ∀ b ∈ contextRecords store, a.key = b.key → a = b := by
  intro a ha b hb hkey
  refine contextRecords_inj a ha b hb ?_
  simp only [PriorContextRecord.key, EmbeddingLike.apply_eq_iff_eq, Prod.mk.injEq] at hkey
  exact String.toList_inj.mp hkey.2.2.2

/-- The eligible units are rows of the query. -/
lemma filter_isEligible :
    ((contextRecords store).filter (isPriorRow scope)).filter (isEligible U scope) =
      (contextRecords store).filter (isEligible U scope) := by
  rw [List.filter_filter]
  refine List.filter_congr fun record _ => ?_
  rcases he : isEligible U scope record with _ | _
  · rfl
  · rw [Bool.true_and, (isEligible_facts he).isPriorRow]

/-- The units the resolver selects are the window when the scan holds enough of them. -/
lemma selected_eq_contextWindow (U : UnicodeData) (store : ConversationStore)
    (hturn : scope.turnIndex.isSome = true) (limit scan : ℕ) :
    (KeySort.sortBy PriorContextRecord.key ((listPriorContextRecords store scope scan).filter
        (isEligible U scope))).rtake limit = contextWindow U store scope limit ↔
      ScanSuffices U store scope limit scan := by
  obtain ⟨turn, hturn⟩ := Option.isSome_iff_exists.mp hturn
  rw [ScanSuffices, contextWindow, listPriorContextRecords, hturn, ← filter_isEligible]
  refine KeySort.rtake_filter_newest fun a ha b hb => ?_
  exact key_inj a (List.mem_of_mem_filter ha) b (List.mem_of_mem_filter hb)

/-! ### The items of the window -/

lemma contextRole_of_eligible (h : record.role = "user" ∨ record.role = "assistant") :
    ∃ role, contextRole record.role = .ok role ∧
      (if record.role = "user" then AuthorityCeiling.userExplicit else .assistantClaim) =
        role.ceiling := by
  rcases h with h | h <;> rw [h]
  · exact ⟨.user, rfl, rfl⟩
  · exact ⟨.assistant, rfl, rfl⟩

/-- An identity is hashed when its numbers are ones that every reader represents. -/
lemma validValue_contextIdentity {textHash : String} :
    ValidValue U none (contextIdentity scope record textHash) ↔
      (∀ turn ∈ record.turnIndex, minSafeInteger ≤ turn ∧ turn ≤ maxSafeInteger) ∧
        (record.unitIndex : ℤ) ≤ maxSafeInteger ∧ (record.rawStart : ℤ) ≤ maxSafeInteger ∧
          (record.rawEnd : ℤ) ≤ maxSafeInteger := by
  rw [contextIdentity, validValue_fields ["resolver_version", "user_uuid", "session_uuid",
    "workspace_uuid", "project_uuid", "message_uuid", "message_version_uuid", "text_unit_uuid",
    "role", "turn_index", "unit_index", "raw_start", "raw_end", "raw_text_hash"]
    (by decide +kernel) rfl]
  have hturn : ValidValue U none (record.turnIndex.elim .null IJson.int) ↔
      ∀ turn ∈ record.turnIndex, minSafeInteger ≤ turn ∧ turn ≤ maxSafeInteger := by
    cases record.turnIndex <;> simp [ValidValue, validateValue]
  simp [field, hturn]

/-- An eligible unit is shown exactly when it is presentable. -/
lemma exists_toItem (huuid : ∀ space name, P.uuid5 space name ≠ "")
    (huser : (optionalString scope.userUuid).isSome = true) (hsession : scope.sessionUuid ≠ "")
    (he : isEligible U scope record = true) :
    (∃ item, toItem P scope record = .ok item) ↔ record.Presentable := by
  have hfacts := isEligible_facts he
  have hrow := hfacts.isPriorRow
  simp only [isPriorRow, Bool.and_eq_true, decide_eq_true_eq, isPriorTurn_eq_true] at hrow
  obtain ⟨⟨hsame, -⟩, turn, _, hturn, -, -⟩ := hrow
  obtain ⟨role, hrole, hceiling⟩ := contextRole_of_eligible hfacts.role
  have hname : pyStr scope.userUuid ≠ "" := by
    obtain ⟨user, huser⟩ := Option.isSome_iff_exists.mp huser
    simp only [optionalString, Option.filter_eq_some_iff, decide_eq_true_eq] at huser
    rw [huser.1]
    exact huser.2
  have hspan := hfacts.orderedSpan
  have hpositive : 0 < record.rawEnd := by omega
  have hnamed : record.sessionUuid ≠ "" := hsame ▸ hsession
  constructor
  · rintro ⟨item, h⟩
    simp only [toItem, Checks.bind_eq_ok, Checks.pure_eq_ok, Checks.require_eq_ok,
      canonicalHashIjson_eq_ok, validValue_contextIdentity, hturn, Option.getD_some,
      BoundedContextItem.integrity, contextItem, nonEmpty] at h
    obtain ⟨_, ⟨⟨hint, hunit, -, hend⟩, -⟩, _, -, _, hnonneg, _, -, _, hitem, -⟩ := h
    obtain ⟨_, -, _, -, _, -, _, hmessage, _, htext, -⟩ := hitem
    refine ⟨fun h => hmessage (by simp [h]), fun h => htext (by simp [h]), ?_, hunit, hend⟩
    rintro t ht
    obtain rfl : turn = t := Option.some_inj.mp (hturn.symm.trans ht)
    exact ⟨hnonneg, (hint turn rfl).2⟩
  · intro h
    obtain ⟨hnonneg, hsafe⟩ := h.turnIndex turn hturn
    have hunit := h.unitIndex
    have hend := h.rawEnd
    have hvalid : ValidValue P.unicode none
        (contextIdentity scope record (P.sha256 record.unitText)) := by
      refine validValue_contextIdentity.mpr ⟨fun t ht => ?_, hunit, by omega, hend⟩
      obtain rfl : turn = t := Option.some_inj.mp (hturn.symm.trans ht)
      exact ⟨le_trans (by decide) hnonneg, hsafe⟩
    obtain ⟨hash, hhash⟩ : ∃ hash, canonicalHashIjson P
        (contextIdentity scope record (P.sha256 record.unitText)) = .ok hash :=
      ⟨_, canonicalHashIjson_eq_ok.mpr ⟨hvalid, rfl⟩⟩
    refine ⟨contextItem P scope record hash role turn, ?_⟩
    simp only [toItem, hhash, Checks.ok_bind, Checks.bind_eq_ok, Checks.pure_eq_ok,
      Checks.require_eq_ok, hturn, Option.getD_some, Option.isSome_some, hrole]
    refine ⟨(), trivial, (), hnonneg, (), ?_, trivial⟩
    simp [BoundedContextItem.integrity, contextItem, nonEmpty, positive, huuid, hname, hnamed,
      h.messageUuid, h.textUnitUuid, hpositive, hspan, hceiling]

/-- An item has the name of its text unit. -/
lemma textUnitUuid_of_toItem {item : BoundedContextItem} (h : toItem P scope record = .ok item) :
    item.textUnitUuid = record.textUnitUuid := by
  simp only [toItem, Checks.bind_eq_ok, Checks.pure_eq_ok] at h
  obtain ⟨_, -, _, -, _, -, _, -, _, -, rfl⟩ := h
  rfl

variable {messageUuid : String} {envelope : TextEnvelope}

/-- The units that the resolver selects. -/
def selectedRecords (U : UnicodeData) (store : ConversationStore) (scope : SessionContextScope)
    (envelope : TextEnvelope) : List PriorContextRecord :=
  (KeySort.sortBy PriorContextRecord.key ((listPriorContextRecords store scope
    (scanLimit envelope)).filter (isEligible U scope))).rtake (effectiveLimit envelope)

lemma mem_selectedRecords (h : record ∈ selectedRecords U store scope envelope) :
    record ∈ contextRecords store ∧ isEligible U scope record = true := by
  obtain ⟨hmem, he⟩ := List.mem_filter.mp (KeySort.mem_sortBy.mp (List.mem_of_mem_drop h))
  refine ⟨?_, he⟩
  rw [listPriorContextRecords] at hmem
  split at hmem
  · exact absurd hmem List.not_mem_nil
  · exact List.mem_of_mem_filter (KeySort.mem_of_mem_newest hmem)

lemma mem_contextWindow {limit : ℕ} (h : record ∈ contextWindow U store scope limit) :
    record ∈ contextRecords store ∧ isEligible U scope record = true :=
  List.mem_filter.mp (KeySort.mem_sortBy.mp (List.mem_of_mem_drop h))

lemma expansionMatchesLimit_contextBoundary (envelope : TextEnvelope) :
    (contextBoundary scope envelope).expansionMatchesLimit = .ok () ↔
      scope.sessionUuid ≠ "" := by
  have hlimit : effectiveLimit envelope = 2 ∨ effectiveLimit envelope = 6 := by
    rw [effectiveLimit]
    split_ifs <;> simp
  have hmatch : envelope.requiresConversationContext = true ↔ effectiveLimit envelope = 6 := by
    rw [effectiveLimit]
    split_ifs with h <;> simp [h]
  have huser : (optionalString scope.userUuid).getD ("unbound-session:" ++ scope.sessionUuid) ≠
      "" := by
    rcases h : optionalString scope.userUuid with _ | user
    · simp
    · simp only [optionalString, Option.filter_eq_some_iff, decide_eq_true_eq] at h
      exact h.2
  simp [SemanticContextBoundary.expansionMatchesLimit, contextBoundary, nonEmpty, hlimit, hmatch,
    huser]

/-- With complete authority the items are those of the selected units. -/
lemma resolve_items (hload : loadCurrentContextScope store messageUuid = .ok scope)
    (hauth : scopeAuthorityComplete scope = true) (items : List BoundedContextItem) :
    (∃ resolution, resolve P store messageUuid envelope = .ok resolution ∧
        resolution.items = items) ↔
      scope.sessionUuid ≠ "" ∧ List.Forall₂ (fun record item => toItem P scope record = .ok item)
        (selectedRecords P.unicode store scope envelope) items := by
  simp only [resolve, hload, Checks.ok_bind, hauth, if_true, Checks.bind_eq_ok, Checks.pure_eq_ok,
    ← Checks.mapM_eq_ok, ← expansionMatchesLimit_contextBoundary envelope]
  constructor
  · rintro ⟨_, ⟨_, hboundary, found, hfound, rfl⟩, rfl⟩
    exact ⟨hboundary, hfound⟩
  · rintro ⟨hboundary, hfound⟩
    exact ⟨_, ⟨(), hboundary, items, hfound, rfl⟩, rfl⟩

/-- Units of the store with the same items are the same. -/
lemma eq_of_same_items {records records' : List PriorContextRecord}
    (hrecords : ∀ record ∈ records, record ∈ contextRecords store)
    (hrecords' : ∀ record ∈ records', record ∈ contextRecords store)
    {items : List BoundedContextItem}
    (h : List.Forall₂ (fun record item => toItem P scope record = .ok item) records items)
    (h' : List.Forall₂ (fun record item => toItem P scope record = .ok item) records' items) :
    records = records' := by
  induction h generalizing records' with
  | nil => exact (List.forall₂_nil_right_iff.mp h').symm
  | cons hitem _ ih =>
      obtain ⟨_, _, hitem', hrest', rfl⟩ := List.forall₂_cons_right_iff.mp h'
      rw [List.forall_mem_cons] at hrecords hrecords'
      have hname := (textUnitUuid_of_toItem hitem).symm.trans (textUnitUuid_of_toItem hitem')
      rw [contextRecords_inj _ hrecords.1 _ hrecords'.1 hname,
        ih hrecords.2 hrecords'.2 hrest']

/-- **The window**: the resolver returns the last eligible units of the whole session exactly when
the session is named, each of them can be shown, and the newest rows hold enough eligible units or
all of them. -/
theorem resolve_contextWindow_iff (huuid : ∀ space name, P.uuid5 space name ≠ "")
    (hload : loadCurrentContextScope store messageUuid = .ok scope)
    (hauth : scopeAuthorityComplete scope = true) :
    (∃ resolution, resolve P store messageUuid envelope = .ok resolution ∧
        List.Forall₂ (fun record item => toItem P scope record = .ok item)
          (contextWindow P.unicode store scope (effectiveLimit envelope)) resolution.items) ↔
      scope.sessionUuid ≠ "" ∧
        (∀ record ∈ contextWindow P.unicode store scope (effectiveLimit envelope),
          record.Presentable) ∧
        ScanSuffices P.unicode store scope (effectiveLimit envelope) (scanLimit envelope) := by
  have hknown := hauth
  simp only [scopeAuthorityComplete, Bool.and_eq_true] at hknown
  obtain ⟨⟨huser, hturn⟩, -⟩ := hknown
  have hselected := selected_eq_contextWindow P.unicode store hturn (effectiveLimit envelope)
    (scanLimit envelope)
  rw [← hselected, ← selectedRecords]
  constructor
  · rintro ⟨resolution, hresolve, hitems⟩
    obtain ⟨hsession, hfound⟩ :=
      (resolve_items hload hauth resolution.items).mp ⟨resolution, hresolve, rfl⟩
    refine ⟨hsession, fun record hrecord => ?_, ?_⟩
    · obtain ⟨item, -, hitem⟩ := Checks.exists_of_mem_left hitems hrecord
      exact (exists_toItem huuid huser hsession (mem_contextWindow hrecord).2).mp ⟨item, hitem⟩
    · exact eq_of_same_items (fun _ h => (mem_selectedRecords h).1)
        (fun _ h => (mem_contextWindow h).1) hfound hitems
  · rintro ⟨hsession, hshown, hsame⟩
    obtain ⟨items, hitems⟩ := Checks.exists_forall₂ fun record hrecord =>
      (exists_toItem huuid huser hsession (mem_contextWindow hrecord).2).mpr (hshown record hrecord)
    obtain ⟨resolution, hresolve, rfl⟩ :=
      (resolve_items hload hauth items).mpr ⟨hsession, hsame ▸ hitems⟩
    exact ⟨resolution, hresolve, hitems⟩

end

/-! ### Tool output before the current message -/

/-- A line of tool output. -/
def toolUnit (index : ℕ) : MessageTextUnitRow where
  textUnitUuid := "t" ++ toString index
  unitIndex := index
  unitType := .sentence
  text := ['x']
  startChar := index
  endChar := index + 1
  messageUuid := "m1"

/-- A remark of the user, some lines of tool output and the current message. -/
def toolStore (count : ℕ) : ConversationStore where
  sessions := .ofRows [{ sessionUuid := "s", workspaceUuid := "w" }]
  sessionActors := .ofRows [⟨"s", "u", "w"⟩]
  messages := .ofRows
    [{ messageUuid := "m0", sessionUuid := "s", turnIndex := some 0, role := "user",
       rawText := some "tea".toList },
     { messageUuid := "m1", sessionUuid := "s", turnIndex := some 1, role := "tool",
       rawText := some (List.replicate count 'x') },
     { messageUuid := "m2", sessionUuid := "s", turnIndex := some 2, role := "user",
       rawText := some "ok".toList }]
  messageVersions := .ofRows [⟨"v0", "m0", 1, some "tea".toList, none, none⟩]
  textUnits := .ofRows (⟨⟨"u0", 0, .sentence, "tea".toList, 0, 3⟩, "m0"⟩ ::
    (List.range count).map toolUnit)

/-- The scope of the current message. -/
def toolScope : SessionContextScope where
  messageUuid := "m2"
  rawText := "ok".toList
  messageVersionUuid := none
  sessionUuid := "s"
  workspaceUuid := "w"
  projectUuid := none
  userUuid := "u"
  actorWorkspaceUuid := "w"
  role := "user"
  turnIndex := some 2

/-- The envelope of the current message. -/
def toolEnvelope : TextEnvelope := buildEnvelope latinPlatform "ok".toList

lemma latinPlatform_uuid5 (space name : String) : latinPlatform.uuid5 space name ≠ "" :=
  checksum_ne_empty _

/-- After one line of tool output the remark is the window. -/
theorem resolve_contextWindow_iff_one : ∃ resolution,
    resolve latinPlatform (toolStore 1) "m2" toolEnvelope = .ok resolution ∧
      List.Forall₂ (fun record item => toItem latinPlatform toolScope record = .ok item)
        (contextWindow basicLatin (toolStore 1) toolScope (effectiveLimit toolEnvelope))
        resolution.items := by
  refine (resolve_contextWindow_iff latinPlatform_uuid5 (by decide +kernel)
    (by decide +kernel)).mpr ⟨by decide, ?_, ?_⟩
  · have hwindow : (contextWindow basicLatin (toolStore 1) toolScope
        (effectiveLimit toolEnvelope)).map (fun record => (record.messageUuid,
          record.textUnitUuid, record.turnIndex, record.unitIndex, record.rawEnd)) =
        [("m0", "u0", some 0, 0, 3)] := by decide +kernel
    intro record hrecord
    have hmem := hwindow ▸ List.mem_map_of_mem hrecord
    simp only [List.mem_singleton, Prod.mk.injEq] at hmem
    obtain ⟨hmessage, hunit, hturn, hindex, hend⟩ := hmem
    refine ⟨by simp [hmessage], by simp [hunit], ?_, by simp [hindex, maxSafeInteger], ?_⟩
    · simp [hturn, maxSafeInteger]
    · simp [hend, maxSafeInteger]
  · rw [ScanSuffices]
    decide +kernel

/-- Thirty-two lines of tool output hide the remark: no row of the scan is eligible. -/
theorem toolOutput_hides_context : ¬∀ (store : ConversationStore) (messageUuid : String)
    (scope : SessionContextScope) (envelope : TextEnvelope),
    loadCurrentContextScope store messageUuid = .ok scope → scopeAuthorityComplete scope = true →
      ∃ resolution, resolve latinPlatform store messageUuid envelope = .ok resolution ∧
        List.Forall₂ (fun record item => toItem latinPlatform scope record = .ok item)
          (contextWindow basicLatin store scope (effectiveLimit envelope)) resolution.items := by
  intro h
  have hload : loadCurrentContextScope (toolStore 32) "m2" = .ok toolScope := by decide +kernel
  obtain ⟨resolution, hresolve, hitems⟩ :=
    h (toolStore 32) "m2" toolScope toolEnvelope hload (by decide +kernel)
  obtain ⟨-, hfound⟩ := (resolve_items hload (by decide +kernel) resolution.items).mp
    ⟨resolution, hresolve, rfl⟩
  have hnone : (selectedRecords basicLatin (toolStore 32) toolScope toolEnvelope).length = 0 := by
    decide +kernel
  have hone : (contextWindow basicLatin (toolStore 32) toolScope
      (effectiveLimit toolEnvelope)).length = 1 := by
    decide +kernel
  have hlength := hfound.length_eq
  rw [← hitems.length_eq] at hlength
  exact absurd (hnone.symm.trans (hlength.trans hone)) (by decide)

end Memorist
