import Memorist.Coverage.Determined
import Memorist.Library.Correspond
import Memorist.Semantic.BoundedContext

/-!
Whether the resolved context is an acceptable semantic input (`semantic_contract.py`,
`semantic/bounded_context.py`).

* `buildSemanticInput`: the semantic input of a resolution, with its validators;
* `manifestItems_eq_ok`: what the manifest asks of its items;
* `manifestFacts_iff`: when the units of a store are shown in order and under names of their own;
* `AcceptedContext`: a message whose context is resolved and accepted
  (`exists_prepareSemanticInput_iff`);
* `acceptedContext_iff`: this is where the selected units can be shown and no two of them stand at
  one place.
-/

namespace Memorist

open Checks (require)

section

variable (P : Platform)

/-- Build and validate the only supported semantic prompt input shape. -/
def buildSemanticInput (currentMessageUuid : String) (currentMessageVersionUuid : Option String)
    (currentRawText : Text) (textEnvelope : TextEnvelope)
    (boundedContextItems : List BoundedContextItem) (boundary : SemanticContextBoundary) :
    Except String SemanticAnalysisV1Input := do
  let input : SemanticAnalysisV1Input :=
    { currentMessageUuid := currentMessageUuid
      currentMessageVersionUuid := currentMessageVersionUuid
      currentRawText := currentRawText
      textEnvelope := textEnvelope.asDict
      boundedContextItems := boundedContextItems
      boundary := boundary }
  input.modelValidate P
  pure input

/-- The semantic input of a message, as the run prepares it. -/
def prepareSemanticInput (store : ConversationStore) (messageUuid : String) :
    Except String SemanticAnalysisV1Input := do
  let scope ← loadCurrentContextScope store messageUuid
  let envelope := buildEnvelope P scope.rawText
  let context ← resolve P store messageUuid envelope
  buildSemanticInput P scope.messageUuid scope.messageVersionUuid scope.rawText envelope
    context.items context.boundary

end

/-! ### The manifest -/

/-- What a manifest asks of its items. -/
structure ManifestFacts (currentMessageUuid : String) (boundary : SemanticContextBoundary)
    (items : List BoundedContextItem) : Prop where
  distinct : (items.map BoundedContextItem.contextItemId).Nodup
  ascending : items.Pairwise fun a b => a.order < b.order
  others : ∀ item ∈ items, item.messageUuid ≠ currentMessageUuid
  inside : ∀ item ∈ items, item.userUuid = boundary.userUuid ∧
    item.sessionUuid = boundary.sessionUuid ∧ item.workspaceUuid = boundary.workspaceUuid ∧
      item.projectUuid = boundary.projectUuid

lemma manifestItems_eq_ok {currentMessageUuid : String} {boundary : SemanticContextBoundary}
    {items : List BoundedContextItem} : ∀ {seen : List String} {prior : Option (ℕ ×ₗ ℕ)},
    manifestItems currentMessageUuid boundary seen prior items = .ok () ↔
      (∀ item ∈ items, item.contextItemId ∉ seen) ∧
        (∀ order ∈ prior, ∀ item ∈ items, order < item.order) ∧
          ManifestFacts currentMessageUuid boundary items := by
  induction items with
  | nil =>
      intro seen prior
      refine iff_of_true rfl ⟨by simp, by simp, List.nodup_nil, .nil, by simp, by simp⟩
  | cons item items ih =>
      intro seen prior
      simp only [manifestItems, Checks.bind_eq_ok, Checks.require_eq_ok, exists_const, ih, not_le]
      constructor
      · rintro ⟨hfresh, hprior, hother, hinside, hseen, horder, facts⟩
        have hafter : ∀ later ∈ items, item.order < later.order := horder _ rfl
        refine ⟨List.forall_mem_cons.mpr ⟨hfresh, fun later hlater hmem =>
          hseen later hlater (List.mem_cons_of_mem _ hmem)⟩, fun order horder =>
            List.forall_mem_cons.mpr ⟨hprior order horder, fun later hlater =>
              (hprior order horder).trans (hafter later hlater)⟩, ?_⟩
        exact
          { distinct := List.nodup_cons.mpr ⟨fun hmem => by
              obtain ⟨later, hlater, heq⟩ := List.mem_map.mp hmem
              exact hseen later hlater (heq ▸ List.mem_cons_self), facts.distinct⟩
            ascending := List.pairwise_cons.mpr ⟨hafter, facts.ascending⟩
            others := List.forall_mem_cons.mpr ⟨hother, facts.others⟩
            inside := List.forall_mem_cons.mpr ⟨hinside, facts.inside⟩ }
      · rintro ⟨hseen, hprior, facts⟩
        obtain ⟨hfresh, hseen⟩ := List.forall_mem_cons.mp hseen
        obtain ⟨hnew, hdistinct⟩ := List.nodup_cons.mp facts.distinct
        obtain ⟨hafter, hascending⟩ := List.pairwise_cons.mp facts.ascending
        obtain ⟨hother, hothers⟩ := List.forall_mem_cons.mp facts.others
        obtain ⟨hinside, hinsides⟩ := List.forall_mem_cons.mp facts.inside
        refine ⟨hfresh, fun order horder => hprior order horder item List.mem_cons_self, hother,
          hinside, fun later hlater hmem => ?_, ?_, hdistinct, hascending, hothers, hinsides⟩
        · rcases List.mem_cons.mp hmem with heq | hmem
          · exact hnew (heq ▸ List.mem_map_of_mem hlater)
          · exact hseen later hlater hmem
        · rintro order ⟨⟩
          exact hafter

/-- The checks of an item do not depend on where it stands. -/
lemma integrity_of_integrity {P : Platform} {item : BoundedContextItem} {path path' : String}
    (h : item.integrity P path = .ok ()) : item.integrity P path' = .ok () := by
  simp only [BoundedContextItem.integrity, nonEmpty, positive, Checks.bind_eq_ok,
    Checks.require_eq_ok, exists_const] at h ⊢
  exact h

/-! ### The items of a resolution -/

section

variable {P : Platform} {store : ConversationStore} {scope : SessionContextScope}
variable {record : PriorContextRecord} {item : BoundedContextItem} {messageUuid : String}

/-- A unit that may be shown is in the workspace and the project of the scope. -/
lemma scope_of_isEligible {U : UnicodeData} (h : isEligible U scope record = true) :
    record.workspaceUuid = scope.workspaceUuid ∧ record.projectUuid = scope.projectUuid ∧
      record.messageUuid ≠ scope.messageUuid := by
  rw [isEligible, Option.isNone_iff_eq_none, ineligibleReason] at h
  by_cases hscope : record.userUuid ≠ scope.userUuid ∨ record.sessionUuid ≠ scope.sessionUuid ∨
      record.workspaceUuid ≠ scope.workspaceUuid ∨ record.projectUuid ≠ scope.projectUuid
  · rw [if_pos hscope] at h
    cases h
  · rw [if_neg hscope] at h
    by_cases hmessage : record.messageUuid = scope.messageUuid
    · rw [if_pos hmessage] at h
      cases h
    · simp only [not_or, not_not] at hscope
      exact ⟨hscope.2.2.1, hscope.2.2.2, hmessage⟩

/-- What the item of a unit says about it. -/
structure ItemOf (P : Platform) (scope : SessionContextScope) (record : PriorContextRecord)
    (item : BoundedContextItem) : Prop where
  integrity : item.integrity P "BoundedContextItem" = .ok ()
  identity : ∃ hash, canonicalHashIjson P
      (contextIdentity scope record (P.sha256 record.unitText)) = .ok hash ∧
    item.contextItemId = P.uuid5 contextItemNamespace hash
  order : item.order = toLex ((record.turnIndex.getD 0).toNat, record.unitIndex)
  nonneg : 0 ≤ record.turnIndex.getD 0
  userUuid : item.userUuid = pyStr scope.userUuid
  sessionUuid : item.sessionUuid = record.sessionUuid
  workspaceUuid : item.workspaceUuid = record.workspaceUuid
  projectUuid : item.projectUuid = record.projectUuid
  messageUuid : item.messageUuid = record.messageUuid

lemma itemOf_toItem (h : toItem P scope record = .ok item) : ItemOf P scope record item := by
  simp only [toItem, Checks.bind_eq_ok, Checks.pure_eq_ok, Checks.require_eq_ok] at h
  obtain ⟨hash, hhash, _, -, _, hnonneg, role, -, _, hintegrity, rfl⟩ := h
  exact
    { integrity := hintegrity
      identity := ⟨hash, hhash, rfl⟩
      order := rfl
      nonneg := hnonneg
      userUuid := rfl
      sessionUuid := rfl
      workspaceUuid := rfl
      projectUuid := rfl
      messageUuid := rfl }

/-- Items of one name are items of one text unit. -/
lemma textUnitUuid_of_contextItemId (hsha : Function.Injective P.sha256)
    (huuid : ∀ space, Function.Injective (P.uuid5 space)) {record' : PriorContextRecord}
    {item' : BoundedContextItem} (h : ItemOf P scope record item)
    (h' : ItemOf P scope record' item') (heq : item.contextItemId = item'.contextItemId) :
    record.textUnitUuid = record'.textUnitUuid := by
  obtain ⟨hash, hhash, hid⟩ := h.identity
  obtain ⟨hash', hhash', hid'⟩ := h'.identity
  obtain rfl : hash = hash' := huuid _ (hid.symm.trans (heq.trans hid'))
  have hcanon := canonicalHashIjson_inj hsha hhash hhash'
  rw [contextIdentity, contextIdentity, canon_fields_inj ["resolver_version", "user_uuid",
    "session_uuid", "workspace_uuid", "project_uuid", "message_uuid", "message_version_uuid",
    "text_unit_uuid", "role", "turn_index", "unit_index", "raw_start", "raw_end", "raw_text_hash"]
    (by decide +kernel) rfl rfl] at hcanon
  simp only [field, List.map_cons, List.map_nil, canon_jsonString, List.cons.injEq,
    jsonString_inj] at hcanon
  exact hcanon.2.2.2.2.2.2.2.1

/-- The place of a unit in a conversation. -/
def PriorContextRecord.place (record : PriorContextRecord) : ℤ × ℕ :=
  (record.turnIndex.getD 0, record.unitIndex)

lemma place_lt_of_key_le {record' : PriorContextRecord} (h : record.key ≤ record'.key)
    (hne : record.place ≠ record'.place) : toLex record.place < toLex record'.place := by
  have hle : toLex record.place ≤ toLex record'.place := by
    rw [PriorContextRecord.key, PriorContextRecord.key, Prod.Lex.toLex_le_toLex] at h
    rw [Prod.Lex.toLex_le_toLex]
    refine h.imp id fun hsplit => ⟨hsplit.1, ?_⟩
    have hrest := hsplit.2
    rw [Prod.Lex.toLex_le_toLex] at hrest
    exact hrest.elim (fun hlt => hlt.le) fun hsame => hsame.1.le
  exact lt_of_le_of_ne hle fun heq => hne (toLex.injective heq)

lemma order_lt_iff {record' : PriorContextRecord} {item' : BoundedContextItem}
    (h : ItemOf P scope record item) (h' : ItemOf P scope record' item') :
    item.order < item'.order ↔ toLex record.place < toLex record'.place := by
  rw [h.order, h'.order, Prod.Lex.toLex_lt_toLex, Prod.Lex.toLex_lt_toLex]
  have hnonneg := h.nonneg
  have hnonneg' := h'.nonneg
  simp only [PriorContextRecord.place]
  omega

variable {items : List BoundedContextItem} {records : List PriorContextRecord}

/-- Units of the store are shown in order, under names of their own, exactly when no two of them
stand at one place. -/
theorem manifestFacts_iff (hsha : Function.Injective P.sha256)
    (huuid : ∀ space, Function.Injective (P.uuid5 space)) {envelope : TextEnvelope}
    (huser : (optionalString scope.userUuid).isSome = true)
    (hsorted : records.Pairwise fun a b => a.key ≤ b.key)
    (hrecords : ∀ record ∈ records, record ∈ contextRecords store ∧
      isEligible P.unicode scope record = true)
    (hitems : List.Forall₂ (fun record item => toItem P scope record = .ok item) records items) :
    ManifestFacts scope.messageUuid (contextBoundary scope envelope) items ↔
      records.Pairwise fun a b => a.place ≠ b.place := by
  have hitems : List.Forall₂ (fun record item => record ∈ contextRecords store ∧
      isEligible P.unicode scope record = true ∧ ItemOf P scope record item) records items := by
    refine ((List.forall₂_and_left _ _).mpr ⟨hrecords, hitems⟩).imp fun record item h => ?_
    exact ⟨h.1.1, h.1.2, itemOf_toItem h.2⟩
  constructor
  · intro facts
    refine Correspond.pairwise_right hitems.flip facts.ascending
      fun _ _ _ _ hitem hitem' hlt heq => ?_
    exact absurd ((order_lt_iff hitem.2.2 hitem'.2.2).mp hlt) (heq ▸ lt_irrefl _)
  · intro hplaces
    have hapart := hsorted.and hplaces
    have hfrom : ∀ item ∈ items, ∃ record, isEligible P.unicode scope record = true ∧
        ItemOf P scope record item := fun item hitem => by
      obtain ⟨record, -, -, he, hof⟩ := Checks.exists_of_mem_right hitems hitem
      exact ⟨record, he, hof⟩
    exact
      { distinct := by
          rw [List.nodup_iff_pairwise_ne, List.pairwise_map]
          refine Correspond.pairwise_right hitems hplaces fun a b _ _ ha hb hne heq => hne ?_
          rw [contextRecords_inj a ha.1 b hb.1
            (textUnitUuid_of_contextItemId hsha huuid ha.2.2 hb.2.2 heq)]
        ascending := Correspond.pairwise_right hitems hapart fun _ _ _ _ ha hb hab =>
          (order_lt_iff ha.2.2 hb.2.2).mpr (place_lt_of_key_le hab.1 hab.2)
        others := fun item hitem => by
          obtain ⟨record, he, hof⟩ := hfrom item hitem
          rw [hof.messageUuid]
          exact (scope_of_isEligible he).2.2
        inside := fun item hitem => by
          obtain ⟨record, he, hof⟩ := hfrom item hitem
          obtain ⟨hworkspace, hproject, -⟩ := scope_of_isEligible he
          have hrow := (isEligible_facts he).isPriorRow
          simp only [isPriorRow, Bool.and_eq_true, decide_eq_true_eq] at hrow
          refine ⟨?_, hof.sessionUuid.trans hrow.1.1, hof.workspaceUuid.trans hworkspace,
            hof.projectUuid.trans hproject⟩
          obtain ⟨user, huser⟩ := Option.isSome_iff_exists.mp huser
          rw [hof.userUuid, contextBoundary, huser, Option.getD_some]
          simp only [optionalString, Option.filter_eq_some_iff] at huser
          rw [huser.1]
          rfl }

end

/-! ### Accepted contexts -/

section

variable (P : Platform) {store : ConversationStore} {messageUuid : String}
variable {scope : SessionContextScope} {envelope : TextEnvelope}

/-- The context of a message is resolved, and it is an acceptable input: in order, under distinct
names, of other messages and within the limit. -/
def AcceptedContext (store : ConversationStore) (messageUuid : String)
    (scope : SessionContextScope) : Prop :=
  let envelope := buildEnvelope P scope.rawText
  ∃ resolution input, resolve P store messageUuid envelope = .ok resolution ∧
    buildSemanticInput P scope.messageUuid scope.messageVersionUuid scope.rawText envelope
        resolution.items resolution.boundary = .ok input ∧
      ManifestFacts scope.messageUuid resolution.boundary resolution.items ∧
        resolution.items.length ≤ effectiveLimit envelope

variable {P}

lemma resolve_boundary {resolution : BoundedContextResolution}
    (hload : loadCurrentContextScope store messageUuid = .ok scope)
    (h : resolve P store messageUuid envelope = .ok resolution) :
    resolution.boundary = contextBoundary scope envelope := by
  simp only [resolve, hload, Checks.ok_bind, Checks.bind_eq_ok] at h
  obtain ⟨-, -, h⟩ := h
  split_ifs at h
  · simp only [Checks.bind_eq_ok, Checks.pure_eq_ok] at h
    obtain ⟨_, -, rfl⟩ := h
    rfl
  · rw [Checks.pure_eq_ok] at h
    rw [← h]

/-- A semantic input that is built keeps to its boundary. -/
lemma facts_of_buildSemanticInput {currentMessageUuid : String} {version : Option String}
    {rawText : Text} {items : List BoundedContextItem} {boundary : SemanticContextBoundary}
    {input : SemanticAnalysisV1Input}
    (h : buildSemanticInput P currentMessageUuid version rawText envelope items boundary =
      .ok input) :
    currentMessageUuid ≠ "" ∧ boundary.expansionMatchesLimit = .ok () ∧
      items.length ≤ boundary.effectiveLimit ∧ ManifestFacts currentMessageUuid boundary items := by
  simp only [buildSemanticInput, SemanticAnalysisV1Input.modelValidate, nonEmpty,
    Checks.bind_eq_ok, Checks.require_eq_ok] at h
  obtain ⟨_, ⟨_, hmessage, _, -, _, hboundary, _, -, _, -, _, hlength, hmanifest⟩, -⟩ := h
  refine ⟨fun hempty => hmessage (by rw [hempty]; rfl), hboundary, hlength, ?_⟩
  exact (manifestItems_eq_ok.mp hmanifest).2.2

/-- A message is prepared for its model exactly when its context is accepted. -/
theorem exists_prepareSemanticInput_iff
    (hload : loadCurrentContextScope store messageUuid = .ok scope) :
    (∃ input, prepareSemanticInput P store messageUuid = .ok input) ↔
      AcceptedContext P store messageUuid scope := by
  simp only [prepareSemanticInput, hload, Checks.ok_bind, Checks.bind_eq_ok]
  constructor
  · rintro ⟨input, resolution, hresolve, hbuild⟩
    obtain ⟨-, -, hlength, facts⟩ := facts_of_buildSemanticInput hbuild
    refine ⟨resolution, input, hresolve, hbuild, facts, ?_⟩
    rwa [resolve_boundary hload hresolve] at hlength
  · rintro ⟨resolution, input, hresolve, hbuild, -⟩
    exact ⟨input, resolution, hresolve, hbuild⟩

/-- Without complete authority there are no items. -/
lemma resolve_unbound (hload : loadCurrentContextScope store messageUuid = .ok scope)
    (hauth : scopeAuthorityComplete scope ≠ true) (items : List BoundedContextItem) :
    (∃ resolution, resolve P store messageUuid envelope = .ok resolution ∧
        resolution.items = items) ↔ scope.sessionUuid ≠ "" ∧ items = [] := by
  simp only [resolve, hload, Checks.ok_bind, if_neg hauth, Checks.bind_eq_ok, Checks.pure_eq_ok,
    ← expansionMatchesLimit_contextBoundary envelope]
  constructor
  · rintro ⟨_, ⟨_, hboundary, rfl⟩, rfl⟩
    exact ⟨hboundary, rfl⟩
  · rintro ⟨hboundary, rfl⟩
    exact ⟨_, ⟨(), hboundary, rfl⟩, rfl⟩

/-- What the semantic input asks of the items of a resolution. -/
lemma exists_buildSemanticInput {items : List BoundedContextItem}
    (hitems : ∀ item ∈ items, item.integrity P "BoundedContextItem" = .ok ()) :
    (∃ input, buildSemanticInput P scope.messageUuid scope.messageVersionUuid scope.rawText
        (buildEnvelope P scope.rawText) items
        (contextBoundary scope (buildEnvelope P scope.rawText)) = .ok input) ↔
      scope.messageUuid ≠ "" ∧ scope.sessionUuid ≠ "" ∧
        items.length ≤ effectiveLimit (buildEnvelope P scope.rawText) ∧
          ManifestFacts scope.messageUuid
            (contextBoundary scope (buildEnvelope P scope.rawText)) items := by
  have hintegrity : ∀ p ∈ items.zipIdx,
      p.1.integrity P s!"bounded_context_items.{p.2}" = .ok () := fun p hp =>
    integrity_of_integrity (hitems p.1 (List.fst_mem_of_mem_zipIdx hp))
  constructor
  · rintro ⟨input, h⟩
    obtain ⟨hmessage, hboundary, hlength, facts⟩ := facts_of_buildSemanticInput h
    exact ⟨hmessage, (expansionMatchesLimit_contextBoundary _).mp hboundary, hlength, facts⟩
  · rintro ⟨hmessage, hsession, hlength, facts⟩
    have hmanifest := manifestItems_eq_ok.mpr
      ⟨fun item _ => List.not_mem_nil (a := item.contextItemId),
        fun _ horder => absurd horder (Option.not_mem_none _), facts⟩
    simp only [buildSemanticInput, SemanticAnalysisV1Input.modelValidate, nonEmpty,
      Checks.bind_eq_ok, Checks.pure_eq_ok, Checks.require_eq_ok, Checks.forM_eq_ok]
    refine ⟨_, (), ⟨(), ?_, (), hintegrity, (), ?_, (), rfl, (), rfl, (), hlength, hmanifest⟩, rfl⟩
    · exact fun hempty => hmessage (String.toList_eq_nil_iff.mp hempty)
    · exact (expansionMatchesLimit_contextBoundary _).mpr hsession

lemma acceptedContext_iff_items (hload : loadCurrentContextScope store messageUuid = .ok scope)
    {accepts : List BoundedContextItem → Prop}
    (hresolve : ∀ items, (∃ resolution, resolve P store messageUuid
        (buildEnvelope P scope.rawText) = .ok resolution ∧ resolution.items = items) ↔
      scope.sessionUuid ≠ "" ∧ accepts items)
    (hshown : ∀ items, accepts items → ∀ item ∈ items,
      item.integrity P "BoundedContextItem" = .ok ()) :
    AcceptedContext P store messageUuid scope ↔ scope.messageUuid ≠ "" ∧ scope.sessionUuid ≠ "" ∧
      ∃ items, accepts items ∧ items.length ≤ effectiveLimit (buildEnvelope P scope.rawText) ∧
        ManifestFacts scope.messageUuid (contextBoundary scope (buildEnvelope P scope.rawText))
          items := by
  constructor
  · rintro ⟨resolution, input, hfound, hbuild, facts, hlength⟩
    obtain ⟨hsession, hitems⟩ := (hresolve _).mp ⟨resolution, hfound, rfl⟩
    rw [resolve_boundary hload hfound] at hbuild facts
    obtain ⟨hmessage, -⟩ := (exists_buildSemanticInput (hshown _ hitems)).mp ⟨input, hbuild⟩
    exact ⟨hmessage, hsession, resolution.items, hitems, hlength, facts⟩
  · rintro ⟨hmessage, hsession, items, hitems, hlength, facts⟩
    obtain ⟨resolution, hfound, rfl⟩ := (hresolve items).mpr ⟨hsession, hitems⟩
    obtain ⟨input, hbuild⟩ := (exists_buildSemanticInput (hshown _ hitems)).mpr
      ⟨hmessage, hsession, hlength, facts⟩
    rw [← resolve_boundary hload hfound] at hbuild facts
    exact ⟨resolution, input, hfound, hbuild, facts, hlength⟩

lemma selectedRecords_sorted (U : UnicodeData) : (selectedRecords U store scope envelope).Pairwise
    fun a b => a.key ≤ b.key :=
  (KeySort.pairwise_sortBy _ _).sublist (List.drop_sublist _ _)

lemma length_selectedRecords_le (U : UnicodeData) :
    (selectedRecords U store scope envelope).length ≤ effectiveLimit envelope := by
  rw [selectedRecords, List.rtake, List.length_drop]
  omega

/-- The context of a message is accepted exactly when the message and its session are named and, if
the actor of the session is known, the selected units can be shown and no two of them stand at one
place. -/
theorem acceptedContext_iff (hsha : Function.Injective P.sha256)
    (huuid : ∀ space, Function.Injective (P.uuid5 space))
    (hnamed : ∀ space name, P.uuid5 space name ≠ "")
    (hload : loadCurrentContextScope store messageUuid = .ok scope) :
    AcceptedContext P store messageUuid scope ↔
      scope.messageUuid ≠ "" ∧ scope.sessionUuid ≠ "" ∧ (scopeAuthorityComplete scope = true →
        (∀ record ∈ selectedRecords P.unicode store scope (buildEnvelope P scope.rawText),
          record.Presentable) ∧
        (selectedRecords P.unicode store scope (buildEnvelope P scope.rawText)).Pairwise
          fun a b => a.place ≠ b.place) := by
  by_cases hauth : scopeAuthorityComplete scope = true
  · have hknown := hauth
    simp only [scopeAuthorityComplete, Bool.and_eq_true] at hknown
    have huser := hknown.1.1
    have hfacts : ∀ items, List.Forall₂ (fun record item => toItem P scope record = .ok item)
          (selectedRecords P.unicode store scope (buildEnvelope P scope.rawText)) items →
        (ManifestFacts scope.messageUuid (contextBoundary scope (buildEnvelope P scope.rawText))
          items ↔ (selectedRecords P.unicode store scope (buildEnvelope P scope.rawText)).Pairwise
            fun a b => a.place ≠ b.place) := fun items hitems =>
      manifestFacts_iff hsha huuid huser (selectedRecords_sorted _) (fun _ => mem_selectedRecords)
        hitems
    rw [acceptedContext_iff_items hload (resolve_items hload hauth) fun items hitems item hitem => by
      obtain ⟨record, -, h⟩ := Checks.exists_of_mem_right hitems hitem
      exact (itemOf_toItem h).integrity]
    refine and_congr_right fun _ => and_congr_right fun hsession => ?_
    constructor
    · rintro ⟨items, hitems, -, facts⟩ -
      refine ⟨fun record hrecord => ?_, (hfacts items hitems).mp facts⟩
      obtain ⟨item, -, hitem⟩ := Checks.exists_of_mem_left hitems hrecord
      exact (exists_toItem hnamed huser hsession (mem_selectedRecords hrecord).2).mp ⟨item, hitem⟩
    · intro hselected
      obtain ⟨hpresentable, hplaces⟩ := hselected hauth
      obtain ⟨items, hitems⟩ := Checks.exists_forall₂ fun record hrecord =>
        (exists_toItem hnamed huser hsession (mem_selectedRecords hrecord).2).mpr
          (hpresentable record hrecord)
      exact ⟨items, hitems, hitems.length_eq.symm.le.trans (length_selectedRecords_le _),
        (hfacts items hitems).mpr hplaces⟩
  · rw [acceptedContext_iff_items hload (resolve_unbound hload hauth) (by simp)]
    refine and_congr_right fun _ => and_congr_right fun _ => iff_of_true ?_ fun h => absurd h hauth
    exact ⟨[], rfl, Nat.zero_le _, List.nodup_nil, .nil, by simp, by simp⟩

end

/-! ### Two messages of one turn -/

/-- Two remarks of the user, the second at a turn that the client supplied, and the current
message. -/
def turnStore (turn : ℤ) : ConversationStore where
  sessions := .ofRows [{ sessionUuid := "s", workspaceUuid := "w" }]
  sessionActors := .ofRows [⟨"s", "u", "w"⟩]
  messages := .ofRows
    [{ messageUuid := "m0", sessionUuid := "s", turnIndex := some 0, role := "user",
       rawText := some "tea".toList },
     { messageUuid := "m1", sessionUuid := "s", turnIndex := some turn, role := "user",
       rawText := some "milk".toList },
     { messageUuid := "m2", sessionUuid := "s", turnIndex := some 2, role := "user",
       rawText := some "ok".toList }]
  messageVersions := .ofRows
    [⟨"v0", "m0", 1, some "tea".toList, none, none⟩, ⟨"v1", "m1", 1, some "milk".toList, none, none⟩]
  textUnits := .ofRows
    [⟨⟨"u0", 0, .sentence, "tea".toList, 0, 3⟩, "m0"⟩,
      ⟨⟨"u1", 0, .sentence, "milk".toList, 0, 4⟩, "m1"⟩]

/-- The places of the units that are selected for the current message. -/
def turnPlaces (turn : ℤ) : List (ℤ × ℕ) :=
  (selectedRecords basicLatin (turnStore turn) toolScope
    (buildEnvelope exactPlatform toolScope.rawText)).map PriorContextRecord.place

/-- At turns of their own the remarks are accepted. -/
theorem acceptedContext_iff_turns : AcceptedContext exactPlatform (turnStore 1) "m2" toolScope := by
  refine (acceptedContext_iff exactPlatform_sha256 exactPlatform_uuid5 exactPlatform_uuid5_ne
    (by decide +kernel)).mpr ⟨by decide, by decide, fun _ => ⟨?_, ?_⟩⟩
  · have hselected : (selectedRecords basicLatin (turnStore 1) toolScope
        (buildEnvelope exactPlatform toolScope.rawText)).map (fun record => (record.messageUuid,
          record.textUnitUuid, record.turnIndex, record.unitIndex, record.rawEnd)) =
        [("m0", "u0", some 0, 0, 3), ("m1", "u1", some 1, 0, 4)] := by decide +kernel
    intro record hrecord
    have hmem := hselected ▸ List.mem_map_of_mem hrecord
    simp only [List.mem_cons, List.not_mem_nil, or_false, Prod.mk.injEq] at hmem
    rcases hmem with ⟨hmessage, hunit, hturn, hindex, hend⟩ | ⟨hmessage, hunit, hturn, hindex, hend⟩
    all_goals
      refine ⟨by simp [hmessage], by simp [hunit], ?_, by simp [hindex, maxSafeInteger], ?_⟩
      · simp [hturn, maxSafeInteger]
      · simp [hend, maxSafeInteger]
  · have hplaces : (turnPlaces 1).Pairwise (· ≠ ·) := by decide +kernel
    exact List.pairwise_map.mp hplaces

/-- Two remarks of one turn are resolved and not accepted. -/
theorem not_acceptedContext_sameTurn : ¬∀ (store : ConversationStore) (messageUuid : String)
    (scope : SessionContextScope), loadCurrentContextScope store messageUuid = .ok scope →
      AcceptedContext exactPlatform store messageUuid scope := by
  intro h
  have hload : loadCurrentContextScope (turnStore 0) "m2" = .ok toolScope := by decide +kernel
  obtain ⟨resolution, _, hresolve, -, facts, -⟩ := h (turnStore 0) "m2" toolScope hload
  obtain ⟨-, hitems⟩ := (resolve_items hload (by decide +kernel) _).mp ⟨resolution, hresolve, rfl⟩
  rw [resolve_boundary hload hresolve] at facts
  have hplaces := (manifestFacts_iff exactPlatform_sha256 exactPlatform_uuid5 (by decide +kernel)
    (selectedRecords_sorted _) (fun _ => mem_selectedRecords) hitems).mp facts
  have hsame : ¬(turnPlaces 0).Pairwise (· ≠ ·) := by decide +kernel
  exact hsame (List.pairwise_map.mpr hplaces)

end Memorist
