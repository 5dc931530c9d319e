import Memorist.Library.Table
import Memorist.Text.Envelope

/-!
The policy of a turn (`memory_control/policy.py`, `memory_control/repository.py`).

* `TurnPolicyMode`, `normalizeTurnPolicy`: the policies, and the one that a text names;
* `PolicyDefault`, `PolicyDefaults`: the defaults of the system, of users and of chats;
* `resolvePolicy`: the policy of a turn, from the defaults that apply and its own;
* `setDefault`, `setActorChatDefault`: a default is set;
* `resolvePolicy_private_iff`: when the policy of a turn is private;
* `policy_setDefault`: what the defaults are after one is set.
-/

namespace Memorist

/-! ### Policies -/

/-- What Memorist may do in a turn. -/
inductive TurnPolicyMode where
  | full
  | noRecall
  | privateMode
  deriving DecidableEq, Repr

/-- The text of a policy. -/
def TurnPolicyMode.value : TurnPolicyMode → String
  | full => "full"
  | noRecall => "no_recall"
  | privateMode => "private"

/-- The policy that a text names. -/
def normalizeTurnPolicy (U : UnicodeData) (value : String) : Except String TurnPolicyMode :=
  let mode := String.ofList (U.lowerText (U.strip value.toList))
  if mode = TurnPolicyMode.full.value then .ok .full
  else if mode = TurnPolicyMode.noRecall.value then .ok .noRecall
  else if mode = TurnPolicyMode.privateMode.value then .ok .privateMode
  else .error "turn_policy must be full, no_recall, or private"

/-! ### Defaults -/

/-- What a default is of. -/
inductive PolicyScope where
  | system
  | user
  | chat
  deriving DecidableEq, Repr

/-- The unique index of the defaults. -/
abbrev PolicyKey : Type := PolicyScope × String × String

/-- The key of a scope in a workspace. -/
def policyKey (scopeType : PolicyScope) (scopeUuid : String) (workspaceUuid : Option String) :
    PolicyKey := (scopeType, scopeUuid, workspaceUuid.getD "")

/-- A row of `memorist_policy_defaults`. -/
structure PolicyDefault where
  policyDefaultUuid : String
  scopeType : PolicyScope
  scopeUuid : String
  workspaceUuid : Option String
  turnPolicy : TurnPolicyMode
  attachmentReview : Bool
  createdAt : String
  updatedAt : String
  deriving DecidableEq, Repr

/-- The key of a default. -/
def PolicyDefault.key (row : PolicyDefault) : PolicyKey :=
  policyKey row.scopeType row.scopeUuid row.workspaceUuid

/-- The defaults. -/
abbrev PolicyDefaults : Type := Table PolicyDefault PolicyKey PolicyDefault.key

/-- A default with another policy. -/
def PolicyDefault.withPolicy (now : String) (turnPolicy : TurnPolicyMode)
    (attachmentReview : Bool) (row : PolicyDefault) : PolicyDefault :=
  { row with
    turnPolicy := turnPolicy
    attachmentReview := attachmentReview
    updatedAt := now }

lemma PolicyDefault.key_withPolicy (now : String) (turnPolicy : TurnPolicyMode)
    (attachmentReview : Bool) (row : PolicyDefault) :
    (row.withPolicy now turnPolicy attachmentReview).key = row.key := rfl

/-- The key under which a user's default for a chat is kept; it does not show who or which. -/
def actorChatScopeUuid (P : Platform) (userUuid chatUuid : String) : String :=
  "pr5b:" ++ P.sha256 (userUuid.toList ++ '\x00' :: chatUuid.toList)

/-- The key of a user's default for a chat. -/
def actorChatKey (P : Platform) (userUuid chatUuid : String) (workspaceUuid : Option String) :
    PolicyKey := policyKey .chat (actorChatScopeUuid P userUuid chatUuid) workspaceUuid

/-- A text, unless it is empty. -/
def nonempty (value : Option String) : Option String := value.filter fun text => text ≠ ""

/-! ### Resolution -/

/-- The policy of a turn, and where it comes from. -/
structure ResolvedTurnPolicy where
  policy : TurnPolicyMode
  source : String
  attachmentReview : Bool
  deriving DecidableEq, Repr

/-- A default that is there takes the place of what was selected before. -/
def ResolvedTurnPolicy.orDefault (selected : ResolvedTurnPolicy) (source : String) :
    Option PolicyDefault → ResolvedTurnPolicy
  | none => selected
  | some row => ⟨row.turnPolicy, source, row.attachmentReview⟩

/-- The keys of the defaults that apply to a turn: the system's, its user's, its chat's, and its
user's for the chat. -/
structure PolicyKeys where
  system : PolicyKey
  user : Option PolicyKey
  chat : Option PolicyKey
  actorChat : Option PolicyKey

/-- The defaults that apply to a turn. -/
def policyKeys (P : Platform) (workspaceUuid userUuid chatUuid : Option String) : PolicyKeys where
  system := policyKey .system "system" workspaceUuid
  user := (nonempty userUuid).map fun user => policyKey .user user workspaceUuid
  chat := (nonempty chatUuid).map fun chat => policyKey .chat chat workspaceUuid
  actorChat := (nonempty chatUuid).bind fun chat => (nonempty userUuid).map fun user =>
    actorChatKey P user chat workspaceUuid

/-- The policy of a turn. Once its user has made the chat private, it cannot choose another. -/
def resolvePolicy (P : Platform) (defaults : PolicyDefaults) (systemDefault : TurnPolicyMode)
    (workspaceUuid userUuid chatUuid turnOverride : Option String)
    (attachmentReviewOverride : Option Bool) : Except String ResolvedTurnPolicy := do
  let keys := policyKeys P workspaceUuid userUuid chatUuid
  let system := ResolvedTurnPolicy.orDefault ⟨systemDefault, "system", false⟩ "system"
    (defaults.get? keys.system)
  let user := system.orDefault "user" (keys.user.bind defaults.get?)
  let chat := user.orDefault "chat" (keys.chat.bind defaults.get?)
  let actorChat := keys.actorChat.bind defaults.get?
  let selected := chat.orDefault "chat" actorChat
  let actorChatDisabled := actorChat.any fun row => row.turnPolicy = .privateMode
  let chosen ← match turnOverride with
    | none => pure selected
    | some value =>
        if actorChatDisabled then pure selected
        else do
          let mode ← normalizeTurnPolicy P.unicode value
          pure { selected with policy := mode, source := "turn" }
  pure { chosen with
    attachmentReview := attachmentReviewOverride.getD chosen.attachmentReview }

/-- Set a default. -/
def setDefault (P : Platform) (now freshUuid : String) (defaults : PolicyDefaults)
    (scopeType : PolicyScope) (scopeUuid : String) (workspaceUuid : Option String)
    (turnPolicy : String) (attachmentReview : Bool) : Except String PolicyDefaults := do
  let mode ← normalizeTurnPolicy P.unicode turnPolicy
  match defaults.get? (policyKey scopeType scopeUuid workspaceUuid) with
  | none =>
      pure (defaults.insert ⟨freshUuid, scopeType, scopeUuid, workspaceUuid, mode,
        attachmentReview, now, now⟩)
  | some existing =>
      pure (defaults.updateWhere
        (fun row => row.policyDefaultUuid = existing.policyDefaultUuid)
        (PolicyDefault.withPolicy now mode attachmentReview)
        (PolicyDefault.key_withPolicy now mode attachmentReview))

/-- Set a user's default for a chat. -/
def setActorChatDefault (P : Platform) (now freshUuid : String) (defaults : PolicyDefaults)
    (userUuid chatUuid : String) (workspaceUuid : Option String) (turnPolicy : String)
    (attachmentReview : Bool) : Except String PolicyDefaults :=
  setDefault P now freshUuid defaults .chat (actorChatScopeUuid P userUuid chatUuid) workspaceUuid
    turnPolicy attachmentReview

/-! ### The policy of a turn -/

section

variable {P : Platform} {defaults defaults' : PolicyDefaults} {systemDefault : TurnPolicyMode}
variable {workspaceUuid userUuid chatUuid turnOverride : Option String} {review : Option Bool}

/-- The policy of a default. -/
def PolicyDefaults.policy (defaults : PolicyDefaults) (key : PolicyKey) : Option TurnPolicyMode :=
  (defaults.get? key).map PolicyDefault.turnPolicy

/-- The policy of the most specific default. -/
def PolicyKeys.mostSpecific (keys : PolicyKeys) (policy : PolicyKey → Option TurnPolicyMode)
    (systemDefault : TurnPolicyMode) : TurnPolicyMode :=
  ((keys.actorChat.bind policy).or ((keys.chat.bind policy).or
    ((keys.user.bind policy).or (policy keys.system)))).getD systemDefault

/-- A turn is private by its user's default for the chat, by its own choice, or, if it makes none,
by the most specific default. -/
def PolicyKeys.IsPrivate (keys : PolicyKeys) (U : UnicodeData)
    (policy : PolicyKey → Option TurnPolicyMode) (systemDefault : TurnPolicyMode)
    (turnOverride : Option String) : Prop :=
  keys.actorChat.bind policy = some .privateMode ∨
    (∃ value, turnOverride = some value ∧ normalizeTurnPolicy U value = .ok .privateMode) ∨
    turnOverride = none ∧ keys.mostSpecific policy systemDefault = .privateMode

lemma policy_orDefault {selected : ResolvedTurnPolicy} {source : String}
    {row : Option PolicyDefault} :
    (selected.orDefault source row).policy =
      (row.map PolicyDefault.turnPolicy).getD selected.policy := by
  cases row <;> rfl

lemma bind_policy (key : Option PolicyKey) :
    key.bind defaults.policy = (key.bind defaults.get?).map PolicyDefault.turnPolicy := by
  cases key <;> rfl

/-- When the policy of a turn is private. -/
theorem resolvePolicy_private_iff :
    (∃ resolved, resolvePolicy P defaults systemDefault workspaceUuid userUuid chatUuid
        turnOverride review = .ok resolved ∧ resolved.policy = .privateMode) ↔
      (policyKeys P workspaceUuid userUuid chatUuid).IsPrivate P.unicode defaults.policy
        systemDefault turnOverride := by
  generalize hkeys : policyKeys P workspaceUuid userUuid chatUuid = keys
  -- the default that is selected is the most specific one
  have hselected : ∀ system user chat actorChat : Option PolicyDefault,
      ((((ResolvedTurnPolicy.orDefault ⟨systemDefault, "system", false⟩ "system"
        system).orDefault "user" user).orDefault "chat" chat).orDefault "chat" actorChat).policy =
      ((actorChat.map PolicyDefault.turnPolicy).or ((chat.map PolicyDefault.turnPolicy).or
        ((user.map PolicyDefault.turnPolicy).or
          (system.map PolicyDefault.turnPolicy)))).getD systemDefault := by
    intro system user chat actorChat
    simp only [policy_orDefault]
    cases actorChat <;> cases chat <;> cases user <;> rfl
  unfold resolvePolicy PolicyKeys.IsPrivate PolicyKeys.mostSpecific
  simp only [hkeys, bind_policy, PolicyDefaults.policy, ← hselected]
  rcases keys.actorChat.bind defaults.get? with _ | row
  · rcases turnOverride with _ | value
    · simp [pure, bind, Except.pure, Except.bind]
    · rcases hmode : normalizeTurnPolicy P.unicode value with error | mode
      · simp [bind, Except.bind, hmode]
      · simp [pure, bind, Except.pure, Except.bind, hmode]
  · rcases turnOverride with _ | value
    · simp [pure, bind, Except.pure, Except.bind, ResolvedTurnPolicy.orDefault]
    · by_cases hprivate : row.turnPolicy = .privateMode
      · simp [pure, bind, Except.pure, Except.bind, ResolvedTurnPolicy.orDefault, hprivate]
      · rcases hmode : normalizeTurnPolicy P.unicode value with error | mode
        · simp [bind, Except.bind, hmode, hprivate]
        · simp [pure, bind, Except.pure, Except.bind, hmode, hprivate]

/-! ### The defaults after one is set -/

/-- No two defaults have one id. -/
def PolicyDefaults.UuidsDistinct (defaults : PolicyDefaults) : Prop :=
  (defaults.rows.map PolicyDefault.policyDefaultUuid).Nodup

/-- A default is refused only for its policy. -/
lemma error_of_setDefault {now freshUuid scopeUuid turnPolicy error : String}
    {scopeType : PolicyScope} {attachmentReview : Bool}
    (hset : setDefault P now freshUuid defaults scopeType scopeUuid workspaceUuid turnPolicy
      attachmentReview = .error error) :
    normalizeTurnPolicy P.unicode turnPolicy = .error error := by
  unfold setDefault at hset
  rcases hmode : normalizeTurnPolicy P.unicode turnPolicy with error' | mode
  · simpa [hmode, bind, Except.bind] using hset
  · rw [hmode] at hset
    simp only [bind, Except.bind] at hset
    split at hset <;> cases hset

/-- A default that is set is that of its scope; the others stay. -/
theorem policy_setDefault {now freshUuid scopeUuid turnPolicy : String} {scopeType : PolicyScope}
    {attachmentReview : Bool} (hdistinct : defaults.UuidsDistinct)
    (hfresh : freshUuid ∉ defaults.rows.map PolicyDefault.policyDefaultUuid)
    (hset : setDefault P now freshUuid defaults scopeType scopeUuid workspaceUuid turnPolicy
      attachmentReview = .ok defaults') :
    ∃ mode, normalizeTurnPolicy P.unicode turnPolicy = .ok mode ∧ defaults'.UuidsDistinct ∧
      ∀ key, defaults'.policy key = if policyKey scopeType scopeUuid workspaceUuid = key
        then some mode else defaults.policy key := by
  unfold setDefault at hset
  rcases hmode : normalizeTurnPolicy P.unicode turnPolicy with error | mode
  · rw [hmode] at hset
    exact absurd hset nofun
  refine ⟨mode, rfl, ?_⟩
  rw [hmode] at hset
  rcases hexisting : defaults.get? (policyKey scopeType scopeUuid workspaceUuid) with _ | existing
  · -- the default is new
    simp only [bind, Except.bind, pure, Except.pure, hexisting, Except.ok.injEq] at hset
    subst hset
    set row : PolicyDefault := ⟨freshUuid, scopeType, scopeUuid, workspaceUuid, mode,
      attachmentReview, now, now⟩ with hrow
    have hkey : row.key = policyKey scopeType scopeUuid workspaceUuid := rfl
    have hnone : defaults.get? row.key = none := hkey ▸ hexisting
    constructor
    · unfold PolicyDefaults.UuidsDistinct
      rw [Table.rows_insert hnone, List.map_append, List.nodup_append]
      refine ⟨hdistinct, List.nodup_singleton _, ?_⟩
      rintro uuid huuid uuid' huuid' rfl
      exact hfresh ((List.mem_singleton.mp huuid' : uuid = freshUuid) ▸ huuid)
    · intro key
      unfold PolicyDefaults.policy
      split_ifs with h
      · rw [← h, ← hkey, Table.get?_insert_self hnone]
        rfl
      · rcases Table.get?_insert (t := defaults) row key with hsame | ⟨-, heq, -⟩
        · rw [hsame]
        · exact absurd heq h
  · -- the default was there
    simp only [bind, Except.bind, pure, Except.pure, hexisting, Except.ok.injEq] at hset
    subst hset
    obtain ⟨hmem, hkey⟩ := Table.get?_eq_some.mp hexisting
    constructor
    · unfold PolicyDefaults.UuidsDistinct
      have hsame : (defaults.rows.map fun row =>
          if row.policyDefaultUuid = existing.policyDefaultUuid then
            row.withPolicy now mode attachmentReview else row).map PolicyDefault.policyDefaultUuid =
          defaults.rows.map PolicyDefault.policyDefaultUuid := by
        rw [List.map_map]
        refine List.map_congr_left fun row _ => ?_
        rw [Function.comp_apply]
        split_ifs <;> rfl
      rw [Table.rows_updateWhere]
      simp only [decide_eq_true_eq]
      rw [hsame]
      exact hdistinct
    · intro key
      unfold PolicyDefaults.policy
      rw [Table.get?_updateWhere, Option.map_map]
      split_ifs with h
      · rw [← h, hexisting]
        simp [PolicyDefault.withPolicy]
      · rcases hrow : defaults.get? key with _ | row
        · rfl
        · obtain ⟨hrowMem, hrowKey⟩ := Table.get?_eq_some.mp hrow
          -- another row has another id
          have hne : row.policyDefaultUuid ≠ existing.policyDefaultUuid := by
            intro heq
            have hsame := List.inj_on_of_nodup_map hdistinct hrowMem hmem heq
            exact h (hkey.symm.trans (hsame ▸ hrowKey))
          simp [hne]

end

end Memorist
