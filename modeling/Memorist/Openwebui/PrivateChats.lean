import Memorist.MemoryControl.TurnPolicy
import Memorist.Openwebui.Capture
import Memorist.Openwebui.SessionSafety

/-!
Chats that their users made private (`api/routes_openwebui.py`).

* `ChatState`: the sessions of chats, whose they are, and the defaults of policies;
* `captureMessage`, `resolveSessionRequest`: requests from Open WebUI;
* `ChatCall`, `ChatStep`: a history of requests and of defaults that are set;
* `latestDefault`: the default of a scope that a history leaves;
* `private_chat_iff`: when a request on a chat that its user made private is skipped.
-/

namespace Memorist

/-! ### State -/

/-- The sessions of chats, whose they are, and the defaults of policies. -/
structure ChatState where
  sessions : SessionStore
  actors : Table SessionActorRow String SessionActorRow.sessionUuid
  defaults : PolicyDefaults

/-- A state without rows. -/
def noChats : ChatState := ⟨noSessions, .empty, .empty⟩

/-- The settings of the server. -/
structure ChatSettings where
  defaultTurnPolicy : TurnPolicyMode := .full
  allowLegacyActorHeaders : Bool := false

/-- A user whose identity is trusted. -/
structure MemoristActor where
  userUuid : String
  workspaceUuid : String
  deriving DecidableEq, Repr

/-- The time of a call, the ids of what it may create, and the workspace and project that it finds
or creates if it names none. -/
structure CallIds where
  now : String
  sessionUuid : String
  policyDefaultUuid : String
  workspaceUuid : String
  projectUuid : String
  deriving DecidableEq, Repr

/-! ### Requests -/

/-- A request for the session of a chat. -/
structure SessionResolveRequest where
  openwebuiConversationId : Option String := none
  temporaryChatId : Option String := none
  clientSessionNonce : Option String := none
  firstMessageHash : Option String := none
  title : Option String := none
  userId : Option String := none
  workspaceUuid : Option String := none
  sourceApp : String := "open_webui"
  createdAt : Option String := none
  turnPolicy : Option String := none
  attachmentReview : Option Bool := none

/-- A request to capture a message. -/
structure MessageCaptureRequest where
  sessionUuid : Option String := none
  openwebuiConversationId : Option String := none
  temporaryChatId : Option String := none
  clientSessionNonce : Option String := none
  firstMessageHash : Option String := none
  openwebuiMessageId : Option String := none
  sourceMessageId : Option String := none
  turnIndex : Option ℤ := none
  timestamp : Option String := none
  userId : Option String := none
  sourceApp : String := "open_webui"
  role : String
  content : Text
  idempotencyKey : Option String := none
  rawPayload : Option IJson := none
  turnPolicy : Option String := none
  attachmentReview : Option Bool := none
  workspaceUuid : Option String := none

/-- The answer to a request. -/
inductive ChatAnswer where
  | refused (status : ℕ) (detail : String)
  | identityUnavailable
  | skippedPrivate
  | resolved (sessionUuid : String)
  | submitted (command : CaptureCommand) (policy : ResolvedTurnPolicy)

/-- The user and the workspace of a request, which are those of a trusted user. -/
def scopeToActor (settings : ChatSettings) (actor : Option MemoristActor)
    (userId workspaceUuid : Option String) :
    Except ChatAnswer (Option String × Option String) :=
  match actor with
  | some actor =>
      if userId ≠ none ∧ userId ≠ some actor.userUuid then
        .error (.refused 403 "user scope mismatch")
      else if workspaceUuid ≠ none ∧ workspaceUuid ≠ some actor.workspaceUuid then
        .error (.refused 403 "workspace scope mismatch")
      else if (actor.userUuid = "" ∨ actor.workspaceUuid = "") ∧
          ¬ settings.allowLegacyActorHeaders then .error .identityUnavailable
      else .ok (some actor.userUuid, some actor.workspaceUuid)
  | none =>
      if (nonempty userId = none ∨ nonempty workspaceUuid = none) ∧
          ¬ settings.allowLegacyActorHeaders then .error .identityUnavailable
      else .ok (userId, workspaceUuid)

/-- The id of a chat that a request names: the stable one, or else the temporary one. -/
def chatUuidOf (openwebuiConversationId temporaryChatId : Option String) : Option String :=
  (nonempty openwebuiConversationId).or temporaryChatId

section

variable (P : Platform)

/-- Bind a session to its user. -/
def bindSessionActor (sessionUuid userUuid workspaceUuid : String) (s : ChatState) :
    Except ChatAnswer String × ChatState :=
  match s.actors.get? sessionUuid with
  | none => (.ok sessionUuid,
      { s with actors := s.actors.insert ⟨sessionUuid, userUuid, workspaceUuid⟩ })
  | some existing =>
      if existing.userUuid ≠ userUuid ∨ existing.workspaceUuid ≠ workspaceUuid then
        (.error (.refused 404 "session not found"), s)
      else (.ok sessionUuid, s)

/-- The session of a chat, created if there is none, and bound to its user. -/
def resolveSessionPayload (ids : CallIds) (s : ChatState) (request : SessionResolveRequest) :
    Except ChatAnswer String × ChatState :=
  let workspaceUuid := (nonempty request.workspaceUuid).getD ids.workspaceUuid
  match resolveSession P ids.now ids.sessionUuid s.sessions
      { workspaceUuid := some workspaceUuid
        projectUuid := some ids.projectUuid
        openwebuiConversationId := request.openwebuiConversationId
        temporaryChatId := request.temporaryChatId
        clientSessionNonce := request.clientSessionNonce
        firstMessageHash := request.firstMessageHash
        userId := request.userId
        title := request.title
        sourceApp := request.sourceApp
        createdAt := request.createdAt } with
  | .error error => (.error (.refused 500 error), s)
  | .ok (result, sessions) =>
      match nonempty request.userId with
      | none => (.ok result.session.sessionUuid, { s with sessions := sessions })
      | some user => bindSessionActor result.session.sessionUuid user workspaceUuid
          { s with sessions := sessions }

/-- The policy of a request. -/
def resolveTurnPolicy (settings : ChatSettings) (s : ChatState)
    (userUuid chatUuid workspaceUuid turnOverride : Option String)
    (attachmentReviewOverride : Option Bool) : Except String ResolvedTurnPolicy :=
  resolvePolicy P s.defaults settings.defaultTurnPolicy workspaceUuid userUuid chatUuid
    turnOverride attachmentReviewOverride

/-- A request for the session of a chat. -/
def resolveSessionRequest (settings : ChatSettings) (ids : CallIds) (s : ChatState)
    (actor : Option MemoristActor) (request : SessionResolveRequest) : ChatAnswer × ChatState :=
  match scopeToActor settings actor request.userId request.workspaceUuid with
  | .error answer => (answer, s)
  | .ok (userId, workspaceUuid) =>
      let request := { request with userId := userId, workspaceUuid := workspaceUuid }
      match resolveTurnPolicy P settings s request.userId
          (chatUuidOf request.openwebuiConversationId request.temporaryChatId)
          request.workspaceUuid request.turnPolicy request.attachmentReview with
      | .error error => (.refused 500 error, s)
      | .ok resolved =>
          if resolved.policy = .privateMode then (.skippedPrivate, s)
          else
            match resolveSessionPayload P ids s request with
            | (.error answer, s) => (answer, s)
            | (.ok sessionUuid, s) => (.resolved sessionUuid, s)

/-- The minute of a time. -/
def timestampBucket (value : Option String) : String :=
  (value.map fun text => String.ofList (text.toList.take 16)).getD ""

/-- The key of a capture that brings none. -/
def captureKey (request : MessageCaptureRequest) (sessionUuid : String) : String :=
  P.sha256 ("|".intercalate [request.sourceApp, sessionUuid, request.role,
    ((nonempty request.sourceMessageId).or (nonempty request.openwebuiMessageId)).getD "",
    (request.turnIndex.map toString).getD "", P.sha256 request.content,
    timestampBucket request.timestamp]).toList

/-- The capture of a message into a session. -/
def captureCommandOf (request : MessageCaptureRequest) (sessionUuid : String) :
    CaptureCommand where
  sessionUuid := sessionUuid
  role := request.role
  content := request.content
  idempotencyKey := (nonempty request.idempotencyKey).getD (captureKey P request sessionUuid)
  openwebuiConversationId := request.openwebuiConversationId
  openwebuiMessageId := request.openwebuiMessageId
  rawPayload := request.rawPayload
  turnIndex := request.turnIndex

/-- The request as that of its user, unless it is refused. -/
def admitCapture (settings : ChatSettings) (actor : Option MemoristActor)
    (request : MessageCaptureRequest) : Except ChatAnswer MessageCaptureRequest :=
  if request.role ≠ "user" ∧ request.role ≠ "assistant" then
    .error (.refused 400 "role must be user or assistant")
  else
    match scopeToActor settings actor request.userId request.workspaceUuid with
    | .error answer => .error answer
    | .ok (userId, workspaceUuid) =>
        .ok { request with userId := userId, workspaceUuid := workspaceUuid }

/-- The session that a message goes to: the one it names, or else that of its chat. -/
def captureSession (ids : CallIds) (s : ChatState) (actor : Option MemoristActor)
    (request : MessageCaptureRequest) : Except ChatAnswer String × ChatState :=
  match request.sessionUuid with
  | none => resolveSessionPayload P ids s
      { openwebuiConversationId := request.openwebuiConversationId
        temporaryChatId := request.temporaryChatId
        clientSessionNonce := request.clientSessionNonce
        firstMessageHash := request.firstMessageHash
        userId := request.userId
        workspaceUuid := request.workspaceUuid
        sourceApp := request.sourceApp
        createdAt := request.timestamp }
  | some sessionUuid =>
      match s.sessions.sessions.get? sessionUuid with
      | none => (.error (.refused 404 "session not found"), s)
      | some session =>
          if nonempty request.workspaceUuid ≠ none ∧
              session.workspaceUuid ≠ request.workspaceUuid then
            (.error (.refused 403 "session workspace mismatch"), s)
          else if actor ≠ none ∧ nonempty request.userId ≠ none ∧
              nonempty request.workspaceUuid ≠ none ∧
              (s.actors.get? sessionUuid).map (fun row =>
                (some row.userUuid, some row.workspaceUuid)) ≠
                some (request.userId, request.workspaceUuid) then
            (.error (.refused 404 "session not found"), s)
          else (.ok sessionUuid, s)

/-- Capture a message, unless its turn is private. -/
def captureMessage (settings : ChatSettings) (ids : CallIds) (s : ChatState)
    (actor : Option MemoristActor) (request : MessageCaptureRequest) : ChatAnswer × ChatState :=
  match admitCapture settings actor request with
  | .error answer => (answer, s)
  | .ok request =>
      match resolveTurnPolicy P settings s request.userId
          (chatUuidOf request.openwebuiConversationId request.temporaryChatId)
          request.workspaceUuid request.turnPolicy request.attachmentReview with
      | .error error => (.refused 500 error, s)
      | .ok resolved =>
          if resolved.policy = .privateMode then (.skippedPrivate, s)
          else
            match captureSession P ids s actor request with
            | (.error answer, s) => (answer, s)
            | (.ok sessionUuid, s) => (.submitted (captureCommandOf P request sessionUuid) resolved, s)

/-! ### Histories -/

/-- A call of a history. -/
inductive ChatCall where
  | setDefault (ids : CallIds) (scopeType : PolicyScope) (scopeUuid : String)
      (workspaceUuid : Option String) (turnPolicy : String) (attachmentReview : Bool)
  | resolveSession (ids : CallIds) (actor : Option MemoristActor) (request : SessionResolveRequest)
  | captureMessage (ids : CallIds) (actor : Option MemoristActor) (request : MessageCaptureRequest)

/-- A user sets the default of a chat. -/
def ChatCall.setActorChatDefault (ids : CallIds) (userUuid chatUuid : String)
    (workspaceUuid : Option String) (turnPolicy : String) (attachmentReview : Bool) : ChatCall :=
  .setDefault ids .chat (actorChatScopeUuid P userUuid chatUuid) workspaceUuid turnPolicy
    attachmentReview

/-- The state after a call. A default that is refused is not set. -/
def ChatState.after (settings : ChatSettings) (s : ChatState) : ChatCall → ChatState
  | .setDefault ids scopeType scopeUuid workspaceUuid turnPolicy attachmentReview =>
      match Memorist.setDefault P ids.now ids.policyDefaultUuid s.defaults scopeType scopeUuid
          workspaceUuid turnPolicy attachmentReview with
      | .error _ => s
      | .ok defaults => { s with defaults := defaults }
  | .resolveSession ids actor request => (resolveSessionRequest P settings ids s actor request).2
  | .captureMessage ids actor request => (Memorist.captureMessage P settings ids s actor request).2

/-- The ids of what a call may create. -/
def ChatCall.ids : ChatCall → CallIds
  | .setDefault ids .. | .resolveSession ids .. | .captureMessage ids .. => ids

/-- A call, whose new ids are new. -/
def ChatStep (settings : ChatSettings) (s : ChatState) (call : ChatCall) (s' : ChatState) : Prop :=
  s.sessions.sessions.get? call.ids.sessionUuid = none ∧
    call.ids.policyDefaultUuid ∉ s.defaults.rows.map PolicyDefault.policyDefaultUuid ∧
    s' = s.after P settings call

/-- The default that a call sets. -/
def ChatCall.sets : ChatCall → Option (PolicyKey × TurnPolicyMode)
  | .setDefault _ scopeType scopeUuid workspaceUuid turnPolicy _ =>
      ((normalizeTurnPolicy P.unicode turnPolicy).toOption).map fun mode =>
        (policyKey scopeType scopeUuid workspaceUuid, mode)
  | _ => none

/-- The default of a scope that a history leaves: the one set last. -/
def latestDefault (calls : List ChatCall) (key : PolicyKey) : Option TurnPolicyMode :=
  calls.foldl (fun latest call =>
    match call.sets P with
    | some (key', mode) => if key' = key then some mode else latest
    | none => latest) none

/-! ### Private chats -/

/-- A session is that of a user's chat: the chat's id leads to it, as a stable or a temporary one,
or it is the id of the chat it belongs to. -/
def ChatState.OfChat (s : ChatState) (userUuid chatUuid sessionUuid : String) : Prop :=
  ∃ chat, normalize P (some chatUuid) = some chat ∧
    ((∃ status, s.sessions.holder (aliasKey P (some userUuid) (.openwebuiChatId, chat)) =
        some (sessionUuid, status)) ∨
      (∃ status, s.sessions.holder (aliasKey P (some userUuid) (.openwebuiTempChatId, chat)) =
        some (sessionUuid, status)) ∨
      (s.sessions.sessions.get? sessionUuid).bind ChatSessionRow.openwebuiConversationId =
        some chat)

/-- The defaults that apply to a request. -/
def MessageCaptureRequest.policyKeys (request : MessageCaptureRequest) : PolicyKeys :=
  Memorist.policyKeys P request.workspaceUuid request.userId
    (chatUuidOf request.openwebuiConversationId request.temporaryChatId)

/-- A request, as that of its user, goes to the session of a chat. -/
def GoesToChat (settings : ChatSettings) (ids : CallIds) (s : ChatState)
    (actor : Option MemoristActor) (request admitted : MessageCaptureRequest)
    (userUuid chatUuid : String) : Prop :=
  admitCapture settings actor request = .ok admitted ∧ admitted.userId = some userUuid ∧
    ∃ sessionUuid, (captureSession P ids s actor admitted).1 = .ok sessionUuid ∧
      (captureSession P ids s actor admitted).2.OfChat P userUuid chatUuid sessionUuid

/-- A request of a user that goes to the session of his chat is skipped. -/
def SkippedInChat (settings : ChatSettings) (ids : CallIds) (s : ChatState)
    (actor : Option MemoristActor) (request : MessageCaptureRequest)
    (userUuid chatUuid : String) : Prop :=
  ∀ admitted, GoesToChat P settings ids s actor request admitted userUuid chatUuid →
    (captureMessage P settings ids s actor request).1 = .skippedPrivate

end

section

variable {P : Platform} {settings : ChatSettings} {s s' : ChatState} {call : ChatCall}
variable {calls before after : List ChatCall} {key : PolicyKey}

/-! ### The defaults of a history -/

/-- A session that is bound leaves the defaults. -/
lemma defaults_bindSessionActor (sessionUuid userUuid workspaceUuid : String) :
    (bindSessionActor sessionUuid userUuid workspaceUuid s).2.defaults = s.defaults := by
  unfold bindSessionActor
  split
  · rfl
  · split_ifs <;> rfl

/-- The session of a chat leaves the defaults. -/
lemma defaults_resolveSessionPayload (ids : CallIds) (request : SessionResolveRequest) :
    (resolveSessionPayload P ids s request).2.defaults = s.defaults := by
  unfold resolveSessionPayload
  dsimp only
  split
  · rfl
  · split
    · rfl
    · exact defaults_bindSessionActor _ _ _

/-- The session of a message leaves the defaults. -/
lemma defaults_captureSession (ids : CallIds) (actor : Option MemoristActor)
    (request : MessageCaptureRequest) :
    (captureSession P ids s actor request).2.defaults = s.defaults := by
  unfold captureSession
  split
  · exact defaults_resolveSessionPayload ids _
  · split
    · rfl
    · split_ifs <;> rfl

/-- A request for a session leaves the defaults. -/
lemma defaults_resolveSessionRequest (ids : CallIds) (actor : Option MemoristActor)
    (request : SessionResolveRequest) :
    (resolveSessionRequest P settings ids s actor request).2.defaults = s.defaults := by
  unfold resolveSessionRequest
  split
  · rfl
  · dsimp only
    split
    · rfl
    · split_ifs
      · rfl
      · split
        · rename_i hresolve
          exact (congrArg (fun answer => answer.2.defaults) hresolve).symm.trans
            (defaults_resolveSessionPayload ids _)
        · rename_i hresolve
          exact (congrArg (fun answer => answer.2.defaults) hresolve).symm.trans
            (defaults_resolveSessionPayload ids _)

/-- A capture leaves the defaults. -/
lemma defaults_captureMessage (ids : CallIds) (actor : Option MemoristActor)
    (request : MessageCaptureRequest) :
    (captureMessage P settings ids s actor request).2.defaults = s.defaults := by
  unfold captureMessage
  split
  · rfl
  · split
    · rfl
    · split_ifs
      · rfl
      · split
        · rename_i hsession
          exact (congrArg (fun answer => answer.2.defaults) hsession).symm.trans
            (defaults_captureSession ids actor _)
        · rename_i hsession
          exact (congrArg (fun answer => answer.2.defaults) hsession).symm.trans
            (defaults_captureSession ids actor _)

/-- What a call makes of the defaults. -/
lemma ChatStep.policy_eq (hstep : ChatStep P settings s call s')
    (hdistinct : s.defaults.UuidsDistinct) :
    s'.defaults.UuidsDistinct ∧ ∀ key, s'.defaults.policy key =
      match call.sets P with
      | some (key', mode) => if key' = key then some mode else s.defaults.policy key
      | none => s.defaults.policy key := by
  obtain ⟨-, hfresh, rfl⟩ := hstep
  cases call with
  | setDefault ids scopeType scopeUuid workspaceUuid turnPolicy attachmentReview =>
      rcases hset : Memorist.setDefault P ids.now ids.policyDefaultUuid s.defaults scopeType
        scopeUuid workspaceUuid turnPolicy attachmentReview with error | defaults
      · have hafter : s.after P settings (.setDefault ids scopeType scopeUuid workspaceUuid
            turnPolicy attachmentReview) = s := by
          simp only [ChatState.after, hset]
        have hsets : (ChatCall.setDefault ids scopeType scopeUuid workspaceUuid turnPolicy
            attachmentReview).sets P = none := by
          simp [ChatCall.sets, error_of_setDefault hset, Except.toOption]
        rw [hafter, hsets]
        exact ⟨hdistinct, fun _ => rfl⟩
      · obtain ⟨mode, hmode, hdistinct', hpolicy⟩ := policy_setDefault hdistinct hfresh hset
        have hafter : s.after P settings (.setDefault ids scopeType scopeUuid workspaceUuid
            turnPolicy attachmentReview) = { s with defaults := defaults } := by
          simp only [ChatState.after, hset]
        have hsets : (ChatCall.setDefault ids scopeType scopeUuid workspaceUuid turnPolicy
            attachmentReview).sets P = some (policyKey scopeType scopeUuid workspaceUuid, mode) := by
          simp [ChatCall.sets, hmode, Except.toOption]
        rw [hafter, hsets]
        exact ⟨hdistinct', hpolicy⟩
  | resolveSession ids actor request =>
      have hsame := @defaults_resolveSessionRequest P settings s ids actor request
      simp only [ChatState.after, ChatCall.sets]
      rw [hsame]
      exact ⟨hdistinct, fun _ => rfl⟩
  | captureMessage ids actor request =>
      have hsame := @defaults_captureMessage P settings s ids actor request
      simp only [ChatState.after, ChatCall.sets]
      rw [hsame]
      exact ⟨hdistinct, fun _ => rfl⟩

/-- A call more. -/
lemma latestDefault_concat : latestDefault P (calls ++ [call]) key =
    match call.sets P with
    | some (key', mode) => if key' = key then some mode else latestDefault P calls key
    | none => latestDefault P calls key := by
  rw [latestDefault, List.foldl_append]
  rfl

/-- The defaults are those that the history set last. -/
theorem policy_of_runs (hruns : Runs (ChatStep P settings) noChats calls s) :
    s.defaults.UuidsDistinct ∧ ∀ key, s.defaults.policy key = latestDefault P calls key := by
  induction hruns with
  | refl => exact ⟨List.nodup_nil, fun _ => rfl⟩
  | tail _ hstep ih =>
      obtain ⟨hdistinct, hpolicy⟩ := hstep.policy_eq ih.1
      refine ⟨hdistinct, fun key => ?_⟩
      rw [hpolicy key, ih.2 key, latestDefault_concat]

/-- A default that is only set to one policy stays at it. -/
lemma latestDefault_kept {mode : TurnPolicyMode} (hset : call.sets P = some (key, mode))
    (hkept : ∀ later ∈ after, ∀ mode', later.sets P = some (key, mode') → mode' = mode) :
    latestDefault P (before ++ call :: after) key = some mode := by
  induction after using List.reverseRecOn with
  | nil =>
      rw [latestDefault_concat, hset]
      exact if_pos rfl
  | append_singleton after later ih =>
      have hbefore := ih fun call hcall => hkept call (List.mem_append_left _ hcall)
      have hlater := hkept later (List.mem_append_right _ (List.mem_singleton_self _))
      rw [← List.cons_append, ← List.append_assoc, latestDefault_concat, hbefore]
      rcases hsets : later.sets P with _ | ⟨key', mode'⟩
      · rfl
      · dsimp only
        split_ifs with h
        · rw [hlater mode' (h ▸ hsets)]
        · rfl

/-! ### Captures -/

/-- A session that is bound to another user is refused. -/
lemma bindSessionActor_ne_skipped (sessionUuid userUuid workspaceUuid : String) :
    (bindSessionActor sessionUuid userUuid workspaceUuid s).1 ≠ .error .skippedPrivate := by
  unfold bindSessionActor
  split
  · nofun
  · split_ifs <;> nofun

/-- A chat whose session cannot be told is refused. -/
lemma resolveSessionPayload_ne_skipped (ids : CallIds) (request : SessionResolveRequest) :
    (resolveSessionPayload P ids s request).1 ≠ .error .skippedPrivate := by
  unfold resolveSessionPayload
  dsimp only
  split
  · nofun
  · split
    · nofun
    · exact bindSessionActor_ne_skipped _ _ _

/-- A message without a session is refused. -/
lemma captureSession_ne_skipped (ids : CallIds) (actor : Option MemoristActor)
    (request : MessageCaptureRequest) :
    (captureSession P ids s actor request).1 ≠ .error .skippedPrivate := by
  unfold captureSession
  split
  · exact resolveSessionPayload_ne_skipped ids _
  · split
    · simp
    · split_ifs <;> simp

variable {ids : CallIds} {actor : Option MemoristActor}
variable {request admitted : MessageCaptureRequest}

/-- A message is skipped when the defaults make its turn private. -/
lemma captureMessage_skipped_iff (hadmitted : admitCapture settings actor request = .ok admitted) :
    (captureMessage P settings ids s actor request).1 = .skippedPrivate ↔
      (admitted.policyKeys P).IsPrivate P.unicode s.defaults.policy settings.defaultTurnPolicy
        admitted.turnPolicy := by
  have hprivate := @resolvePolicy_private_iff P s.defaults settings.defaultTurnPolicy
    admitted.workspaceUuid admitted.userId
    (chatUuidOf admitted.openwebuiConversationId admitted.temporaryChatId) admitted.turnPolicy
    admitted.attachmentReview
  refine Iff.trans ?_ hprivate
  unfold captureMessage
  rw [hadmitted]
  dsimp only
  unfold resolveTurnPolicy
  rcases resolvePolicy P s.defaults settings.defaultTurnPolicy admitted.workspaceUuid
    admitted.userId (chatUuidOf admitted.openwebuiConversationId admitted.temporaryChatId)
    admitted.turnPolicy admitted.attachmentReview with error | resolved
  · exact ⟨nofun, nofun⟩
  · dsimp only
    split_ifs with hpolicy
    · exact ⟨fun _ => ⟨resolved, rfl, hpolicy⟩, fun _ => rfl⟩
    · have hne := @captureSession_ne_skipped P s ids actor admitted
      refine ⟨fun hskipped => ?_, ?_⟩
      · -- the message was refused, or it was submitted
        rcases hsession : captureSession P ids s actor admitted with ⟨answer | sessionUuid, s'⟩
        · rw [hsession] at hskipped hne
          exact absurd (congrArg Except.error hskipped) hne
        · rw [hsession] at hskipped
          exact absurd hskipped nofun
      · rintro ⟨_, hresolved, hpolicy'⟩
        obtain rfl := Except.ok.inj hresolved
        exact absurd hpolicy' hpolicy

/-- After a user made a chat private and left it so, a message of his that goes to the session of
the chat is skipped when it names the chat by an id that he made private, when its own policy is
private, or when it has none and the most specific default is private; and the id under which he
made the chat private is such an id. -/
theorem private_chat_iff {settingIds : CallIds} {userUuid chatUuid turnPolicy : String}
    {workspaceUuid : Option String} {attachmentReview : Bool}
    (hruns : Runs (ChatStep P settings) noChats (before ++ ChatCall.setActorChatDefault P settingIds
      userUuid chatUuid workspaceUuid turnPolicy attachmentReview :: after) s)
    (hprivate : normalizeTurnPolicy P.unicode turnPolicy = .ok .privateMode)
    (hkept : ∀ later ∈ after, ∀ mode,
      later.sets P = some (actorChatKey P userUuid chatUuid workspaceUuid, mode) →
        mode = .privateMode) :
    (SkippedInChat P settings ids s actor request userUuid chatUuid ↔
      ∀ admitted, GoesToChat P settings ids s actor request admitted userUuid chatUuid →
        (admitted.policyKeys P).IsPrivate P.unicode
          (latestDefault P (before ++ ChatCall.setActorChatDefault P settingIds userUuid chatUuid
            workspaceUuid turnPolicy attachmentReview :: after))
          settings.defaultTurnPolicy admitted.turnPolicy) ∧
    ((∀ admitted, GoesToChat P settings ids s actor request admitted userUuid chatUuid →
        (admitted.policyKeys P).actorChat = some (actorChatKey P userUuid chatUuid workspaceUuid)) →
      SkippedInChat P settings ids s actor request userUuid chatUuid) := by
  have hpolicy : s.defaults.policy = latestDefault P (before ++ ChatCall.setActorChatDefault P
      settingIds userUuid chatUuid workspaceUuid turnPolicy attachmentReview :: after) :=
    funext (policy_of_runs hruns).2
  have hset : (ChatCall.setActorChatDefault P settingIds userUuid chatUuid workspaceUuid turnPolicy
      attachmentReview).sets P =
        some (actorChatKey P userUuid chatUuid workspaceUuid, .privateMode) := by
    simp [ChatCall.setActorChatDefault, ChatCall.sets, hprivate, Except.toOption, actorChatKey]
  have hiff : SkippedInChat P settings ids s actor request userUuid chatUuid ↔
      ∀ admitted, GoesToChat P settings ids s actor request admitted userUuid chatUuid →
        (admitted.policyKeys P).IsPrivate P.unicode s.defaults.policy settings.defaultTurnPolicy
          admitted.turnPolicy :=
    forall_congr' fun admitted => imp_congr_right fun hgoes => captureMessage_skipped_iff hgoes.1
  refine ⟨hpolicy ▸ hiff, fun hcarries => hiff.mpr fun admitted hgoes => .inl ?_⟩
  rw [hcarries admitted hgoes, Option.bind_some, hpolicy]
  exact latestDefault_kept hset hkept

end

/-! ### A chat that gets its id -/

/-- The user `u` in the workspace `w`. -/
def teaDrinker : MemoristActor := ⟨"u", "w"⟩

/-- The ids of a call, by its number. -/
def teaIds (n : String) : CallIds := ⟨"2026-06-26T10:0" ++ n, "s" ++ n, "p" ++ n, "w", "j"⟩

/-- A message of a chat that has a stable id, or none yet. -/
def teaMessage (openwebuiConversationId temporaryChatId : Option String) (text : String) :
    MessageCaptureRequest :=
  { openwebuiConversationId := openwebuiConversationId, temporaryChatId := temporaryChatId,
    role := "user", content := text.toList }

/-- The first message of the temporary chat `T`. -/
def firstTea : ChatCall := .captureMessage (teaIds "1") (some teaDrinker)
  (teaMessage none (some "T") "I drink tea")

/-- The user makes the chat `T` private. -/
def privateTea : ChatCall := .setActorChatDefault textPlatform (teaIds "2") "u" "T" (some "w")
  "private" false

/-- The state after the chat `T` was made private. -/
def afterPrivateTea : ChatState :=
  (noChats.after textPlatform {} firstTea).after textPlatform {} privateTea

lemma privateTea_runs : Runs (ChatStep textPlatform {}) noChats [firstTea, privateTea]
    afterPrivateTea :=
  (Runs.refl.tail ⟨by decide +kernel, by decide +kernel, rfl⟩).tail
    ⟨by decide +kernel, by decide +kernel, rfl⟩

/-- A message of the chat `T` is skipped exactly when the history makes it private. -/
theorem private_tea_iff :
    (SkippedInChat textPlatform {} (teaIds "3") afterPrivateTea (some teaDrinker)
        (teaMessage none (some "T") "green tea") "u" "T" ↔
      ∀ admitted, GoesToChat textPlatform {} (teaIds "3") afterPrivateTea (some teaDrinker)
          (teaMessage none (some "T") "green tea") admitted "u" "T" →
        (admitted.policyKeys textPlatform).IsPrivate textPlatform.unicode
          (latestDefault textPlatform [firstTea, privateTea]) .full admitted.turnPolicy) ∧
    ((∀ admitted, GoesToChat textPlatform {} (teaIds "3") afterPrivateTea (some teaDrinker)
          (teaMessage none (some "T") "green tea") admitted "u" "T" →
        (admitted.policyKeys textPlatform).actorChat =
          some (actorChatKey textPlatform "u" "T" (some "w"))) →
      SkippedInChat textPlatform {} (teaIds "3") afterPrivateTea (some teaDrinker)
        (teaMessage none (some "T") "green tea") "u" "T") :=
  @private_chat_iff textPlatform {} afterPrivateTea [firstTea] [] (teaIds "3") (some teaDrinker)
    (teaMessage none (some "T") "green tea") (teaIds "2") "u" "T" "private" (some "w") false
    privateTea_runs (by decide +kernel) (fun _ hlater => absurd hlater List.not_mem_nil)

/-- A private chat that gets its stable id is not private any more. -/
theorem promoted_chat_captured : ¬ ∀ before settingIds userUuid chatUuid turnPolicy workspaceUuid
    attachmentReview after s ids actor request,
    Runs (ChatStep textPlatform {}) noChats (before ++ ChatCall.setActorChatDefault textPlatform
      settingIds userUuid chatUuid workspaceUuid turnPolicy attachmentReview :: after) s →
    normalizeTurnPolicy textPlatform.unicode turnPolicy = .ok .privateMode →
    (∀ later ∈ after, ∀ mode, later.sets textPlatform =
      some (actorChatKey textPlatform userUuid chatUuid workspaceUuid, mode) →
        mode = .privateMode) →
    SkippedInChat textPlatform {} ids s actor request userUuid chatUuid := by
  intro h
  have hskipped := h [firstTea] (teaIds "2") "u" "T" "private" (some "w") false [] afterPrivateTea
    (teaIds "3") (some teaDrinker) (teaMessage (some "C") (some "T") "green tea") privateTea_runs
    (by decide +kernel) (fun _ hlater => absurd hlater List.not_mem_nil)
  let admitted : MessageCaptureRequest :=
    { teaMessage (some "C") (some "T") "green tea" with
      userId := some "u", workspaceUuid := some "w" }
  have hadmitted : admitCapture {} (some teaDrinker)
      (teaMessage (some "C") (some "T") "green tea") = .ok admitted := by
    simp [admitCapture, scopeToActor, teaMessage, teaDrinker, admitted]
  have hsession : (captureSession textPlatform (teaIds "3") afterPrivateTea (some teaDrinker)
      admitted).1.toOption = some "s1" := by decide +kernel
  have hchat : (captureSession textPlatform (teaIds "3") afterPrivateTea (some teaDrinker)
      admitted).2.sessions.holder (aliasKey textPlatform (some "u") (.openwebuiTempChatId, "T")) =
        some ("s1", "active") := by decide +kernel
  have hskip := hskipped admitted ⟨hadmitted, rfl, "s1", ?_, "T", by decide +kernel,
    .inr (.inl ⟨"active", hchat⟩)⟩
  · have hprivate := (captureMessage_skipped_iff hadmitted).mp hskip
    have hnot : ¬ (admitted.policyKeys textPlatform).actorChat.bind
        afterPrivateTea.defaults.policy = some .privateMode := by decide +kernel
    have hspecific : (admitted.policyKeys textPlatform).mostSpecific
        afterPrivateTea.defaults.policy .full = .full := by decide +kernel
    rcases hprivate with hown | ⟨value, hvalue, -⟩ | ⟨-, hdefault⟩
    · exact hnot hown
    · exact absurd hvalue nofun
    · exact absurd (hspecific.symm.trans hdefault) nofun
  · rcases hanswer : (captureSession textPlatform (teaIds "3") afterPrivateTea (some teaDrinker)
      admitted).1 with answer | sessionUuid
    · rw [hanswer] at hsession
      exact absurd hsession nofun
    · rw [hanswer] at hsession
      exact congrArg Except.ok (Option.some.inj hsession)

end Memorist
