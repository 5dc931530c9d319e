import Mathlib.Data.List.MinMax
import Mathlib.Data.String.Basic
import Memorist.Library.Runs
import Memorist.Library.Table
import Memorist.Text.Envelope

/-!
The session of a chat of Open WebUI (`openwebui/session_resolution.py`).

* `candidateAliases`: the names that a request gives its chat, in the order they are tried;
* `sessionForAlias`, `findByAliases`: the session that a name leads to, unless it lies in another
  workspace;
* `attachAliases`: every name that is still free is given to the session;
* `resolveSession`: the session of a request, created if no name leads to one;
* `lookup`, `resolveSession_cases`: what a name leads to, and all that a resolution can be.
-/

namespace Memorist

/-! ### Rows -/

/-- The kinds of names of a chat. -/
inductive AliasType where
  | openwebuiChatId
  | openwebuiTempChatId
  | clientSessionNonce
  | firstMessageFingerprint
  | conversationFingerprint
  deriving DecidableEq, Repr

/-- The text of a kind. -/
def AliasType.text : AliasType → String
  | openwebuiChatId => "openwebui_chat_id"
  | openwebuiTempChatId => "openwebui_temp_chat_id"
  | clientSessionNonce => "client_session_nonce"
  | firstMessageFingerprint => "first_message_fingerprint"
  | conversationFingerprint => "conversation_fingerprint"

/-- How far a name is trusted, in percent. -/
def AliasType.confidence : AliasType → ℕ
  | openwebuiChatId => 100
  | clientSessionNonce => 95
  | openwebuiTempChatId => 85
  | _ => 75

/-- A row of `sessions`. -/
structure ChatSessionRow where
  sessionUuid : String
  workspaceUuid : Option String
  projectUuid : Option String
  openwebuiConversationId : Option String
  title : Option String
  createdAt : String
  updatedAt : Option String := none
  deriving DecidableEq, Repr

/-- A name: its kind and its value. -/
abbrev Alias : Type := AliasType × String

/-- A row of `openwebui_session_aliases`. -/
structure AliasRow where
  sessionUuid : String
  aliasType : AliasType
  aliasValue : String
  userId : Option String
  conversationId : Option String
  firstMessageHash : Option String
  clientSessionNonce : Option String
  confidence : ℕ
  status : String
  createdAt : String
  lastSeenAt : String
  deriving DecidableEq, Repr

/-- The unique index of the names: a user has each name once. -/
def AliasRow.key (row : AliasRow) : Alias × String :=
  ((row.aliasType, row.aliasValue), row.userId.getD "")

/-- A name that is seen at a time, with what the request says of its chat. -/
def AliasRow.seen (now : String) (conversationId clientSessionNonce : Option String)
    (row : AliasRow) : AliasRow :=
  { row with
    lastSeenAt := now
    conversationId := conversationId.or row.conversationId
    clientSessionNonce := clientSessionNonce.or row.clientSessionNonce }

lemma AliasRow.key_seen (now : String) (conversationId clientSessionNonce : Option String)
    (row : AliasRow) : (row.seen now conversationId clientSessionNonce).key = row.key := rfl

/-- A session of a chat. -/
def ChatSessionRow.ofChat (conversationId now : String) (row : ChatSessionRow) : ChatSessionRow :=
  { row with openwebuiConversationId := some conversationId, updatedAt := some now }

lemma ChatSessionRow.sessionUuid_ofChat (conversationId now : String) (row : ChatSessionRow) :
    (row.ofChat conversationId now).sessionUuid = row.sessionUuid := rfl

/-- The sessions and their names. -/
structure SessionStore where
  sessions : Table ChatSessionRow String ChatSessionRow.sessionUuid
  aliases : Table AliasRow (Alias × String) AliasRow.key

/-- A request for the session of a chat. -/
structure SessionResolutionInput where
  workspaceUuid : Option String
  projectUuid : Option String
  openwebuiConversationId : Option String := none
  temporaryChatId : Option String := none
  clientSessionNonce : Option String := none
  firstMessageHash : Option String := none
  userId : Option String := none
  title : Option String := none
  sourceApp : String := "open_webui"
  createdAt : Option String := none
  deriving DecidableEq, Repr

/-- The session of a request. -/
structure SessionResolutionResult where
  session : ChatSessionRow
  matchedAliasType : Option String
  aliases : List AliasRow
  diagnostics : List String

/-! ### Names -/

section

variable (P : Platform)

/-- A text without the blanks around it, unless nothing is left. -/
def normalize (value : Option String) : Option String :=
  (value.map fun text => String.ofList (P.unicode.strip text.toList)).filter fun text => text ≠ ""

/-- The hour of a time, or else the present one. -/
def dateBucket (now : String) (value : Option String) : String :=
  let text := ((normalize P value).getD now).toList
  if 13 ≤ text.length ∧ slice text 4 5 = ['-'] ∧ slice text 7 8 = ['-'] then
    String.ofList (text.take 13)
  else String.ofList (now.toList.take 13)

/-- The name that a user's first message gives a chat. -/
def firstMessageFingerprint (now : String) (userId : Option String) (firstMessageHash : String)
    (createdAt : Option String) (sourceApp : String) : Except String String :=
  match normalize P userId with
  | none => .error "trusted Open WebUI user identity is required"
  | some user => .ok (P.sha256 ("|".intercalate [user,
      (normalize P (some firstMessageHash)).getD "", dateBucket P now createdAt,
      (normalize P (some sourceApp)).getD "open_webui"]).toList)

/-- The names of a request apart from that of its first message. -/
def plainAliases (request : SessionResolutionInput) : List Alias :=
  ((normalize P request.openwebuiConversationId).map fun value =>
    (AliasType.openwebuiChatId, value)).toList ++
  ((normalize P request.clientSessionNonce).map fun value =>
    (AliasType.clientSessionNonce, value)).toList ++
  ((normalize P request.temporaryChatId).map fun value =>
    (AliasType.openwebuiTempChatId, value)).toList

/-- The names of a request, in the order they are tried. -/
def candidateAliases (now : String) (request : SessionResolutionInput) :
    Except String (List Alias) :=
  match normalize P request.firstMessageHash with
  | none => .ok (plainAliases P request)
  | some firstMessageHash => do
      let fingerprint ← firstMessageFingerprint P now request.userId firstMessageHash
        request.createdAt request.sourceApp
      pure (plainAliases P request ++ [(.firstMessageFingerprint, fingerprint)])

/-- The key of a name that a user gives. -/
def aliasKey (userId : Option String) (a : Alias) : Alias × String :=
  (a, (normalize P userId).getD "")

/-! ### Resolution -/

/-- Whether a text is missing or empty. -/
def isBlankText (value : Option String) : Bool := value.all fun text => text = ""

/-- Whether a session lies in another workspace than the one of a request. -/
def inOtherWorkspace (workspaceUuid : Option String) (session : ChatSessionRow) : Bool :=
  !isBlankText workspaceUuid && !isBlankText session.workspaceUuid &&
    session.workspaceUuid ≠ workspaceUuid

/-- The sessions that a name leads to. -/
def SessionStore.aliasSessions (s : SessionStore) (key : Alias × String) : List ChatSessionRow :=
  (s.aliases.rows.filter fun row => row.key = key ∧ row.status = "active").filterMap fun row =>
    s.sessions.get? row.sessionUuid

/-- The session that a name leads to, or why it leads to none. -/
def sessionForAlias (s : SessionStore) (a : Alias) (userId workspaceUuid : Option String) :
    Option ChatSessionRow × Option String :=
  match s.aliasSessions (aliasKey P userId a) with
  | [] => (none, none)
  | [session] =>
      if inOtherWorkspace workspaceUuid session then
        (none, some ("alias_workspace_conflict:" ++ a.1.text))
      else (some session, none)
  | _ => (none, some ("ambiguous_alias:" ++ a.1.text))

/-- The first name that leads to a session, and what was found on the way. -/
def findByAliases (s : SessionStore) (userId workspaceUuid : Option String) :
    List Alias → Option (Alias × ChatSessionRow) × List String
  | [] => (none, [])
  | a :: rest =>
      match sessionForAlias P s a userId workspaceUuid with
      | (some session, _) => (some (a, session), [])
      | (none, diagnostic) =>
          let found := findByAliases s userId workspaceUuid rest
          (found.1, diagnostic.toList ++ found.2)

/-- A name was seen. -/
def SessionStore.touchAlias (s : SessionStore) (key : Alias × String) (now : String) :
    SessionStore where
  sessions := s.sessions
  aliases := s.aliases.updateWhere (fun row => row.key = key)
    (AliasRow.seen now none none) (AliasRow.key_seen now none none)

/-- The row of a name for a session. -/
def newAliasRow (now sessionUuid : String) (request : SessionResolutionInput) (a : Alias) :
    AliasRow where
  sessionUuid := sessionUuid
  aliasType := a.1
  aliasValue := a.2
  userId := normalize P request.userId
  conversationId := normalize P request.openwebuiConversationId
  firstMessageHash := normalize P request.firstMessageHash
  clientSessionNonce := normalize P request.clientSessionNonce
  confidence := a.1.confidence
  status := "active"
  createdAt := now
  lastSeenAt := now

/-- Give a name to a session, unless it has another. -/
def attachAlias (now sessionUuid : String) (request : SessionResolutionInput)
    (s : SessionStore × List String) (a : Alias) : SessionStore × List String :=
  let aliases := s.1.aliases.insert (newAliasRow P now sessionUuid request a)
  let key := aliasKey P request.userId a
  if (aliases.get? key).any fun row => row.sessionUuid ≠ sessionUuid then
    ({ s.1 with aliases := aliases }, s.2 ++ ["alias_session_conflict:" ++ a.1.text])
  else
    let conversationId := normalize P request.openwebuiConversationId
    let clientSessionNonce := normalize P request.clientSessionNonce
    let seen := aliases.updateWhere (fun row => row.key = key)
      (AliasRow.seen now conversationId clientSessionNonce)
      (AliasRow.key_seen now conversationId clientSessionNonce)
    ({ s.1 with aliases := seen }, s.2)

/-- Give names to a session. -/
def attachAliases (now sessionUuid : String) (request : SessionResolutionInput)
    (aliases : List Alias) (s : SessionStore × List String) : SessionStore × List String :=
  aliases.foldl (attachAlias P now sessionUuid request) s

/-- The chat of a session is that of the request, if it names one. -/
def SessionStore.updateStableConversationId (s : SessionStore) (now sessionUuid : String)
    (request : SessionResolutionInput) : SessionStore :=
  match normalize P request.openwebuiConversationId with
  | none => s
  | some conversationId =>
      let sessions := s.sessions.updateWhere
        (fun row => row.sessionUuid = sessionUuid ∧
          row.openwebuiConversationId ≠ some conversationId)
        (ChatSessionRow.ofChat conversationId now)
        (ChatSessionRow.sessionUuid_ofChat conversationId now)
      { s with sessions := sessions }

/-- The oldest session of the chat, for a request without a user. -/
def legacySessionByConversationId (s : SessionStore) (request : SessionResolutionInput) :
    Option ChatSessionRow :=
  match normalize P request.openwebuiConversationId with
  | none => none
  | some conversationId =>
      if isBlankText request.userId then
        (s.sessions.rows.filter fun row => row.openwebuiConversationId = some conversationId ∧
          (request.workspaceUuid = none ∨ row.workspaceUuid = none ∨
            row.workspaceUuid = request.workspaceUuid)).argmin ChatSessionRow.createdAt
      else none

/-- A new session for a request. -/
def newSession (now sessionUuid : String) (request : SessionResolutionInput) : ChatSessionRow where
  sessionUuid := sessionUuid
  workspaceUuid := request.workspaceUuid
  projectUuid := request.projectUuid
  openwebuiConversationId := normalize P request.openwebuiConversationId
  title := request.title
  createdAt := now

/-- The names of a session, the oldest first. -/
def SessionStore.listAliases (s : SessionStore) (sessionUuid : String) : List AliasRow :=
  (s.aliases.rows.filter fun row => row.sessionUuid = sessionUuid).mergeSort fun a b =>
    a.createdAt < b.createdAt ∨ a.createdAt = b.createdAt ∧ a.aliasType.text ≤ b.aliasType.text

/-- Resolve the session of a request at a time; a new one has the given id. -/
def resolveSession (now freshUuid : String) (s : SessionStore) (request : SessionResolutionInput) :
    Except String (SessionResolutionResult × SessionStore) := do
  let aliases ← candidateAliases P now request
  match findByAliases P s request.userId request.workspaceUuid aliases with
  | (some (a, session), diagnostics) =>
      let attached := attachAliases P now session.sessionUuid request aliases
        (s.touchAlias (aliasKey P request.userId a) now, diagnostics)
      let settled := attached.1.updateStableConversationId P now session.sessionUuid request
      pure (⟨session, some a.1.text, settled.listAliases session.sessionUuid, attached.2⟩,
        settled)
  | (none, diagnostics) =>
      match legacySessionByConversationId P s request with
      | some session =>
          let attached := attachAliases P now session.sessionUuid request aliases (s, diagnostics)
          pure (⟨session, some "legacy_openwebui_conversation_id",
            attached.1.listAliases session.sessionUuid, attached.2⟩, attached.1)
      | none =>
          let session := newSession P now freshUuid request
          let attached := attachAliases P now freshUuid request aliases
            ({ s with sessions := s.sessions.insert session },
              diagnostics ++ ["created_session_without_existing_alias"])
          pure (⟨session, none, attached.1.listAliases freshUuid, attached.2⟩, attached.1)

end

/-! ### What a name leads to -/

section

variable {P : Platform} {now sessionUuid freshUuid : String} {request : SessionResolutionInput}
variable {s s' : SessionStore} {a : Alias} {aliases : List Alias} {key : Alias × String}

/-- The session that has a name, and whether the name is in use. -/
def SessionStore.holder (s : SessionStore) (key : Alias × String) : Option (String × String) :=
  (s.aliases.get? key).map fun row => (row.sessionUuid, row.status)

lemma key_newAliasRow : (newAliasRow P now sessionUuid request a).key = aliasKey P request.userId a :=
  rfl

lemma SessionStore.holder_touchAlias (key' : Alias × String) :
    (s.touchAlias key' now).holder key = s.holder key := by
  unfold SessionStore.holder SessionStore.touchAlias
  rw [Table.get?_updateWhere, Option.map_map]
  congr 1
  funext row
  rw [Function.comp_apply]
  split_ifs <;> rfl

/-- A name that is free is given to the session. -/
lemma holder_insert (now : String) :
    ({ s with aliases := s.aliases.insert (newAliasRow P now sessionUuid request a) } :
      SessionStore).holder key =
      (s.holder key).or (if key = aliasKey P request.userId a then some (sessionUuid, "active")
        else none) := by
  unfold SessionStore.holder
  rcases Table.get?_insert (t := s.aliases) (newAliasRow P now sessionUuid request a) key with
    hsame | ⟨hnone, hkey, hsome⟩
  · dsimp only
    rw [hsame]
    rcases hrow : s.aliases.get? key with _ | row
    · split_ifs with hkey
      · subst hkey
        have hself := Table.get?_insert_self (r := newAliasRow P now sessionUuid request a) hrow
        rw [key_newAliasRow, hsame, hrow] at hself
        exact absurd hself (by simp)
      · rfl
    · rfl
  · dsimp only
    rw [hsome, hnone, if_pos (hkey.symm.trans key_newAliasRow)]
    rfl

lemma holder_attachAlias {diagnostics : List String} :
    (attachAlias P now sessionUuid request (s, diagnostics) a).1.holder key =
      (s.holder key).or (if key = aliasKey P request.userId a then some (sessionUuid, "active")
        else none) := by
  rw [← holder_insert now]
  unfold attachAlias
  dsimp only
  split_ifs
  · rfl
  · unfold SessionStore.holder
    dsimp only
    rw [Table.get?_updateWhere, Option.map_map]
    congr 1
    funext row
    rw [Function.comp_apply]
    split_ifs <;> rfl

lemma sessions_attachAlias {diagnostics : List String} :
    (attachAlias P now sessionUuid request (s, diagnostics) a).1.sessions = s.sessions := by
  unfold attachAlias
  dsimp only
  split_ifs <;> rfl

/-- The names that are free are given to the session. -/
lemma holder_attachAliases {diagnostics : List String} :
    (attachAliases P now sessionUuid request aliases (s, diagnostics)).1.holder key =
      (s.holder key).or (if key ∈ aliases.map (aliasKey P request.userId)
        then some (sessionUuid, "active") else none) := by
  unfold attachAliases
  induction aliases generalizing s diagnostics with
  | nil => simp
  | cons a aliases ih =>
      rw [List.foldl_cons, ← Prod.mk.eta (p := attachAlias P now sessionUuid request _ a), ih,
        holder_attachAlias, Option.or_assoc, List.map_cons]
      congr 1
      by_cases hkey : key = aliasKey P request.userId a
      · simp [hkey]
      · rw [if_neg hkey, Option.none_or]
        exact if_congr (by rw [List.mem_cons, or_iff_right hkey]) rfl rfl

lemma sessions_attachAliases {diagnostics : List String} :
    (attachAliases P now sessionUuid request aliases (s, diagnostics)).1.sessions = s.sessions := by
  unfold attachAliases
  induction aliases generalizing s diagnostics with
  | nil => rfl
  | cons a aliases ih =>
      rw [List.foldl_cons, ← Prod.mk.eta (p := attachAlias P now sessionUuid request _ a), ih,
        sessions_attachAlias]

/-- The session that a name in use leads to. -/
def SessionStore.aliasSession (s : SessionStore) (key : Alias × String) : Option ChatSessionRow :=
  ((s.holder key).filter fun held => held.2 = "active").bind fun held => s.sessions.get? held.1

/-- The session that a name leads to for a request. -/
def lookup (P : Platform) (s : SessionStore) (request : SessionResolutionInput) (a : Alias) :
    Option ChatSessionRow :=
  (s.aliasSession (aliasKey P request.userId a)).filter fun session =>
    !inOtherWorkspace request.workspaceUuid session

/-- A name leads to one session at most. -/
lemma aliasSessions_eq : s.aliasSessions key = (s.aliasSession key).toList := by
  unfold SessionStore.aliasSessions SessionStore.aliasSession SessionStore.holder
  have hrows := s.aliases.filter_key key fun row => row.status = "active"
  simp only [decide_eq_true_eq] at hrows
  rw [hrows]
  rcases s.aliases.get? key with _ | row
  · rfl
  · by_cases hactive : row.status = "active"
    · rcases hsession : s.sessions.get? row.sessionUuid with _ | session <;>
        simp [Option.filter_some, hactive, hsession]
    · simp [Option.filter_some, hactive]

lemma sessionForAlias_fst :
    (sessionForAlias P s a request.userId request.workspaceUuid).1 = lookup P s request a := by
  unfold sessionForAlias lookup
  rw [aliasSessions_eq]
  rcases s.aliasSession (aliasKey P request.userId a) with _ | session
  · rfl
  · by_cases hother : inOtherWorkspace request.workspaceUuid session <;>
      simp [Option.filter_some, hother]

/-- The first name that leads to a session is found. -/
lemma findByAliases_fst : (findByAliases P s request.userId request.workspaceUuid aliases).1 =
    aliases.findSome? fun a => (lookup P s request a).map fun session => (a, session) := by
  induction aliases with
  | nil => rfl
  | cons a aliases ih =>
      unfold findByAliases
      rw [List.findSome?_cons, ← sessionForAlias_fst, ← ih]
      rcases hfound : sessionForAlias P s a request.userId request.workspaceUuid with
        ⟨_ | session, diagnostic⟩ <;> rfl

/-! ### What a resolution can be -/

/-- The session of a resolution and the sessions after it: one that a name leads to, the oldest of
the chat, or a new one. -/
inductive Resolved (P : Platform) (now freshUuid : String) (s : SessionStore)
    (request : SessionResolutionInput) (aliases : List Alias) (session : ChatSessionRow)
    (s' : SessionStore) : Prop
  | found (hfound : aliases.findSome? (lookup P s request) = some session)
      (hsessions : s'.sessions =
        (s.updateStableConversationId P now session.sessionUuid request).sessions)
  | legacy (hnone : aliases.findSome? (lookup P s request) = none)
      (hlegacy : legacySessionByConversationId P s request = some session)
      (hsessions : s'.sessions = s.sessions)
  | created (hnone : aliases.findSome? (lookup P s request) = none)
      (hlegacy : legacySessionByConversationId P s request = none)
      (hsession : session = newSession P now freshUuid request)
      (hsessions : s'.sessions = s.sessions.insert session)

lemma sessions_updateStableConversationId {t : SessionStore} (h : t.sessions = s.sessions) :
    (t.updateStableConversationId P now sessionUuid request).sessions =
      (s.updateStableConversationId P now sessionUuid request).sessions := by
  unfold SessionStore.updateStableConversationId
  cases normalize P request.openwebuiConversationId with
  | none => exact h
  | some conversationId => rw [h]

lemma holder_updateStableConversationId :
    (s.updateStableConversationId P now sessionUuid request).holder key = s.holder key := by
  unfold SessionStore.updateStableConversationId
  cases normalize P request.openwebuiConversationId <;> rfl

lemma findSome?_lookup {found : Option (Alias × ChatSessionRow)}
    (h : (aliases.findSome? fun a => (lookup P s request a).map fun session => (a, session)) =
      found) : aliases.findSome? (lookup P s request) = found.map Prod.snd := by
  subst h
  induction aliases with
  | nil => rfl
  | cons a aliases ih =>
      rw [List.findSome?_cons, List.findSome?_cons, ih]
      cases lookup P s request a <;> rfl

/-- A resolution gives the free names of the request to its session and leaves the others. -/
theorem resolveSession_cases {result : SessionResolutionResult}
    (h : resolveSession P now freshUuid s request = .ok (result, s')) :
    ∃ aliases, candidateAliases P now request = .ok aliases ∧
      (∀ key, s'.holder key = (s.holder key).or
        (if key ∈ aliases.map (aliasKey P request.userId)
          then some (result.session.sessionUuid, "active") else none)) ∧
      Resolved P now freshUuid s request aliases result.session s' := by
  unfold resolveSession at h
  rcases haliases : candidateAliases P now request with error | aliases
  · rw [haliases] at h
    cases h
  · rw [haliases] at h
    refine ⟨aliases, rfl, ?_⟩
    simp only [bind, Except.bind] at h
    rcases hfind : findByAliases P s request.userId request.workspaceUuid aliases with
      ⟨_ | ⟨a, session⟩, diagnostics⟩
    · have hnone := findSome?_lookup (findByAliases_fst.symm.trans (congrArg Prod.fst hfind))
      rw [hfind] at h
      dsimp only at h
      rcases hlegacy : legacySessionByConversationId P s request with _ | session
      · rw [hlegacy] at h
        cases h
        exact ⟨fun key => holder_attachAliases,
          .created hnone hlegacy rfl sessions_attachAliases⟩
      · rw [hlegacy] at h
        cases h
        exact ⟨fun key => holder_attachAliases, .legacy hnone hlegacy sessions_attachAliases⟩
    · have hsome := findSome?_lookup (findByAliases_fst.symm.trans (congrArg Prod.fst hfind))
      rw [hfind] at h
      cases h
      refine ⟨fun key => ?_, .found hsome (sessions_updateStableConversationId ?_)⟩
      · rw [holder_updateStableConversationId, holder_attachAliases,
          SessionStore.holder_touchAlias]
      · exact sessions_attachAliases

/-- A request whose names can be told is resolved. -/
lemma exists_resolveSession (haliases : candidateAliases P now request = .ok aliases) :
    ∃ result s', resolveSession P now freshUuid s request = .ok (result, s') := by
  unfold resolveSession
  rw [haliases]
  simp only [bind, Except.bind]
  split
  · exact ⟨_, _, rfl⟩
  · split <;> exact ⟨_, _, rfl⟩

end

end Memorist
