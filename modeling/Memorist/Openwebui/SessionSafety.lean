import Memorist.Openwebui.SessionResolution

/-!
What the resolution of sessions keeps over any history of requests.

* `ResolveStep`: a request, resolved or refused;
* `leadsTo`: the session that a name leads to, by its id;
* `resolve_twice_iff`: when a request that is made again leads to the same session;
* `isolated_of_runs`: when requests of different chats lead to different sessions.
-/

namespace Memorist

/-- A request at a time, the id of a new session for it, and its answer. -/
structure ResolveCall where
  now : String
  freshUuid : String
  request : SessionResolutionInput
  answer : Except String SessionResolutionResult

/-! ### Requests on a store without sessions -/

/-- A store without sessions. -/
def noSessions : SessionStore := ⟨.empty, .empty⟩

/-- The session of a request whose names can be told, and the store after it. -/
def resolved (now freshUuid : String) (s : SessionStore) (request : SessionResolutionInput) :
    SessionResolutionResult × SessionStore :=
  match resolveSession latinPlatform now freshUuid s request with
  | .ok answer => answer
  | .error _ => (⟨newSession latinPlatform now freshUuid request, none, [], []⟩, s)

lemma resolveSession_eq_resolved {now : String} {request : SessionResolutionInput}
    {names : List Alias} (hnames : candidateAliases latinPlatform now request = .ok names)
    (freshUuid : String) (s : SessionStore) :
    resolveSession latinPlatform now freshUuid s request =
      .ok (resolved now freshUuid s request) := by
  obtain ⟨result, s', hresolve⟩ := exists_resolveSession hnames
  unfold resolved
  rw [hresolve]

section

variable {P : Platform} {s s' s₀ : SessionStore} {call : ResolveCall} {calls : List ResolveCall}

/-- A request is resolved, or refused and nothing changes; the new id is new. -/
def ResolveStep (P : Platform) (s : SessionStore) (call : ResolveCall) (s' : SessionStore) : Prop :=
  s.sessions.get? call.freshUuid = none ∧
    ((∃ result, resolveSession P call.now call.freshUuid s call.request = .ok (result, s') ∧
        call.answer = .ok result) ∨
      ∃ error, resolveSession P call.now call.freshUuid s call.request = .error error ∧
        call.answer = .error error ∧ s' = s)

lemma resolveStep_resolved {now freshUuid : String} {request : SessionResolutionInput}
    {names : List Alias} (hnames : candidateAliases latinPlatform now request = .ok names)
    (hfresh : s.sessions.get? freshUuid = none) :
    ResolveStep latinPlatform s ⟨now, freshUuid, request, .ok (resolved now freshUuid s request).1⟩
      (resolved now freshUuid s request).2 :=
  ⟨hfresh, .inl ⟨_, resolveSession_eq_resolved hnames freshUuid s, rfl⟩⟩

/-! ### Sessions and holders -/

/-- The workspace of a session, if there is one. -/
def SessionStore.workspace (s : SessionStore) (sessionUuid : String) : Option (Option String) :=
  (s.sessions.get? sessionUuid).map ChatSessionRow.workspaceUuid

/-- Every name is held by a session. -/
def SessionStore.HoldersExist (s : SessionStore) : Prop :=
  ∀ key held, s.holder key = some held → s.workspace held.1 ≠ none

section

variable {now freshUuid : String} {request : SessionResolutionInput} {aliases : List Alias}
variable {session : ChatSessionRow} {a : Alias}

lemma workspace_updateStableConversationId (sessionUuid u : String) :
    (s.updateStableConversationId P now sessionUuid request).workspace u = s.workspace u := by
  unfold SessionStore.updateStableConversationId
  cases normalize P request.openwebuiConversationId with
  | none => rfl
  | some conversationId =>
      unfold SessionStore.workspace
      dsimp only
      rw [Table.get?_updateWhere, Option.map_map]
      congr 1
      funext row
      rw [Function.comp_apply]
      split_ifs <;> rfl

/-- A resolution leaves every session in its workspace, and adds the new one at most. -/
lemma Resolved.workspace_eq (h : Resolved P now freshUuid s request aliases session s')
    (u : String) :
    s'.workspace u = s.workspace u ∨
      session = newSession P now freshUuid request ∧ u = freshUuid ∧ s.workspace u = none ∧
        s'.workspace u = some request.workspaceUuid := by
  cases h with
  | found _ hsessions =>
      refine .inl ?_
      rw [← workspace_updateStableConversationId (s := s) (P := P)
        session.sessionUuid u]
      unfold SessionStore.workspace
      rw [hsessions]
  | legacy _ _ hsessions =>
      unfold SessionStore.workspace
      rw [hsessions]
      exact .inl rfl
  | created _ _ hsession hsessions =>
      unfold SessionStore.workspace
      rw [hsessions]
      rcases Table.get?_insert (t := s.sessions) session u with hsame | ⟨hnone, hkey, hsome⟩
      · exact .inl (by rw [hsame])
      · subst hsession
        exact .inr ⟨rfl, hkey.symm, by rw [hnone]; rfl, by rw [hsome]; rfl⟩

lemma mem_of_lookup (h : lookup P s request a = some session) :
    s.sessions.get? session.sessionUuid = some session ∧
      inOtherWorkspace request.workspaceUuid session = false := by
  obtain ⟨hsession, hother⟩ := Option.filter_eq_some_iff.mp h
  obtain ⟨held, -, hget⟩ := Option.bind_eq_some_iff.mp hsession
  rw [Table.key_of_get? hget]
  exact ⟨hget, by simpa using hother⟩

lemma legacySession_spec (h : legacySessionByConversationId P s request = some session) :
    s.sessions.get? session.sessionUuid = some session ∧
      inOtherWorkspace request.workspaceUuid session = false ∧
      session.openwebuiConversationId = normalize P request.openwebuiConversationId ∧
      isBlankText request.userId := by
  unfold legacySessionByConversationId at h
  cases hconv : normalize P request.openwebuiConversationId with
  | none => rw [hconv] at h; cases h
  | some conversationId =>
      rw [hconv] at h
      dsimp only at h
      split_ifs at h with hblank
      · have hmem := List.argmin_mem h
        obtain ⟨hmem, hcond⟩ := List.mem_filter.mp hmem
        obtain ⟨hconv', hws⟩ := of_decide_eq_true hcond
        refine ⟨Table.get?_of_mem hmem, ?_, hconv', hblank⟩
        unfold inOtherWorkspace
        rcases hws with hnone | hnone | heq
        · simp [hnone, isBlankText]
        · simp [hnone, isBlankText]
        · simp [heq]

/-- The session of a resolution is there after it, in no other workspace. -/
lemma Resolved.usable (h : Resolved P now freshUuid s request aliases session s')
    (hfresh : s.sessions.get? freshUuid = none) :
    ∃ w, s'.workspace session.sessionUuid = some w ∧
      inOtherWorkspace request.workspaceUuid { session with workspaceUuid := w } = false := by
  have hkeep := h.workspace_eq session.sessionUuid
  cases h with
  | found hfound =>
      obtain ⟨a, -, hlookup⟩ := List.exists_of_findSome?_eq_some hfound
      obtain ⟨hget, hother⟩ := mem_of_lookup hlookup
      rcases hkeep with heq | ⟨-, -, hnone, -⟩
      · exact ⟨session.workspaceUuid, by rw [heq]; simp [SessionStore.workspace, hget], hother⟩
      · exact absurd hnone (by simp [SessionStore.workspace, hget])
  | legacy _ hlegacy =>
      obtain ⟨hget, hother, -⟩ := legacySession_spec hlegacy
      rcases hkeep with heq | ⟨-, -, hnone, -⟩
      · exact ⟨session.workspaceUuid, by rw [heq]; simp [SessionStore.workspace, hget], hother⟩
      · exact absurd hnone (by simp [SessionStore.workspace, hget])
  | created _ _ hsession hsessions =>
      subst hsession
      refine ⟨request.workspaceUuid, ?_, by simp [inOtherWorkspace]⟩
      unfold SessionStore.workspace
      rw [hsessions]
      have hself := Table.get?_insert_self (r := newSession P now freshUuid request) hfresh
      rw [hself]
      rfl

end

/-- Every name stays held by a session. -/
lemma ResolveStep.holdersExist (hstep : ResolveStep P s call s') (h : s.HoldersExist) :
    s'.HoldersExist := by
  obtain ⟨hfresh, ⟨result, hresolve, -⟩ | ⟨error, -, -, rfl⟩⟩ := hstep
  · obtain ⟨aliases, -, hholder, hresolved⟩ := resolveSession_cases hresolve
    intro key held hheld
    rw [hholder] at hheld
    rcases hbefore : s.holder key with _ | held'
    · rw [hbefore, Option.none_or] at hheld
      split_ifs at hheld
      obtain rfl := Option.some_inj.mp hheld
      obtain ⟨w, hw, -⟩ := hresolved.usable hfresh
      simp [hw]
    · rw [hbefore, Option.some_or] at hheld
      obtain rfl := Option.some_inj.mp hheld
      rcases hresolved.workspace_eq held'.1 with heq | ⟨-, -, -, hsome⟩
      · rw [heq]
        exact h key held' hbefore
      · simp [hsome]
  · exact h

/-- After any history every name is held by a session. -/
lemma holdersExist_of_runs (hstart : s₀.aliases = .empty)
    (hruns : Runs (ResolveStep P) s₀ calls s) : s.HoldersExist := by
  refine hruns.invariant (I := SessionStore.HoldersExist) (fun h hstep => hstep.holdersExist h) ?_
  intro key held hheld
  simp [SessionStore.holder, hstart] at hheld

/-! ### Asking twice -/

/-- The names of a request at a time. -/
def namesAt (P : Platform) (now : String) (request : SessionResolutionInput) : List Alias :=
  (candidateAliases P now request).toOption.getD []

/-- The id of the session that a name leads to for a request. -/
def leadsTo (P : Platform) (s : SessionStore) (request : SessionResolutionInput) (a : Alias) :
    Option String :=
  (lookup P s request a).map ChatSessionRow.sessionUuid

/-- A name that no session has. -/
def SessionStore.Free (P : Platform) (s : SessionStore) (request : SessionResolutionInput)
    (a : Alias) : Prop :=
  s.holder (aliasKey P request.userId a) = none

/-- A request keeps its session at two times: one of its names is free or leads to a session; or it
names a chat and no user; or its names at the two times lead to one session. -/
def KeepsSession (P : Platform) (s : SessionStore) (request : SessionResolutionInput)
    (now₁ now₂ : String) : Prop :=
  (∃ a ∈ namesAt P now₁ request, a ∈ namesAt P now₂ request ∧
      (s.Free P request a ∨ leadsTo P s request a ≠ none)) ∨
    (normalize P request.openwebuiConversationId ≠ none ∧ isBlankText request.userId) ∨
    ∃ a ∈ namesAt P now₁ request, ∃ b ∈ namesAt P now₂ request, ∃ sessionUuid,
      leadsTo P s request a = some sessionUuid ∧ leadsTo P s request b = some sessionUuid

section

variable {now now₁ now₂ freshUuid fresh₁ fresh₂ : String} {request : SessionResolutionInput}
variable {aliases : List Alias} {session : ChatSessionRow} {a : Alias}

/-- Whether a session's id may be given for a request. -/
lemma leadsTo_eq : leadsTo P s request a =
    (((s.holder (aliasKey P request.userId a)).filter fun held => held.2 = "active").bind fun held =>
      ((s.workspace held.1).filter fun w => !inOtherWorkspace request.workspaceUuid
        ⟨held.1, w, none, none, none, "", none⟩).map fun _ => held.1) := by
  unfold leadsTo lookup SessionStore.aliasSession SessionStore.workspace
  rcases s.holder (aliasKey P request.userId a) with _ | ⟨sessionUuid, status⟩
  · rfl
  · rw [Option.filter_some]
    split_ifs
    · rw [Option.bind_some, Option.bind_some]
      rcases hget : s.sessions.get? sessionUuid with _ | row
      · rfl
      · obtain rfl : row.sessionUuid = sessionUuid := Table.key_of_get? hget
        have hsame : inOtherWorkspace request.workspaceUuid
            ⟨row.sessionUuid, row.workspaceUuid, none, none, none, "", none⟩ =
              inOtherWorkspace request.workspaceUuid row := rfl
        rw [Option.map_some, Option.filter_some, Option.filter_some, hsame]
        split_ifs <;> rfl
    · rfl

lemma leadsTo_of_free (h : s.Free P request a) : leadsTo P s request a = none := by
  rw [leadsTo_eq, h]
  rfl

lemma exists_of_leadsTo {sessionUuid : String} (h : leadsTo P s request a = some sessionUuid) :
    s.sessions.get? sessionUuid ≠ none := by
  obtain ⟨session, hlookup, rfl⟩ := Option.map_eq_some_iff.mp h
  simp [(mem_of_lookup hlookup).1]

lemma findSome?_leadsTo : aliases.findSome? (leadsTo P s request) =
    (aliases.findSome? (lookup P s request)).map ChatSessionRow.sessionUuid := by
  induction aliases with
  | nil => rfl
  | cons a aliases ih =>
      rw [List.findSome?_cons, List.findSome?_cons, ih]
      unfold leadsTo
      cases lookup P s request a <;> rfl

/-- What the names lead to after a resolution: the free ones of the request to its session, the
others to where they led. -/
structure NamesAfter (P : Platform) (s s' : SessionStore) (request : SessionResolutionInput)
    (aliases : List Alias) (sessionUuid : String) : Prop where
  held : ∀ a, ¬ s.Free P request a → leadsTo P s' request a = leadsTo P s request a
  given : ∀ a ∈ aliases, s.Free P request a → leadsTo P s' request a = some sessionUuid
  free : ∀ a, a ∉ aliases → s.Free P request a → leadsTo P s' request a = none

lemma namesAfter_of_resolved (hholders : s.HoldersExist)
    (hfresh : s.sessions.get? freshUuid = none)
    (hholder : ∀ key, s'.holder key = (s.holder key).or
      (if key ∈ aliases.map (aliasKey P request.userId)
        then some (session.sessionUuid, "active") else none))
    (hresolved : Resolved P now freshUuid s request aliases session s') :
    NamesAfter P s s' request aliases session.sessionUuid where
  held := by
    intro a hheld
    obtain ⟨held, hbefore⟩ := Option.ne_none_iff_exists'.mp hheld
    have hafter := hholder (aliasKey P request.userId a)
    rw [hbefore, Option.some_or] at hafter
    have hws : s'.workspace held.1 = s.workspace held.1 := by
      rcases hresolved.workspace_eq held.1 with heq | ⟨-, -, hnone, -⟩
      · exact heq
      · exact absurd hnone (hholders _ _ hbefore)
    rw [leadsTo_eq, leadsTo_eq, hafter, hbefore]
    by_cases hactive : held.2 = "active" <;> simp [Option.filter_some, hactive, hws]
  given := by
    intro a ha hfree
    have hafter := hholder (aliasKey P request.userId a)
    rw [hfree, Option.none_or, if_pos (List.mem_map_of_mem ha)] at hafter
    obtain ⟨w, hw, hother⟩ := hresolved.usable hfresh
    have hsame : inOtherWorkspace request.workspaceUuid
        ⟨session.sessionUuid, w, none, none, none, "", none⟩ = false := hother
    rw [leadsTo_eq, hafter]
    simp [Option.filter_some, hw, hsame]
  free := by
    intro a ha hfree
    refine leadsTo_of_free ?_
    have hafter := hholder (aliasKey P request.userId a)
    rw [hfree, Option.none_or, if_neg] at hafter
    · exact hafter
    · rintro hmem
      obtain ⟨b, hb, hkey⟩ := List.mem_map.mp hmem
      obtain rfl : b = a := congrArg Prod.fst hkey
      exact ha hb

/-- Where each name leads as before or to one session, the first name that leads to a session leads
to that one, if it did before or one of them now does. -/
lemma findSome?_eq_some_of_agree {f g : Alias → Option String} {x : String} {names : List Alias}
    (hagree : ∀ a ∈ names, g a = f a ∨ g a = some x)
    (hfirst : names.findSome? f = some x ∨
      names.findSome? f = none ∧ ∃ a ∈ names, g a = some x) : names.findSome? g = some x := by
  induction names with
  | nil => simp at hfirst
  | cons a names ih =>
      rw [List.findSome?_cons] at hfirst ⊢
      rcases hagree a List.mem_cons_self with hsame | hx
      · rw [hsame]
        rcases hf : f a with _ | y
        · rw [hf] at hfirst
          refine ih (fun b hb => hagree b (List.mem_cons_of_mem _ hb)) (hfirst.imp_right ?_)
          rintro ⟨hnone, b, hb, hx⟩
          refine ⟨hnone, ?_⟩
          rcases List.mem_cons.mp hb with rfl | hb
          · rw [hsame, hf] at hx
            cases hx
          · exact ⟨b, hb, hx⟩
        · rw [hf] at hfirst
          simpa using hfirst
      · rw [hx]

/-- The names of a request at two times: some names, and at each time that of the first message of
a known user, or none. -/
lemma namesAt_cases (haliases : candidateAliases P now request = .ok aliases) :
    aliases = plainAliases P request ∧ normalize P request.firstMessageHash = none ∨
      ∃ p, aliases = plainAliases P request ++ [p] ∧
        normalize P request.firstMessageHash ≠ none ∧ ¬ isBlankText request.userId := by
  unfold candidateAliases at haliases
  rcases hhash : normalize P request.firstMessageHash with _ | firstMessageHash
  · rw [hhash] at haliases
    cases haliases
    exact .inl ⟨rfl, rfl⟩
  · rw [hhash] at haliases
    refine .inr ?_
    unfold firstMessageFingerprint at haliases
    rcases huser : normalize P request.userId with _ | user
    · rw [huser] at haliases
      cases haliases
    · rw [huser] at haliases
      cases haliases
      refine ⟨_, rfl, by simp, fun hblank => ?_⟩
      have hnone : normalize P request.userId = none := by
        unfold isBlankText at hblank
        rcases hid : request.userId with _ | text
        · rfl
        · rw [hid] at hblank
          obtain rfl : text = "" := by simpa using hblank
          rfl
      exact absurd (huser.symm.trans hnone) (by simp)

/-- A request without a user that names a chat is given the session that it created. -/
lemma legacySession_created (hlegacy : legacySessionByConversationId P s request = none)
    (hfresh : s.sessions.get? freshUuid = none)
    (hsessions : s'.sessions = s.sessions.insert (newSession P now freshUuid request)) :
    legacySessionByConversationId P s' request =
      if normalize P request.openwebuiConversationId ≠ none ∧ isBlankText request.userId then
        some (newSession P now freshUuid request) else none := by
  unfold legacySessionByConversationId at hlegacy ⊢
  rcases hconv : normalize P request.openwebuiConversationId with _ | conversationId
  · simp
  · rw [hconv] at hlegacy
    dsimp only at hlegacy ⊢
    by_cases hblank : isBlankText request.userId
    · rw [if_pos hblank] at hlegacy ⊢
      have hnone := List.argmin_eq_none.mp hlegacy
      rw [if_pos ⟨by simp, hblank⟩, hsessions, Table.rows_insert hfresh, List.filter_append, hnone]
      have hconv' : (newSession P now freshUuid request).openwebuiConversationId =
          some conversationId := hconv
      have hws : (newSession P now freshUuid request).workspaceUuid = request.workspaceUuid := rfl
      simp [hconv', hws]
    · rw [if_neg hblank, if_neg fun h => hblank h.2]

/-- The session of a resolution is the one that the first of its names leads to. -/
lemma Resolved.of_findSome?_some {sessionUuid : String}
    (h : Resolved P now freshUuid s request aliases session s')
    (hfirst : aliases.findSome? (leadsTo P s request) = some sessionUuid) :
    session.sessionUuid = sessionUuid := by
  rw [findSome?_leadsTo] at hfirst
  cases h with
  | found hfound => simpa [hfound] using hfirst
  | legacy hnone => simp [hnone] at hfirst
  | created hnone => simp [hnone] at hfirst

/-- Where no name leads to a session, that of a resolution is the oldest of the chat or new. -/
lemma Resolved.of_findSome?_none (h : Resolved P now freshUuid s request aliases session s')
    (hnone : aliases.findSome? (leadsTo P s request) = none) :
    legacySessionByConversationId P s request = some session ∧ s'.sessions = s.sessions ∨
      legacySessionByConversationId P s request = none ∧
        session = newSession P now freshUuid request ∧
        s'.sessions = s.sessions.insert (newSession P now freshUuid request) := by
  rw [findSome?_leadsTo] at hnone
  cases h with
  | found hfound => simp [hfound] at hnone
  | legacy _ hlegacy hsessions => exact .inl ⟨hlegacy, hsessions⟩
  | created _ hlegacy hsession hsessions =>
      subst hsession
      exact .inr ⟨hlegacy, rfl, hsessions⟩

lemma legacySession_of_user (huser : ¬ isBlankText request.userId) :
    legacySessionByConversationId P s request = none := by
  unfold legacySessionByConversationId
  rcases normalize P request.openwebuiConversationId with _ | conversationId
  · rfl
  · exact if_neg huser

/-- A plain name that is free or leads to a session leads to that of the request afterwards. -/
lemma plainAliases_findSome? {x : String} {rest : List Alias}
    (hafter : NamesAfter P s s' request (plainAliases P request ++ rest) x)
    (hfirst : ∀ y, (plainAliases P request ++ rest).findSome? (leadsTo P s request) = some y →
      y = x)
    (hplain : ∃ a ∈ plainAliases P request, s.Free P request a ∨ leadsTo P s request a ≠ none) :
    (plainAliases P request).findSome? (leadsTo P s' request) = some x := by
  have hgiven : ∀ a ∈ plainAliases P request, s.Free P request a →
      leadsTo P s' request a = some x := fun a ha =>
    hafter.given a (List.mem_append_left _ ha)
  refine findSome?_eq_some_of_agree (f := leadsTo P s request) (fun a ha => ?_) ?_
  · by_cases hfree : s.Free P request a
    · exact .inr (hgiven a ha hfree)
    · exact .inl (hafter.held a hfree)
  · rcases hsome : (plainAliases P request).findSome? (leadsTo P s request) with _ | y
    · obtain ⟨a, ha, hfree | hleads⟩ := hplain
      · exact .inr ⟨rfl, a, ha, hgiven a ha hfree⟩
      · exact absurd (List.findSome?_eq_none_iff.mp hsome a ha) hleads
    · rw [hfirst y (by rw [List.findSome?_append, hsome]; rfl)]
      exact .inl rfl

/-- A request whose names, if any, are held in other workspaces keeps its session exactly if it is
that of its chat. -/
lemma second_eq_first_plain {first second : ChatSessionRow} {s₁ s₂ : SessionStore}
    (hfresh₁ : s.sessions.get? fresh₁ = none) (hfresh₂ : s₁.sessions.get? fresh₂ = none)
    (hstays : s₁.sessions.get? first.sessionUuid ≠ none)
    (hnone : aliases.findSome? (leadsTo P s request) = none)
    (hnone' : aliases.findSome? (leadsTo P s₁ request) = none)
    (hfirst : Resolved P now₁ fresh₁ s request aliases first s₁)
    (hsecond : Resolved P now₂ fresh₂ s₁ request aliases second s₂) :
    second.sessionUuid = first.sessionUuid ↔
      normalize P request.openwebuiConversationId ≠ none ∧ isBlankText request.userId := by
  rcases hfirst.of_findSome?_none hnone with ⟨hlegacy, hsessions⟩ | ⟨hlegacy, rfl, hsessions⟩
  · have hagain : legacySessionByConversationId P s₁ request = some first := by
      unfold legacySessionByConversationId at hlegacy ⊢
      rwa [hsessions]
    obtain ⟨-, -, -, hblank⟩ := legacySession_spec hlegacy
    have hconv : normalize P request.openwebuiConversationId ≠ none := by
      intro hconv
      unfold legacySessionByConversationId at hlegacy
      simp [hconv] at hlegacy
    rcases hsecond.of_findSome?_none hnone' with ⟨hsame, -⟩ | ⟨hother, -⟩
    · obtain rfl := Option.some_inj.mp (hagain.symm.trans hsame)
      exact iff_of_true rfl ⟨hconv, hblank⟩
    · exact absurd (hagain.symm.trans hother) (by simp)
  · have hagain := legacySession_created hlegacy hfresh₁ hsessions
    rcases hsecond.of_findSome?_none hnone' with ⟨hsame, -⟩ | ⟨hother, rfl, -⟩
    · rw [hagain] at hsame
      split_ifs at hsame with hkeeps
      obtain rfl := Option.some_inj.mp hsame
      exact iff_of_true rfl hkeeps
    · rw [hagain] at hother
      split_ifs at hother with hkeeps
      refine iff_of_false (fun heq => hstays ?_) hkeeps
      rw [← heq]
      exact hfresh₂

/-- A request of a user whose plain names are held in other workspaces keeps its session exactly if
the names of its first message at both times are one and usable, or lead to one session. -/
lemma second_eq_first_fingerprint {first second : ChatSessionRow} {s₁ s₂ : SessionStore}
    {names : List Alias} {p q : Alias} (hfresh₁ : s.sessions.get? fresh₁ = none)
    (hfresh₂ : s₁.sessions.get? fresh₂ = none)
    (hstays : s₁.sessions.get? first.sessionUuid ≠ none) (huser : ¬ isBlankText request.userId)
    (hheld : q ∈ names → ¬ s.Free P request q)
    (hnone : names.findSome? (leadsTo P s request) = none)
    (hnone' : names.findSome? (leadsTo P s₁ request) = none)
    (hfirst : Resolved P now₁ fresh₁ s request (names ++ [p]) first s₁)
    (hafter : NamesAfter P s s₁ request (names ++ [p]) first.sessionUuid)
    (hsecond : Resolved P now₂ fresh₂ s₁ request (names ++ [q]) second s₂) :
    second.sessionUuid = first.sessionUuid ↔
      p = q ∧ (s.Free P request p ∨ leadsTo P s request p ≠ none) ∨
        ∃ x, leadsTo P s request p = some x ∧ leadsTo P s request q = some x := by
  have hfind (t : SessionStore) (r : Alias) (h : names.findSome? (leadsTo P t request) = none) :
      (names ++ [r]).findSome? (leadsTo P t request) = leadsTo P t request r := by
    rw [List.findSome?_append, h, Option.none_or, List.findSome?_singleton]
  -- where the name of the first message leads to a session, that is the first one
  have hfirst_eq : ∀ x, leadsTo P s request p = some x → first.sessionUuid = x := fun x hx =>
    hfirst.of_findSome?_some ((hfind s p hnone).trans hx)
  have hsecond_eq : second.sessionUuid = first.sessionUuid ↔
      leadsTo P s₁ request q = some first.sessionUuid := by
    rcases hq : leadsTo P s₁ request q with _ | y
    · have hcreated := (hsecond.of_findSome?_none ((hfind s₁ q hnone').trans hq)).resolve_left
        fun h => absurd (h.1.symm.trans (legacySession_of_user huser)) (by simp)
      obtain ⟨-, rfl, -⟩ := hcreated
      refine iff_of_false (fun heq => hstays ?_) (by simp)
      rw [← heq]
      exact hfresh₂
    · rw [hsecond.of_findSome?_some ((hfind s₁ q hnone').trans hq), Option.some_inj]
  rw [hsecond_eq]
  by_cases hfree : s.Free P request q
  · have hleads := leadsTo_of_free hfree
    by_cases hpq : p = q
    · subst hpq
      exact iff_of_true (hafter.given p (by simp) hfree) (.inl ⟨rfl, .inl hfree⟩)
    · have hmem : q ∉ names ++ [p] := by
        simp only [List.mem_append, List.mem_singleton, not_or]
        exact ⟨fun hq => hheld hq hfree, fun hq => hpq hq.symm⟩
      rw [hafter.free q hmem hfree, hleads]
      simp [hpq]
  · rw [hafter.held q hfree]
    constructor
    · intro hq
      refine .inr ⟨first.sessionUuid, ?_, hq⟩
      rcases hp : leadsTo P s request p with _ | x
      · -- then the first session is new, and no name led to it
        obtain ⟨-, rfl, -⟩ := (hfirst.of_findSome?_none ((hfind s p hnone).trans hp)).resolve_left
          fun h => absurd (h.1.symm.trans (legacySession_of_user huser)) (by simp)
        exact absurd hfresh₁ (exists_of_leadsTo hq)
      · rw [hfirst_eq x hp]
    · rintro (⟨rfl, hfree' | hleads⟩ | ⟨x, hp, hq⟩)
      · exact absurd hfree' hfree
      · obtain ⟨x, hx⟩ := Option.ne_none_iff_exists'.mp hleads
        rw [hx, hfirst_eq x hx]
      · rw [hq, hfirst_eq x hp]

/-- Which request leads a second time to the session of the first. -/
lemma second_eq_first_iff {first second : ChatSessionRow} {s₁ s₂ : SessionStore}
    {names₁ names₂ : List Alias} (hfresh₁ : s.sessions.get? fresh₁ = none)
    (hfresh₂ : s₁.sessions.get? fresh₂ = none)
    (hnames₁ : candidateAliases P now₁ request = .ok names₁)
    (hnames₂ : candidateAliases P now₂ request = .ok names₂)
    (hfirst : Resolved P now₁ fresh₁ s request names₁ first s₁)
    (hafter : NamesAfter P s s₁ request names₁ first.sessionUuid)
    (hsecond : Resolved P now₂ fresh₂ s₁ request names₂ second s₂) :
    second.sessionUuid = first.sessionUuid ↔ KeepsSession P s request now₁ now₂ := by
  have hat₁ : namesAt P now₁ request = names₁ := by rw [namesAt, hnames₁]; rfl
  have hat₂ : namesAt P now₂ request = names₂ := by rw [namesAt, hnames₂]; rfl
  unfold KeepsSession
  rw [hat₁, hat₂]
  have hstays : s₁.sessions.get? first.sessionUuid ≠ none := by
    obtain ⟨w, hw, -⟩ := hfirst.usable hfresh₁
    intro hnone
    simp [SessionStore.workspace, hnone] at hw
  by_cases hplain : ∃ a ∈ plainAliases P request, s.Free P request a ∨ leadsTo P s request a ≠ none
  · -- a plain name leads to the first session, at both times
    have hmem : ∀ {now names}, candidateAliases P now request = .ok names →
        ∃ rest, names = plainAliases P request ++ rest := by
      intro now names hnames
      rcases namesAt_cases hnames with ⟨heq, -⟩ | ⟨p, heq, -⟩
      · exact ⟨[], by simpa using heq⟩
      · exact ⟨[p], heq⟩
    obtain ⟨rest₁, rfl⟩ := hmem hnames₁
    obtain ⟨rest₂, rfl⟩ := hmem hnames₂
    have hfound := plainAliases_findSome? hafter
      (fun y hy => (hfirst.of_findSome?_some hy).symm) hplain
    obtain ⟨a, ha, husable⟩ := hplain
    refine iff_of_true (hsecond.of_findSome?_some ?_)
      (.inl ⟨a, List.mem_append_left _ ha, List.mem_append_left _ ha, husable⟩)
    rw [List.findSome?_append, hfound]
    rfl
  · -- every plain name is held by a session of another workspace
    push Not at hplain
    have hnone : (plainAliases P request).findSome? (leadsTo P s request) = none :=
      List.findSome?_eq_none_iff.mpr fun a ha => (hplain a ha).2
    have hnone' : (plainAliases P request).findSome? (leadsTo P s₁ request) = none :=
      List.findSome?_eq_none_iff.mpr fun a ha =>
        (hafter.held a (hplain a ha).1).trans (hplain a ha).2
    rcases namesAt_cases hnames₁ with ⟨rfl, hhash⟩ | ⟨p, rfl, hhash, huser⟩
    · obtain ⟨rfl, -⟩ := (namesAt_cases hnames₂).resolve_right (by
        rintro ⟨_, _, hne, _⟩
        exact hne hhash)
      rw [second_eq_first_plain hfresh₁ hfresh₂ hstays hnone hnone' hfirst hsecond]
      constructor
      · exact fun h => .inr (.inl h)
      · rintro (⟨a, ha, -, hfree | hleads⟩ | h | ⟨a, ha, -, -, x, hx, -⟩)
        · exact absurd hfree (hplain a ha).1
        · exact absurd (hplain a ha).2 hleads
        · exact h
        · exact absurd ((hplain a ha).2.symm.trans hx) (by simp)
    · obtain ⟨q, rfl, -, -⟩ := (namesAt_cases hnames₂).resolve_left fun h => hhash h.2
      rw [second_eq_first_fingerprint hfresh₁ hfresh₂ hstays huser
        (fun hq => hplain q hq |>.1) hnone hnone' hfirst hafter hsecond]
      constructor
      · rintro (⟨rfl, husable⟩ | ⟨x, hp, hq⟩)
        · exact .inl ⟨p, by simp, by simp, husable⟩
        · exact .inr (.inr ⟨p, by simp, q, by simp, x, hp, hq⟩)
      · rintro (⟨a, ha, ha', husable⟩ | ⟨-, hblank⟩ | ⟨a, ha, b, hb, x, hx, hx'⟩)
        · by_cases hmem : a ∈ plainAliases P request
          · rcases husable with hfree | hleads
            · exact absurd hfree (hplain a hmem).1
            · exact absurd (hplain a hmem).2 hleads
          · obtain rfl : a = p := by simpa [hmem] using ha
            obtain rfl : a = q := by simpa [hmem] using ha'
            exact .inl ⟨rfl, husable⟩
        · exact absurd hblank huser
        · have hmem : a ∉ plainAliases P request := fun hmem =>
            absurd ((hplain a hmem).2.symm.trans hx) (by simp)
          have hmem' : b ∉ plainAliases P request := fun hmem =>
            absurd ((hplain b hmem).2.symm.trans hx') (by simp)
          obtain rfl : a = p := by simpa [hmem] using ha
          obtain rfl : b = q := by simpa [hmem'] using hb
          exact .inr ⟨x, hx, hx'⟩

/-- A request that is made again leads to the same session, and creates none, exactly if one of its
names is free or leads to a session, or it names a chat and no user; where the name of its first
message has changed with the hour, both may also lead to one session. -/
theorem resolve_twice_iff (hstart : s₀.aliases = .empty) (hruns : Runs (ResolveStep P) s₀ calls s)
    {first : SessionResolutionResult} {s₁ : SessionStore}
    (hfresh₁ : s.sessions.get? fresh₁ = none) (hfresh₂ : s₁.sessions.get? fresh₂ = none)
    (hfirst : resolveSession P now₁ fresh₁ s request = .ok (first, s₁)) :
    (∃ second s₂, resolveSession P now₂ fresh₂ s₁ request = .ok (second, s₂) ∧
        second.session.sessionUuid = first.session.sessionUuid ∧
        s₂.sessions.rows.map ChatSessionRow.sessionUuid =
          s₁.sessions.rows.map ChatSessionRow.sessionUuid) ↔
      KeepsSession P s request now₁ now₂ := by
  obtain ⟨names₁, hnames₁, hholder₁, hresolved₁⟩ := resolveSession_cases hfirst
  have hnames : ∃ names₂, candidateAliases P now₂ request = .ok names₂ := by
    unfold candidateAliases at hnames₁ ⊢
    split at hnames₁
    · exact ⟨_, rfl⟩
    · unfold firstMessageFingerprint at hnames₁ ⊢
      split at hnames₁
      · cases hnames₁
      · exact ⟨_, rfl⟩
  obtain ⟨names₂, hnames₂⟩ := hnames
  have hafter := namesAfter_of_resolved (holdersExist_of_runs hstart hruns) hfresh₁ hholder₁
    hresolved₁
  have hstays : s₁.sessions.get? first.session.sessionUuid ≠ none := by
    obtain ⟨w, hw, -⟩ := hresolved₁.usable hfresh₁
    intro hnone
    simp [SessionStore.workspace, hnone] at hw
  constructor
  · rintro ⟨second, s₂, hsecond, heq, -⟩
    obtain ⟨names₂', hnames₂', -, hresolved₂⟩ := resolveSession_cases hsecond
    exact (second_eq_first_iff hfresh₁ hfresh₂ hnames₁ hnames₂' hresolved₁ hafter hresolved₂).mp heq
  · intro hkeeps
    obtain ⟨second, s₂, hsecond⟩ : ∃ second s₂, resolveSession P now₂ fresh₂ s₁ request =
        .ok (second, s₂) := exists_resolveSession hnames₂
    obtain ⟨names₂', hnames₂', -, hresolved₂⟩ := resolveSession_cases hsecond
    have heq := (second_eq_first_iff hfresh₁ hfresh₂ hnames₁ hnames₂' hresolved₁ hafter
      hresolved₂).mpr hkeeps
    refine ⟨second, s₂, hsecond, heq, ?_⟩
    cases hresolved₂ with
    | found _ hsessions =>
        rw [hsessions]
        unfold SessionStore.updateStableConversationId
        cases normalize P request.openwebuiConversationId with
        | none => rfl
        | some conversationId =>
            dsimp only
            rw [Table.rows_updateWhere, List.map_map]
            refine List.map_congr_left fun row _ => ?_
            rw [Function.comp_apply]
            split_ifs <;> rfl
    | legacy _ _ hsessions => rw [hsessions]
    | created _ _ hsession hsessions =>
        rw [hsession] at heq
        rw [← heq] at hstays
        exact absurd hfresh₂ hstays

end

/-- A request of the user `u` in a workspace, by a client's nonce. -/
def nonceRequest (workspace : String) : SessionResolutionInput :=
  { workspaceUuid := some workspace, projectUuid := none, clientSessionNonce := some "n",
    userId := some "u" }

/-- A request by a nonce that no session has is resolved twice. -/
theorem nonce_resolve_twice_iff :
    (∃ second s₂, resolveSession latinPlatform "2026-06-26T10:06" "s2"
          (resolved "2026-06-26T10:05" "s1" noSessions (nonceRequest "w")).2 (nonceRequest "w") =
            .ok (second, s₂) ∧
        second.session.sessionUuid =
          (resolved "2026-06-26T10:05" "s1" noSessions (nonceRequest "w")).1.session.sessionUuid ∧
        s₂.sessions.rows.map ChatSessionRow.sessionUuid =
          (resolved "2026-06-26T10:05" "s1" noSessions (nonceRequest "w")).2.sessions.rows.map
            ChatSessionRow.sessionUuid) ↔
      KeepsSession latinPlatform noSessions (nonceRequest "w") "2026-06-26T10:05"
        "2026-06-26T10:06" :=
  resolve_twice_iff rfl .refl rfl (by decide) (resolveSession_eq_resolved rfl _ _)

/-- A nonce that belongs to another workspace makes each request create a session. -/
theorem foreign_nonce_creates_sessions : ¬ ∀ calls s request now fresh₁ fresh₂ first s₁,
    Runs (ResolveStep latinPlatform) noSessions calls s → namesAt latinPlatform now request ≠ [] →
    s.sessions.get? fresh₁ = none → s₁.sessions.get? fresh₂ = none →
    resolveSession latinPlatform now fresh₁ s request = .ok (first, s₁) →
    ∃ second s₂, resolveSession latinPlatform now fresh₂ s₁ request = .ok (second, s₂) ∧
      second.session.sessionUuid = first.session.sessionUuid ∧
      s₂.sessions.rows.map ChatSessionRow.sessionUuid =
        s₁.sessions.rows.map ChatSessionRow.sessionUuid := by
  intro h
  let s := (resolved "2026-06-26T10:04" "s0" noSessions (nonceRequest "v")).2
  have hstep : ResolveStep latinPlatform noSessions _ s := resolveStep_resolved rfl rfl
  have hbefore := Runs.refl.tail hstep
  let answer := resolved "2026-06-26T10:05" "s1" s (nonceRequest "w")
  obtain ⟨second, s₂, hsecond, hsame, -⟩ := h _ s (nonceRequest "w") "2026-06-26T10:05" "s1" "s2"
    answer.1 answer.2 hbefore (by decide) (by decide) (by decide)
    (resolveSession_eq_resolved rfl _ _)
  have hanswer : resolved "2026-06-26T10:05" "s2" answer.2 (nonceRequest "w") = (second, s₂) :=
    Except.ok.inj ((resolveSession_eq_resolved rfl _ _).symm.trans hsecond)
  obtain rfl : _ = second := congrArg Prod.fst hanswer
  exact absurd hsame (by decide)

/-! ### Different chats -/

/-- Requests of different chats lead to different sessions. -/
def Isolated (P : Platform) (calls : List ResolveCall) : Prop :=
  ∀ a ∈ calls, ∀ b ∈ calls, ∀ ra rb chat chat', a.answer = .ok ra → b.answer = .ok rb →
    normalize P a.request.openwebuiConversationId = some chat →
    normalize P b.request.openwebuiConversationId = some chat' → chat ≠ chat' →
    ra.session.sessionUuid ≠ rb.session.sessionUuid

/-- A request of a chat that has no name yet: the session that its other names lead to is of that
chat or of none. -/
def LeadsToOwnChat (P : Platform) (s : SessionStore) (call : ResolveCall) : Prop :=
  ∀ chat names session, normalize P call.request.openwebuiConversationId = some chat →
    candidateAliases P call.now call.request = .ok names →
    lookup P s call.request (.openwebuiChatId, chat) = none →
    names.findSome? (lookup P s call.request) = some session →
    session.openwebuiConversationId = none ∨ session.openwebuiConversationId = some chat

/-- The chat of a session, if there is one. -/
def SessionStore.chat (s : SessionStore) (sessionUuid : String) : Option (Option String) :=
  (s.sessions.get? sessionUuid).map ChatSessionRow.openwebuiConversationId

/-- The sessions are of the chats that led to them, and the name of a chat leads to one of its
sessions. -/
structure ChatsApart (P : Platform) (calls : List ResolveCall) (s : SessionStore) : Prop where
  answered : ∀ call ∈ calls, ∀ result chat, call.answer = .ok result →
    normalize P call.request.openwebuiConversationId = some chat →
    s.chat result.session.sessionUuid = some (some chat)
  named : ∀ held user chat, s.holder ((.openwebuiChatId, chat), user) = some held →
    s.chat held.1 = some (some chat)

section

variable {now freshUuid chat : String} {request : SessionResolutionInput} {names : List Alias}
variable {session : ChatSessionRow}

lemma chat_updateStableConversationId (sessionUuid u : String) :
    (s.updateStableConversationId P now sessionUuid request).chat u =
      (s.chat u).map fun c => if u = sessionUuid then
        (normalize P request.openwebuiConversationId).or c else c := by
  unfold SessionStore.updateStableConversationId
  cases normalize P request.openwebuiConversationId with
  | none => simp
  | some conversationId =>
      unfold SessionStore.chat
      dsimp only
      rw [Table.get?_updateWhere, Option.map_map, Option.map_map]
      rcases hrow : s.sessions.get? u with _ | row
      · rfl
      · obtain rfl := Table.key_of_get? hrow
        simp only [Option.map_some, Function.comp_apply, decide_eq_true_eq]
        by_cases huuid : row.sessionUuid = sessionUuid
        · by_cases hconv : row.openwebuiConversationId = some conversationId <;>
            simp [huuid, hconv, ChatSessionRow.ofChat]
        · simp [huuid]

/-- A resolution leaves the chats of the sessions, apart from that of its own session, which becomes
the chat of the request if it names one. -/
lemma Resolved.chat_eq (h : Resolved P now freshUuid s request names session s')
    (hfresh : s.sessions.get? freshUuid = none) (u : String) :
    s'.chat u = if u = session.sessionUuid then
      some ((normalize P request.openwebuiConversationId).or (s.chat u).join) else s.chat u := by
  cases h with
  | found hfound hsessions =>
      obtain ⟨a, -, hlookup⟩ := List.exists_of_findSome?_eq_some hfound
      obtain ⟨hget, -⟩ := mem_of_lookup hlookup
      have hchat : s'.chat u =
          (s.updateStableConversationId P now session.sessionUuid request).chat u := by
        unfold SessionStore.chat
        rw [hsessions]
      rw [hchat, chat_updateStableConversationId]
      by_cases hu : u = session.sessionUuid
      · subst hu
        simp [SessionStore.chat, hget]
      · simp [hu]
  | legacy _ hlegacy hsessions =>
      obtain ⟨hget, -, hconv, -⟩ := legacySession_spec hlegacy
      have hchat : s'.chat u = s.chat u := by
        unfold SessionStore.chat
        rw [hsessions]
      rw [hchat]
      split_ifs with hu
      · subst hu
        rw [SessionStore.chat, hget, Option.map_some, hconv]
        cases normalize P request.openwebuiConversationId <;> rfl
      · rfl
  | created _ _ hsession hsessions =>
      subst hsession
      unfold SessionStore.chat
      rw [hsessions]
      split_ifs with hu
      · have hself := Table.get?_insert_self (r := newSession P now freshUuid request) hfresh
        have hnone : s.sessions.get? (newSession P now freshUuid request).sessionUuid = none := hfresh
        rw [hu, hself, hnone]
        simp [newSession]
      · rcases Table.get?_insert (t := s.sessions) (newSession P now freshUuid request) u with
          hsame | ⟨-, hkey, -⟩
        · rw [hsame]
        · exact absurd hkey.symm hu

lemma mem_candidateAliases_chat (hnames : candidateAliases P now request = .ok names) :
    (.openwebuiChatId, chat) ∈ names ↔ normalize P request.openwebuiConversationId = some chat := by
  have hplain : (.openwebuiChatId, chat) ∈ plainAliases P request ↔
      normalize P request.openwebuiConversationId = some chat := by
    unfold plainAliases
    simp [Prod.ext_iff]
  unfold candidateAliases at hnames
  split at hnames
  · cases hnames
    exact hplain
  · unfold firstMessageFingerprint at hnames
    split at hnames
    · cases hnames
    · cases hnames
      simp [hplain]

/-- The name of the chat is tried first. -/
lemma candidateAliases_eq_cons (hnames : candidateAliases P now request = .ok names)
    (hchat : normalize P request.openwebuiConversationId = some chat) :
    ∃ rest, names = (.openwebuiChatId, chat) :: rest := by
  unfold candidateAliases plainAliases at hnames
  rw [hchat] at hnames
  split at hnames
  · cases hnames
    exact ⟨_, rfl⟩
  · unfold firstMessageFingerprint at hnames
    split at hnames
    · cases hnames
    · cases hnames
      exact ⟨_, rfl⟩

/-- A resolution that leads to a session of its chat keeps every session in its chat. -/
lemma ChatsApart.chat_before (h : ChatsApart P calls s)
    (hown : LeadsToOwnChat P s call) (hfresh : s.sessions.get? call.freshUuid = none)
    (hnames : candidateAliases P call.now call.request = .ok names)
    (hresolved : Resolved P call.now call.freshUuid s call.request names session s')
    (hchat : normalize P call.request.openwebuiConversationId = some chat) {other : String}
    (hother : s.chat session.sessionUuid = some (some other)) : other = chat := by
  cases hresolved with
  | found hfound =>
      rcases hlookup : lookup P s call.request (.openwebuiChatId, chat) with _ | session'
      · obtain ⟨a, -, hlookup'⟩ := List.exists_of_findSome?_eq_some hfound
        have hsession : s.chat session.sessionUuid = some session.openwebuiConversationId := by
          rw [SessionStore.chat, (mem_of_lookup hlookup').1, Option.map_some]
        rw [hsession, Option.some_inj] at hother
        rcases hown chat names session hchat hnames hlookup hfound with hnone | hsame
        · exact absurd (hnone.symm.trans hother) (by simp)
        · exact Option.some_inj.mp (hother.symm.trans hsame)
      · obtain ⟨rest, rfl⟩ := candidateAliases_eq_cons hnames hchat
        rw [List.findSome?_cons, hlookup, Option.some_inj] at hfound
        subst hfound
        obtain ⟨halias, -⟩ := Option.filter_eq_some_iff.mp hlookup
        obtain ⟨held, hheld, hget⟩ := Option.bind_eq_some_iff.mp halias
        have hnamed := h.named held _ chat (Option.filter_eq_some_iff.mp hheld).1
        rw [← Table.key_of_get? hget, hother] at hnamed
        simpa using hnamed
  | legacy _ hlegacy =>
      obtain ⟨hget, -, hconv, -⟩ := legacySession_spec hlegacy
      rw [SessionStore.chat, hget, Option.map_some, hconv, hchat] at hother
      simpa using hother.symm
  | created _ _ hsession =>
      subst hsession
      have hnone : s.sessions.get? (newSession P call.now call.freshUuid call.request).sessionUuid =
          none := hfresh
      rw [SessionStore.chat, hnone] at hother
      cases hother

/-- A request that leads to a session of its chat keeps the chats apart. -/
lemma ChatsApart.step (h : ChatsApart P calls s) (hstep : ResolveStep P s call s')
    (hown : LeadsToOwnChat P s call) : ChatsApart P (calls ++ [call]) s' := by
  obtain ⟨hfresh, ⟨result, hresolve, hanswer⟩ | ⟨error, -, hanswer, rfl⟩⟩ := hstep
  · obtain ⟨names, hnames, hholder, hresolved⟩ := resolveSession_cases hresolve
    have hkeeps : ∀ u chat, s.chat u = some (some chat) → s'.chat u = some (some chat) := by
      intro u chat hu
      rw [hresolved.chat_eq hfresh]
      split_ifs with hsession
      · rcases hchat : normalize P call.request.openwebuiConversationId with _ | chat'
        · rw [hu]
          rfl
        · rw [hsession] at hu
          rw [h.chat_before hown hfresh hnames hresolved hchat hu]
          rfl
      · exact hu
    have hnew : ∀ chat, normalize P call.request.openwebuiConversationId = some chat →
        s'.chat result.session.sessionUuid = some (some chat) := by
      intro chat hchat
      rw [hresolved.chat_eq hfresh, if_pos rfl, hchat]
      rfl
    refine ⟨fun call' hcall result' chat hresult hchat => ?_, fun held user chat hheld => ?_⟩
    · rcases List.mem_append.mp hcall with hold | hlast
      · exact hkeeps _ _ (h.answered call' hold result' chat hresult hchat)
      · obtain rfl := List.mem_singleton.mp hlast
        obtain rfl := Except.ok.inj (hanswer.symm.trans hresult)
        exact hnew chat hchat
    · rw [hholder] at hheld
      rcases hbefore : s.holder ((.openwebuiChatId, chat), user) with _ | held'
      · rw [hbefore, Option.none_or] at hheld
        split_ifs at hheld with hmem
        obtain rfl := Option.some_inj.mp hheld
        obtain ⟨a, ha, hkey⟩ := List.mem_map.mp hmem
        obtain rfl : a = (.openwebuiChatId, chat) := congrArg Prod.fst hkey
        exact hnew chat ((mem_candidateAliases_chat hnames).mp ha)
      · rw [hbefore, Option.some_or] at hheld
        obtain rfl := Option.some_inj.mp hheld
        exact hkeeps _ _ (h.named held' user chat hbefore)
  · refine ⟨fun call' hcall result' chat hresult hchat => ?_, h.named⟩
    rcases List.mem_append.mp hcall with hold | hlast
    · exact h.answered call' hold result' chat hresult hchat
    · obtain rfl := List.mem_singleton.mp hlast
      exact absurd (hanswer.symm.trans hresult) (by simp)

end

/-- Requests of different chats lead to different sessions, as long as the names of a chat that is
not known yet lead to no session of another chat. -/
theorem isolated_of_runs (hstart : s₀.aliases = .empty)
    (hruns : Runs (fun s call s' => ResolveStep P s call s' ∧ LeadsToOwnChat P s call) s₀ calls s) :
    Isolated P calls := by
  have hapart : ChatsApart P calls s := by
    induction hruns with
    | refl => exact ⟨by simp, fun held user chat hheld => by simp [SessionStore.holder, hstart] at hheld⟩
    | tail _ hstep ih => exact ih.step hstep.1 hstep.2
  intro a ha b hb ra rb chat chat' hra hrb hchat hchat' hne heq
  have hsame := hapart.answered a ha ra chat hra hchat
  rw [heq, hapart.answered b hb rb chat' hrb hchat'] at hsame
  exact hne (by simpa using hsame.symm)

/-- A request of the user `u` in the workspace `w`, by a chat and its first message. -/
def chatRequest (chat firstMessageHash : String) : SessionResolutionInput :=
  { workspaceUuid := some "w", projectUuid := none, openwebuiConversationId := some chat,
    firstMessageHash := some firstMessageHash, userId := some "u" }

/-- The first request of a chat, at a time on a store. -/
def chatCall (now freshUuid : String) (s : SessionStore) (chat firstMessageHash : String) :
    ResolveCall :=
  ⟨now, freshUuid, chatRequest chat firstMessageHash,
    .ok (resolved now freshUuid s (chatRequest chat firstMessageHash)).1⟩

/-- The store after the first request of the chat `A`. -/
def afterChatA : SessionStore :=
  (resolved "2026-06-26T10:05" "s1" noSessions (chatRequest "A" "tea")).2

lemma chatA_step : ResolveStep latinPlatform noSessions
    (chatCall "2026-06-26T10:05" "s1" noSessions "A" "tea") afterChatA :=
  resolveStep_resolved rfl rfl

lemma chatB_step (firstMessageHash : String)
    {names : List Alias} (hnames : candidateAliases latinPlatform "2026-06-26T10:06"
      (chatRequest "B" firstMessageHash) = .ok names) : ResolveStep latinPlatform afterChatA
    (chatCall "2026-06-26T10:06" "s2" afterChatA "B" firstMessageHash)
    (resolved "2026-06-26T10:06" "s2" afterChatA (chatRequest "B" firstMessageHash)).2 :=
  resolveStep_resolved hnames (by decide)

lemma leadsToOwnChat_of_none
    (h : (namesAt P call.now call.request).findSome? (lookup P s call.request) = none) :
    LeadsToOwnChat P s call := by
  intro chat names session _ hnames _ hfound
  have hat : namesAt P call.now call.request = names := by rw [namesAt, hnames]; rfl
  rw [← hat, h] at hfound
  cases hfound

/-- Two chats that begin with different words are apart. -/
theorem chats_isolated : Isolated latinPlatform
    [chatCall "2026-06-26T10:05" "s1" noSessions "A" "tea",
      chatCall "2026-06-26T10:06" "s2" afterChatA "B" "coffee"] :=
  have hfirst := Runs.refl.tail (And.intro chatA_step (leadsToOwnChat_of_none (by decide)))
  isolated_of_runs rfl
    (hfirst.tail ⟨chatB_step "coffee" rfl, leadsToOwnChat_of_none (by decide)⟩)

/-- Two chats that begin with the same words in one hour share a session. -/
theorem same_first_message_shares_session : ¬ ∀ calls s, Runs (fun s call s' =>
      ResolveStep latinPlatform s call s' ∧ call.request.userId = some "u" ∧
        call.request.workspaceUuid = some "w") noSessions calls s →
    Isolated latinPlatform calls := by
  intro h
  have hisolated := h _ _ ((Runs.refl.tail ⟨chatA_step, rfl, rfl⟩).tail
    ⟨chatB_step "tea" rfl, rfl, rfl⟩)
  exact hisolated (chatCall "2026-06-26T10:05" "s1" noSessions "A" "tea") (by simp)
    (chatCall "2026-06-26T10:06" "s2" afterChatA "B" "tea") (by simp)
    (resolved "2026-06-26T10:05" "s1" noSessions (chatRequest "A" "tea")).1
    (resolved "2026-06-26T10:06" "s2" afterChatA (chatRequest "B" "tea")).1
    "A" "B" rfl rfl rfl rfl (by decide) (by decide)

end

end Memorist
