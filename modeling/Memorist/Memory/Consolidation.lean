import Memorist.Storage.Conversation
import Memorist.Storage.Memories
import Memorist.Text.CanonicalHash

/-!
Consolidation of candidates into memories (`memory_worker/consolidation/consolidator.py`,
`memory_worker/consolidation/resolver.py`, `memory_worker/consolidation/canonical_keys.py`,
`repositories/memory_worker.py`).

* `canonicalKeyForCandidate`, `findByCanonicalKey`: the memory a candidate is about;
* `DeterministicResolver.resolve`: what the candidate means for the version it meets;
* `consolidateCandidate`: the decision and what it writes;
* `Consolidated`, `consolidateCandidate_cases`: all that a decision can write.
-/

namespace Memorist

/-! ### Canonical keys -/

/-- `re.sub(r"\s+", "_", text)`; the flag says that the character before was a space. -/
def underscoreSpaces (U : UnicodeData) : Bool → Text → Text
  | _, [] => []
  | inRun, c :: rest =>
      if U.isspace c then
        if inRun then underscoreSpaces U true rest else '_' :: underscoreSpaces U true rest
      else c :: underscoreSpaces U false rest

/-- The characters of a key: `[a-z0-9_\-\u0600-\u06ff]`. -/
def isSlugChar (c : Char) : Bool :=
  ('a' ≤ c && c ≤ 'z') || ('0' ≤ c && c ≤ '9') || c == '_' || c == '-' ||
    (0x0600 ≤ c.toNat && c.toNat ≤ 0x06FF)

/-- A value as a part of a key. -/
def slug (U : UnicodeData) (value : Text) : Text :=
  (underscoreSpaces U false (U.lowerText (U.strip value))).filter isSlugChar

/-- Python's `value or default`. -/
def orDefault (value : Option String) (default : String) : Text :=
  match value with
  | none => default.toList
  | some s => if s = "" then default.toList else s.toList

/-- The key of the memory that a candidate is about. -/
def canonicalKeyForCandidate (U : UnicodeData) (candidate : MemoryCandidate) : Text :=
  let subject := slug U (orDefault candidate.subjectKey "unknown")
  let predicate := slug U (orDefault candidate.predicate candidate.candidateType.value)
  candidate.candidateType.value.toList ++ ':' :: (subject ++ ':' :: predicate)

/-- The scope of the memories of a session. -/
def scopeForSession (session : SessionRow) : String × Option String :=
  match session.projectUuid, session.workspaceUuid with
  | some projectUuid, _ => ("project", some projectUuid)
  | none, some workspaceUuid => ("workspace", some workspaceUuid)
  | none, none => ("session", some session.sessionUuid)

/-- The memory of a key in a scope, whatever its status. -/
def MemoryStore.findByCanonicalKey (store : MemoryStore) (scopeType : String)
    (scopeUuid : Option String) (canonicalKey : Text) : Option MemoryRow :=
  store.memories.rows.find? fun memory =>
    memory.scopeType = scopeType && memory.scopeUuid.getD "" = scopeUuid.getD "" &&
      memory.canonicalKey = canonicalKey

/-! ### The decision -/

/-- Whether two polarities disagree. -/
def polaritiesContradict (existing new : SemanticPolarity) : Bool :=
  if existing = .unknown ∨ new = .unknown then false else existing ≠ new

/-- What a candidate means for the version it meets. -/
def DeterministicResolver.resolve (candidate : MemoryCandidate)
    (currentVersion : Option MemoryVersionRow) : ConsolidationOperation × List String :=
  if candidate.status = .rejected then (.reject, ["candidate_rejected"])
  else if candidate.status = .needsReview then (.manualReview, ["candidate_needs_review"])
  else if candidate.predicate = some "forget_request" then
    (.manualReview, ["forget_requires_authorized_workflow"])
  else match currentVersion with
    | none => (.add, ["no_existing_memory"])
    | some current =>
        if current.normalizedText = candidate.normalizedText then (.reinforce, ["same_value"])
        else if polaritiesContradict current.polarity candidate.polarity then
          (.contradict, ["conflicting_value"])
        else (.supersede, ["newer_value"])

/-- The change of a version that an operation writes. -/
def changeOperationFor : ConsolidationOperation → ChangeOperation
  | .add => .add
  | .update => .update
  | .supersede => .supersede
  | .contradict => .contradict
  | .retract => .retract
  | .forget => .forget
  | .reinforce => .reinforce
  | _ => .add

/-- What the other tables hold of a candidate. -/
structure CandidateSource (candidateUuid : String) where
  candidate : Option MemoryCandidate
  evidence : List CandidateEvidence
  session : Option SessionRow
  named : ∀ row, candidate = some row → row.candidateUuid = candidateUuid

/-- The names and the time that a writer draws. -/
structure Stamp where
  memoryUuid : String
  memoryVersionUuid : String
  now : Timestamp
  deriving DecidableEq, Repr

/-- The reason that a version of a candidate carries. -/
def changeReason (candidate : MemoryCandidate) (operation : ConsolidationOperation) : IJson :=
  .obj
    [field "operation" (jsonString operation.value),
     field "candidate_status" (jsonString candidate.status.value),
     field "rejection_reason_codes"
       (.arr ((candidate.rejectionReasonCodes.getD []).map jsonString))]

/-- The memory that a candidate makes. -/
def newMemory (U : UnicodeData) (candidate : MemoryCandidate) (session : SessionRow)
    (stamp : Stamp) : MemoryRow where
  memoryUuid := stamp.memoryUuid
  canonicalKey := canonicalKeyForCandidate U candidate
  memoryType := candidate.candidateType.value
  scopeType := (scopeForSession session).1
  scopeUuid := (scopeForSession session).2
  sensitivityClass := candidate.sensitivityClass

/-- The version that a candidate makes. -/
def versionFor (U : UnicodeData) (candidate : MemoryCandidate) (memoryUuid : String)
    (versionNumber : ℕ) (operation : ConsolidationOperation) (stamp : Stamp) :
    Except String MemoryVersionRow := do
  let reason ← dumpIjson U (changeReason candidate operation)
  pure
    { memoryVersionUuid := stamp.memoryVersionUuid
      memoryUuid := memoryUuid
      versionNumber := versionNumber
      normalizedText := candidate.normalizedText
      valueIjson := candidate.objectIjson
      polarity := candidate.polarity
      transactionFrom := stamp.now
      sourceCandidateUuid := candidate.candidateUuid
      changeOperation := changeOperationFor operation
      changeReasonIjson := reason }

namespace MemoryStore

variable (store : MemoryStore)

/-- Record a decision, unless the candidate has one. -/
def recordDecision (decision : MemoryConsolidationDecision) :
    MemoryConsolidationDecision × MemoryStore :=
  match store.decisions.get? decision.candidateUuid with
  | some existing => (existing, store)
  | none => (decision, { store with decisions := store.decisions.insert decision })

/-- The decision on a candidate that names a version of a memory. -/
def decisionOn (candidateUuid : String) (resolution : ConsolidationOperation × List String)
    (version : MemoryVersionRow) : MemoryConsolidationDecision where
  candidateUuid := candidateUuid
  operation := resolution.1
  reasonCodes := resolution.2
  targetMemoryUuid := version.memoryUuid
  targetMemoryVersionUuid := version.memoryVersionUuid

/-- A decision that writes nothing else. -/
def recordDecisionOnly (candidateUuid : String)
    (resolution : ConsolidationOperation × List String) :
    MemoryConsolidationDecision × MemoryStore :=
  store.recordDecision ⟨candidateUuid, resolution.1, resolution.2, none, none⟩

/-- A new memory with its first version, in one transaction. -/
def createMemoryWithVersion (memory : MemoryRow) (version : MemoryVersionRow)
    (candidateUuid : String) (resolution : ConsolidationOperation × List String) :
    Except String (MemoryConsolidationDecision × MemoryStore) := do
  let store ← store.insertMemory memory
  let store ← store.insertVersion version
  let store := store.setCurrent memory.memoryUuid version.memoryVersionUuid
  pure (store.recordDecision (decisionOn candidateUuid resolution version))

/-- A further version of a memory, in one transaction. -/
def createVersionForMemory (memory : MemoryRow) (version : MemoryVersionRow)
    (candidateUuid : String) (resolution : ConsolidationOperation × List String)
    (closePrevious : Bool) (now : Timestamp) :
    Except String (MemoryConsolidationDecision × MemoryStore) := do
  let store := if closePrevious then store.closeCurrent memory now else store
  let store ← store.insertVersion version
  let store := store.setCurrent memory.memoryUuid version.memoryVersionUuid
  pure (store.recordDecision (decisionOn candidateUuid resolution version))

/-- A decision that adds evidence to the current version. -/
def recordReinforcement (version : MemoryVersionRow) (candidateUuid : String)
    (reasonCodes : List String) : MemoryConsolidationDecision × MemoryStore :=
  store.recordDecision (decisionOn candidateUuid (.reinforce, reasonCodes) version)

/-- The memory that a candidate of a session is about. -/
def memoryFor (U : UnicodeData) (candidate : MemoryCandidate) (session : SessionRow) :
    Option MemoryRow :=
  store.findByCanonicalKey (scopeForSession session).1 (scopeForSession session).2
    (canonicalKeyForCandidate U candidate)

/-- Decide on a candidate. -/
def consolidateCandidate (U : UnicodeData) {candidateUuid : String}
    (source : CandidateSource candidateUuid) (stamp : Stamp) :
    Except String (MemoryConsolidationDecision × MemoryStore) :=
  match store.decisions.get? candidateUuid with
  | some existing => .ok (existing, store)
  | none => match source.candidate with
    | none => .error ("Candidate not found: " ++ candidateUuid)
    | some candidate =>
        if source.evidence = [] then
          .ok (store.recordDecisionOnly candidateUuid (.reject, ["missing_evidence"]))
        else match source.session with
          | none => .error ("Session not found for candidate: " ++ candidate.candidateUuid)
          | some session =>
              let memory := store.memoryFor U candidate session
              let currentVersion := memory.bind store.currentVersion
              let resolution := DeterministicResolver.resolve candidate currentVersion
              if resolution.1 ∈ [.reject, .manualReview, .noop] then
                .ok (store.recordDecisionOnly candidateUuid resolution)
              else match memory with
                | none => do
                    let memory := newMemory U candidate session stamp
                    let version ← versionFor U candidate memory.memoryUuid 1 resolution.1 stamp
                    store.createMemoryWithVersion memory version candidate.candidateUuid resolution
                | some memory =>
                    match resolution.1, currentVersion with
                    | .reinforce, some current =>
                        .ok (store.recordReinforcement current candidate.candidateUuid resolution.2)
                    | .contradict, _ =>
                        .ok (store.recordDecisionOnly candidate.candidateUuid resolution)
                    | operation, current => do
                        let versionNumber := match current with
                          | none => 1
                          | some current => current.versionNumber + 1
                        let version ← versionFor U candidate memory.memoryUuid versionNumber
                          operation stamp
                        store.createVersionForMemory memory version candidate.candidateUuid
                          resolution (operation = .supersede) stamp.now

/-! ### What a decision writes -/

variable {store} {U : UnicodeData} {candidateUuid : String}

/-- A decision on a candidate and the store after it. -/
inductive Consolidated (store : MemoryStore) (U : UnicodeData) {candidateUuid : String}
    (source : CandidateSource candidateUuid) (stamp : Stamp) :
    MemoryConsolidationDecision → MemoryStore → Prop
  /-- The candidate had a decision. -/
  | decided {decision : MemoryConsolidationDecision}
      (h : store.decisions.get? candidateUuid = some decision) :
      Consolidated store U source stamp decision store
  /-- The decision is all that is written. -/
  | noted {decision : MemoryConsolidationDecision}
      (hnew : store.decisions.get? candidateUuid = none)
      (hop : decision.operation ∉ [.add, .reinforce, .supersede])
      (htarget : decision.targetMemoryVersionUuid = none) :
      Consolidated store U source stamp decision
        { store with decisions := store.decisions.insert decision }
  /-- There is no memory of the key. -/
  | created {candidate : MemoryCandidate} {session : SessionRow} {reasons : List String}
      {version : MemoryVersionRow} {s s' : MemoryStore}
      (hnew : store.decisions.get? candidateUuid = none)
      (hcandidate : source.candidate = some candidate) (hsession : source.session = some session)
      (hmemory : store.memoryFor U candidate session = none)
      (hversion : versionFor U candidate stamp.memoryUuid 1 .add stamp = .ok version)
      (hinsert : store.insertMemory (newMemory U candidate session stamp) = .ok s)
      (hinsert' : s.insertVersion version = .ok s') :
      Consolidated store U source stamp (decisionOn candidateUuid (.add, reasons) version)
        { s'.setCurrent stamp.memoryUuid version.memoryVersionUuid with
          decisions := s'.decisions.insert (decisionOn candidateUuid (.add, reasons) version) }
  /-- The current version of the memory says the same. -/
  | reinforced {candidate : MemoryCandidate} {session : SessionRow} {reasons : List String}
      {memory : MemoryRow} {current : MemoryVersionRow}
      (hnew : store.decisions.get? candidateUuid = none)
      (hcandidate : source.candidate = some candidate) (hsession : source.session = some session)
      (hmemory : store.memoryFor U candidate session = some memory)
      (hcurrent : store.currentVersion memory = some current)
      (htext : current.normalizedText = candidate.normalizedText) :
      Consolidated store U source stamp (decisionOn candidateUuid (.reinforce, reasons) current)
        { store with
          decisions := store.decisions.insert
            (decisionOn candidateUuid (.reinforce, reasons) current) }
  /-- The memory has no version. -/
  | added {candidate : MemoryCandidate} {session : SessionRow} {reasons : List String}
      {memory : MemoryRow} {version : MemoryVersionRow} {s' : MemoryStore}
      (hnew : store.decisions.get? candidateUuid = none)
      (hcandidate : source.candidate = some candidate) (hsession : source.session = some session)
      (hmemory : store.memoryFor U candidate session = some memory)
      (hcurrent : store.currentVersion memory = none)
      (hversion : versionFor U candidate memory.memoryUuid 1 .add stamp = .ok version)
      (hinsert : store.insertVersion version = .ok s') :
      Consolidated store U source stamp (decisionOn candidateUuid (.add, reasons) version)
        { s'.setCurrent memory.memoryUuid version.memoryVersionUuid with
          decisions := s'.decisions.insert (decisionOn candidateUuid (.add, reasons) version) }
  /-- The current version of the memory says something else. -/
  | superseded {candidate : MemoryCandidate} {session : SessionRow} {reasons : List String}
      {memory : MemoryRow} {current version : MemoryVersionRow} {s' : MemoryStore}
      (hnew : store.decisions.get? candidateUuid = none)
      (hcandidate : source.candidate = some candidate) (hsession : source.session = some session)
      (hmemory : store.memoryFor U candidate session = some memory)
      (hcurrent : store.currentVersion memory = some current)
      (hversion : versionFor U candidate memory.memoryUuid (current.versionNumber + 1) .supersede
        stamp = .ok version)
      (hinsert : (store.closeCurrent memory stamp.now).insertVersion version = .ok s') :
      Consolidated store U source stamp (decisionOn candidateUuid (.supersede, reasons) version)
        { s'.setCurrent memory.memoryUuid version.memoryVersionUuid with
          decisions := s'.decisions.insert
            (decisionOn candidateUuid (.supersede, reasons) version) }

lemma recordDecision_of_new {decision : MemoryConsolidationDecision}
    (h : store.decisions.get? decision.candidateUuid = none) :
    store.recordDecision decision =
      (decision, { store with decisions := store.decisions.insert decision }) := by
  rw [recordDecision, h]

/-- What a transaction that creates a memory writes. -/
lemma createMemoryWithVersion_eq_ok {memory : MemoryRow} {version : MemoryVersionRow}
    {resolution : ConsolidationOperation × List String} {result : MemoryConsolidationDecision ×
      MemoryStore} (hnew : store.decisions.get? candidateUuid = none)
    (h : store.createMemoryWithVersion memory version candidateUuid resolution = .ok result) :
    ∃ s s', store.insertMemory memory = .ok s ∧ s.insertVersion version = .ok s' ∧
      result = (decisionOn candidateUuid resolution version,
        { s'.setCurrent memory.memoryUuid version.memoryVersionUuid with
          decisions := s'.decisions.insert (decisionOn candidateUuid resolution version) }) := by
  obtain ⟨s, hs, h⟩ := Checks.bind_eq_ok.mp h
  obtain ⟨s', hs', h⟩ := Checks.bind_eq_ok.mp h
  refine ⟨s, s', hs, hs', ?_⟩
  rw [Checks.pure_eq_ok, recordDecision_of_new] at h
  · exact h.symm
  · obtain ⟨-, rfl⟩ := insertMemory_eq_ok hs
    obtain ⟨-, rfl⟩ := insertVersion_eq_ok hs'
    exact hnew

/-- What a transaction that adds a version writes. -/
lemma createVersionForMemory_eq_ok {memory : MemoryRow} {version : MemoryVersionRow}
    {resolution : ConsolidationOperation × List String} {closePrevious : Bool} {now : Timestamp}
    {result : MemoryConsolidationDecision × MemoryStore}
    (hnew : store.decisions.get? candidateUuid = none)
    (h : store.createVersionForMemory memory version candidateUuid resolution closePrevious now =
      .ok result) :
    ∃ s', (if closePrevious then store.closeCurrent memory now else store).insertVersion version =
        .ok s' ∧
      result = (decisionOn candidateUuid resolution version,
        { s'.setCurrent memory.memoryUuid version.memoryVersionUuid with
          decisions := s'.decisions.insert (decisionOn candidateUuid resolution version) }) := by
  obtain ⟨s', hs', h⟩ := Checks.bind_eq_ok.mp h
  refine ⟨s', hs', ?_⟩
  rw [Checks.pure_eq_ok, recordDecision_of_new] at h
  · exact h.symm
  · obtain ⟨-, rfl⟩ := insertVersion_eq_ok hs'
    refine Eq.trans ?_ hnew
    split_ifs
    · exact congrArg (Table.get? · candidateUuid) closeCurrent_decisions
    · rfl

/-- What a candidate means, by the version it meets. -/
lemma resolve_cases (candidate : MemoryCandidate) (current : Option MemoryVersionRow) :
    ∃ op reasons, DeterministicResolver.resolve candidate current = (op, reasons) ∧
      (op ∈ [.reject, .manualReview] ∨ current = none ∧ op = .add ∨
        ∃ version, current = some version ∧
          (op = .reinforce ∧ version.normalizedText = candidate.normalizedText ∨
            op = .contradict ∨ op = .supersede)) := by
  unfold DeterministicResolver.resolve
  split_ifs
  · exact ⟨_, _, rfl, .inl (by simp)⟩
  · exact ⟨_, _, rfl, .inl (by simp)⟩
  · exact ⟨_, _, rfl, .inl (by simp)⟩
  · cases current with
    | none => exact ⟨_, _, rfl, .inr (.inl ⟨rfl, rfl⟩)⟩
    | some version =>
        dsimp only
        split_ifs with htext
        · exact ⟨_, _, rfl, .inr (.inr ⟨version, rfl, .inl ⟨rfl, htext⟩⟩)⟩
        · exact ⟨_, _, rfl, .inr (.inr ⟨version, rfl, .inr (.inl rfl)⟩)⟩
        · exact ⟨_, _, rfl, .inr (.inr ⟨version, rfl, .inr (.inr rfl)⟩)⟩

/-- All that a decision writes. -/
theorem consolidateCandidate_cases {source : CandidateSource candidateUuid} {stamp : Stamp}
    {decision : MemoryConsolidationDecision} {s' : MemoryStore}
    (h : store.consolidateCandidate U source stamp = .ok (decision, s')) :
    Consolidated store U source stamp decision s' := by
  unfold consolidateCandidate at h
  rcases hnew : store.decisions.get? candidateUuid with _ | existing
  case some =>
    simp only [hnew, Except.ok.injEq, Prod.mk.injEq] at h
    obtain ⟨rfl, rfl⟩ := h
    exact .decided hnew
  simp only [hnew] at h
  -- a decision that is only noted
  have hnoted : ∀ resolution : ConsolidationOperation × List String,
      resolution.1 ∉ [.add, .reinforce, .supersede] →
      Except.ok (ε := String) (store.recordDecisionOnly candidateUuid resolution) =
        .ok (decision, s') → Consolidated store U source stamp decision s' := by
    intro resolution hop hok
    rw [recordDecisionOnly, recordDecision_of_new hnew, Except.ok.injEq, Prod.mk.injEq] at hok
    obtain ⟨rfl, rfl⟩ := hok
    exact .noted hnew hop rfl
  rcases hcandidate : source.candidate with _ | candidate
  case none => simp [hcandidate] at h
  have hnamed := source.named candidate hcandidate
  simp only [hcandidate] at h
  split_ifs at h with hevidence
  · exact hnoted _ (by simp) h
  rcases hsession : source.session with _ | session
  case none => simp [hsession] at h
  simp only [hsession, hnamed] at h
  obtain ⟨op, reasons, hresolve, hcases⟩ :=
    resolve_cases candidate ((store.memoryFor U candidate session).bind store.currentVersion)
  simp only [hresolve] at h
  rcases hcases with hop | ⟨hcurrent, rfl⟩ | ⟨current, hcurrent, hop⟩
  · rw [if_pos (by fin_cases hop <;> simp)] at h
    exact hnoted _ (by fin_cases hop <;> simp) h
  · rw [if_neg (by simp)] at h
    rcases hmemory : store.memoryFor U candidate session with _ | memory
    · simp only [hmemory] at h
      obtain ⟨version, hversion, h⟩ := Checks.bind_eq_ok.mp h
      obtain ⟨s, t, hs, ht, hresult⟩ := createMemoryWithVersion_eq_ok hnew h
      obtain ⟨rfl, rfl⟩ := Prod.mk.inj hresult
      exact .created hnew hcandidate hsession hmemory hversion hs ht
    · rw [hmemory, Option.bind_some] at hcurrent
      simp only [hmemory, Option.bind_some, hcurrent] at h
      obtain ⟨version, hversion, h⟩ := Checks.bind_eq_ok.mp h
      obtain ⟨t, ht, hresult⟩ := createVersionForMemory_eq_ok hnew h
      obtain ⟨rfl, rfl⟩ := Prod.mk.inj hresult
      exact .added hnew hcandidate hsession hmemory hcurrent hversion ht
  · obtain ⟨memory, hmemory, hcurrent⟩ := Option.bind_eq_some_iff.mp hcurrent
    rcases hop with ⟨rfl, htext⟩ | rfl | rfl
    · rw [if_neg (by simp)] at h
      simp only [hmemory, Option.bind_some, hcurrent] at h
      rw [recordReinforcement, recordDecision_of_new hnew, Except.ok.injEq, Prod.mk.injEq] at h
      obtain ⟨rfl, rfl⟩ := h
      exact .reinforced hnew hcandidate hsession hmemory hcurrent htext
    · rw [if_neg (by simp)] at h
      simp only [hmemory] at h
      exact hnoted _ (by simp) h
    · rw [if_neg (by simp)] at h
      simp only [hmemory, Option.bind_some, hcurrent] at h
      obtain ⟨version, hversion, h⟩ := Checks.bind_eq_ok.mp h
      obtain ⟨t, ht, hresult⟩ := createVersionForMemory_eq_ok hnew h
      obtain ⟨rfl, rfl⟩ := Prod.mk.inj hresult
      exact .superseded hnew hcandidate hsession hmemory hcurrent hversion ht

end MemoryStore

end Memorist
