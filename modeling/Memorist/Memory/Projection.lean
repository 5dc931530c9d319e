import Memorist.Library.Runs
import Memorist.Memory.VersionChain

/-!
The projection of memories to the graph, and the evidence of their versions
(`repositories/memory_worker.py`, `governance/correction.py`).

* `enqueueProjection`, `markOutboxSucceeded`, `markOutboxRetry`: the items, one for each operation on
  an aggregate;
* `linkEvidence`: the evidence of a version;
* `ProjectionCommand`, `ProjectedStore.perform`: consolidations, corrections and undos, with what they
  enqueue in their transaction, and the processing of the outbox;
* `installs`: the memory that a command gives a new version, and the operation;
* `projections_kept_iff`: **every new version is projected exactly when no operation on a memory is
  repeated.**
-/

namespace Memorist

/-! ### Rows -/

/-- The statuses of an item. -/
inductive OutboxStatus where
  | pending
  | succeeded
  | retry
  | failed
  | skipped
  deriving DecidableEq, Repr

/-- A row of `graph_projection_outbox`. -/
structure GraphProjectionOutboxItem where
  outboxUuid : String
  aggregateType : String
  aggregateUuid : String
  operation : String
  payloadIjson : Text
  status : OutboxStatus := .pending
  attempts : ℕ := 0
  lastError : Option String := none
  createdAt : Timestamp
  processedAt : Option Timestamp := none
  deriving DecidableEq

/-- The items of the outbox. -/
abbrev ProjectionOutbox :=
  Table GraphProjectionOutboxItem String GraphProjectionOutboxItem.outboxUuid

/-- The memories with the evidence of their versions and with what is to be projected. -/
structure ProjectedStore where
  store : MemoryStore
  links : List MemoryEvidenceLink
  outbox : ProjectionOutbox

/-- What an item of a memory says. -/
def projectionPayload (memoryUuid memoryVersionUuid operation : String) : IJson :=
  .obj
    [field "memory_uuid" (jsonString memoryUuid),
     field "memory_version_uuid" (jsonString memoryVersionUuid),
     field "operation" (jsonString operation)]

/-- The payload of an item names a version. -/
def GraphProjectionOutboxItem.Names (item : GraphProjectionOutboxItem)
    (memoryVersionUuid : String) : Prop :=
  ∃ memoryUuid operation,
    item.payloadIjson = (projectionPayload memoryUuid memoryVersionUuid operation).dump

/-! ### Statements -/

section

variable (U : UnicodeData)

/-- Enqueue an operation on an aggregate, unless there is an item of it. -/
def enqueueProjection (outbox : ProjectionOutbox) (aggregateType aggregateUuid operation : String)
    (payload : IJson) (outboxUuid : String) (now : Timestamp) : Except String ProjectionOutbox :=
  match outbox.rows.find? fun item => item.aggregateType = aggregateType &&
      item.aggregateUuid = aggregateUuid && item.operation = operation with
  | some _ => .ok outbox
  | none => do
      let payloadIjson ← dumpIjson U payload
      if (outbox.get? outboxUuid).isSome then .error MemoryStore.integrityError
      else pure (outbox.insert
        { outboxUuid, aggregateType, aggregateUuid, operation, payloadIjson, createdAt := now })

end

/-- The items that are still to be processed. -/
def pendingItems (outbox : ProjectionOutbox) : List GraphProjectionOutboxItem :=
  outbox.rows.filter fun item => item.status = .pending || item.status = .retry

/-- The first of the items that are still to be processed. -/
def listPendingOutbox (outbox : ProjectionOutbox) (limit : ℕ) : List GraphProjectionOutboxItem :=
  (KeySort.sortBy (fun item => toLex (item.createdAt, item.outboxUuid.toList))
    (pendingItems outbox)).take limit

/-- Change an item. -/
def updateOutbox (outbox : ProjectionOutbox) (outboxUuid : String)
    (f : GraphProjectionOutboxItem → GraphProjectionOutboxItem)
    (hf : ∀ item, (f item).outboxUuid = item.outboxUuid) : Except String ProjectionOutbox :=
  match outbox.get? outboxUuid with
  | none => .error ("Outbox item not found: " ++ outboxUuid)
  | some _ => .ok (outbox.updateWhere (fun item => item.outboxUuid = outboxUuid) f hf)

/-- An item was projected. -/
def markOutboxSucceeded (outbox : ProjectionOutbox) (outboxUuid : String) (now : Timestamp) :
    Except String ProjectionOutbox :=
  updateOutbox outbox outboxUuid
    (fun item => { item with status := .succeeded, processedAt := some now }) fun _ => rfl

/-- An item could not be projected. -/
def markOutboxRetry (outbox : ProjectionOutbox) (outboxUuid error : String) :
    Except String ProjectionOutbox :=
  updateOutbox outbox outboxUuid
    (fun item =>
      { item with status := .retry, attempts := item.attempts + 1, lastError := some error })
    fun _ => rfl

/-- Link the evidence of a candidate to a version; a link is unique. -/
def linkEvidence (memoryUuid memoryVersionUuid candidateUuid : String)
    (links : List MemoryEvidenceLink) (evidence : List CandidateEvidence) :
    Except String (List MemoryEvidenceLink) :=
  evidence.foldlM (fun links item =>
    if links.any fun link =>
        link.memoryVersionUuid = memoryVersionUuid && link.evidenceUuid = item.evidenceUuid then
      .error MemoryStore.integrityError
    else pure (links ++ [⟨memoryUuid, memoryVersionUuid, candidateUuid, item.evidenceUuid⟩])) links

/-! ### Commands -/

/-- What is asked of the memories and of the outbox. -/
inductive ProjectionCommand where
  | consolidate (candidateUuid : String) (source : CandidateSource candidateUuid) (stamp : Stamp)
      (outboxUuid : String)
  | applyRequest (request : ChangeRequestRow) (stamp : Stamp) (outboxUuid : String)
  | undoRequest (request : ChangeRequestRow) (actorType : String) (stamp : Stamp)
      (outboxUuid : String)
  | listPending (limit : ℕ)
  | markSucceeded (outboxUuid : String) (now : Timestamp)
  | markRetry (outboxUuid error : String)

namespace MemoryStore

variable (store : MemoryStore) (U : UnicodeData) {candidateUuid : String}

/-- The version that is current of a memory. -/
def currentOf (memoryUuid : String) : Option String :=
  (store.memories.get? memoryUuid).bind MemoryRow.currentVersionUuid

/-- The memory that a candidate is about. -/
def decidedMemory (source : CandidateSource candidateUuid) : Option MemoryRow :=
  match source.candidate, source.session with
  | some candidate, some session => store.memoryFor U candidate session
  | _, _ => none

/-- What a candidate means for the memories. -/
def decidedOperation (source : CandidateSource candidateUuid) : ConsolidationOperation :=
  match source.candidate with
  | none => .reject
  | some candidate =>
      if source.evidence = [] then .reject
      else (DeterministicResolver.resolve candidate
        ((store.decidedMemory U source).bind store.currentVersion)).1

/-- Whether a candidate gives a memory a new version. -/
def decidesVersion (source : CandidateSource candidateUuid) : Bool :=
  (store.decisions.get? candidateUuid).isNone &&
    store.decidedOperation U source ∈ [.add, .supersede]

end MemoryStore

namespace ProjectedStore

variable (s : ProjectedStore)

/-- The tables without rows. -/
def empty : ProjectedStore := ⟨.empty, [], .empty⟩

variable (U : UnicodeData)

/-- Enqueue the projection of a version of a memory. -/
def enqueueVersion (store : MemoryStore) (links : List MemoryEvidenceLink)
    (memoryUuid memoryVersionUuid operation outboxUuid : String) (now : Timestamp) :
    Except String ProjectedStore := do
  let outbox ← enqueueProjection U s.outbox "memory" memoryUuid operation
    (projectionPayload memoryUuid memoryVersionUuid operation) outboxUuid now
  pure ⟨store, links, outbox⟩

/-- Decide on a candidate. A new decision that names a version links the evidence to it and enqueues
its projection, whichever writer made it. -/
def consolidateCandidate {candidateUuid : String} (source : CandidateSource candidateUuid)
    (stamp : Stamp) (outboxUuid : String) : Except String ProjectedStore := do
  let (decision, store) ← s.store.consolidateCandidate U source stamp
  match s.store.decisions.get? candidateUuid, decision.targetMemoryUuid,
      decision.targetMemoryVersionUuid with
  | none, some memoryUuid, some memoryVersionUuid => do
      let links ← linkEvidence memoryUuid memoryVersionUuid candidateUuid s.links source.evidence
      s.enqueueVersion U store links memoryUuid memoryVersionUuid decision.operation.value outboxUuid
        stamp.now
  | _, _, _ => pure { s with store := store }

/-- Apply a change request; a version that it writes is enqueued. -/
def applyRequest (request : ChangeRequestRow) (stamp : Stamp) (outboxUuid : String) :
    Except String ProjectedStore := do
  let store ← s.store.applyRequest U request stamp
  if MemoryStore.writesVersion request then
    s.enqueueVersion U store s.links (request.memoryUuid.getD "") stamp.memoryVersionUuid
      request.requestedOperation outboxUuid stamp.now
  else pure { s with store := store }

/-- Undo a change request; its version is enqueued. -/
def undoRequest (request : ChangeRequestRow) (actorType : String) (stamp : Stamp)
    (outboxUuid : String) : Except String ProjectedStore := do
  let store ← s.store.undoRequest U request actorType stamp
  s.enqueueVersion U store s.links (request.memoryUuid.getD "") stamp.memoryVersionUuid "undo"
    outboxUuid stamp.now

/-- What a command writes. -/
def perform : ProjectionCommand → Except String ProjectedStore
  | .consolidate _ source stamp outboxUuid => s.consolidateCandidate U source stamp outboxUuid
  | .applyRequest request stamp outboxUuid => s.applyRequest U request stamp outboxUuid
  | .undoRequest request actorType stamp outboxUuid =>
      s.undoRequest U request actorType stamp outboxUuid
  | .listPending _ => .ok s
  | .markSucceeded outboxUuid now => do
      let outbox ← markOutboxSucceeded s.outbox outboxUuid now
      pure { s with outbox := outbox }
  | .markRetry outboxUuid error => do
      let outbox ← markOutboxRetry s.outbox outboxUuid error
      pure { s with outbox := outbox }

/-- The store after a command; its transaction is rolled back if it fails. -/
def after (command : ProjectionCommand) : ProjectedStore :=
  match s.perform U command with
  | .ok t => t
  | .error _ => s

/-- A command leads from one store to the next. -/
def Step (s : ProjectedStore) (command : ProjectionCommand) (t : ProjectedStore) : Prop :=
  t = s.after U command

/-! ### What is projected -/

/-- The memory that a command gives a new version, and the operation. -/
def installs : ProjectionCommand → Option (String × String)
  | .consolidate _ source stamp _ =>
      if s.store.decidesVersion U source then
        some (((s.store.decidedMemory U source).map MemoryRow.memoryUuid).getD stamp.memoryUuid,
          (s.store.decidedOperation U source).value)
      else none
  | .applyRequest request _ _ =>
      if MemoryStore.writesVersion request then some (request.memoryUuid.getD "", request.requestedOperation)
      else none
  | .undoRequest request _ _ _ => some (request.memoryUuid.getD "", "undo")
  | _ => none

/-- Every version that has become current is named by an item that is still to be processed. -/
def ProjectsInstalled (t : ProjectedStore) : Prop :=
  ∀ memoryUuid memoryVersionUuid, t.store.currentOf memoryUuid = some memoryVersionUuid →
    s.store.currentOf memoryUuid ≠ some memoryVersionUuid →
      ∃ item ∈ pendingItems t.outbox, item.Names memoryVersionUuid

/-- A command that installs a version, and returns, meets no item of its operation on the memory. -/
def Unprojected (command : ProjectionCommand) : Prop :=
  (∃ t, s.perform U command = .ok t) →
    ∀ memoryUuid operation, s.installs U command = some (memoryUuid, operation) →
      ∀ item ∈ s.outbox.rows, ¬(item.aggregateType = "memory" ∧ item.aggregateUuid = memoryUuid ∧
        item.operation = operation)

end ProjectedStore

/-! ### Items -/

section

variable {U : UnicodeData} {outbox outbox' : ProjectionOutbox} {s t : ProjectedStore}

/-- What an item says is valid. -/
lemma dumpIjson_projectionPayload (memoryUuid memoryVersionUuid operation : String) :
    dumpIjson U (projectionPayload memoryUuid memoryVersionUuid operation) =
      .ok (projectionPayload memoryUuid memoryVersionUuid operation).dump := by
  have hvalid : ValidValue U none (projectionPayload memoryUuid memoryVersionUuid operation) := by
    rw [projectionPayload, validValue_fields ["memory_uuid", "memory_version_uuid", "operation"]
      (by decide) rfl]
    simp [field]
  rw [ValidValue] at hvalid
  rw [dumpIjson, hvalid]
  rfl

/-- An item names one version. -/
lemma GraphProjectionOutboxItem.Names.unique {item : GraphProjectionOutboxItem} {v w : String}
    (hv : item.Names v) (hw : item.Names w) : v = w := by
  obtain ⟨m, op, hv⟩ := hv
  obtain ⟨m', op', hw⟩ := hw
  have hcanon := IJson.dump_inj.mp (hv.symm.trans hw)
  rw [projectionPayload, projectionPayload,
    canon_fields_inj ["memory_uuid", "memory_version_uuid", "operation"] (by decide) rfl rfl]
    at hcanon
  simp only [field, List.map_cons, List.map_nil, canon_jsonString, List.cons.injEq,
    jsonString_inj] at hcanon
  exact hcanon.2.1

/-- An item of an operation is met, or it is added. -/
lemma enqueueProjection_cases {aggregateType aggregateUuid operation outboxUuid : String}
    {payload : IJson} {now : Timestamp}
    (h : enqueueProjection U outbox aggregateType aggregateUuid operation payload outboxUuid now =
      .ok outbox') :
    (∃ item ∈ outbox.rows, item.aggregateType = aggregateType ∧
        item.aggregateUuid = aggregateUuid ∧ item.operation = operation) ∧ outbox' = outbox ∨
    (∀ item ∈ outbox.rows, ¬(item.aggregateType = aggregateType ∧
        item.aggregateUuid = aggregateUuid ∧ item.operation = operation)) ∧
      ∃ item, item.status = .pending ∧ dumpIjson U payload = .ok item.payloadIjson ∧
        outbox'.rows = outbox.rows ++ [item] := by
  unfold enqueueProjection at h
  split at h
  case h_1 item hfound =>
    refine .inl ⟨⟨item, List.mem_of_find?_eq_some hfound, ?_⟩, (Except.ok.inj h).symm⟩
    simpa [and_assoc] using List.find?_some hfound
  case h_2 hnone =>
    obtain ⟨payloadIjson, hdump, h⟩ := Checks.bind_eq_ok.mp h
    split_ifs at h with hname
    refine .inr ⟨fun item hitem => ?_, ⟨outboxUuid, aggregateType, aggregateUuid, operation,
      payloadIjson, .pending, 0, none, now, none⟩, rfl, hdump, ?_⟩
    · simpa [and_assoc] using List.find?_eq_none.mp hnone item hitem
    · rw [← Checks.pure_eq_ok.mp h]
      exact Table.rows_insert (by simpa using hname)

/-- An item that changes keeps what it says. -/
lemma updateOutbox_payload {outboxUuid : String}
    {f : GraphProjectionOutboxItem → GraphProjectionOutboxItem}
    {hf : ∀ item, (f item).outboxUuid = item.outboxUuid}
    (hpayload : ∀ item, (f item).payloadIjson = item.payloadIjson)
    (h : updateOutbox outbox outboxUuid f hf = .ok outbox') :
    ∀ item ∈ outbox'.rows, ∃ row ∈ outbox.rows, row.payloadIjson = item.payloadIjson := by
  unfold updateOutbox at h
  split at h
  · exact absurd h (by simp)
  · obtain rfl := Except.ok.inj h
    intro item hitem
    obtain ⟨row, hrow, rfl⟩ := List.mem_map.mp hitem
    refine ⟨row, hrow, ?_⟩
    split_ifs
    · exact (hpayload row).symm
    · rfl

/-! ### Current versions -/

namespace MemoryStore

variable {store t : MemoryStore}

/-- A change of other columns keeps the current versions. -/
lemma currentOf_updateMemory {memoryUuid : String} {f : MemoryRow → MemoryRow}
    {hf : ∀ memory, (f memory).memoryUuid = memory.memoryUuid}
    (hcurrent : ∀ memory, (f memory).currentVersionUuid = memory.currentVersionUuid)
    (m : String) : (store.updateMemory memoryUuid f hf).currentOf m = store.currentOf m := by
  rw [currentOf, currentOf, updateMemory, Table.get?_updateWhere, Option.bind_map]
  refine Option.bind_congr fun memory _ => ?_
  rw [Function.comp_apply]
  split_ifs
  · exact hcurrent memory
  · rfl

/-- A stored memory gets a current version, and the others keep theirs. -/
lemma currentOf_updateMemory_of_mem {memory : MemoryRow} (hmemory : memory ∈ store.memories.rows)
    {memoryVersionUuid : String} {f : MemoryRow → MemoryRow}
    {hf : ∀ memory, (f memory).memoryUuid = memory.memoryUuid}
    (hcurrent : ∀ memory, (f memory).currentVersionUuid = some memoryVersionUuid) (m : String) :
    (store.updateMemory memory.memoryUuid f hf).currentOf m =
      if m = memory.memoryUuid then some memoryVersionUuid else store.currentOf m := by
  rw [currentOf, updateMemory, Table.get?_updateWhere, Option.bind_map]
  split_ifs with hm
  · rw [hm, Table.get?_of_mem hmemory]
    simp [hcurrent]
  · refine Option.bind_congr fun row hrow => ?_
    have hne : row.memoryUuid ≠ memory.memoryUuid := by
      rw [Table.key_of_get? hrow]
      exact hm
    simp [hne]

/-- A version is new and becomes the current one of a memory. -/
structure Installed (store : MemoryStore) (memoryUuid memoryVersionUuid : String)
    (t : MemoryStore) : Prop where
  fresh : store.versions.get? memoryVersionUuid = none
  stored : (t.versions.get? memoryVersionUuid).isSome
  kept : ∀ v, (store.versions.get? v).isSome → (t.versions.get? v).isSome
  current : ∀ m, t.currentOf m =
    if m = memoryUuid then some memoryVersionUuid else store.currentOf m

/-- A version that is inserted and made the current one of a stored memory. -/
lemma installed_of_insertVersion {base t : MemoryStore} {memory : MemoryRow}
    {version : MemoryVersionRow}
    (hversions : ∀ v, (base.versions.get? v).isSome = (store.versions.get? v).isSome)
    (hbase : ∀ m, base.currentOf m = store.currentOf m) (hmemory : memory ∈ base.memories.rows)
    (hinsert : base.insertVersion version = .ok t) {f : MemoryRow → MemoryRow}
    {hf : ∀ memory, (f memory).memoryUuid = memory.memoryUuid}
    (hcurrent : ∀ memory, (f memory).currentVersionUuid = some version.memoryVersionUuid) :
    Installed store memory.memoryUuid version.memoryVersionUuid
      (t.updateMemory memory.memoryUuid f hf) := by
  obtain ⟨hfresh, rfl⟩ := insertVersion_eq_ok hinsert
  refine ⟨?_, ?_, fun v hv => ?_, fun m => ?_⟩
  · have hnone := hversions version.memoryVersionUuid
    rw [hfresh] at hnone
    exact Option.isNone_iff_eq_none.mp (by simpa using hnone.symm)
  · exact Option.isSome_of_mem (Table.get?_insert_self hfresh)
  · rw [← hversions, Option.isSome_iff_exists] at hv
    obtain ⟨row, hrow⟩ := hv
    exact Option.isSome_of_mem (Table.get?_insert_of_some hrow version)
  · have hmemory' : memory ∈
        ({ base with versions := base.versions.insert version } : MemoryStore).memories.rows :=
      hmemory
    rw [currentOf_updateMemory_of_mem hmemory' hcurrent, ← hbase]
    rfl

lemma installed_of_setCurrent {base t : MemoryStore} {memory : MemoryRow}
    {version : MemoryVersionRow}
    (hversions : ∀ v, (base.versions.get? v).isSome = (store.versions.get? v).isSome)
    (hbase : ∀ m, base.currentOf m = store.currentOf m) (hmemory : memory ∈ base.memories.rows)
    (hinsert : base.insertVersion version = .ok t) :
    Installed store memory.memoryUuid version.memoryVersionUuid
      (t.setCurrent memory.memoryUuid version.memoryVersionUuid) :=
  installed_of_insertVersion hversions hbase hmemory hinsert fun _ => rfl

/-- A decision installs nothing else. -/
lemma Installed.withDecisions {memoryUuid memoryVersionUuid : String}
    (h : Installed store memoryUuid memoryVersionUuid t)
    (decisions : Table MemoryConsolidationDecision String
      MemoryConsolidationDecision.candidateUuid) :
    Installed store memoryUuid memoryVersionUuid { t with decisions := decisions } :=
  ⟨h.fresh, h.stored, h.kept, h.current⟩

lemma closeCurrent_currentOf {memory : MemoryRow} {now : Timestamp} (m : String) :
    (store.closeCurrent memory now).currentOf m = store.currentOf m := by
  rw [currentOf, closeCurrent_memories, currentOf]

lemma closeCurrent_isSome {memory : MemoryRow} {now : Timestamp} (v : String) :
    ((store.closeCurrent memory now).versions.get? v).isSome = (store.versions.get? v).isSome := by
  unfold closeCurrent
  split
  · rfl
  · rw [closeVersion, Table.get?_updateWhere, Option.isSome_map]

variable {U : UnicodeData}

/-- A correction makes the version it draws the current one. -/
lemma installed_of_createNewVersion {memory : MemoryRow} (hmemory : memory ∈ store.memories.rows)
    {normalizedText : Text} {operation actorType : String} {proposedValue : IJson} {stamp : Stamp}
    (h : store.createNewVersion U memory normalizedText operation actorType proposedValue stamp =
      .ok t) : Installed store memory.memoryUuid stamp.memoryVersionUuid t := by
  obtain ⟨current, version, t', -, hname, -, -, -, -, hinsert, rfl⟩ := createNewVersion_cases h
  rw [← hname]
  refine installed_of_insertVersion closeCurrent_isSome closeCurrent_currentOf ?_ hinsert
    fun _ => rfl
  rwa [closeCurrent_memories]

section

variable {candidateUuid : String} {source : CandidateSource candidateUuid} {stamp : Stamp}
  {decision : MemoryConsolidationDecision}

/-- A new decision is what the candidate means. -/
lemma consolidateCandidate_operation
    (h : store.consolidateCandidate U source stamp = .ok (decision, t))
    (hnew : store.decisions.get? candidateUuid = none) :
    decision.operation = store.decidedOperation U source := by
  unfold consolidateCandidate at h
  simp only [hnew] at h
  have hnoted : ∀ resolution : ConsolidationOperation × List String,
      Except.ok (ε := String) (store.recordDecisionOnly candidateUuid resolution) =
        .ok (decision, t) → decision.operation = resolution.1 := by
    intro resolution hok
    rw [recordDecisionOnly, recordDecision_of_new hnew, Except.ok.injEq, Prod.mk.injEq] at hok
    rw [← hok.1]
  rcases hcandidate : source.candidate with _ | candidate
  · simp [hcandidate] at h
  have hnamed := source.named candidate hcandidate
  simp only [hcandidate] at h
  rw [decidedOperation, hcandidate]
  dsimp only
  split_ifs at h ⊢ with hevidence
  · exact hnoted _ h
  rcases hsession : source.session with _ | session
  · simp [hsession] at h
  rw [decidedMemory, hcandidate, hsession]
  simp only [hsession, hnamed] at h
  set resolution := DeterministicResolver.resolve candidate
    ((store.memoryFor U candidate session).bind store.currentVersion) with hresolution
  split_ifs at h with hop
  · exact hnoted _ h
  rcases hmemory : store.memoryFor U candidate session with _ | memory
  · simp only [hmemory] at h
    obtain ⟨version, -, h⟩ := Checks.bind_eq_ok.mp h
    obtain ⟨_, _, -, -, hresult⟩ := createMemoryWithVersion_eq_ok hnew h
    exact congrArg (fun result => result.1.operation) hresult
  · simp only [hmemory] at h
    split at h
    case h_1 hreinforce _ =>
      rw [recordReinforcement, recordDecision_of_new hnew, Except.ok.injEq, Prod.mk.injEq] at h
      rw [← h.1, hreinforce]
      rfl
    case h_2 => exact hnoted _ h
    case h_3 =>
      obtain ⟨version, -, h⟩ := Checks.bind_eq_ok.mp h
      obtain ⟨_, -, hresult⟩ := createVersionForMemory_eq_ok hnew h
      exact congrArg (fun result => result.1.operation) hresult

lemma decidesVersion_iff : store.decidesVersion U source ↔
    store.decisions.get? candidateUuid = none ∧
      store.decidedOperation U source ∈ [.add, .supersede] := by
  simp [decidesVersion]

/-- A decision installs a version of the memory that the candidate is about, or it keeps the
versions and names none of them but a stored one. -/
lemma Consolidated.effect (h : Consolidated store U source stamp decision t)
    (hop : store.decisions.get? candidateUuid = none →
      decision.operation = store.decidedOperation U source) :
    (store.decidesVersion U source ∧ ∃ memoryUuid memoryVersionUuid,
      memoryUuid = ((store.decidedMemory U source).map MemoryRow.memoryUuid).getD
        stamp.memoryUuid ∧
      decision.targetMemoryUuid = some memoryUuid ∧
      decision.targetMemoryVersionUuid = some memoryVersionUuid ∧
      Installed store memoryUuid memoryVersionUuid t) ∨
    ¬store.decidesVersion U source ∧ (∀ m, t.currentOf m = store.currentOf m) ∧
      t.versions = store.versions ∧
      (store.decisions.get? candidateUuid = none →
        ∀ v, decision.targetMemoryVersionUuid = some v → (store.versions.get? v).isSome) := by
  cases h with
  | decided hold =>
      refine .inr ⟨fun hdecides => ?_, fun _ => rfl, rfl, fun hnew => ?_⟩
      · have hnew := (decidesVersion_iff.mp hdecides).1
        rw [hold] at hnew
        exact absurd hnew (by simp)
      · rw [hold] at hnew
        exact absurd hnew (by simp)
  | noted hnew hnot htarget =>
      refine .inr ⟨fun hdecides => hnot ?_, fun _ => rfl, rfl, fun _ v hv => ?_⟩
      · have hmem := (decidesVersion_iff.mp hdecides).2
        rw [← hop hnew] at hmem
        exact List.Sublist.mem hmem (by decide)
      · rw [htarget] at hv
        exact absurd hv (by simp)
  | reinforced hnew hcandidate hsession hmemory hcurrent htext =>
      refine .inr ⟨fun hdecides => ?_, fun _ => rfl, rfl, fun _ v hv => ?_⟩
      · have hmem := (decidesVersion_iff.mp hdecides).2
        rw [← hop hnew] at hmem
        exact absurd hmem (by simp [decisionOn])
      · obtain ⟨name, -, hrow⟩ := Option.bind_eq_some_iff.mp hcurrent
        obtain rfl := Option.some_inj.mp hv
        rw [Table.key_of_get? hrow, hrow]
        rfl
  | @created candidate session _ version _ s' hnew hcandidate hsession hmemory hversion hinsert
      hinsert' =>
      obtain ⟨howner, -⟩ := versionFor_eq_ok hversion
      refine .inl ⟨decidesVersion_iff.mpr ⟨hnew, ?_⟩, _, _, ?_, congrArg some howner, rfl, ?_⟩
      · rw [← hop hnew]
        simp [decisionOn]
      · rw [decidedMemory, hcandidate, hsession]
        simp [hmemory]
      · obtain ⟨hfresh, rfl⟩ := insertMemory_eq_ok hinsert
        set memory := newMemory U candidate session stamp
        have hbase : ∀ m, currentOf { store with memories := store.memories.insert memory } m =
            store.currentOf m := by
          intro m
          rw [currentOf, currentOf]
          rcases store.memories.get?_insert memory m with hsame | ⟨hnone, -, hrow⟩
          · rw [hsame]
          · -- the memory that is inserted has no version yet
            rw [hrow, hnone]
            rfl
        have hmem : memory ∈ (store.memories.insert memory).rows := by
          rw [Table.rows_insert hfresh]
          exact List.mem_append_right _ (List.mem_singleton_self _)
        have hinstalled : Installed store memory.memoryUuid version.memoryVersionUuid
            (s'.setCurrent memory.memoryUuid version.memoryVersionUuid) := by
          refine installed_of_setCurrent ?_ hbase hmem hinsert'
          exact fun _ => rfl
        exact hinstalled.withDecisions _
  | added hnew hcandidate hsession hmemory hcurrent hversion hinsert =>
      obtain ⟨howner, -⟩ := versionFor_eq_ok hversion
      refine .inl ⟨decidesVersion_iff.mpr ⟨hnew, ?_⟩, _, _, ?_, congrArg some howner, rfl, ?_⟩
      · rw [← hop hnew]
        simp [decisionOn]
      · rw [decidedMemory, hcandidate, hsession]
        simp [hmemory]
      · exact (installed_of_setCurrent (fun _ => rfl) (fun _ => rfl) (memoryFor_mem hmemory)
          hinsert).withDecisions _
  | superseded hnew hcandidate hsession hmemory hcurrent hversion hinsert =>
      obtain ⟨howner, -⟩ := versionFor_eq_ok hversion
      refine .inl ⟨decidesVersion_iff.mpr ⟨hnew, ?_⟩, _, _, ?_, congrArg some howner, rfl, ?_⟩
      · rw [← hop hnew]
        simp [decisionOn]
      · rw [decidedMemory, hcandidate, hsession]
        simp [hmemory]
      · refine (installed_of_setCurrent closeCurrent_isSome closeCurrent_currentOf ?_
          hinsert).withDecisions _
        rw [closeCurrent_memories]
        exact memoryFor_mem hmemory

end

end MemoryStore

/-! ### What a command does -/

namespace ProjectedStore

/-- Every item names a stored version. -/
def NamesStored (s : ProjectedStore) : Prop :=
  ∀ item ∈ s.outbox.rows, ∃ v, item.Names v ∧ (s.store.versions.get? v).isSome

/-- What a command that returns does to the versions and to the outbox. -/
inductive Performed (U : UnicodeData) (s : ProjectedStore) (command : ProjectionCommand)
    (t : ProjectedStore) : Prop
  /-- A memory has a new version, whose projection is enqueued. -/
  | installed {memoryUuid memoryVersionUuid operation outboxUuid : String} {now : Timestamp}
      (hinstalls : s.installs U command = some (memoryUuid, operation))
      (hstore : s.store.Installed memoryUuid memoryVersionUuid t.store)
      (hqueue : enqueueProjection U s.outbox "memory" memoryUuid operation
        (projectionPayload memoryUuid memoryVersionUuid operation) outboxUuid now = .ok t.outbox)
  /-- The versions stay; items are changed, or one is added that names a stored version. -/
  | kept (hinstalls : s.installs U command = none)
      (hcurrent : ∀ m, t.store.currentOf m = s.store.currentOf m)
      (hversions : ∀ v, (t.store.versions.get? v).isSome = (s.store.versions.get? v).isSome)
      (houtbox : ∀ item ∈ t.outbox.rows,
        (∃ row ∈ s.outbox.rows, row.payloadIjson = item.payloadIjson) ∨
          ∃ v, item.Names v ∧ (s.store.versions.get? v).isSome)

variable {U : UnicodeData} {s t : ProjectedStore}

lemma enqueueVersion_eq_ok {store : MemoryStore} {links : List MemoryEvidenceLink}
    {memoryUuid memoryVersionUuid operation outboxUuid : String} {now : Timestamp} :
    s.enqueueVersion U store links memoryUuid memoryVersionUuid operation outboxUuid now = .ok t ↔
      t.store = store ∧ t.links = links ∧
        enqueueProjection U s.outbox "memory" memoryUuid operation
          (projectionPayload memoryUuid memoryVersionUuid operation) outboxUuid now =
            .ok t.outbox := by
  unfold enqueueVersion
  rw [Checks.bind_eq_ok]
  constructor
  · rintro ⟨outbox, houtbox, h⟩
    obtain rfl := Checks.pure_eq_ok.mp h
    exact ⟨rfl, rfl, houtbox⟩
  · rintro ⟨rfl, rfl, houtbox⟩
    exact ⟨t.outbox, houtbox, rfl⟩

/-- An item that is enqueued names its version. -/
lemma names_of_enqueue {outbox outbox' : ProjectionOutbox}
    {memoryUuid memoryVersionUuid operation outboxUuid : String} {now : Timestamp}
    (h : enqueueProjection U outbox "memory" memoryUuid operation
      (projectionPayload memoryUuid memoryVersionUuid operation) outboxUuid now = .ok outbox') :
    ∀ item ∈ outbox'.rows, item ∈ outbox.rows ∨ item.Names memoryVersionUuid := by
  intro item hitem
  rcases enqueueProjection_cases h with ⟨-, rfl⟩ | ⟨-, added, -, hdump, hrows⟩
  · exact .inl hitem
  · rw [dumpIjson_projectionPayload] at hdump
    rcases List.mem_append.mp (hrows ▸ hitem) with hold | hnew
    · exact .inl hold
    · rw [List.mem_singleton.mp hnew]
      exact .inr ⟨memoryUuid, operation, (Except.ok.inj hdump).symm⟩

lemma performed_consolidate {candidateUuid : String} {source : CandidateSource candidateUuid}
    {stamp : Stamp} {outboxUuid : String}
    (h : s.consolidateCandidate U source stamp outboxUuid = .ok t) :
    Performed U s (.consolidate candidateUuid source stamp outboxUuid) t := by
  obtain ⟨⟨decision, store⟩, hstore, h⟩ := Checks.bind_eq_ok.mp h
  dsimp only at h
  have hop := MemoryStore.consolidateCandidate_operation hstore
  rcases (MemoryStore.consolidateCandidate_cases hstore).effect hop with
    ⟨hdecides, memoryUuid, memoryVersionUuid, hname, htarget, hversion, hinstalled⟩ |
    ⟨hdecides, hcurrent, hversions, htarget⟩
  · have hnew := (MemoryStore.decidesVersion_iff.mp hdecides).1
    rw [hnew, htarget, hversion] at h
    obtain ⟨links, -, h⟩ := Checks.bind_eq_ok.mp h
    obtain ⟨rfl, -, hqueue⟩ := enqueueVersion_eq_ok.mp h
    refine .installed ?_ hinstalled hqueue
    rw [installs, if_pos hdecides, ← hname, hop hnew]
  · have hnone : s.installs U (.consolidate candidateUuid source stamp outboxUuid) = none :=
      if_neg hdecides
    split at h
    case h_1 memoryUuid memoryVersionUuid hnew hmemory hversion =>
      obtain ⟨links, -, h⟩ := Checks.bind_eq_ok.mp h
      obtain ⟨rfl, -, hqueue⟩ := enqueueVersion_eq_ok.mp h
      refine .kept hnone hcurrent (fun v => by rw [hversions]) fun item hitem => ?_
      rcases names_of_enqueue hqueue item hitem with hold | hnames
      · exact .inl ⟨item, hold, rfl⟩
      · exact .inr ⟨memoryVersionUuid, hnames, htarget hnew _ hversion⟩
    case h_2 =>
      obtain rfl := Checks.pure_eq_ok.mp h
      exact .kept hnone hcurrent (fun v => by rw [hversions]) fun item hitem =>
        .inl ⟨item, hitem, rfl⟩

/-- **A command.** It installs a version of a memory and enqueues its projection, or it keeps the
current versions. -/
theorem performed {command : ProjectionCommand} (h : s.perform U command = .ok t) :
    Performed U s command t := by
  cases command with
  | consolidate candidateUuid source stamp outboxUuid => exact performed_consolidate h
  | applyRequest request stamp outboxUuid =>
      obtain ⟨store, hstore, h⟩ := Checks.bind_eq_ok.mp h
      rcases MemoryStore.applyRequest_cases hstore with ⟨hwrites, hkept⟩ |
        ⟨hwrites, memory, normalizedText, hmemory, hname, hversion⟩
      · rw [if_neg (by simp [hwrites])] at h
        obtain rfl := Checks.pure_eq_ok.mp h
        have hnone : s.installs U (.applyRequest request stamp outboxUuid) = none :=
          if_neg (by simp [hwrites])
        rcases hkept with rfl | ⟨memoryUuid, status, -, rfl⟩
        · exact .kept hnone (fun _ => rfl) (fun _ => rfl) fun item hitem => .inl ⟨item, hitem, rfl⟩
        · exact .kept hnone
            (MemoryStore.currentOf_updateMemory (f := fun memory => { memory with status := status })
              fun _ => rfl)
            (fun _ => rfl) fun item hitem => .inl ⟨item, hitem, rfl⟩
      · rw [if_pos hwrites] at h
        obtain ⟨rfl, -, hqueue⟩ := enqueueVersion_eq_ok.mp h
        refine .installed ?_ ?_ hqueue
        · exact if_pos hwrites
        · rw [hname]
          exact MemoryStore.installed_of_createNewVersion hmemory hversion
  | undoRequest request actorType stamp outboxUuid =>
      obtain ⟨store, hstore, h⟩ := Checks.bind_eq_ok.mp h
      obtain ⟨memory, text, value, hmemory, hname, hversion⟩ := MemoryStore.undoRequest_cases hstore
      obtain ⟨rfl, -, hqueue⟩ := enqueueVersion_eq_ok.mp h
      refine .installed rfl ?_ hqueue
      rw [hname]
      exact MemoryStore.installed_of_createNewVersion hmemory hversion
  | listPending limit =>
      obtain rfl := Except.ok.inj h
      exact .kept rfl (fun _ => rfl) (fun _ => rfl) fun item hitem => .inl ⟨item, hitem, rfl⟩
  | markSucceeded outboxUuid now =>
      obtain ⟨outbox, houtbox, h⟩ := Checks.bind_eq_ok.mp h
      obtain rfl := Checks.pure_eq_ok.mp h
      refine .kept rfl (fun _ => rfl) (fun _ => rfl) fun item hitem => .inl ?_
      exact updateOutbox_payload (by exact fun _ => rfl) houtbox item hitem
  | markRetry outboxUuid error =>
      obtain ⟨outbox, houtbox, h⟩ := Checks.bind_eq_ok.mp h
      obtain rfl := Checks.pure_eq_ok.mp h
      refine .kept rfl (fun _ => rfl) (fun _ => rfl) fun item hitem => .inl ?_
      exact updateOutbox_payload (by exact fun _ => rfl) houtbox item hitem

/-- A command keeps that every item names a stored version. -/
lemma NamesStored.performed (h : NamesStored s) {command : ProjectionCommand}
    (hstep : Performed U s command t) : NamesStored t := by
  intro item hitem
  cases hstep with
  | installed hinstalls hstore hqueue =>
      rcases names_of_enqueue hqueue item hitem with hold | hnames
      · obtain ⟨v, hnames, hstored⟩ := h item hold
        exact ⟨v, hnames, hstore.kept v hstored⟩
      · exact ⟨_, hnames, hstore.stored⟩
  | kept _ _ hversions houtbox =>
      rcases houtbox item hitem with ⟨row, hrow, hpayload⟩ | ⟨v, hnames, hstored⟩
      · obtain ⟨v, ⟨m, op, hnames⟩, hstored⟩ := h row hrow
        refine ⟨v, ⟨m, op, hpayload ▸ hnames⟩, ?_⟩
        rwa [hversions]
      · refine ⟨v, hnames, ?_⟩
        rwa [hversions]

lemma NamesStored.step (h : NamesStored s) {command : ProjectionCommand}
    (hstep : Step U s command t) : NamesStored t := by
  unfold Step after at hstep
  split at hstep
  case h_1 hok =>
    subst hstep
    exact h.performed (ProjectedStore.performed hok)
  case h_2 => exact hstep ▸ h

/-- A command keeps the chains of versions. -/
lemma versionChains_step (h : MemoryStore.VersionChains s.store) {command : ProjectionCommand}
    (hstep : Step U s command t) : MemoryStore.VersionChains t.store := by
  unfold Step after at hstep
  split at hstep
  case h_2 => exact hstep ▸ h
  case h_1 hok =>
    subst hstep
    cases command with
    | consolidate candidateUuid source stamp outboxUuid =>
        obtain ⟨⟨decision, store⟩, hstore, hok⟩ := Checks.bind_eq_ok.mp hok
        have hkeep := h.consolidated (MemoryStore.consolidateCandidate_cases hstore)
        dsimp only at hok
        split at hok
        · obtain ⟨links, -, hok⟩ := Checks.bind_eq_ok.mp hok
          exact (enqueueVersion_eq_ok.mp hok).1 ▸ hkeep
        · exact Checks.pure_eq_ok.mp hok ▸ hkeep
    | applyRequest request stamp outboxUuid =>
        obtain ⟨store, hstore, hok⟩ := Checks.bind_eq_ok.mp hok
        have hperform : s.store.perform U (.applyRequest request stamp) = .ok store := hstore
        have hkeep := h.perform hperform
        split_ifs at hok
        · exact (enqueueVersion_eq_ok.mp hok).1 ▸ hkeep
        · exact Checks.pure_eq_ok.mp hok ▸ hkeep
    | undoRequest request actorType stamp outboxUuid =>
        obtain ⟨store, hstore, hok⟩ := Checks.bind_eq_ok.mp hok
        have hperform : s.store.perform U (.undoRequest request actorType stamp) = .ok store :=
          hstore
        have hkeep := h.perform hperform
        exact (enqueueVersion_eq_ok.mp hok).1 ▸ hkeep
    | listPending limit => exact Except.ok.inj hok ▸ h
    | markSucceeded outboxUuid now =>
        obtain ⟨outbox, -, hok⟩ := Checks.bind_eq_ok.mp hok
        exact Checks.pure_eq_ok.mp hok ▸ h
    | markRetry outboxUuid error =>
        obtain ⟨outbox, -, hok⟩ := Checks.bind_eq_ok.mp hok
        exact Checks.pure_eq_ok.mp hok ▸ h

/-- A version that is current of a memory is stored. -/
lemma stored_of_current (h : MemoryStore.VersionChains s.store) {m v : String}
    (hcurrent : s.store.currentOf m = some v) : (s.store.versions.get? v).isSome := by
  obtain ⟨memory, hmemory, hname⟩ := Option.bind_eq_some_iff.mp hcurrent
  obtain ⟨hmem, -⟩ := Table.get?_eq_some.mp hmemory
  obtain ⟨row, hrow, rfl, -⟩ := (h.chain memory hmem).last v hname
  rw [Table.get?_of_mem (MemoryStore.mem_versionsOf.mp hrow).1]
  rfl

/-- **One command.** What it installs is projected exactly when it meets no item of its operation on
the memory. -/
theorem projectsInstalled_iff (hchains : MemoryStore.VersionChains s.store)
    (hnames : NamesStored s) {command : ProjectionCommand}
    (hstep : Step U s command t) :
    s.ProjectsInstalled t ↔ s.Unprojected U command := by
  unfold Step after at hstep
  split at hstep
  case h_2 error hfails =>
    subst hstep
    constructor
    · rintro - ⟨t, hok⟩
      rw [hfails] at hok
      exact absurd hok (by simp)
    · exact fun _ memoryUuid v hcurrent hne => absurd hcurrent hne
  case h_1 result hok =>
    subst hstep
    cases ProjectedStore.performed hok with
    | kept hinstalls hcurrent =>
        constructor
        · rintro - - memoryUuid operation hsome
          rw [hinstalls] at hsome
          exact absurd hsome (by simp)
        · intro _ memoryUuid v hv hne
          rw [hcurrent] at hv
          exact absurd hv hne
    | @installed m v op _ _ hinstalls hstore hqueue =>
        have hnew : ¬(s.store.versions.get? v).isSome := by simp [hstore.fresh]
        have hne : s.store.currentOf m ≠ some v :=
          fun hcurrent => hnew (stored_of_current hchains hcurrent)
        constructor
        · rintro hprojects - memoryUuid operation hsome item hitem hsame
          obtain ⟨rfl, rfl⟩ := Prod.mk.inj (Option.some_inj.mp (hinstalls.symm.trans hsome))
          rcases enqueueProjection_cases hqueue with ⟨-, houtbox⟩ | ⟨hfree, -⟩
          · -- the items are the old ones, and these name versions that were stored
            obtain ⟨found, hfound, hfoundNames⟩ := hprojects m v (by simp [hstore.current]) hne
            have hold : found ∈ s.outbox.rows := houtbox ▸ List.mem_of_mem_filter hfound
            obtain ⟨w, hwNames, hwStored⟩ := hnames found hold
            exact hnew (hfoundNames.unique hwNames ▸ hwStored)
          · exact hfree item hitem hsame
        · intro hfree memoryUuid w hw hchanged
          rw [hstore.current] at hw
          split_ifs at hw with hm
          · obtain rfl := Option.some_inj.mp hw
            rcases enqueueProjection_cases hqueue with ⟨⟨item, hitem, hsame⟩, -⟩ |
              ⟨-, added, hpending, hdump, hrows⟩
            · exact absurd hsame (hfree ⟨_, hok⟩ m op hinstalls item hitem)
            · rw [dumpIjson_projectionPayload] at hdump
              have hadded : added ∈ t.outbox.rows := by
                rw [hrows]
                exact List.mem_append_right _ (List.mem_singleton_self _)
              exact ⟨added, List.mem_filter.mpr ⟨hadded, by simp [hpending]⟩, m, op,
                (Except.ok.inj hdump).symm⟩
          · exact absurd hw hchanged

/-! ### Runs -/

/-- **Projections.** In every run of consolidations, corrections, undos and processing of the
outbox, every version that a command has made the current one is named by an item that is still to
be processed exactly when no command that installs a version meets an item of its operation on the
memory. -/
theorem projections_kept_iff (U : UnicodeData) (commands : List ProjectionCommand)
    (t : ProjectedStore) :
    Runs (fun a command b => Step U a command b ∧ a.ProjectsInstalled b) .empty commands t ↔
      Runs (fun a command b => Step U a command b ∧ a.Unprojected U command) .empty commands t := by
  have hempty : MemoryStore.VersionChains empty.store ∧ NamesStored empty :=
    ⟨MemoryStore.versionChains_empty, fun _ h => absurd h List.not_mem_nil⟩
  constructor
  · intro h
    refine h.imp_of_invariant (I := fun a => MemoryStore.VersionChains a.store ∧ NamesStored a)
      ?_ ?_ hempty
    · rintro a command b ⟨hchains, hnames⟩ ⟨hstep, -⟩
      exact ⟨versionChains_step hchains hstep, hnames.step hstep⟩
    · rintro a command b ⟨hchains, hnames⟩ ⟨hstep, hprojects⟩
      exact ⟨hstep, (projectsInstalled_iff hchains hnames hstep).mp hprojects⟩
  · intro h
    refine h.imp_of_invariant (I := fun a => MemoryStore.VersionChains a.store ∧ NamesStored a)
      ?_ ?_ hempty
    · rintro a command b ⟨hchains, hnames⟩ ⟨hstep, -⟩
      exact ⟨versionChains_step hchains hstep, hnames.step hstep⟩
    · rintro a command b ⟨hchains, hnames⟩ ⟨hstep, hfree⟩
      exact ⟨hstep, (projectsInstalled_iff hchains hnames hstep).mpr hfree⟩

/-- The user says what they drink. -/
def drinkCommand (candidateUuid text memoryVersionUuid outboxUuid : String) (now : Timestamp) :
    ProjectionCommand :=
  .consolidate candidateUuid (MemoryStore.drinkSource candidateUuid text)
    ⟨"m1", memoryVersionUuid, now⟩ outboxUuid

/-- **A lost projection.** The user drinks tea, then coffee, then water: the third version meets the
item of the second one, and no item names it. -/
theorem second_supersede_absorbed :
    ¬∀ (commands : List ProjectionCommand) (s : ProjectedStore),
      Runs (Step basicLatin) .empty commands s →
        ∀ command t, Step basicLatin s command t → s.ProjectsInstalled t := by
  intro hclaim
  set s := (empty.after basicLatin (drinkCommand "c1" "tea" "v1" "o1" 1)).after basicLatin
    (drinkCommand "c2" "coffee" "v2" "o2" 2) with hs
  set t := s.after basicLatin (drinkCommand "c3" "water" "v3" "o3" 3) with ht
  have hrun : Runs (Step basicLatin) .empty
      [drinkCommand "c1" "tea" "v1" "o1" 1, drinkCommand "c2" "coffee" "v2" "o2" 2] s :=
    (Runs.refl.tail rfl).tail rfl
  have hcurrent : t.store.currentOf "m1" = some "v3" := by decide +kernel
  have hbefore : s.store.currentOf "m1" ≠ some "v3" := by decide +kernel
  have hpending : (pendingItems t.outbox).map GraphProjectionOutboxItem.payloadIjson =
      [(projectionPayload "m1" "v1" "ADD").dump, (projectionPayload "m1" "v2" "SUPERSEDE").dump] := by
    decide +kernel
  obtain ⟨item, hitem, hnames⟩ := hclaim _ s hrun _ t ht "m1" "v3" hcurrent hbefore
  have hpayload := List.mem_map_of_mem (f := GraphProjectionOutboxItem.payloadIjson) hitem
  rw [hpending] at hpayload
  simp only [List.mem_cons, List.not_mem_nil, or_false] at hpayload
  rcases hpayload with hfirst | hsecond
  · exact absurd (hnames.unique ⟨"m1", "ADD", hfirst⟩) (by decide)
  · exact absurd (hnames.unique ⟨"m1", "SUPERSEDE", hsecond⟩) (by decide)

end ProjectedStore

end

end Memorist
