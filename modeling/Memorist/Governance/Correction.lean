import Memorist.Memory.Consolidation
import Memorist.Text.PyRepr

/-!
Corrections of memories (`governance/correction.py`).

* `createNewVersion`: the current version is closed and the next one becomes current, in one
  transaction;
* `applyRequest`, `undoRequest`: what a change request does to the memory;
* `createNewVersion_cases`, `applyRequest_cases`, `undoRequest_cases`: all that they can write.
-/

namespace Memorist

/-- A row of `memory_change_requests`. -/
structure ChangeRequestRow where
  changeRequestUuid : String
  memoryUuid : Option String
  requestedOperation : String
  proposedValue : IJson
  actorType : String
  status : String := "pending"

/-- The error for a memory that is not stored. -/
def memoryNotFound (memoryUuid : String) : String := "Memory not found: " ++ memoryUuid

/-- The members of a proposed value that may hold the text. -/
def proposedTextKeys : List String := ["normalized_text", "value", "text"]

/-- The text that a request gives the memory. -/
def normalizedTextForOperation (U : UnicodeData) (operation : String) (proposedValue : IJson)
    (currentVersion : MemoryVersionRow) : Except String Text :=
  let proposed := fun key => (member? key proposedValue).filter truthy
  match operation, proposed "normalized_text" with
  | "restore_version", some value => .ok (pyStrJson U value)
  | _, _ =>
      if operation = "confirm" then .ok currentVersion.normalizedText
      else match proposedTextKeys.findSome? proposed with
        | some value => .ok (pyStrJson U value)
        | none => .error "proposed_value must contain normalized_text, value, or text"

/-- The reason that a version of a correction carries. -/
def correctionReason (operation actorType : String) (proposedValue : IJson) : IJson :=
  .obj
    [field "operation" (jsonString operation),
     field "actor_type" (jsonString actorType),
     field "user_confirmed" (.bool (operation = "confirm")),
     field "proposed_value" proposedValue]

namespace MemoryStore

variable (store : MemoryStore) (U : UnicodeData)

/-- The version that a memory's row names, or why there is none. -/
def requireCurrentVersion (memory : MemoryRow) : Except String MemoryVersionRow :=
  match memory.currentVersionUuid with
  | none => .error "memory has no current version"
  | some memoryVersionUuid => match store.versions.get? memoryVersionUuid with
    | none => .error "current memory version not found"
    | some version => .ok version

/-- Make a version the current one of a memory, and the memory active. -/
def setCurrentActive (memoryUuid memoryVersionUuid : String) : MemoryStore :=
  store.updateMemory memoryUuid
    (fun memory => { memory with currentVersionUuid := memoryVersionUuid, status := .active })
    fun _ => rfl

/-- Close the current version of a memory and write the next one, in one transaction. -/
def createNewVersion (memory : MemoryRow) (normalizedText : Text) (operation actorType : String)
    (proposedValue : IJson) (stamp : Stamp) : Except String MemoryStore := do
  let current ← store.requireCurrentVersion memory
  let value ← dumpIjson U (.obj [field "value" (.str normalizedText)])
  let reason ← dumpIjson U (correctionReason operation actorType proposedValue)
  let version : MemoryVersionRow :=
    { memoryVersionUuid := stamp.memoryVersionUuid
      memoryUuid := memory.memoryUuid
      versionNumber := current.versionNumber + 1
      normalizedText := normalizedText
      valueIjson := value
      transactionFrom := stamp.now
      changeOperation := .update
      changeReasonIjson := reason }
  let store ← (store.closeVersion current.memoryVersionUuid stamp.now).insertVersion version
  pure (store.setCurrentActive memory.memoryUuid version.memoryVersionUuid)

/-- The operations whose version has a text of the request. -/
def textOperations : List String := ["confirm", "correct", "restore_version"]

/-- The operations that only set the status. -/
def statusOperations : List String := ["mark_incorrect", "mark_outdated", "retract"]

/-- The operations whose version has the text of the current one. -/
def structureOperations : List String :=
  ["merge", "split", "change_scope", "change_sensitivity", "pin", "unpin"]

/-- Apply a change request. -/
def applyRequest (request : ChangeRequestRow) (stamp : Stamp) : Except String MemoryStore :=
  if request.status ≠ "pending" then .ok store
  else match request.memoryUuid with
    | none => .error "change request has no memory_uuid"
    | some memoryUuid => match store.memories.get? memoryUuid with
      | none => .error (memoryNotFound memoryUuid)
      | some memory =>
          if request.requestedOperation ∈ textOperations then do
            let current ← store.requireCurrentVersion memory
            let normalizedText ← normalizedTextForOperation U request.requestedOperation
              request.proposedValue current
            store.createNewVersion U memory normalizedText request.requestedOperation
              request.actorType request.proposedValue stamp
          else if request.requestedOperation ∈ statusOperations then
            .ok (store.setStatus memoryUuid
              (if request.requestedOperation = "retract" then .retracted else .needsReview))
          else if request.requestedOperation ∈ structureOperations then do
            let current ← store.requireCurrentVersion memory
            store.createNewVersion U memory current.normalizedText request.requestedOperation
              request.actorType request.proposedValue stamp
          else .error ("Unsupported change operation: " ++ request.requestedOperation)

/-- Whether a request writes a version. -/
def writesVersion (request : ChangeRequestRow) : Bool :=
  request.status = "pending" &&
    (request.requestedOperation ∈ textOperations ||
      request.requestedOperation ∈ structureOperations)

/-- The versions of a memory by their number. -/
def listVersions (memoryUuid : String) : List MemoryVersionRow :=
  (store.versionsOf memoryUuid).mergeSort fun a b => a.versionNumber ≤ b.versionNumber

/-- Undo a change request: the text before the last version comes back as a new one. -/
def undoRequest (request : ChangeRequestRow) (actorType : String) (stamp : Stamp) :
    Except String MemoryStore :=
  match request.memoryUuid with
  | none => .error "change request has no memory_uuid"
  | some memoryUuid => match store.memories.get? memoryUuid with
    | none => .error (memoryNotFound memoryUuid)
    | some memory => match (store.listVersions memoryUuid).reverse with
      | _ :: previous :: _ =>
          store.createNewVersion U memory previous.normalizedText "undo" actorType
            (.obj [field "undone_request_uuid" (jsonString request.changeRequestUuid)]) stamp
      | _ => .error "no previous version available for undo"

/-! ### What a correction writes -/

variable {store U} {memory : MemoryRow} {stamp : Stamp} {s' : MemoryStore}

lemma requireCurrentVersion_eq_ok {current : MemoryVersionRow} :
    store.requireCurrentVersion memory = .ok current ↔
      store.currentVersion memory = some current := by
  unfold requireCurrentVersion currentVersion
  rcases memory.currentVersionUuid with _ | memoryVersionUuid
  · simp
  · dsimp only [Option.bind_some]
    rcases store.versions.get? memoryVersionUuid with _ | version <;> simp

/-- A new version has the next number, and the memory is active. -/
theorem createNewVersion_cases {normalizedText : Text} {operation actorType : String}
    {proposedValue : IJson}
    (h : store.createNewVersion U memory normalizedText operation actorType proposedValue stamp =
      .ok s') :
    ∃ current version t, store.currentVersion memory = some current ∧
      version.memoryVersionUuid = stamp.memoryVersionUuid ∧
      version.memoryUuid = memory.memoryUuid ∧
      version.versionNumber = current.versionNumber + 1 ∧ version.transactionUntil = none ∧
      version.normalizedText = normalizedText ∧
      (store.closeCurrent memory stamp.now).insertVersion version = .ok t ∧
      s' = t.setCurrentActive memory.memoryUuid version.memoryVersionUuid := by
  obtain ⟨current, hcurrent, h⟩ := Checks.bind_eq_ok.mp h
  obtain ⟨value, -, h⟩ := Checks.bind_eq_ok.mp h
  obtain ⟨reason, -, h⟩ := Checks.bind_eq_ok.mp h
  obtain ⟨t, ht, h⟩ := Checks.bind_eq_ok.mp h
  have hcurrent := requireCurrentVersion_eq_ok.mp hcurrent
  refine ⟨current, _, t, hcurrent, rfl, rfl, rfl, rfl, rfl, ?_, (Checks.pure_eq_ok.mp h).symm⟩
  obtain ⟨name, hname, hrow⟩ := Option.bind_eq_some_iff.mp hcurrent
  rw [closeCurrent, hname, ← ht, Table.key_of_get? hrow]

/-- A request leaves the memories as they are, sets the status of one, or writes it a version. -/
theorem applyRequest_cases {request : ChangeRequestRow}
    (h : store.applyRequest U request stamp = .ok s') :
    writesVersion request = false ∧ (s' = store ∨
      ∃ memoryUuid status, status ∈ [MemoryStatus.retracted, .needsReview] ∧
        s' = store.setStatus memoryUuid status) ∨
    writesVersion request = true ∧ ∃ memory normalizedText, memory ∈ store.memories.rows ∧
      request.memoryUuid = some memory.memoryUuid ∧
      store.createNewVersion U memory normalizedText request.requestedOperation
        request.actorType request.proposedValue stamp = .ok s' := by
  unfold applyRequest at h
  by_cases hstatus : request.status ≠ "pending"
  · rw [if_pos hstatus] at h
    exact .inl ⟨by simp [writesVersion, hstatus], .inl (Except.ok.inj h).symm⟩
  rw [if_neg hstatus] at h
  have hpending := not_not.mp hstatus
  rcases hname : request.memoryUuid with _ | memoryUuid
  · simp [hname] at h
  rcases hmemory : store.memories.get? memoryUuid with _ | memory
  · simp [hname, hmemory] at h
  obtain ⟨hmem, rfl⟩ := Table.get?_eq_some.mp hmemory
  simp only [hname, hmemory] at h
  -- the operations that set the status write no version
  have hset' : request.requestedOperation ∈ statusOperations →
      request.requestedOperation ∉ textOperations → writesVersion request = false := by
    intro hset htext
    have hstructure : request.requestedOperation ∉ structureOperations := by
      revert hset
      simp only [statusOperations, structureOperations, List.mem_cons, List.not_mem_nil, or_false]
      rintro (h | h | h) <;> rw [h] <;> decide
    simp [writesVersion, htext, hstructure]
  split_ifs at h with htext hset hretract hstructure
  · obtain ⟨current, -, h⟩ := Checks.bind_eq_ok.mp h
    obtain ⟨normalizedText, -, h⟩ := Checks.bind_eq_ok.mp h
    refine .inr ⟨?_, memory, normalizedText, hmem, rfl, h⟩
    simp [writesVersion, hpending, htext]
  · exact .inl ⟨hset' hset htext, .inr ⟨_, _, by simp, (Except.ok.inj h).symm⟩⟩
  · exact .inl ⟨hset' hset htext, .inr ⟨_, _, by simp, (Except.ok.inj h).symm⟩⟩
  · obtain ⟨current, -, h⟩ := Checks.bind_eq_ok.mp h
    refine .inr ⟨?_, memory, current.normalizedText, hmem, rfl, h⟩
    simp [writesVersion, hpending, hstructure]

/-- An undo writes a version. -/
theorem undoRequest_cases {request : ChangeRequestRow} {actorType : String}
    (h : store.undoRequest U request actorType stamp = .ok s') :
    ∃ memory normalizedText proposedValue, memory ∈ store.memories.rows ∧
      request.memoryUuid = some memory.memoryUuid ∧
      store.createNewVersion U memory normalizedText "undo" actorType proposedValue stamp =
        .ok s' := by
  unfold undoRequest at h
  split at h
  · simp at h
  case h_2 memoryUuid hname =>
    split at h
    · simp at h
    case h_2 memory hmemory =>
      obtain ⟨hmem, rfl⟩ := Table.get?_eq_some.mp hmemory
      split at h
      · exact ⟨memory, _, _, hmem, hname, h⟩
      · simp at h

end MemoryStore

end Memorist
