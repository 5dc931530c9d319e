import Memorist.Library.Table
import Memorist.Library.VersionChain
import Memorist.Semantic.Candidate
import Memorist.Storage.Sql

/-!
The rows of memories, their versions and the decisions on candidates (`models/memory_worker.py`,
`migrations/0002_phase2_memory_worker.sql`).

* `MemoryStore`: the tables, with their primary keys;
* `insertMemory`, `insertVersion`, `closeVersion`, `setCurrent`: the statements of the writers; an
  insert that meets a unique index fails;
* `VersionChains`: the versions of every memory form a chain (`IsVersionChain`);
* `VersionChains.append`, `VersionChains.create`, `VersionChains.map`: what keeps it.
-/

namespace Memorist

/-! ### Rows -/

/-- The statuses of a memory. -/
inductive MemoryStatus where
  | active
  | superseded
  | retracted
  | forgotten
  | needsReview
  deriving DecidableEq, Repr

/-- What a version changed. -/
inductive ChangeOperation where
  | add
  | reinforce
  | update
  | supersede
  | contradict
  | retract
  | forget
  deriving DecidableEq, Repr

/-- What is decided of a candidate. -/
inductive ConsolidationOperation where
  | add
  | reinforce
  | update
  | supersede
  | contradict
  | retract
  | forget
  | noop
  | reject
  | manualReview
  deriving DecidableEq, Repr

/-- The text of an operation. -/
def ConsolidationOperation.value : ConsolidationOperation → String
  | add => "ADD"
  | reinforce => "REINFORCE"
  | update => "UPDATE"
  | supersede => "SUPERSEDE"
  | contradict => "CONTRADICT"
  | retract => "RETRACT"
  | forget => "FORGET"
  | noop => "NOOP"
  | reject => "REJECT"
  | manualReview => "MANUAL_REVIEW"

/-- A row of `memories`. -/
structure MemoryRow where
  memoryUuid : String
  canonicalKey : Text
  memoryType : String
  scopeType : String
  scopeUuid : Option String := none
  currentVersionUuid : Option String := none
  status : MemoryStatus := .active
  sensitivityClass : SensitivityClass := .normal
  deriving DecidableEq, Repr

/-- A row of `memory_versions`. -/
structure MemoryVersionRow where
  memoryVersionUuid : String
  memoryUuid : String
  versionNumber : ℕ
  normalizedText : Text
  valueIjson : Option Text := none
  polarity : SemanticPolarity := .unknown
  transactionFrom : Timestamp
  transactionUntil : Option Timestamp := none
  sourceCandidateUuid : Option String := none
  changeOperation : ChangeOperation
  changeReasonIjson : Option Text := none
  deriving DecidableEq, Repr

/-- A row of `memory_consolidation_decisions`. -/
structure MemoryConsolidationDecision where
  candidateUuid : String
  operation : ConsolidationOperation
  reasonCodes : List String
  targetMemoryUuid : Option String := none
  targetMemoryVersionUuid : Option String := none
  deriving DecidableEq, Repr

/-- The tables of memories. -/
structure MemoryStore where
  memories : Table MemoryRow String MemoryRow.memoryUuid
  versions : Table MemoryVersionRow String MemoryVersionRow.memoryVersionUuid
  decisions : Table MemoryConsolidationDecision String MemoryConsolidationDecision.candidateUuid

namespace MemoryStore

variable (store : MemoryStore)

/-- The tables without rows. -/
def empty : MemoryStore := ⟨.empty, .empty, .empty⟩

/-- The versions of a memory in the order they were inserted. -/
def versionsOf (memoryUuid : String) : List MemoryVersionRow :=
  store.versions.rows.filter fun version => version.memoryUuid = memoryUuid

/-! ### Statements -/

/-- The error of an insert that meets a unique index. -/
def integrityError : String := "IntegrityError"

/-- Insert a memory; name and key within a scope are unique. -/
def insertMemory (memory : MemoryRow) : Except String MemoryStore :=
  if (store.memories.get? memory.memoryUuid).isSome then .error integrityError
  else if store.memories.rows.any fun row =>
      row.scopeType = memory.scopeType && row.scopeUuid.isSome &&
        row.scopeUuid = memory.scopeUuid && row.canonicalKey = memory.canonicalKey then
    .error integrityError
  else .ok { store with memories := store.memories.insert memory }

/-- Insert a version; its name, its number within the memory and its candidate with the operation
are unique. -/
def insertVersion (version : MemoryVersionRow) : Except String MemoryStore :=
  if (store.versions.get? version.memoryVersionUuid).isSome then .error integrityError
  else if store.versions.rows.any fun row =>
      row.memoryUuid = version.memoryUuid && row.versionNumber = version.versionNumber then
    .error integrityError
  else if store.versions.rows.any fun row =>
      row.sourceCandidateUuid.isSome && row.sourceCandidateUuid = version.sourceCandidateUuid &&
        row.changeOperation = version.changeOperation then
    .error integrityError
  else .ok { store with versions := store.versions.insert version }

/-- Set the end of a version's transaction time. -/
def closeVersion (memoryVersionUuid : String) (transactionUntil : Timestamp) : MemoryStore :=
  { store with
    versions := store.versions.updateWhere
      (fun version => version.memoryVersionUuid = memoryVersionUuid)
      (fun version => { version with transactionUntil := some transactionUntil }) fun _ => rfl }

/-- Change the row of a memory. -/
def updateMemory (memoryUuid : String) (f : MemoryRow → MemoryRow)
    (hf : ∀ memory, (f memory).memoryUuid = memory.memoryUuid) : MemoryStore :=
  { store with
    memories := store.memories.updateWhere (fun memory => memory.memoryUuid = memoryUuid) f hf }

/-- Make a version the current one of a memory. -/
def setCurrent (memoryUuid memoryVersionUuid : String) : MemoryStore :=
  store.updateMemory memoryUuid
    (fun memory => { memory with currentVersionUuid := memoryVersionUuid }) fun _ => rfl

/-- Set the status of a memory. -/
def setStatus (memoryUuid : String) (status : MemoryStatus) : MemoryStore :=
  store.updateMemory memoryUuid (fun memory => { memory with status := status }) fun _ => rfl

/-- The version that a memory's row names as its current one. -/
def currentVersion (memory : MemoryRow) : Option MemoryVersionRow :=
  memory.currentVersionUuid.bind store.versions.get?

/-- Close the current version of a memory, if it has one. -/
def closeCurrent (memory : MemoryRow) (transactionUntil : Timestamp) : MemoryStore :=
  match memory.currentVersionUuid with
  | none => store
  | some memoryVersionUuid => store.closeVersion memoryVersionUuid transactionUntil

/-! ### Chains of versions -/

/-- The versions of a memory form a chain. -/
def Chain (memory : MemoryRow) : Prop :=
  IsVersionChain MemoryVersionRow.memoryVersionUuid MemoryVersionRow.versionNumber
    (fun version => version.transactionUntil = none) (store.versionsOf memory.memoryUuid)
    memory.currentVersionUuid

/-- The versions of every memory form a chain, and every version has a memory. -/
structure VersionChains : Prop where
  chain : ∀ memory ∈ store.memories.rows, store.Chain memory
  owned : ∀ version ∈ store.versions.rows,
    ∃ memory ∈ store.memories.rows, memory.memoryUuid = version.memoryUuid

variable {store} {s s' : MemoryStore} {memory : MemoryRow} {version : MemoryVersionRow}

lemma versionChains_empty : VersionChains empty :=
  ⟨fun _ h => absurd h List.not_mem_nil, fun _ h => absurd h List.not_mem_nil⟩

lemma mem_versionsOf {memoryUuid : String} :
    version ∈ s.versionsOf memoryUuid ↔
      version ∈ s.versions.rows ∧ version.memoryUuid = memoryUuid := by
  simp [versionsOf]

/-- What an insert of a memory that succeeds does. -/
lemma insertMemory_eq_ok (h : s.insertMemory memory = .ok s') :
    s.memories.get? memory.memoryUuid = none ∧
      s' = { s with memories := s.memories.insert memory } := by
  unfold insertMemory at h
  split_ifs at h with hname
  exact ⟨by simpa using hname, (Except.ok.inj h).symm⟩

/-- What an insert of a version that succeeds does. -/
lemma insertVersion_eq_ok (h : s.insertVersion version = .ok s') :
    s.versions.get? version.memoryVersionUuid = none ∧
      s' = { s with versions := s.versions.insert version } := by
  unfold insertVersion at h
  split_ifs at h with hname
  exact ⟨by simpa using hname, (Except.ok.inj h).symm⟩

/-- The chains stay when other columns of the versions change. -/
lemma VersionChains.updateVersions (h : VersionChains s) (p : MemoryVersionRow → Bool)
    {f : MemoryVersionRow → MemoryVersionRow}
    (hf : ∀ version, (f version).memoryVersionUuid = version.memoryVersionUuid)
    (hmemory : ∀ version, (f version).memoryUuid = version.memoryUuid)
    (hnumber : ∀ version, (f version).versionNumber = version.versionNumber)
    (huntil : ∀ version, (f version).transactionUntil = version.transactionUntil) :
    VersionChains { s with versions := s.versions.updateWhere p f hf } := by
  set g : MemoryVersionRow → MemoryVersionRow := fun version =>
    if p version then f version else version with hg
  have hgrows : (s.versions.updateWhere p f hf).rows = s.versions.rows.map g := rfl
  have hgmemory : ∀ version, (g version).memoryUuid = version.memoryUuid := by
    intro version
    simp only [hg]
    split_ifs
    · exact hmemory version
    · rfl
  refine ⟨fun memory hmem => ?_, fun version hversion => ?_⟩
  · have hof : MemoryStore.versionsOf { s with versions := s.versions.updateWhere p f hf }
        memory.memoryUuid = (s.versionsOf memory.memoryUuid).map g := by
      simp only [versionsOf, hgrows, List.filter_map]
      congr 1
      refine List.filter_congr fun version _ => ?_
      rw [Function.comp_apply, hgmemory]
    rw [Chain, hof]
    refine (h.chain memory hmem).map ?_ ?_ ?_ <;> intro version _ <;> simp only [hg] <;> split_ifs
    · exact hf version
    · rfl
    · exact hnumber version
    · rfl
    · rw [huntil]
    · exact Iff.rfl
  · rw [hgrows] at hversion
    obtain ⟨row, hrow, rfl⟩ := List.mem_map.mp hversion
    rw [hgmemory]
    exact h.owned row hrow

/-- The chains stay when other columns of a memory change. -/
lemma VersionChains.updateMemory (h : VersionChains s) (memoryUuid : String)
    {f : MemoryRow → MemoryRow} (hf : ∀ memory, (f memory).memoryUuid = memory.memoryUuid)
    (hcurrent : ∀ memory, (f memory).currentVersionUuid = memory.currentVersionUuid) :
    VersionChains (s.updateMemory memoryUuid f hf) := by
  refine ⟨fun memory hmem => ?_, fun version hversion => ?_⟩
  · obtain ⟨row, hrow, rfl⟩ := List.mem_map.mp hmem
    have hchain := h.chain row hrow
    rw [Chain] at hchain ⊢
    split_ifs
    · rwa [hf, hcurrent]
    · exact hchain
  · obtain ⟨row, hrow, hname⟩ := h.owned version hversion
    refine ⟨_, List.mem_map_of_mem hrow, ?_⟩
    split_ifs
    · rw [hf, hname]
    · exact hname

/-- The row of a version when the current version of a memory is closed. -/
def closing (memory : MemoryRow) (transactionUntil : Timestamp) (version : MemoryVersionRow) :
    MemoryVersionRow :=
  if memory.currentVersionUuid = some version.memoryVersionUuid then
    { version with transactionUntil := some transactionUntil }
  else version

section

variable (memory : MemoryRow) (transactionUntil : Timestamp) (version : MemoryVersionRow)

@[simp] lemma closing_memoryVersionUuid :
    (closing memory transactionUntil version).memoryVersionUuid = version.memoryVersionUuid := by
  rw [closing]; split_ifs <;> rfl

@[simp] lemma closing_memoryUuid :
    (closing memory transactionUntil version).memoryUuid = version.memoryUuid := by
  rw [closing]; split_ifs <;> rfl

@[simp] lemma closing_versionNumber :
    (closing memory transactionUntil version).versionNumber = version.versionNumber := by
  rw [closing]; split_ifs <;> rfl

lemma closing_of_current (h : memory.currentVersionUuid = some version.memoryVersionUuid) :
    (closing memory transactionUntil version).transactionUntil = some transactionUntil := by
  rw [closing, if_pos h]

lemma closing_of_ne (h : memory.currentVersionUuid ≠ some version.memoryVersionUuid) :
    closing memory transactionUntil version = version := by
  rw [closing, if_neg h]

end

lemma closeCurrent_memories {transactionUntil : Timestamp} :
    (s.closeCurrent memory transactionUntil).memories = s.memories := by
  unfold closeCurrent
  split <;> rfl

lemma closeCurrent_decisions {transactionUntil : Timestamp} :
    (s.closeCurrent memory transactionUntil).decisions = s.decisions := by
  unfold closeCurrent
  split <;> rfl

lemma closeCurrent_versions {transactionUntil : Timestamp} :
    (s.closeCurrent memory transactionUntil).versions.rows =
      s.versions.rows.map (closing memory transactionUntil) := by
  unfold closeCurrent
  split
  case h_1 hnone =>
    rw [List.map_congr_left (g := id), List.map_id]
    intro version _
    rw [closing, hnone, if_neg (by simp), id]
  case h_2 current hsome =>
    refine List.map_congr_left fun version _ => ?_
    rw [closing, hsome]
    simp only [decide_eq_true_eq, Option.some_inj, eq_comm (a := current)]

/-- The current version of a memory is one of its versions, and no other row has its name. -/
lemma VersionChains.memoryUuid_of_current (h : VersionChains s) (hmemory : memory ∈ s.memories.rows)
    (hversion : version ∈ s.versions.rows)
    (hcurrent : memory.currentVersionUuid = some version.memoryVersionUuid) :
    version.memoryUuid = memory.memoryUuid := by
  obtain ⟨row, hrow, hname, -⟩ := (h.chain memory hmemory).last _ hcurrent
  obtain ⟨hrow, howner⟩ := mem_versionsOf.mp hrow
  rwa [← s.versions.eq_of_key_eq hrow hversion hname]

/-- The current version of a memory has the last number. -/
lemma VersionChains.versionNumber_of_current (h : VersionChains s)
    (hmemory : memory ∈ s.memories.rows) (hcurrent : s.currentVersion memory = some version) :
    version.versionNumber = (s.versionsOf memory.memoryUuid).length := by
  obtain ⟨current, hname, hrow⟩ := Option.bind_eq_some_iff.mp hcurrent
  obtain ⟨hversion, rfl⟩ := Table.get?_eq_some.mp hrow
  refine (h.chain memory hmemory).number_current ?_ ?_ hname
  · intro r hr r' hr' heq
    exact s.versions.eq_of_key_eq (mem_versionsOf.mp hr).1 (mem_versionsOf.mp hr').1 heq
  · exact mem_versionsOf.mpr ⟨hversion, h.memoryUuid_of_current hmemory hversion hname⟩

/-- A memory whose row names no stored version has none. -/
lemma VersionChains.versionsOf_of_no_current (h : VersionChains s)
    (hmemory : memory ∈ s.memories.rows) (hcurrent : s.currentVersion memory = none) :
    memory.currentVersionUuid = none ∧ s.versionsOf memory.memoryUuid = [] := by
  rcases hname : memory.currentVersionUuid with _ | current
  · exact ⟨rfl, (h.chain memory hmemory).empty hname⟩
  · obtain ⟨row, hrow, rfl, -⟩ := (h.chain memory hmemory).last _ hname
    rw [currentVersion, hname, Option.bind_some, Table.get?_of_mem (mem_versionsOf.mp hrow).1]
      at hcurrent
    exact absurd hcurrent (by simp)

/-- **The next version.** The current version of a memory is closed, and a version with the next
number is inserted and made the current one. -/
theorem VersionChains.append (h : VersionChains s) (hmemory : memory ∈ s.memories.rows)
    (transactionUntil : Timestamp) (howner : version.memoryUuid = memory.memoryUuid)
    (hnumber : version.versionNumber = (s.versionsOf memory.memoryUuid).length + 1)
    (hopen : version.transactionUntil = none)
    (hinsert : (s.closeCurrent memory transactionUntil).insertVersion version = .ok s')
    {f : MemoryRow → MemoryRow} {hf : ∀ memory, (f memory).memoryUuid = memory.memoryUuid}
    (hcurrent : ∀ memory, (f memory).currentVersionUuid = some version.memoryVersionUuid) :
    VersionChains (s'.updateMemory memory.memoryUuid f hf) := by
  obtain ⟨hfresh, rfl⟩ := insertVersion_eq_ok hinsert
  set close := closing memory transactionUntil with hclose
  have hrows : ((s.closeCurrent memory transactionUntil).versions.insert version).rows =
      s.versions.rows.map close ++ [version] := by
    rw [Table.rows_insert hfresh, closeCurrent_versions]
  have hmemories : (s.closeCurrent memory transactionUntil).memories = s.memories :=
    closeCurrent_memories
  have hof : ∀ memoryUuid, (s.versions.rows.map close ++ [version]).filter
      (fun row => row.memoryUuid = memoryUuid) =
        (s.versionsOf memoryUuid).map close ++
          if version.memoryUuid = memoryUuid then [version] else [] := by
    intro memoryUuid
    rw [List.filter_append, List.filter_map, List.filter_singleton]
    congr 2
    · refine List.filter_congr fun row _ => ?_
      simp [hclose]
    · simp
  refine ⟨fun row hrow => ?_, fun row hrow => ?_⟩
  · simp only [MemoryStore.updateMemory, hmemories, Table.rows_updateWhere] at hrow
    obtain ⟨row, hmem, rfl⟩ := List.mem_map.mp hrow
    have hchain := h.chain row hmem
    rw [Chain] at hchain ⊢
    rw [versionsOf]
    simp only [MemoryStore.updateMemory, hrows, decide_eq_true_eq]
    split_ifs with hname
    · have hsame : row = memory := s.memories.eq_of_key_eq hmem hmemory hname
      rw [hsame] at hchain ⊢
      rw [hf, hof, if_pos howner, hcurrent]
      refine hchain.append ?_ ?_ ?_ ?_ hopen
      · intro row _
        exact closing_versionNumber _ _ row
      · intro row _ hcurrent
        rw [hclose, closing_of_current _ _ _ hcurrent]
        simp
      · intro row _ hstill
        by_cases hcurrent : memory.currentVersionUuid = some row.memoryVersionUuid
        · rw [hclose, closing_of_current _ _ _ hcurrent] at hstill
          exact absurd hstill (by simp)
        · rwa [hclose, closing_of_ne _ _ _ hcurrent] at hstill
      · exact hnumber
    · have hne : version.memoryUuid ≠ row.memoryUuid := by
        rw [howner]
        exact Ne.symm hname
      rw [hof, if_neg hne, List.append_nil]
      refine hchain.map ?_ ?_ ?_ <;> intro version hversion
      · exact closing_memoryVersionUuid _ _ version
      · exact closing_versionNumber _ _ version
      · -- the version that is closed belongs to the other memory
        obtain ⟨hversion, howner'⟩ := mem_versionsOf.mp hversion
        rw [hclose, closing_of_ne]
        intro hcurrent
        exact hname (howner'.symm.trans (h.memoryUuid_of_current hmemory hversion hcurrent))
  · have hkept : ∀ memoryUuid, (∃ row ∈ s.memories.rows, row.memoryUuid = memoryUuid) →
        ∃ row ∈ (s.updateMemory memory.memoryUuid f hf).memories.rows,
          row.memoryUuid = memoryUuid := by
      rintro memoryUuid ⟨row, hrow, rfl⟩
      refine ⟨_, List.mem_map_of_mem hrow, ?_⟩
      split_ifs
      · exact hf row
      · rfl
    simp only [MemoryStore.updateMemory, hmemories, hrows] at hrow ⊢
    refine hkept row.memoryUuid ?_
    rcases List.mem_append.mp hrow with hrow | hrow
    · obtain ⟨old, hold, rfl⟩ := List.mem_map.mp hrow
      rw [hclose, closing_memoryUuid]
      exact h.owned old hold
    · obtain rfl := List.mem_singleton.mp hrow
      exact ⟨memory, hmemory, howner.symm⟩

/-- **The first version.** A memory is inserted together with its first version. -/
theorem VersionChains.create {t : MemoryStore} (h : VersionChains s)
    (hcurrent : memory.currentVersionUuid = none) (hmemory : s.insertMemory memory = .ok t)
    (howner : version.memoryUuid = memory.memoryUuid) (hnumber : version.versionNumber = 1)
    (hopen : version.transactionUntil = none) (hinsert : t.insertVersion version = .ok s') :
    VersionChains (s'.setCurrent memory.memoryUuid version.memoryVersionUuid) := by
  obtain ⟨hfresh, rfl⟩ := insertMemory_eq_ok hmemory
  have hrows : (s.memories.insert memory).rows = s.memories.rows ++ [memory] :=
    Table.rows_insert hfresh
  -- no version names a memory that is not stored
  have hnone : s.versionsOf memory.memoryUuid = [] := by
    refine List.filter_eq_nil_iff.mpr fun row hrow heq => ?_
    obtain ⟨owner, howner, hname⟩ := h.owned row hrow
    refine Table.get?_eq_none.mp hfresh ?_
    rw [← of_decide_eq_true heq, ← hname]
    exact List.mem_map_of_mem howner
  have hchains : VersionChains { s with memories := s.memories.insert memory } := by
    refine ⟨fun row hrow => ?_, fun row hrow => ?_⟩
    · rcases List.mem_append.mp (hrows ▸ hrow) with hrow | hrow
      · exact h.chain row hrow
      · obtain rfl := List.mem_singleton.mp hrow
        have hof : MemoryStore.versionsOf { s with memories := s.memories.insert row }
            row.memoryUuid = [] := hnone
        rw [Chain, hof, hcurrent]
        exact .nil
    · obtain ⟨owner, howner, hname⟩ := h.owned row hrow
      exact ⟨owner, hrows ▸ List.mem_append_left _ howner, hname⟩
  refine hchains.append ?_ 0 howner ?_ hopen ?_ fun _ => rfl
  · rw [hrows]
    simp
  · rw [hnumber]
    exact congrArg (·.length + 1) hnone.symm
  · rwa [closeCurrent, hcurrent]

end MemoryStore

end Memorist
