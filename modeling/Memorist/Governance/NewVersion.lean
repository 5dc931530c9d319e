import Memorist.Memory.VersionChain

/-!
The version that a correction makes current (`governance/correction.py`).

* `current?`, `statusOf`, `previousVersion`: what the tables say of a memory;
* `createNewVersion_current`: the new version has the text it is given, no polarity, and the memory
  is active;
* `exists_createNewVersion`: a version under a new name can always be written;
* `previousVersion_eq_some`: in a chain, the version that an undo copies has the last number but one;
* `previousVersion_createNewVersion`: after a correction that is the version that was current.
-/

namespace Memorist

namespace MemoryStore

/-- The version that is current of a memory. -/
def current? (store : MemoryStore) (memoryUuid : String) : Option MemoryVersionRow :=
  (store.memories.get? memoryUuid).bind store.currentVersion

/-- The text of the current version of a memory. -/
def currentText (store : MemoryStore) (memoryUuid : String) : Option Text :=
  (store.current? memoryUuid).map MemoryVersionRow.normalizedText

/-- The status of a memory. -/
def statusOf (store : MemoryStore) (memoryUuid : String) : Option MemoryStatus :=
  (store.memories.get? memoryUuid).map MemoryRow.status

/-- The version that an undo copies: the last but one by its number. -/
def previousVersion (store : MemoryStore) (memoryUuid : String) : Option MemoryVersionRow :=
  (store.listVersions memoryUuid).reverse[1]?

variable {store s' : MemoryStore} {U : UnicodeData} {memory : MemoryRow} {stamp : Stamp}
  {memoryUuid : String}

/-- An undo writes a version with the text of the last one but one. -/
lemma undoRequest_eq_previous {request : ChangeRequestRow} {actorType : String}
    (hname : request.memoryUuid = some memory.memoryUuid) (hmemory : memory ∈ store.memories.rows) :
    store.undoRequest U request actorType stamp =
      match store.previousVersion memory.memoryUuid with
      | some previous =>
          store.createNewVersion U memory previous.normalizedText "undo" actorType
            (.obj [field "undone_request_uuid" (jsonString request.changeRequestUuid)]) stamp
      | none => .error "no previous version available for undo" := by
  rw [undoRequest, previousVersion, hname]
  dsimp only
  rw [Table.get?_of_mem hmemory]
  dsimp only
  rcases (store.listVersions memory.memoryUuid).reverse with _ | ⟨_, _ | ⟨previous, _⟩⟩ <;> rfl

/-! ### The new version -/

/-- The version that a correction writes. -/
lemma createNewVersion_eq_ok {normalizedText : Text} {operation actorType : String}
    {proposedValue : IJson}
    (h : store.createNewVersion U memory normalizedText operation actorType proposedValue stamp =
      .ok s') :
    ∃ current version t, store.currentVersion memory = some current ∧
      version.memoryUuid = memory.memoryUuid ∧
      version.versionNumber = current.versionNumber + 1 ∧
      version.normalizedText = normalizedText ∧ version.polarity = .unknown ∧
      (store.closeCurrent memory stamp.now).insertVersion version = .ok t ∧
      s' = t.setCurrentActive memory.memoryUuid version.memoryVersionUuid := by
  obtain ⟨current, hcurrent, h⟩ := Checks.bind_eq_ok.mp h
  obtain ⟨value, -, h⟩ := Checks.bind_eq_ok.mp h
  obtain ⟨reason, -, h⟩ := Checks.bind_eq_ok.mp h
  obtain ⟨t, ht, h⟩ := Checks.bind_eq_ok.mp h
  have hcurrent := requireCurrentVersion_eq_ok.mp hcurrent
  refine ⟨current, _, t, hcurrent, rfl, rfl, rfl, rfl, ?_, (Checks.pure_eq_ok.mp h).symm⟩
  obtain ⟨name, hname, hrow⟩ := Option.bind_eq_some_iff.mp hcurrent
  rw [closeCurrent, hname, ← ht, Table.key_of_get? hrow]

/-- What is current after a correction: a version with the text it was given and no polarity, of an
active memory. -/
theorem createNewVersion_current (hmemory : memory ∈ store.memories.rows) {normalizedText : Text}
    {operation actorType : String} {proposedValue : IJson}
    (h : store.createNewVersion U memory normalizedText operation actorType proposedValue stamp =
      .ok s') :
    s'.statusOf memory.memoryUuid = some .active ∧
      ∃ version, s'.current? memory.memoryUuid = some version ∧
        version.normalizedText = normalizedText ∧ version.polarity = .unknown := by
  obtain ⟨current, version, t, -, -, -, htext, hpolarity, hinsert, rfl⟩ := createNewVersion_eq_ok h
  obtain ⟨hfresh, rfl⟩ := insertVersion_eq_ok hinsert
  have hget : (store.closeCurrent memory stamp.now).memories.get? memory.memoryUuid =
      some memory := by
    rw [closeCurrent_memories, Table.get?_of_mem hmemory]
  have hrow : (setCurrentActive { store.closeCurrent memory stamp.now with
        versions := (store.closeCurrent memory stamp.now).versions.insert version }
      memory.memoryUuid version.memoryVersionUuid).memories.get? memory.memoryUuid =
      some { memory with
        currentVersionUuid := version.memoryVersionUuid
        status := .active } := by
    rw [setCurrentActive, updateMemory, Table.get?_updateWhere, hget]
    simp
  refine ⟨?_, version, ?_, htext, hpolarity⟩
  · rw [statusOf, hrow]
    rfl
  · rw [current?, hrow, Option.bind_some, currentVersion, Option.bind_some]
    exact Table.get?_insert_self hfresh

/-- A version without a candidate is stored when neither its name nor its number is taken. -/
lemma insertVersion_of_free {version : MemoryVersionRow}
    (hname : store.versions.get? version.memoryVersionUuid = none)
    (hnumber : ∀ row ∈ store.versions.rows, row.memoryUuid = version.memoryUuid →
      row.versionNumber ≠ version.versionNumber)
    (hcandidate : version.sourceCandidateUuid = none) :
    store.insertVersion version = .ok { store with versions := store.versions.insert version } := by
  unfold insertVersion
  rw [if_neg, if_neg, if_neg]
  · simp only [hcandidate, Bool.not_eq_true, List.any_eq_false, Bool.and_eq_true, decide_eq_true_eq]
    rintro row - ⟨⟨hsome, hnone⟩, -⟩
    simp [hnone] at hsome
  · simpa using hnumber
  · simp [hname]

/-- A version under a new name can be written where the current one is the last. -/
theorem exists_createNewVersion (hchains : VersionChains store)
    (hmemory : memory ∈ store.memories.rows) {current : MemoryVersionRow}
    (hcurrent : store.currentVersion memory = some current) (normalizedText : Text)
    {operation actorType : String} {proposedValue : IJson}
    (hreason : ValidValue U none (correctionReason operation actorType proposedValue))
    (hfresh : store.versions.get? stamp.memoryVersionUuid = none) :
    ∃ s', store.createNewVersion U memory normalizedText operation actorType proposedValue stamp =
      .ok s' := by
  have hvalue : ValidValue U none (.obj [field "value" (.str normalizedText)]) := by
    rw [validValue_fields ["value"] (by decide +kernel) rfl]
    simp [field]
  obtain ⟨name, hname, hrow⟩ := Option.bind_eq_some_iff.mp hcurrent
  obtain ⟨-, rfl⟩ := Table.get?_eq_some.mp hrow
  have hclose : store.closeVersion current.memoryVersionUuid stamp.now =
      store.closeCurrent memory stamp.now := by
    rw [closeCurrent, hname]
  have hrows : (store.closeCurrent memory stamp.now).versions.rows =
      store.versions.rows.map (closing memory stamp.now) := closeCurrent_versions
  rw [createNewVersion, requireCurrentVersion_eq_ok.mpr hcurrent, Checks.ok_bind,
    dumpIjson_of_valid hvalue, Checks.ok_bind, dumpIjson_of_valid hreason, Checks.ok_bind, hclose]
  dsimp only
  rw [insertVersion_of_free ?_ ?_ rfl]
  · exact ⟨_, rfl⟩
  · refine Table.get?_eq_none.mpr ?_
    have hkeys : (MemoryVersionRow.memoryVersionUuid ∘ closing memory stamp.now) =
        MemoryVersionRow.memoryVersionUuid := by
      funext version
      exact closing_memoryVersionUuid _ _ version
    rw [hrows, List.map_map, hkeys]
    exact Table.get?_eq_none.mp hfresh
  · -- the current version has the last number
    intro row hrow hown hnumber
    obtain ⟨row, hmem, rfl⟩ := List.mem_map.mp (hrows ▸ hrow)
    rw [closing_memoryUuid] at hown
    rw [closing_versionNumber] at hnumber
    have hle := ((hchains.chain memory hmemory).number_mem (mem_versionsOf.mpr ⟨hmem, hown⟩)).2
    have hlast := hchains.versionNumber_of_current hmemory hcurrent
    dsimp only at hnumber
    omega

/-! ### The version before -/

/-- The versions of a memory, in the order of their numbers, are numbered from one on. -/
lemma numbers_listVersions (hchain : store.Chain memory) :
    (store.listVersions memory.memoryUuid).map MemoryVersionRow.versionNumber =
      List.range' 1 (store.versionsOf memory.memoryUuid).length := by
  have hperm : (store.listVersions memory.memoryUuid).Perm
      (store.versionsOf memory.memoryUuid) := List.mergeSort_perm _ _
  have hsorted : ((store.listVersions memory.memoryUuid).map
      MemoryVersionRow.versionNumber).Pairwise (· ≤ ·) := by
    rw [List.pairwise_map]
    have h := @List.pairwise_mergeSort MemoryVersionRow
      (fun a b => decide (a.versionNumber ≤ b.versionNumber))
      (fun a b c hab hbc => by
        simpa using (of_decide_eq_true hab).trans (of_decide_eq_true hbc))
      (fun a b => by
        simpa only [Bool.or_eq_true, decide_eq_true_eq] using
          le_total a.versionNumber b.versionNumber)
      (store.versionsOf memory.memoryUuid)
    simpa [listVersions] using h
  refine List.Perm.eq_of_pairwise (fun a b _ _ hab hba => le_antisymm hab hba) hsorted
    ((List.pairwise_lt_range' : (List.range' 1 _ 1).Pairwise (· < ·)).imp le_of_lt) ?_
  exact (hperm.map _).trans hchain.numbers

/-- In a chain the version before the last has the last number but one. -/
theorem previousVersion_eq_some (hchain : store.Chain memory) {previous : MemoryVersionRow} :
    store.previousVersion memory.memoryUuid = some previous ↔
      previous ∈ store.versionsOf memory.memoryUuid ∧
        previous.versionNumber + 1 = (store.versionsOf memory.memoryUuid).length := by
  have hnumbers := numbers_listVersions hchain
  have hperm : (store.listVersions memory.memoryUuid).Perm
      (store.versionsOf memory.memoryUuid) := List.mergeSort_perm _ _
  have hlength := hperm.length_eq
  have hnumber : ∀ i version, (store.listVersions memory.memoryUuid)[i]? = some version →
      version.versionNumber = i + 1 := by
    intro i version hversion
    have h := congrArg (·[i]?) hnumbers
    simp only [List.getElem?_map, hversion, Option.map_some] at h
    obtain ⟨hlt, h⟩ := List.getElem?_eq_some_iff.mp h.symm
    rw [← h, List.getElem_range', Nat.one_mul, Nat.add_comm]
  rw [previousVersion]
  constructor
  · intro h
    have hlt := (List.getElem?_eq_some_iff.mp h).1
    rw [List.length_reverse] at hlt
    rw [List.getElem?_reverse hlt] at h
    refine ⟨hperm.mem_iff.mp (List.mem_of_getElem? h), ?_⟩
    rw [hnumber _ _ h]
    omega
  · rintro ⟨hmem, hnum⟩
    obtain ⟨i, hi⟩ := List.getElem?_of_mem (hperm.mem_iff.mpr hmem)
    have hpos := hnumber i previous hi
    have hlt : 1 < (store.listVersions memory.memoryUuid).length := by omega
    rw [List.getElem?_reverse hlt, ← hi]
    congr 1
    omega

/-- The versions after a correction: those before, the current one closed, and the new one. -/
lemma versionsOf_createNewVersion {normalizedText : Text} {operation actorType : String}
    {proposedValue : IJson}
    (h : store.createNewVersion U memory normalizedText operation actorType proposedValue stamp =
      .ok s') :
    ∃ version, s'.versionsOf memory.memoryUuid =
      (store.versionsOf memory.memoryUuid).map (closing memory stamp.now) ++ [version] := by
  obtain ⟨current, version, t, -, howner, -, -, -, hinsert, rfl⟩ := createNewVersion_eq_ok h
  obtain ⟨hfresh, rfl⟩ := insertVersion_eq_ok hinsert
  have hrows : ((store.closeCurrent memory stamp.now).versions.insert version).rows =
      store.versions.rows.map (closing memory stamp.now) ++ [version] := by
    rw [Table.rows_insert hfresh, closeCurrent_versions]
  refine ⟨version, ?_⟩
  rw [versionsOf, setCurrentActive, updateMemory, hrows, List.filter_append, List.filter_map,
    List.filter_singleton]
  simp only [howner, decide_true]
  congr 2
  refine List.filter_congr fun row _ => ?_
  simp

/-- After a correction the version before the last is the one that was current. -/
theorem previousVersion_createNewVersion (hchains : VersionChains store)
    (hmemory : memory ∈ store.memories.rows) {normalizedText : Text} {operation actorType : String}
    {proposedValue : IJson}
    (h : store.createNewVersion U memory normalizedText operation actorType proposedValue stamp =
      .ok s') :
    ∃ previous, s'.previousVersion memory.memoryUuid = some previous ∧
      store.currentText memory.memoryUuid = some previous.normalizedText := by
  have hchains' := hchains.createNewVersion hmemory h
  obtain ⟨version, hof⟩ := versionsOf_createNewVersion h
  obtain ⟨current, -, -, hcurrent, -⟩ := createNewVersion_eq_ok h
  obtain ⟨name, hname, hrow⟩ := Option.bind_eq_some_iff.mp hcurrent
  obtain ⟨hversion, rfl⟩ := Table.get?_eq_some.mp hrow
  have hmem : current ∈ store.versionsOf memory.memoryUuid := mem_versionsOf.mpr
    ⟨hversion, hchains.memoryUuid_of_current hmemory hversion hname⟩
  have hclosed : closing memory stamp.now current ∈ s'.versionsOf memory.memoryUuid := by
    rw [hof]
    exact List.mem_append_left _ (List.mem_map_of_mem hmem)
  obtain ⟨row, hrow', hrowName⟩ := hchains'.owned _ (mem_versionsOf.mp hclosed).1
  rw [(mem_versionsOf.mp hclosed).2] at hrowName
  refine ⟨closing memory stamp.now current, ?_, ?_⟩
  · rw [← hrowName, previousVersion_eq_some (hchains'.chain row hrow'), hrowName]
    refine ⟨hclosed, ?_⟩
    rw [closing_versionNumber, hchains.versionNumber_of_current hmemory hcurrent, hof]
    simp
  · rw [currentText, current?, Table.get?_of_mem hmemory, Option.bind_some, hcurrent,
      Option.map_some, closing, if_pos hname]

end MemoryStore

end Memorist
