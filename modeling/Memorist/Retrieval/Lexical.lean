import Memorist.Library.KeySort
import Memorist.Retrieval.Scorer
import Memorist.Text.Lines

/-!
The full-text generator (`retrieval/lexical.py`).

* `IndexRow`, `rebuildIndex`: the index holds the current versions and those whose time ended;
* `FullText`: what the index answers to a query, with a score for each row;
* `rankedRows`, `LexicalGenerator.generate`: the rows that match in scope, best first, up to a limit;
* `current_survive_iff`: when the versions that are scored are the best of the current ones.
-/

namespace Memorist.Retrieval

/-! ### The index -/

/-- A row of `memory_version_fts`. -/
structure IndexRow where
  memoryVersionUuid : String
  memoryUuid : String
  canonicalKey : Text
  memoryType : String
  scopeType : String
  scopeUuid : Option String
  subjectPredicate : Text
  normalizedText : Text
  indexText : Text
  deriving DecidableEq

/-- The row of a version of a memory. -/
def IndexRow.of (memory : MemoryRow) (version : RatedVersionRow) : IndexRow where
  memoryVersionUuid := version.uuid
  memoryUuid := version.memoryUuid
  canonicalKey := memory.canonicalKey
  memoryType := memory.memoryType
  scopeType := memory.scopeType
  scopeUuid := memory.scopeUuid
  subjectPredicate := memory.canonicalKey
  normalizedText := version.normalizedText
  indexText := memory.canonicalKey ++ [' '] ++ memory.memoryType.toList ++ [' '] ++
    memory.scopeType.toList ++ [' '] ++ version.normalizedText

/-- `rebuild_index`. -/
def rebuildIndex (store : Store) : List IndexRow :=
  store.versions.rows.filterMap fun version =>
    (store.memories.get? version.memoryUuid).bind fun memory =>
      if memory.currentVersionUuid = some version.uuid ∨ version.transactionUntil.isSome then
        some (IndexRow.of memory version)
      else none

/-- The full-text search of the database: what it makes of a query over an index, unless the query
is malformed; of each row its score, if the row matches. -/
abbrev FullText := List IndexRow → Text → Option (IndexRow → Option ℚ)

/-! ### The query -/

/-- `_escape_fts`. -/
def escapeFts (U : UnicodeData) (query : Text) : Text :=
  List.intercalate [' ']
    (((words U query).map fun term => term.filter (· ≠ '"')).map fun term => '"' :: term ++ ['"'])

/-- The query of a plan. -/
def ftsQuery (U : UnicodeData) (plan : RetrievalPlan) : Text :=
  List.intercalate " OR ".toList
    ((plan.expandedQueries.filter (· ≠ [])).map (escapeFts U))

/-- The rows of the index that are in scope, with the scores that the search gave them. -/
def scoredRows (store : Store) (scopes : List RetrievalScope) (bm25 : IndexRow → Option ℚ) :
    List (IndexRow × ℚ) :=
  (rebuildIndex store).filterMap fun row =>
    (bm25 row).bind fun score =>
      (store.memories.get? row.memoryUuid).bind fun memory =>
        (store.versions.get? row.memoryVersionUuid).bind fun _ =>
          if inScope scopes memory then some (row, score) else none

/-- The rows that match a plan in scope, in the order of their scores; none without a query. -/
def rankedRows (U : UnicodeData) (search : FullText) (store : Store) (plan : RetrievalPlan) :
    Option (List (IndexRow × ℚ)) :=
  if plan.expandedQueries = [] then some []
  else if U.strip (ftsQuery U plan) = [] then some []
  else (search (rebuildIndex store) (ftsQuery U plan)).map fun bm25 =>
    KeySort.sortBy Prod.snd (scoredRows store plan.scopes bm25)

/-! ### The generator -/

/-- What the generator lists of a version. -/
structure LexicalResult where
  memoryUuid : String
  memoryVersionUuid : String
  rank : ℕ
  lexicalScore : ℚ
  deriving DecidableEq

/-- The entries of the rows of a query. -/
def LexicalResult.ofRows (rows : List (IndexRow × ℚ)) : List LexicalResult :=
  rows.zipIdx.map fun ranked =>
    ⟨ranked.1.1.memoryUuid, ranked.1.1.memoryVersionUuid, ranked.2 + 1, ranked.1.2⟩

/-- `LexicalGenerator.generate`; a malformed query ends it. -/
def LexicalGenerator.generate (U : UnicodeData) (search : FullText) (store : Store) (topK : ℕ)
    (plan : RetrievalPlan) : Option (List LexicalResult) :=
  (rankedRows U search store plan).map fun rows => LexicalResult.ofRows (rows.take topK)

/-- The candidate that is made of an entry. -/
def LexicalResult.candidate (result : LexicalResult) (fusedScore : ℚ) : RetrievalCandidate where
  memoryUuid := result.memoryUuid
  memoryVersionUuid := result.memoryVersionUuid
  fusedScore := some fusedScore

/-- A row of the index is of the current version of its memory. -/
def isCurrentRow (store : Store) (row : IndexRow) : Bool :=
  (store.memories.get? row.memoryUuid).any fun memory =>
    memory.currentVersionUuid = some row.memoryVersionUuid

/-- The versions of the entries that are scored, whatever fusion makes of them. -/
def scoredVersions (U : UnicodeData) (store : Store) (plan : RetrievalPlan) (fused : String → ℚ)
    (results : List LexicalResult) : List String :=
  (results.filter fun result =>
    (store.score U (result.candidate (fused result.memoryVersionUuid)) plan).isSome).map
      LexicalResult.memoryVersionUuid

/-- The best of the current versions. -/
def bestCurrent (store : Store) (topK : ℕ) (rows : List (IndexRow × ℚ)) : List String :=
  ((rows.filter fun row => isCurrentRow store row.1).take topK).map fun row =>
    row.1.memoryVersionUuid

/-! ### Which versions survive -/

section Survive

variable {U : UnicodeData} {search : FullText} {store : Store} {plan : RetrievalPlan} {topK : ℕ}

/-- The rows of a query have a memory and a version. -/
lemma mem_scoredRows {scopes : List RetrievalScope} {bm25 : IndexRow → Option ℚ}
    {row : IndexRow × ℚ} (h : row ∈ scoredRows store scopes bm25) :
    ∃ memory version, store.memories.get? row.1.memoryUuid = some memory ∧
      store.versions.get? row.1.memoryVersionUuid = some version := by
  obtain ⟨indexed, -, hrow⟩ := List.mem_filterMap.mp h
  obtain ⟨score, -, hrow⟩ := Option.bind_eq_some_iff.mp hrow
  obtain ⟨memory, hmemory, hrow⟩ := Option.bind_eq_some_iff.mp hrow
  obtain ⟨version, hversion, hrow⟩ := Option.bind_eq_some_iff.mp hrow
  split_ifs at hrow with hscope
  obtain rfl := Option.some.inj hrow
  exact ⟨memory, version, hmemory, hversion⟩

lemma mem_rankedRows {rows : List (IndexRow × ℚ)} (h : rankedRows U search store plan = some rows)
    {row : IndexRow × ℚ} (hrow : row ∈ rows) :
    ∃ memory version, store.memories.get? row.1.memoryUuid = some memory ∧
      store.versions.get? row.1.memoryVersionUuid = some version := by
  unfold rankedRows at h
  split_ifs at h
  · obtain rfl := Option.some.inj h
    exact absurd hrow List.not_mem_nil
  · obtain rfl := Option.some.inj h
    exact absurd hrow List.not_mem_nil
  · obtain ⟨bm25, -, rfl⟩ := Option.map_eq_some_iff.mp h
    exact mem_scoredRows (KeySort.mem_sortBy.mp hrow)

/-- Without a temporal filter an entry of the generator is scored exactly when its row is of a
current version. -/
lemma score_isSome_eq (hplan : plan.temporalFilter = none) {rows : List (IndexRow × ℚ)}
    (hrows : rankedRows U search store plan = some rows) {row : IndexRow × ℚ} (hrow : row ∈ rows)
    (candidate : RetrievalCandidate) (hmemory : candidate.memoryUuid = row.1.memoryUuid)
    (hversion : candidate.memoryVersionUuid = row.1.memoryVersionUuid) :
    (store.score U candidate plan).isSome = isCurrentRow store row.1 := by
  obtain ⟨memory, version, hmem, hver⟩ := mem_rankedRows hrows hrow
  have huuid : version.uuid = row.1.memoryVersionUuid := Table.key_of_get? hver
  rw [Bool.eq_iff_iff, Store.score_isSome_iff, hmemory, hversion]
  simp [Store.Scorable, isCurrentRow, hmem, hver, huuid, hplan]

/-- The versions of the entries that are scored, read off the rows. -/
lemma scoredVersions_ofRows (hplan : plan.temporalFilter = none) (fused : String → ℚ)
    {rows : List (IndexRow × ℚ)} (hrows : rankedRows U search store plan = some rows)
    {listed : List (IndexRow × ℚ)} (hlisted : ∀ row ∈ listed, row ∈ rows) :
    scoredVersions U store plan fused (LexicalResult.ofRows listed) =
      (listed.filter fun row => isCurrentRow store row.1).map fun row =>
        row.1.memoryVersionUuid := by
  have h : ∀ start, (((listed.zipIdx start).map fun ranked =>
      (⟨ranked.1.1.memoryUuid, ranked.1.1.memoryVersionUuid, ranked.2 + 1, ranked.1.2⟩ :
        LexicalResult)).filter fun result =>
          (store.score U (result.candidate (fused result.memoryVersionUuid)) plan).isSome).map
        LexicalResult.memoryVersionUuid =
      (listed.filter fun row => isCurrentRow store row.1).map fun row =>
        row.1.memoryVersionUuid := by
    induction listed with
    | nil => simp
    | cons row listed ih =>
        intro start
        have hscore := score_isSome_eq hplan hrows (hlisted row List.mem_cons_self)
          ((⟨row.1.memoryUuid, row.1.memoryVersionUuid, start + 1, row.2⟩ :
            LexicalResult).candidate (fused row.1.memoryVersionUuid)) rfl rfl
        have ih := ih (fun r hr => hlisted r (List.mem_cons_of_mem _ hr)) (start + 1)
        rw [List.zipIdx_cons, List.map_cons, List.filter_cons, List.filter_cons, hscore]
        split_ifs
        · rw [List.map_cons, List.map_cons, ih]
        · exact ih
  exact h 0

/-- Of the entries of a query without a temporal filter, the versions that are scored are the best of
the current ones exactly when every row up to the limit is of a current version, or no row past it
is. -/
theorem current_survive_iff (fused : String → ℚ) (hplan : plan.temporalFilter = none) :
    (LexicalGenerator.generate U search store topK plan).map (scoredVersions U store plan fused) =
        (rankedRows U search store plan).map (bestCurrent store topK) ↔
      ∀ rows, rankedRows U search store plan = some rows →
        (∀ row ∈ rows.take topK, isCurrentRow store row.1) ∨
          ∀ row ∈ rows.drop topK, isCurrentRow store row.1 = false := by
  unfold LexicalGenerator.generate
  cases hrows : rankedRows U search store plan with
  | none => simp
  | some rows =>
      have hlisted : ∀ row ∈ rows.take topK, row ∈ rows := fun row => List.mem_of_mem_take
      rw [Option.map_some, Option.map_some, Option.map_some, Option.some.injEq,
        scoredVersions_ofRows hplan fused hrows hlisted, bestCurrent, KeySort.filter_take_eq_iff]
      simp

end Survive

/-! ### A long history -/

/-- The versions of a memory that was changed twenty times. -/
def changedVersion (changes : ℕ) : RatedVersionRow where
  memoryVersionUuid := toString changes
  memoryUuid := "memory"
  versionNumber := changes + 1
  normalizedText := "I drink tea".toList
  transactionFrom := changes
  transactionUntil := if changes < 20 then some (changes + 1) else none
  changeOperation := .update
  confidence := 9 / 10
  importance := 5 / 10

/-- The store with this memory alone. -/
def changedStore : Store where
  memories := .ofRows [⟨"memory", "drink".toList, "fact", "project", some "p", some "20", .active,
    .normal⟩]
  versions := ⟨(List.range 21).map changedVersion, by decide +kernel⟩
  decisions := .empty
  candidates := .empty
  evidenceLinks := []
  evidence := .empty

/-- A query in the scope of this memory. -/
def teaPlan : RetrievalPlan where
  originalQuery := "tea".toList
  expandedQueries := ["tea".toList]
  scopes := [⟨.project, some "p"⟩]

/-- A search that matches all versions, the superseded ones better. -/
def oldFirst : FullText := fun _ _ => some fun row =>
  some (if row.memoryVersionUuid = "20" then -1 else -2)

/-- Twenty superseded versions fill the list, and none of them is scored. -/
theorem current_crowded_out :
    (LexicalGenerator.generate basicLatin oldFirst changedStore 20 teaPlan).map
        (scoredVersions basicLatin changedStore teaPlan fun _ => 0) = some [] ∧
      (rankedRows basicLatin oldFirst changedStore teaPlan).map (bestCurrent changedStore 20) =
        some ["20"] := by
  decide +kernel

/-- With a limit that the history does not reach, the current version is scored. -/
theorem current_survive_iff_uncrowded :
    (LexicalGenerator.generate basicLatin oldFirst changedStore 21 teaPlan).map
        (scoredVersions basicLatin changedStore teaPlan fun _ => 0) =
      (rankedRows basicLatin oldFirst changedStore teaPlan).map (bestCurrent changedStore 21) := by
  refine (current_survive_iff _ rfl).mpr fun rows hrows => Or.inr fun row hrow => ?_
  have hlength : (rankedRows basicLatin oldFirst changedStore teaPlan).map List.length = some 21 := by
    decide +kernel
  rw [hrows, Option.map_some, Option.some.injEq] at hlength
  rw [List.drop_eq_nil_of_le hlength.le] at hrow
  exact absurd hrow List.not_mem_nil

end Memorist.Retrieval
