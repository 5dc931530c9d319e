import Memorist.Retrieval.Fusion
import Memorist.Retrieval.Scorer

/-!
The candidates of a query (`retrieval/generators.py`, `retrieval/graph.py`).

* `rankedResults`: the list of a generator, from the rows of its query;
* `GeneratedLists`: the lists of the six generators, and what each of them promises;
* `HybridCandidateGenerator.generate`: their fusion;
* `fusedShares`: what a version is worth if each generator counts its best rank once;
* `more_evidence_iff`: when one more entry of a version lowers neither of its scores, and the fused
  one is that worth.
-/

namespace Memorist.Retrieval

/-! ### The lists -/

/-- A row of the query of a generator, with the score that the query gave it. -/
structure FoundVersion where
  memoryUuid : String
  memoryVersionUuid : String
  score : ℚ := 0

/-- `CandidateGenerationConfig`: how many rows the query of a generator returns. -/
def GeneratorType.topK : GeneratorType → ℕ
  | exactKey => 20
  | activeConstraint => 10
  | fts5Bm25 => 20
  | semantic => 20
  | recentSession => 10
  | falkordbGraph => 10

/-- `fused_candidate_limit`. -/
def fusedCandidateLimit : ℕ := 30

/-- `rrf_k`. -/
def rrfK : ℕ := 60

/-- The score of an entry of the graph. -/
def graphScoreAt (index : ℕ) : ℚ := max (1 / 10) (1 - index * (5 / 100))

/-- The entry of a row at its place. -/
def GeneratorType.entry (generator : GeneratorType) (index : ℕ) (row : FoundVersion) :
    GeneratorResult where
  generatorType := generator
  memoryUuid := row.memoryUuid
  memoryVersionUuid := row.memoryVersionUuid
  rank := some (index + 1)
  lexicalScore := if generator = .fts5Bm25 then some row.score else none
  semanticScore := if generator = .semantic then some row.score else none
  graphScore := if generator = .falkordbGraph then some (graphScoreAt index) else none

/-- The list of a generator. -/
def rankedResults (generator : GeneratorType) (rows : List FoundVersion) : List GeneratorResult :=
  (rows.take generator.topK).zipIdx.map fun row => generator.entry row.2 row.1

/-- A generator takes part in a query: the semantic one unless the mode is lite, that of the graph in
the modes full and debug. -/
def GeneratorType.enabled (mode : RetrievalMode) : GeneratorType → Bool
  | semantic => mode ≠ .lite
  | falkordbGraph => mode = .full ∨ mode = .debug
  | _ => true

/-- The lists of the generators: each entry is of its generator, has a rank within the limit of the
generator and, if it is of the graph, the score of that rank; a version has one memory. -/
structure GeneratedLists where
  results : GeneratorType → List GeneratorResult
  entry_of_mem : ∀ generator, ∀ result ∈ results generator,
    ∃ index < generator.topK, ∃ row, result = generator.entry index row
  memory_eq : ∀ generator, ∀ result ∈ results generator, ∀ generator', ∀ result' ∈ results generator',
    result.memoryVersionUuid = result'.memoryVersionUuid → result.memoryUuid = result'.memoryUuid

/-- The lists of a query, from the rows that its generators find in a store: every row names the
memory of its version. -/
def GeneratedLists.of (plan : RetrievalPlan) (memoryOf : String → String)
    (rows : GeneratorType → List FoundVersion)
    (hrows : ∀ generator, ∀ row ∈ rows generator, row.memoryUuid = memoryOf row.memoryVersionUuid) :
    GeneratedLists where
  results generator :=
    if generator.enabled plan.retrievalMode then rankedResults generator (rows generator) else []
  entry_of_mem generator result hresult := by
    split_ifs at hresult
    · obtain ⟨row, hrow, rfl⟩ := List.mem_map.mp hresult
      have hindex := List.snd_lt_of_mem_zipIdx hrow
      have hlength := List.length_take_le generator.topK (rows generator)
      exact ⟨row.2, by omega, row.1, rfl⟩
    · exact absurd hresult List.not_mem_nil
  memory_eq generator result hresult generator' result' hresult' hversion := by
    have hmemory : ∀ generator, ∀ result ∈ (if generator.enabled plan.retrievalMode then
        rankedResults generator (rows generator) else []),
        result.memoryUuid = memoryOf result.memoryVersionUuid := by
      intro generator result hresult
      split_ifs at hresult
      · obtain ⟨row, hrow, rfl⟩ := List.mem_map.mp hresult
        exact hrows generator row.1 (List.mem_of_mem_take (List.fst_mem_of_mem_zipIdx hrow))
      · exact absurd hresult List.not_mem_nil
    rw [hmemory generator result hresult, hmemory generator' result' hresult', hversion]

/-! ### Fusion -/

/-- The weights of the generators. -/
def generatorWeights : Dict GeneratorType ℚ :=
  [(.exactKey, 16 / 10), (.activeConstraint, 15 / 10), (.fts5Bm25, 1), (.semantic, 8 / 10),
    (.recentSession, 6 / 10), (.falkordbGraph, 8 / 10)]

/-- The generators in the order of their lists. -/
def generatorOrder : List GeneratorType :=
  [.exactKey, .activeConstraint, .fts5Bm25, .semantic, .recentSession, .falkordbGraph]

/-- `HybridCandidateGenerator.generate`, from the lists of its generators. -/
def HybridCandidateGenerator.generate (lists : GeneratedLists) : List FusedItem :=
  reciprocalRankFusion generatorWeights rrfK (generatorOrder.map lists.results) fusedCandidateLimit

/-- The candidate that is made of an item. -/
def FusedItem.candidate (item : FusedItem) : RetrievalCandidate where
  memoryUuid := item.memoryUuid
  memoryVersionUuid := item.memoryVersionUuid
  fusedScore := some item.fusedScore
  graphScore := item.graphScore

/-- The best rank of a version in the list of a generator. -/
def bestRank (version : String) (results : List GeneratorResult) : Option ℕ :=
  ((entriesOf version results).map GeneratorResult.usedRank).min?

/-- What a generator is worth to a version: its weight over its best rank, once. -/
def bestShare (lists : GeneratedLists) (version : String) (generator : GeneratorType) : ℚ :=
  match bestRank version (lists.results generator) with
  | some rank => weightOf generatorWeights generator / (rrfK + rank)
  | none => 0

/-- What the generators are worth to a version. -/
def fusedShares (lists : GeneratedLists) (version : String) : ℚ :=
  ∑ generator, bestShare lists version generator

/-- A generator lists a version. -/
def GeneratedLists.Finds (lists : GeneratedLists) (generator : GeneratorType) (version : String) :
    Prop :=
  ∃ result ∈ lists.results generator, result.memoryVersionUuid = version

/-- One more entry, of a version that its generator did not list; everything else is as before. -/
structure GeneratedLists.Adds (lists lists' : GeneratedLists) (generator : GeneratorType)
    (entry : GeneratorResult) : Prop where
  new : ¬ lists.Finds generator entry.memoryVersionUuid
  inserted : ∃ before after, lists.results generator = before ++ after ∧
    lists'.results generator = before ++ entry :: after
  others : ∀ other, other ≠ generator → lists'.results other = lists.results other

/-! ### Shares -/

@[simp] lemma usedRank_entry (generator : GeneratorType) (index : ℕ) (row : FoundVersion) :
    (generator.entry index row).usedRank = index + 1 := rfl

/-- The share of an entry at a place. -/
lemma share_entry (generator : GeneratorType) (index : ℕ) (row : FoundVersion) :
    share generatorWeights rrfK (generator.entry index row) =
      weightOf generatorWeights generator / (61 + index) := by
  rw [share, usedRank_entry, rrfK]
  push_cast
  rw [show (60 + (index + 1) : ℚ) = 61 + index by ring]
  rfl

lemma weightOf_pos (generator : GeneratorType) : 0 < weightOf generatorWeights generator := by
  cases generator <;> decide +kernel

lemma weightOf_le (generator : GeneratorType) : weightOf generatorWeights generator ≤ 16 / 10 := by
  cases generator <;> decide +kernel

lemma share_entry_pos (generator : GeneratorType) (index : ℕ) (row : FoundVersion) :
    0 < share generatorWeights rrfK (generator.entry index row) := by
  rw [share_entry]
  have hweight := weightOf_pos generator
  positivity

lemma share_entry_le (generator : GeneratorType) (index : ℕ) (row : FoundVersion) :
    share generatorWeights rrfK (generator.entry index row) ≤ 16 / 610 := by
  have hindex : (0 : ℚ) ≤ index := Nat.cast_nonneg index
  rw [share_entry, div_le_iff₀ (by linarith)]
  calc weightOf generatorWeights generator ≤ 16 / 10 := weightOf_le generator
    _ = 16 / 610 * 61 := by norm_num
    _ ≤ 16 / 610 * (61 + index) := by linarith

/-- An entry of the graph is worth much. -/
lemma le_graphScoreAt {index : ℕ} (h : index < 10) : 55 / 100 ≤ graphScoreAt index := by
  have hindex : (index : ℚ) ≤ 9 := by exact_mod_cast Nat.le_of_lt_succ h
  rw [graphScoreAt]
  exact le_max_of_le_right (by linarith)

namespace GeneratedLists

variable {lists lists' : GeneratedLists} {generator : GeneratorType} {entry : GeneratorResult}
  {version : String}

/-- The entries that are fused. -/
def entries (lists : GeneratedLists) : List GeneratorResult :=
  (generatorOrder.map lists.results).flatten

/-- The entries of the generators but that of the graph, whose list is the last one. -/
def textual (lists : GeneratedLists) : List GeneratorResult :=
  [.exactKey, .activeConstraint, .fts5Bm25, .semantic, .recentSession].flatMap lists.results

lemma entries_eq (lists : GeneratedLists) :
    lists.entries = lists.textual ++ lists.results .falkordbGraph := by
  simp [entries, textual, generatorOrder]

lemma mem_textual {result : GeneratorResult} : result ∈ lists.textual ↔
    ∃ generator, generator ≠ .falkordbGraph ∧ result ∈ lists.results generator := by
  rw [textual, List.mem_flatMap]
  constructor
  · rintro ⟨generator, hgenerator, hresult⟩
    refine ⟨generator, ?_, hresult⟩
    rintro rfl
    exact absurd hgenerator (by decide)
  · rintro ⟨generator, hgenerator, hresult⟩
    exact ⟨generator, by cases generator <;> simp_all, hresult⟩

lemma mem_entries {result : GeneratorResult} :
    result ∈ lists.entries ↔ ∃ generator, result ∈ lists.results generator := by
  rw [entries, List.mem_flatten]
  constructor
  · rintro ⟨results, hresults, hresult⟩
    obtain ⟨generator, -, rfl⟩ := List.mem_map.mp hresults
    exact ⟨generator, hresult⟩
  · rintro ⟨generator, hresult⟩
    exact ⟨_, List.mem_map_of_mem (by cases generator <;> decide), hresult⟩

lemma sharesOf_pos {es : List GeneratorResult}
    (hes : ∀ result ∈ es, result ∈ lists.results generator)
    (hne : es ≠ []) : 0 < (es.map (share generatorWeights rrfK)).sum := by
  refine List.sum_pos _ (fun x hx => ?_) (by simpa using hne)
  obtain ⟨result, hresult, rfl⟩ := List.mem_map.mp hx
  obtain ⟨index, -, row, rfl⟩ := lists.entry_of_mem generator result (hes result hresult)
  exact share_entry_pos generator index row

/-- The best rank counts at most as much as all entries, and as much only if there is one. -/
lemma bestShare_le (lists : GeneratedLists) (version : String) (generator : GeneratorType) :
    bestShare lists version generator ≤
        sharesOf generatorWeights rrfK version (lists.results generator) ∧
      (bestShare lists version generator =
          sharesOf generatorWeights rrfK version (lists.results generator) ↔
        (entriesOf version (lists.results generator)).length ≤ 1) := by
  have hmem : ∀ result ∈ entriesOf version (lists.results generator),
      result ∈ lists.results generator := fun result => List.mem_of_mem_filter
  unfold bestShare bestRank sharesOf
  cases hrank : ((entriesOf version (lists.results generator)).map
      GeneratorResult.usedRank).min? with
  | none =>
      rw [List.min?_eq_none_iff, List.map_eq_nil_iff] at hrank
      simp [hrank]
  | some rank =>
      obtain ⟨result, hresult, hused⟩ := List.mem_map.mp (List.min?_mem hrank)
      have hshare : weightOf generatorWeights generator / ((rrfK : ℕ) + (rank : ℕ)) =
          share generatorWeights rrfK result := by
        obtain ⟨index, -, row, rfl⟩ := lists.entry_of_mem generator result (hmem result hresult)
        rw [share, hused]
        rfl
      have hperm := List.perm_cons_erase hresult
      have hsum := (hperm.map (share generatorWeights rrfK)).sum_eq
      rw [List.map_cons, List.sum_cons] at hsum
      have hlength := hperm.length_eq
      rw [List.length_cons] at hlength
      dsimp only
      rw [hshare, hsum, hlength]
      rcases List.eq_nil_or_concat
        ((entriesOf version (lists.results generator)).erase result) with hnil | ⟨xs, x, hcons⟩
      · simp [hnil]
      · have hpos : 0 < (((entriesOf version (lists.results generator)).erase result).map
            (share generatorWeights rrfK)).sum :=
          @sharesOf_pos lists generator _
            (fun r hr => hmem r (List.mem_of_mem_erase hr)) (by simp [hcons])
        refine ⟨by linarith, iff_of_false (by linarith) ?_⟩
        rw [hcons]
        simp

/-- The fused score of a version is the sum over the lists. -/
lemma sharesOf_entries (lists : GeneratedLists) (version : String) :
    sharesOf generatorWeights rrfK version lists.entries =
      ∑ generator, sharesOf generatorWeights rrfK version (lists.results generator) := by
  have horder : generatorOrder.toFinset = Finset.univ := by decide
  rw [← horder, List.sum_toFinset _ (by decide), entries]
  induction generatorOrder with
  | nil => simp [sharesOf, entriesOf]
  | cons generator order ih =>
      rw [List.map_cons, List.flatten_cons, sharesOf_append, ih, List.map_cons, List.sum_cons]

/-- Fusion counts what the generators are worth exactly when none of them lists the version twice. -/
lemma fusedShares_eq_iff (lists : GeneratedLists) (version : String) :
    sharesOf generatorWeights rrfK version lists.entries = fusedShares lists version ↔
      ∀ generator, (entriesOf version (lists.results generator)).length ≤ 1 := by
  rw [sharesOf_entries, fusedShares, eq_comm,
    Finset.sum_eq_sum_iff_of_le fun generator _ => (bestShare_le lists version generator).1]
  simp only [Finset.mem_univ, true_imp_iff]
  exact forall_congr' fun generator => (bestShare_le lists version generator).2

/-! ### One more entry -/

/-- What an added entry changes in the lists of the generators. -/
lemma Adds.entriesOf_results (h : lists.Adds lists' generator entry) (other : GeneratorType) :
    (version ≠ entry.memoryVersionUuid →
        entriesOf version (lists'.results other) = entriesOf version (lists.results other)) ∧
      sharesOf generatorWeights rrfK entry.memoryVersionUuid (lists'.results other) =
        sharesOf generatorWeights rrfK entry.memoryVersionUuid (lists.results other) +
          if other = generator then share generatorWeights rrfK entry else 0 := by
  by_cases hother : other = generator
  · obtain ⟨before, after, hbefore, hafter⟩ := h.inserted
    subst hother
    rw [hbefore, hafter]
    constructor
    · intro hversion
      simp [entriesOf, Ne.symm hversion]
    · rw [sharesOf_append, sharesOf_append, sharesOf_cons, if_pos rfl, if_pos rfl]
      ring
  · rw [h.others other hother, if_neg hother, add_zero]
    exact ⟨fun _ => rfl, rfl⟩

lemma Adds.sharesOf_entries (h : lists.Adds lists' generator entry) :
    sharesOf generatorWeights rrfK entry.memoryVersionUuid lists'.entries =
      sharesOf generatorWeights rrfK entry.memoryVersionUuid lists.entries +
        share generatorWeights rrfK entry := by
  rw [GeneratedLists.sharesOf_entries, GeneratedLists.sharesOf_entries]
  calc ∑ other, sharesOf generatorWeights rrfK entry.memoryVersionUuid (lists'.results other)
      = ∑ other, (sharesOf generatorWeights rrfK entry.memoryVersionUuid (lists.results other) +
          if other = generator then share generatorWeights rrfK entry else 0) :=
        Finset.sum_congr rfl fun other _ => (@entriesOf_results _ _ _ _ "" h other).2
    _ = _ := by
        rw [Finset.sum_add_distrib, Finset.sum_ite_eq' Finset.univ, if_pos (Finset.mem_univ _)]

lemma Adds.mem_results (h : lists.Adds lists' generator entry) {other : GeneratorType}
    {result : GeneratorResult} (hresult : result ∈ lists.results other) :
    result ∈ lists'.results other := by
  by_cases hother : other = generator
  · obtain ⟨before, after, hbefore, hafter⟩ := h.inserted
    subst hother
    rw [hbefore] at hresult
    rw [hafter]
    simp only [List.mem_append, List.mem_cons] at hresult ⊢
    tauto
  · rwa [h.others other hother]

lemma Adds.mem_entry (h : lists.Adds lists' generator entry) :
    entry ∈ lists'.results generator := by
  obtain ⟨before, after, -, hafter⟩ := h.inserted
  rw [hafter]
  exact List.mem_append_right _ List.mem_cons_self

/-- The items of the other versions are as before. -/
lemma Adds.itemOf_other (h : lists.Adds lists' generator entry)
    (hversion : version ≠ entry.memoryVersionUuid) :
    itemOf generatorWeights rrfK version lists'.entries =
      itemOf generatorWeights rrfK version lists.entries := by
  have hentries : entriesOf version lists'.entries = entriesOf version lists.entries := by
    unfold entries
    induction generatorOrder with
    | nil => rfl
    | cons other order ih =>
        rw [List.map_cons, List.map_cons, List.flatten_cons, List.flatten_cons, entriesOf_append,
          entriesOf_append, ih, (h.entriesOf_results other).1 hversion]
  unfold itemOf sharesOf
  rw [firstOf_eq_head?, firstOf_eq_head?, hentries]

/-! ### The first entry of a version -/

/-- The data of a version that a generator other than that of the graph lists have no score of the
graph. -/
lemma graphScore_of_finds {first : GeneratorResult}
    (hfirst : firstOf version lists.entries = some first)
    (hfinds : ∃ generator, generator ≠ .falkordbGraph ∧ lists.Finds generator version) :
    first.graphScore = none := by
  rw [entries_eq, firstOf_append] at hfirst
  obtain ⟨generator, hgenerator, result, hresult, hversion⟩ := hfinds
  cases htextual : firstOf version lists.textual with
  | none =>
      exact absurd hversion
        (firstOf_eq_none.mp htextual result (mem_textual.mpr ⟨generator, hgenerator, hresult⟩))
  | some first' =>
      rw [htextual, Option.some_or, Option.some.injEq] at hfirst
      subst hfirst
      obtain ⟨other, hother, hmem⟩ := mem_textual.mp (List.mem_of_find?_eq_some htextual)
      obtain ⟨index, -, row, rfl⟩ := lists.entry_of_mem other first' hmem
      exact if_neg hother

/-- The data of a version that only the generator of the graph lists have a high score of it. -/
lemma graphScore_of_not_finds {first : GeneratorResult}
    (hfirst : firstOf version lists.entries = some first)
    (hfinds : ¬ ∃ generator, generator ≠ .falkordbGraph ∧ lists.Finds generator version) :
    first ∈ lists.results .falkordbGraph ∧ ∃ score, first.graphScore = some score ∧ 55 / 100 ≤ score := by
  rw [entries_eq, firstOf_append] at hfirst
  have htextual : firstOf version lists.textual = none := by
    refine firstOf_eq_none.mpr fun result hresult hversion => hfinds ?_
    obtain ⟨generator, hgenerator, hmem⟩ := mem_textual.mp hresult
    exact ⟨generator, hgenerator, result, hmem, hversion⟩
  rw [htextual, Option.none_or] at hfirst
  have hmem : first ∈ lists.results .falkordbGraph := List.mem_of_find?_eq_some hfirst
  obtain ⟨index, hindex, row, rfl⟩ := lists.entry_of_mem .falkordbGraph first hmem
  have hscore : (GeneratorType.falkordbGraph.entry index row).graphScore =
      some (graphScoreAt index) := by simp [GeneratorType.entry]
  exact ⟨hmem, _, hscore, le_graphScoreAt hindex⟩

/-! ### The items -/

/-- An item of the lists. -/
lemma mem_generate {item : FusedItem} (h : item ∈ HybridCandidateGenerator.generate lists) :
    ∃ first, firstOf item.memoryVersionUuid lists.entries = some first ∧
      first = item.toGeneratorResult ∧
      item.fusedScore = sharesOf generatorWeights rrfK item.memoryVersionUuid lists.entries := by
  have hitem := mem_fusion h
  obtain ⟨first, hfirst, heq⟩ := Option.map_eq_some_iff.mp hitem
  refine ⟨first, hfirst, ?_, ?_⟩
  · rw [← heq]
  · conv_lhs => rw [← heq]
    rfl

/-- A listed version stays listed when an entry is added, with the score raised by its share. -/
lemma Adds.exists_item (h : lists.Adds lists' generator entry) {item : FusedItem}
    (hitem : item ∈ HybridCandidateGenerator.generate lists)
    (hversion : entry.memoryVersionUuid = item.memoryVersionUuid) :
    ∃ item' ∈ HybridCandidateGenerator.generate lists',
      item'.memoryVersionUuid = item.memoryVersionUuid ∧
      item'.memoryUuid = item.memoryUuid ∧
      item'.fusedScore = item.fusedScore + share generatorWeights rrfK entry := by
  obtain ⟨first, hfirst, hdata, hscore⟩ := mem_generate hitem
  have hshares := h.sharesOf_entries
  rw [hversion, ← hscore] at hshares
  obtain ⟨generator₀, hmem⟩ := mem_entries.mp (List.mem_of_find?_eq_some hfirst)
  have hmem' : first ∈ lists'.results generator₀ := h.mem_results hmem
  have hfirstVersion : first.memoryVersionUuid = item.memoryVersionUuid := by rw [hdata]
  obtain ⟨first', hfirst'⟩ :
      ∃ first', firstOf item.memoryVersionUuid lists'.entries = some first' := by
    cases hnone : firstOf item.memoryVersionUuid lists'.entries with
    | none =>
        exact absurd hfirstVersion
          (firstOf_eq_none.mp hnone first (mem_entries.mpr ⟨generator₀, hmem'⟩))
    | some first' => exact ⟨first', rfl⟩
  have hfirstVersion' : first'.memoryVersionUuid = item.memoryVersionUuid := by
    simpa using List.find?_some hfirst'
  obtain ⟨generator₁, hmem₁⟩ := mem_entries.mp (List.mem_of_find?_eq_some hfirst')
  have hmemory : first'.memoryUuid = item.memoryUuid := by
    rw [lists'.memory_eq generator₁ first' hmem₁ generator₀ first hmem'
      (hfirstVersion'.trans hfirstVersion.symm), hdata]
  have hshare : 0 ≤ share generatorWeights rrfK entry := by
    obtain ⟨index, -, row, rfl⟩ := lists'.entry_of_mem generator entry h.mem_entry
    exact (share_entry_pos generator index row).le
  let item' : FusedItem :=
    { first' with
      fusedScore := sharesOf generatorWeights rrfK item.memoryVersionUuid lists'.entries
      scoreTrace := (entriesOf item.memoryVersionUuid lists'.entries).map (traceOf generatorWeights) }
  have hitem' : itemOf generatorWeights rrfK item.memoryVersionUuid lists'.entries = some item' := by
    rw [itemOf, hfirst', Option.map_some]
  have hle : item.fusedScore ≤ item'.fusedScore := by
    change item.fusedScore ≤ sharesOf generatorWeights rrfK item.memoryVersionUuid lists'.entries
    rw [hshares]
    linarith
  refine ⟨item', mem_fusion_of_le hitem hitem' hle fun other hother => ?_, hfirstVersion', hmemory,
    hshares⟩
  exact h.itemOf_other (by rw [hversion]; exact hother)

/-- An entry of another generator for a listed version, put first. -/
def withExactKey (lists : GeneratedLists) (row : FoundVersion)
    (hrow : ∀ generator, ∀ result ∈ lists.results generator,
      result.memoryVersionUuid = row.memoryVersionUuid → result.memoryUuid = row.memoryUuid) :
    GeneratedLists where
  results generator :=
    if generator = .exactKey then GeneratorType.exactKey.entry 0 row :: lists.results generator
    else lists.results generator
  entry_of_mem generator result hresult := by
    split_ifs at hresult with hgenerator
    · rcases List.mem_cons.mp hresult with rfl | hresult
      · exact ⟨0, by subst hgenerator; decide, row, by rw [hgenerator]⟩
      · exact lists.entry_of_mem generator result hresult
    · exact lists.entry_of_mem generator result hresult
  memory_eq generator result hresult generator' result' hresult' hversion := by
    have hmem : ∀ generator, ∀ result ∈ (if generator = .exactKey then
        GeneratorType.exactKey.entry 0 row :: lists.results generator else lists.results generator),
        result = GeneratorType.exactKey.entry 0 row ∨ result ∈ lists.results generator := by
      intro generator result hresult
      split_ifs at hresult with hgenerator
      · exact List.mem_cons.mp hresult
      · exact .inr hresult
    rcases hmem generator result hresult with rfl | hresult <;>
      rcases hmem generator' result' hresult' with rfl | hresult'
    · rfl
    · exact (hrow generator' result' hresult' hversion.symm).symm
    · exact hrow generator result hresult hversion
    · exact lists.memory_eq generator result hresult generator' result' hresult' hversion

end GeneratedLists

/-! ### More evidence -/

section Evidence

variable {lists : GeneratedLists} {item : FusedItem}

/-- One more entry for a version lowers neither its fused score nor its final one. -/
def NeverLowers (U : UnicodeData) (store : Store) (plan : RetrievalPlan) (lists : GeneratedLists)
    (item : FusedItem) : Prop :=
  ∀ lists' generator entry, lists.Adds lists' generator entry →
    entry.memoryVersionUuid = item.memoryVersionUuid →
      ∃ item' ∈ HybridCandidateGenerator.generate lists',
        item'.memoryVersionUuid = item.memoryVersionUuid ∧ item.fusedScore ≤ item'.fusedScore ∧
        ∀ scored, store.score U item.candidate plan = some scored →
          ∃ scored', store.score U item'.candidate plan = some scored' ∧
            scored.finalScore ≤ scored'.finalScore

/-- A version that a generator other than that of the graph lists keeps its data. -/
lemma neverLowers_of_finds (U : UnicodeData) (store : Store) (plan : RetrievalPlan)
    (hitem : item ∈ HybridCandidateGenerator.generate lists)
    (hfinds : Store.Scorable store plan item.memoryUuid item.memoryVersionUuid →
      ∃ generator, generator ≠ .falkordbGraph ∧ lists.Finds generator item.memoryVersionUuid) :
    NeverLowers U store plan lists item := by
  intro lists' generator entry hadds hversion
  obtain ⟨item', hitem', hversion', hmemory', hscore'⟩ := hadds.exists_item hitem hversion
  have hshare : 0 ≤ share generatorWeights rrfK entry := by
    obtain ⟨index, -, row, rfl⟩ := lists'.entry_of_mem generator entry hadds.mem_entry
    exact (share_entry_pos generator index row).le
  have hle : item.fusedScore ≤ item'.fusedScore := by linarith
  refine ⟨item', hitem', hversion', hle, fun scored hscored => ?_⟩
  have hscorable : Store.Scorable store plan item.memoryUuid item.memoryVersionUuid :=
    Store.score_isSome_iff.mp (by rw [hscored]; rfl : (store.score U item.candidate plan).isSome)
  obtain ⟨other, hother, found, hfound, hfoundVersion⟩ := hfinds hscorable
  obtain ⟨first, hfirst, hdata, -⟩ := GeneratedLists.mem_generate hitem
  obtain ⟨first', hfirst', hdata', -⟩ := GeneratedLists.mem_generate hitem'
  have hgraph : item.graphScore = none := by
    have h := GeneratedLists.graphScore_of_finds hfirst ⟨other, hother, found, hfound, hfoundVersion⟩
    rwa [hdata] at h
  have hgraph' : item'.graphScore = none := by
    have h := GeneratedLists.graphScore_of_finds hfirst'
      ⟨other, hother, found, hadds.mem_results hfound, hfoundVersion.trans hversion'.symm⟩
    rwa [hdata'] at h
  obtain ⟨base, scored', hscored', hfinal, hfinal'⟩ := Store.score_congr
    (show item.candidate.memoryUuid = item'.candidate.memoryUuid from hmemory'.symm)
    hversion'.symm hscored
  refine ⟨scored', hscored', ?_⟩
  rw [hfinal, hfinal']
  refine round6_mono ?_
  have hfused : item.candidate.fusedScore = some item.fusedScore := rfl
  have hfused' : item'.candidate.fusedScore = some item'.fusedScore := rfl
  have hnone : item.candidate.graphScore = none := hgraph
  have hnone' : item'.candidate.graphScore = none := hgraph'
  rw [hfused, hfused', hnone, hnone', Option.getD_some, Option.getD_some]
  linarith

/-- A version that only the generator of the graph lists loses the score of the graph to an entry of
another generator, which is worth less. -/
lemma lowers_of_not_finds (U : UnicodeData) (store : Store) (plan : RetrievalPlan)
    (hitem : item ∈ HybridCandidateGenerator.generate lists)
    (hscorable : Store.Scorable store plan item.memoryUuid item.memoryVersionUuid)
    (hfinds : ¬ ∃ generator, generator ≠ .falkordbGraph ∧
      lists.Finds generator item.memoryVersionUuid) :
    ¬ NeverLowers U store plan lists item := by
  intro hnever
  obtain ⟨first, hfirst, hdata, -⟩ := GeneratedLists.mem_generate hitem
  obtain ⟨hmem, score, hgraph, hscore⟩ := GeneratedLists.graphScore_of_not_finds hfirst hfinds
  rw [hdata] at hgraph hmem
  let row : FoundVersion := { memoryUuid := item.memoryUuid, memoryVersionUuid := item.memoryVersionUuid }
  have hrow : ∀ generator, ∀ result ∈ lists.results generator,
      result.memoryVersionUuid = row.memoryVersionUuid → result.memoryUuid = row.memoryUuid :=
    fun generator result hresult hversion =>
      lists.memory_eq generator result hresult .falkordbGraph item.toGeneratorResult hmem hversion
  have hadds : lists.Adds (lists.withExactKey row hrow) .exactKey
      (GeneratorType.exactKey.entry 0 row) :=
    { new := fun hfound => hfinds ⟨.exactKey, by decide, hfound⟩
      inserted := ⟨[], lists.results .exactKey, rfl, by simp [GeneratedLists.withExactKey]⟩
      others := fun other hother => if_neg hother }
  obtain ⟨item', hitem', hversion', -, hfinal⟩ := hnever _ _ _ hadds rfl
  obtain ⟨item'', hitem'', hversion'', hmemory'', hscore''⟩ := hadds.exists_item hitem rfl
  have hitems : item' = item'' := by
    have h' := mem_fusion hitem'
    have h'' := mem_fusion hitem''
    rw [hversion', ← hversion'', h''] at h'
    exact (Option.some.inj h').symm
  subst hitems
  obtain ⟨first', hfirst', hdata', -⟩ := GeneratedLists.mem_generate hitem'
  have hgraph' : item'.graphScore = none := by
    have h := GeneratedLists.graphScore_of_finds hfirst'
      ⟨.exactKey, by decide, _, hadds.mem_entry, hversion'.symm⟩
    rwa [hdata'] at h
  obtain ⟨scored, hscored⟩ := Option.isSome_iff_exists.mp
    (Store.score_isSome_iff.mpr hscorable : (store.score U item.candidate plan).isSome)
  obtain ⟨scored', hscored', hle⟩ := hfinal scored hscored
  obtain ⟨base, scored'', hscored'', hbase, hbase'⟩ := Store.score_congr
    (show item.candidate.memoryUuid = item'.candidate.memoryUuid from hmemory''.symm)
    hversion'.symm hscored
  have hsame : scored'' = scored' := Option.some.inj (hscored''.symm.trans hscored')
  subst hsame
  have hfused : item.candidate.fusedScore = some item.fusedScore := rfl
  have hfused' : item'.candidate.fusedScore = some item'.fusedScore := rfl
  have hsome : item.candidate.graphScore = some score := hgraph
  have hnone : item'.candidate.graphScore = none := hgraph'
  rw [hfused, hsome, Option.getD_some, Option.getD_some] at hbase
  rw [hfused', hnone, Option.getD_some, Option.getD_none, hscore''] at hbase'
  have hshare := share_entry_le .exactKey 0 row
  have hround := abs_le.mp (abs_round6_sub (item.fusedScore + 5 / 100 * score + base))
  have hround' := abs_le.mp (abs_round6_sub (item.fusedScore +
    share generatorWeights rrfK (GeneratorType.exactKey.entry 0 row) + 5 / 100 * 0 + base))
  rw [hbase, hbase'] at hle
  linarith [hround.1, hround'.2]

/-- The fused score of a listed version is what its generators are worth, each once, and one more
entry for it lowers neither this nor the final score, exactly when no generator lists the version
twice and, if the graph finds it and it is scored at all, another generator finds it as well. -/
theorem more_evidence_iff (U : UnicodeData) (store : Store) (plan : RetrievalPlan)
    (hitem : item ∈ HybridCandidateGenerator.generate lists) :
    item.fusedScore = fusedShares lists item.memoryVersionUuid ∧
        NeverLowers U store plan lists item ↔
      (∀ generator, (entriesOf item.memoryVersionUuid (lists.results generator)).length ≤ 1) ∧
        ∀ result ∈ lists.results .falkordbGraph,
          result.memoryVersionUuid = item.memoryVersionUuid →
          Store.Scorable store plan result.memoryUuid result.memoryVersionUuid →
            ∃ generator, generator ≠ .falkordbGraph ∧
              lists.Finds generator item.memoryVersionUuid := by
  obtain ⟨first, hfirst, hdata, hscore⟩ := GeneratedLists.mem_generate hitem
  rw [hscore, GeneratedLists.fusedShares_eq_iff]
  refine and_congr_right fun _ => ⟨fun hnever result hresult hversion hscorable => ?_, fun h => ?_⟩
  · by_contra hfinds
    refine lowers_of_not_finds U store plan hitem ?_ hfinds hnever
    obtain ⟨hmem, -⟩ := GeneratedLists.graphScore_of_not_finds hfirst hfinds
    have hmemory := lists.memory_eq _ result hresult _ first hmem
      (by rw [hversion, hdata])
    rw [hdata] at hmemory
    rwa [hmemory, hversion] at hscorable
  · refine neverLowers_of_finds U store plan hitem fun hscorable => ?_
    by_contra hfinds
    obtain ⟨hmem, -⟩ := GeneratedLists.graphScore_of_not_finds hfirst hfinds
    refine hfinds (h first hmem (by rw [hdata]) ?_)
    rwa [hdata]

end Evidence

/-! ### A memory that the graph finds -/

/-- A store with one memory. -/
def teaStore : Store where
  memories := .ofRows [⟨"memory", "drink".toList, "fact", "session", some "s", some "version", .active,
    .normal⟩]
  versions := .ofRows [
    { memoryVersionUuid := "version", memoryUuid := "memory", versionNumber := 1
      normalizedText := "I drink tea".toList, transactionFrom := 0, changeOperation := .add
      confidence := 9 / 10, importance := 5 / 10 }]
  decisions := .empty
  candidates := .empty
  evidenceLinks := []
  evidence := .empty

/-- A query for this memory. -/
def teaQuery : RetrievalPlan where
  originalQuery := "tea".toList
  expandedQueries := ["tea".toList]
  scopes := [⟨.session, some "s"⟩]

/-- The lists of generators that find the memory as often as is given. -/
def teaLists (times : GeneratorType → ℕ) : GeneratedLists :=
  .of teaQuery (fun _ => "memory")
    (fun generator => List.replicate (times generator) ⟨"memory", "version", 0⟩)
    fun generator row hrow => by rw [List.eq_of_mem_replicate hrow]

/-- The fused and the final scores of a query, with what the generators are worth. -/
def teaScores (times : GeneratorType → ℕ) : List (ℚ × ℚ × Option ℚ) :=
  (HybridCandidateGenerator.generate (teaLists times)).map fun item =>
    (item.fusedScore, fusedShares (teaLists times) item.memoryVersionUuid,
      (teaStore.score basicLatin item.candidate teaQuery).map ScoredMemoryItem.finalScore)

/-- A memory that the graph finds loses a part of its final score when it is also found in its
session; one that the graph finds twice counts the graph twice. -/
theorem graph_evidence_lowers :
    teaScores (fun generator => if generator = .falkordbGraph then 1 else 0) =
        [(8 / 610, 8 / 610, some (954115 / 1000000))] ∧
      teaScores (fun generator => if generator = .falkordbGraph ∨ generator = .recentSession then 1
        else 0) = [(14 / 610, 14 / 610, some (913951 / 1000000))] ∧
      teaScores (fun generator => if generator = .falkordbGraph then 2 else 0) =
        [(8 / 610 + 8 / 620, 8 / 610, some (967018 / 1000000))] := by
  decide +kernel

/-- The memory found by its key and by the graph. -/
def teaItem : FusedItem where
  generatorType := .exactKey
  memoryUuid := "memory"
  memoryVersionUuid := "version"
  rank := some 1
  fusedScore := 24 / 610
  scoreTrace := [⟨.exactKey, 1, 16 / 10⟩, ⟨.falkordbGraph, 1, 8 / 10⟩]

/-- A memory that its key finds keeps its scores. -/
theorem more_evidence_iff_exact_key :
    teaItem.fusedScore = fusedShares
        (teaLists fun generator => if generator = .exactKey ∨ generator = .falkordbGraph then 1 else 0)
        "version" ∧
      NeverLowers basicLatin teaStore teaQuery
        (teaLists fun generator => if generator = .exactKey ∨ generator = .falkordbGraph then 1 else 0)
        teaItem := by
  refine (more_evidence_iff basicLatin teaStore teaQuery (by decide +kernel)).mpr
    ⟨by decide +kernel, fun result _ _ _ => ?_⟩
  exact ⟨.exactKey, by decide, GeneratorType.exactKey.entry 0 ⟨"memory", "version", 0⟩,
    by decide +kernel, rfl⟩

end Memorist.Retrieval
