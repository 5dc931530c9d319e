import Mathlib.Algebra.BigOperators.Group.Finset.Basic
import Mathlib.Data.Fintype.Basic
import Mathlib.Data.Prod.Lex
import Mathlib.Data.String.Basic
import Mathlib.Tactic
import Memorist.Library.Dict
import Memorist.Library.KeySort

/-!
Reciprocal rank fusion (`retrieval/fusion.py`).

* `GeneratorResult`: an entry of the list of a generator;
* `Fusion.add`, `reciprocalRankFusion`: the loop over the entries with its three dictionaries, and
  the items in the order of their scores, up to a limit;
* `mem_ranked_iff`: an item has the data of the first entry of its version, and the sum of the
  shares of all of them;
* `mem_fusion_of_le`: a version that is listed stays listed when its score rises and the other
  versions keep theirs.
-/

namespace Memorist.Retrieval

/-! ### Entries -/

/-- The generators of candidates. -/
inductive GeneratorType where
  | exactKey
  | activeConstraint
  | fts5Bm25
  | semantic
  | recentSession
  | falkordbGraph
  deriving DecidableEq, Repr

instance : Fintype GeneratorType where
  elems := {.exactKey, .activeConstraint, .fts5Bm25, .semantic, .recentSession, .falkordbGraph}
  complete generator := by cases generator <;> decide

/-- The text of a generator. -/
def GeneratorType.value : GeneratorType → String
  | exactKey => "exact_key"
  | activeConstraint => "active_constraint"
  | fts5Bm25 => "fts5_bm25"
  | semantic => "semantic"
  | recentSession => "recent_session"
  | falkordbGraph => "falkordb_graph"

/-- An entry of the list of a generator. -/
structure GeneratorResult where
  generatorType : GeneratorType
  memoryUuid : String
  memoryVersionUuid : String
  rank : Option ℕ := none
  generatorRank : Option ℕ := none
  lexicalScore : Option ℚ := none
  semanticScore : Option ℚ := none
  graphScore : Option ℚ := none
  deriving DecidableEq

/-- The rank that an entry counts with: `rank`, else `generator_rank`, else the first. -/
def GeneratorResult.usedRank (result : GeneratorResult) : ℕ :=
  match result.rank, result.generatorRank with
  | some (rank + 1), _ => rank + 1
  | _, some (rank + 1) => rank + 1
  | _, _ => 1

/-- What is kept of an entry in the trace of its version. -/
structure TraceEntry where
  generatorType : GeneratorType
  rank : ℕ
  weight : ℚ
  deriving DecidableEq

/-- A version with the data of its first entry and its fused score. -/
structure FusedItem extends GeneratorResult where
  fusedScore : ℚ
  scoreTrace : List TraceEntry
  deriving DecidableEq

/-! ### The loop -/

/-- The dictionaries of the loop: the first entries, the scores and the traces of the versions. -/
structure Fusion where
  fused : Dict String GeneratorResult := []
  scores : Dict String ℚ := []
  traces : Dict String (List TraceEntry) := []

section Loop

variable (weights : Dict GeneratorType ℚ) (k : ℕ)

/-- The weight of a generator. -/
def weightOf (generator : GeneratorType) : ℚ := (weights.get? generator).getD 1

/-- What an entry adds to the score of its version. -/
def share (result : GeneratorResult) : ℚ :=
  weightOf weights result.generatorType / (k + result.usedRank)

/-- The trace of an entry. -/
def traceOf (result : GeneratorResult) : TraceEntry :=
  ⟨result.generatorType, result.usedRank, weightOf weights result.generatorType⟩

/-- One pass of the loop. -/
def Fusion.add (state : Fusion) (result : GeneratorResult) : Fusion where
  scores := state.scores.set result.memoryVersionUuid
    ((state.scores.get? result.memoryVersionUuid).getD 0 + share weights k result)
  traces := state.traces.push result.memoryVersionUuid (traceOf weights result)
  fused := match state.fused.get? result.memoryVersionUuid with
    | some _ => state.fused
    | none => state.fused.set result.memoryVersionUuid result

/-- The loop over the lists. -/
def Fusion.run (generatorResults : List (List GeneratorResult)) : Fusion :=
  generatorResults.foldl (fun state results => results.foldl (Fusion.add weights k) state) {}

/-- The items before they are sorted. -/
def Fusion.ranked (state : Fusion) : List FusedItem :=
  state.scores.filterMap fun scored =>
    (state.fused.get? scored.1).map fun result =>
      { result with fusedScore := scored.2, scoreTrace := (state.traces.get? scored.1).getD [] }

/-- The order of the items: the higher score first, then the name of the version. -/
def FusedItem.key (item : FusedItem) : ℚ ×ₗ String :=
  toLex (-item.fusedScore, item.memoryVersionUuid)

/-- `reciprocal_rank_fusion`. -/
def reciprocalRankFusion (generatorResults : List (List GeneratorResult)) (limit : ℕ) :
    List FusedItem :=
  (KeySort.sortBy FusedItem.key (Fusion.run weights k generatorResults).ranked).take limit

/-! ### What the loop has gathered -/

/-- The entries of a version. -/
def entriesOf (version : String) (entries : List GeneratorResult) : List GeneratorResult :=
  entries.filter fun result => result.memoryVersionUuid = version

/-- The first entry of a version. -/
def firstOf (version : String) (entries : List GeneratorResult) : Option GeneratorResult :=
  entries.find? fun result => result.memoryVersionUuid = version

/-- The shares of the entries of a version. -/
def sharesOf (version : String) (entries : List GeneratorResult) : ℚ :=
  ((entriesOf version entries).map (share weights k)).sum

/-- The item of a version. -/
def itemOf (version : String) (entries : List GeneratorResult) : Option FusedItem :=
  (firstOf version entries).map fun result =>
    { result with
      fusedScore := sharesOf weights k version entries
      scoreTrace := (entriesOf version entries).map (traceOf weights) }

variable {weights k} {entries : List GeneratorResult} {version : String}

lemma run_eq_foldl (generatorResults : List (List GeneratorResult)) :
    Fusion.run weights k generatorResults =
      generatorResults.flatten.foldl (Fusion.add weights k) {} := by
  rw [Fusion.run, List.foldl_flatten]

@[simp] lemma entriesOf_append (version : String) (xs ys : List GeneratorResult) :
    entriesOf version (xs ++ ys) = entriesOf version xs ++ entriesOf version ys :=
  List.filter_append ..

@[simp] lemma sharesOf_append (version : String) (xs ys : List GeneratorResult) :
    sharesOf weights k version (xs ++ ys) =
      sharesOf weights k version xs + sharesOf weights k version ys := by
  rw [sharesOf, entriesOf_append, List.map_append, List.sum_append, sharesOf, sharesOf]

lemma sharesOf_cons (version : String) (result : GeneratorResult) (xs : List GeneratorResult) :
    sharesOf weights k version (result :: xs) =
      (if result.memoryVersionUuid = version then share weights k result else 0) +
        sharesOf weights k version xs := by
  unfold sharesOf entriesOf
  rw [List.filter_cons]
  split_ifs <;> simp_all

lemma firstOf_append (version : String) (xs ys : List GeneratorResult) :
    firstOf version (xs ++ ys) = (firstOf version xs).or (firstOf version ys) :=
  List.find?_append ..

lemma firstOf_eq_none : firstOf version entries = none ↔
    ∀ result ∈ entries, result.memoryVersionUuid ≠ version := by
  simp [firstOf]

lemma firstOf_eq_head? (version : String) (entries : List GeneratorResult) :
    firstOf version entries = (entriesOf version entries).head? :=
  List.head?_filter.symm

/-- The dictionaries after the loop: for each version its first entry, its shares and its traces. -/
structure Fusion.Gathers (weights : Dict GeneratorType ℚ) (k : ℕ) (state : Fusion)
    (entries : List GeneratorResult) : Prop where
  fused : ∀ version, state.fused.get? version = firstOf version entries
  scores : ∀ version, (state.scores.get? version).getD 0 = sharesOf weights k version entries
  traces : ∀ version, (state.traces.get? version).getD [] =
    (entriesOf version entries).map (traceOf weights)
  keys : ∀ version, version ∈ state.scores.map Prod.fst ↔ (firstOf version entries).isSome
  nodup : (state.scores.map Prod.fst).Nodup

namespace Fusion.Gathers

/-- Before the loop. -/
lemma empty (weights : Dict GeneratorType ℚ) (k : ℕ) : Fusion.Gathers weights k {} [] where
  fused _ := rfl
  scores _ := rfl
  traces _ := rfl
  keys _ := by simp [firstOf]
  nodup := List.nodup_nil

/-- One pass of the loop. -/
lemma add {state : Fusion} (h : state.Gathers weights k entries) (result : GeneratorResult) :
    (state.add weights k result).Gathers weights k (entries ++ [result]) where
  fused version := by
    have hfirst := h.fused result.memoryVersionUuid
    rw [firstOf_append, ← h.fused version]
    cases hget : state.fused.get? result.memoryVersionUuid with
    | some first =>
        have hfused : (state.add weights k result).fused = state.fused := by
          rw [Fusion.add]; simp only [hget]
        rw [hfused]
        by_cases heq : result.memoryVersionUuid = version
        · rw [← heq, hget, Option.some_or]
        · simp [firstOf, heq]
    | none =>
        have hfused : (state.add weights k result).fused =
            state.fused.set result.memoryVersionUuid result := by
          rw [Fusion.add]; simp only [hget]
        rw [hfused, Dict.get?_set]
        by_cases heq : result.memoryVersionUuid = version
        · rw [if_pos heq, ← heq, hget, Option.none_or]
          simp [firstOf]
        · simp [firstOf, heq]
  scores version := by
    rw [Fusion.add, Dict.get?_set, sharesOf_append, ← h.scores version, sharesOf_cons]
    by_cases heq : result.memoryVersionUuid = version
    · rw [if_pos heq, if_pos heq, heq]
      simp [sharesOf, entriesOf]
    · rw [if_neg heq, if_neg heq]
      simp [sharesOf, entriesOf]
  traces version := by
    rw [Fusion.add, Dict.push, Dict.get?_set, entriesOf_append, List.map_append, ← h.traces version]
    by_cases heq : result.memoryVersionUuid = version
    · rw [if_pos heq, heq]
      simp [entriesOf, heq]
    · rw [if_neg heq]
      simp [entriesOf, heq]
  keys version := by
    have hsingle : (firstOf version [result]).isSome =
        decide (version = result.memoryVersionUuid) := by
      by_cases heq : result.memoryVersionUuid = version
      · simp [firstOf, heq]
      · simp [firstOf, heq, Ne.symm heq]
    rw [Fusion.add, Dict.mem_keys_set, h.keys version, firstOf_append, Option.isSome_or, hsingle]
    simp
  nodup := Dict.nodup_keys_set h.nodup

/-- The whole loop. -/
lemma run (generatorResults : List (List GeneratorResult)) :
    (Fusion.run weights k generatorResults).Gathers weights k generatorResults.flatten := by
  rw [run_eq_foldl]
  induction generatorResults.flatten using List.reverseRecOn with
  | nil => exact empty weights k
  | append_singleton entries result ih =>
      rw [List.foldl_append]
      exact ih.add result

end Fusion.Gathers

/-! ### The items -/

lemma itemOf_version {item : FusedItem} (h : itemOf weights k version entries = some item) :
    item.memoryVersionUuid = version := by
  obtain ⟨first, hfirst, rfl⟩ := Option.map_eq_some_iff.mp h
  simpa using List.find?_some hfirst

/-- Each score of the loop is that of an item. -/
lemma ranked_entry {state : Fusion} (h : state.Gathers weights k entries) {scored : String × ℚ}
    (hscored : scored ∈ state.scores) :
    ((state.fused.get? scored.1).map fun result =>
      ({ result with
         fusedScore := scored.2
         scoreTrace := (state.traces.get? scored.1).getD [] } : FusedItem)) =
      itemOf weights k scored.1 entries := by
  have hscore : scored.2 = sharesOf weights k scored.1 entries := by
    rw [← h.scores, Dict.get?_of_mem h.nodup hscored, Option.getD_some]
  rw [h.fused, h.traces, hscore, itemOf]

/-- The items are those of the versions. -/
lemma mem_ranked_iff {state : Fusion} (h : state.Gathers weights k entries) {item : FusedItem} :
    item ∈ state.ranked ↔ itemOf weights k item.memoryVersionUuid entries = some item := by
  rw [Fusion.ranked, List.mem_filterMap]
  constructor
  · rintro ⟨scored, hscored, hitem⟩
    rw [ranked_entry h hscored] at hitem
    rwa [itemOf_version hitem]
  · intro hitem
    have hfirst : (firstOf item.memoryVersionUuid entries).isSome := by
      obtain ⟨first, hfirst, -⟩ := Option.map_eq_some_iff.mp hitem
      rw [hfirst, Option.isSome_some]
    obtain ⟨scored, hscored, hversion⟩ := List.mem_map.mp ((h.keys _).mpr hfirst)
    refine ⟨scored, hscored, ?_⟩
    rw [ranked_entry h hscored, hversion, hitem]

/-- A version has one item. -/
lemma nodup_ranked {state : Fusion} (h : state.Gathers weights k entries) :
    (state.ranked.map fun item => item.memoryVersionUuid).Nodup := by
  have hsublist : ∀ scores : Dict String ℚ, (∀ scored ∈ scores, scored ∈ state.scores) →
      ((scores.filterMap fun scored => (state.fused.get? scored.1).map fun result =>
        ({ result with
           fusedScore := scored.2
           scoreTrace := (state.traces.get? scored.1).getD [] } : FusedItem)).map
        fun item => item.memoryVersionUuid).Sublist (scores.map Prod.fst) := by
    intro scores hscores
    induction scores with
    | nil => exact List.Sublist.slnil
    | cons scored scores ih =>
        have ih := ih fun s hs => hscores s (List.mem_cons_of_mem _ hs)
        have hentry := ranked_entry h (hscores scored List.mem_cons_self)
        rw [List.filterMap_cons, hentry]
        cases hitem : itemOf weights k scored.1 entries with
        | none => exact ih.cons _
        | some item =>
            rw [List.map_cons, List.map_cons, itemOf_version hitem]
            exact ih.cons_cons _
  exact h.nodup.sublist (hsublist state.scores fun _ h => h)

lemma nodup_keys {items : List FusedItem}
    (h : (items.map fun item => item.memoryVersionUuid).Nodup) :
    (items.map FusedItem.key).Nodup := by
  have hversions : items.map (fun item => item.memoryVersionUuid) =
      (items.map FusedItem.key).map fun key => (ofLex key).2 := by
    rw [List.map_map]
    rfl
  rw [hversions] at h
  exact h.of_map _

lemma mem_fusion {generatorResults : List (List GeneratorResult)} {limit : ℕ} {item : FusedItem}
    (h : item ∈ reciprocalRankFusion weights k generatorResults limit) :
    itemOf weights k item.memoryVersionUuid generatorResults.flatten = some item :=
  (mem_ranked_iff (.run _)).mp (KeySort.mem_sortBy.mp (List.mem_of_mem_take h))

/-- The item of a version before the others. -/
lemma ranked_perm {state : Fusion} (h : state.Gathers weights k entries) {item : FusedItem}
    (hitem : item ∈ state.ranked) {others : List FusedItem}
    (hothers : others.Nodup) (hmem : ∀ other, other ∈ others ↔
      itemOf weights k other.memoryVersionUuid entries = some other ∧
        other.memoryVersionUuid ≠ item.memoryVersionUuid) :
    state.ranked.Perm (item :: others) := by
  have hnodup : (item :: others).Nodup :=
    List.nodup_cons.mpr ⟨fun h => ((hmem item).mp h).2 rfl, hothers⟩
  refine (List.perm_ext_iff_of_nodup ((nodup_ranked h).of_map _) hnodup).mpr fun other => ?_
  rw [List.mem_cons, hmem, mem_ranked_iff h]
  constructor
  · intro hother
    by_cases hversion : other.memoryVersionUuid = item.memoryVersionUuid
    · rw [hversion, (mem_ranked_iff h).mp hitem, Option.some.injEq] at hother
      exact .inl hother.symm
    · exact .inr ⟨hother, hversion⟩
  · rintro (rfl | hother)
    · exact (mem_ranked_iff h).mp hitem
    · exact hother.1

/-- A version that is listed stays listed when its score rises and the other versions keep theirs. -/
theorem mem_fusion_of_le {generatorResults generatorResults' : List (List GeneratorResult)}
    {limit : ℕ} {item item' : FusedItem}
    (h : item ∈ reciprocalRankFusion weights k generatorResults limit)
    (hitem' : itemOf weights k item.memoryVersionUuid generatorResults'.flatten = some item')
    (hscore : item.fusedScore ≤ item'.fusedScore)
    (hothers : ∀ other, other ≠ item.memoryVersionUuid →
      itemOf weights k other generatorResults'.flatten =
        itemOf weights k other generatorResults.flatten) :
    item' ∈ reciprocalRankFusion weights k generatorResults' limit := by
  have hversion : item'.memoryVersionUuid = item.memoryVersionUuid := itemOf_version hitem'
  have hgathers := @Fusion.Gathers.run weights k generatorResults
  have hgathers' := @Fusion.Gathers.run weights k generatorResults'
  have hranked : item ∈ (Fusion.run weights k generatorResults).ranked :=
    KeySort.mem_sortBy.mp (List.mem_of_mem_take h)
  have hranked' : item' ∈ (Fusion.run weights k generatorResults').ranked := by
    rw [mem_ranked_iff hgathers', hversion]
    exact hitem'
  have hkey : item'.key ≤ item.key := by
    rw [FusedItem.key, FusedItem.key, hversion, Prod.Lex.toLex_le_toLex]
    rcases hscore.lt_or_eq with hlt | heq
    · exact .inl (neg_lt_neg hlt)
    · exact .inr ⟨by simp only [heq], le_rfl⟩
  let others := (Fusion.run weights k generatorResults).ranked.filter fun other =>
    other.memoryVersionUuid ≠ item.memoryVersionUuid
  have hnodup : others.Nodup := ((nodup_ranked hgathers).of_map _).filter _
  have hmem : ∀ other, other ∈ others ↔
      itemOf weights k other.memoryVersionUuid generatorResults.flatten = some other ∧
        other.memoryVersionUuid ≠ item.memoryVersionUuid := by
    intro other
    rw [List.mem_filter, mem_ranked_iff hgathers, decide_eq_true_eq]
  refine KeySort.mem_take_sortBy_of_le (ranked_perm hgathers hranked hnodup hmem)
    (ranked_perm hgathers' hranked' hnodup fun other => ?_)
    (nodup_keys (nodup_ranked hgathers)) (nodup_keys (nodup_ranked hgathers')) hkey h
  rw [hmem, hversion]
  refine and_congr_left fun hne => ?_
  rw [hothers _ hne]

end Loop

end Memorist.Retrieval
