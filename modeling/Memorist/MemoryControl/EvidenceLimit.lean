import Memorist.MemoryControl.FullRetrieval

/-!
What the evidence of memories does to a full preflight, whose limit counts rows of memories with
their evidence.

* `found`: the memories that a query finds, in their order (`canonicalCandidates_eq`);
* `retrieved`, `EvidenceEvictsNothing`: the memories delivered, and that they do not hang on links;
* `SingleVersion`, `GraphAddsNothing`, `EvidenceWithinLimit`: when that is so
  (`evidenceEvictsNothing_iff`).
-/

namespace Memorist

section

variable (s : RetrievalStore) (U : UnicodeData) (scope : PreflightScope) (terms : List Text)
variable (limit : ℕ) (graphRows : List GraphRow)

/-! ### The memories found -/

namespace RetrievalStore

/-- The order of memories by their versions. -/
def foundKey (x : MemoryRow × MemoryVersionRow) : Lex (ℚ × Lex (ℚ × ℤ)) :=
  toLex (-(s.details x.2.memoryVersionUuid).importance,
    toLex (-(s.details x.2.memoryVersionUuid).confidence,
      -((s.details x.2.memoryVersionUuid).createdAt : ℤ)))

/-- The memories that a query finds, with their versions, in their order. -/
def found : List (MemoryRow × MemoryVersionRow) :=
  KeySort.sortBy s.foundKey (s.memories.memories.rows.filterMap fun memory =>
    ((s.inScope scope memory).filter fun version =>
      matchesTerms U terms version.normalizedText).map fun version => (memory, version))

/-- The rows of a memory, one for each piece of evidence. -/
def rowsOf (x : MemoryRow × MemoryVersionRow) : List RetrievedRow :=
  (s.evidenceOf x.2.memoryVersionUuid).map
    (s.row x.1 x.2 (((s.candidateOf x.2).map RetrievalCandidate.candidateType).getD "memory")
      (((s.candidateOf x.2).map RetrievalCandidate.sourceAuthority).getD "unknown"))

/-- The store with other evidence. -/
def withEvidence (links : List EvidenceLink) (evidence : Table EvidenceRow String EvidenceRow.evidenceUuid) :
    RetrievalStore :=
  { s with links := links, evidence := evidence }

end RetrievalStore

lemma evidenceOf_ne_nil (versionUuid : String) : s.evidenceOf versionUuid ≠ [] := by
  rw [RetrievalStore.evidenceOf]
  split
  · exact List.cons_ne_nil _ _
  · next hne => exact fun h => hne (List.map_eq_nil_iff.mp h)

lemma rowsOf_ne_nil (x : MemoryRow × MemoryVersionRow) : s.rowsOf x ≠ [] := fun h =>
  evidenceOf_ne_nil s _ (List.map_eq_nil_iff.mp h)

lemma of_mem_rowsOf {x : MemoryRow × MemoryVersionRow} {row : RetrievedRow} (h : row ∈ s.rowsOf x) :
    row.memoryUuid = x.1.memoryUuid ∧ row.memoryVersionUuid = x.2.memoryVersionUuid ∧
      RetrievalStore.retrievalKey row = s.foundKey x := by
  obtain ⟨evidence, -, rfl⟩ := List.mem_map.mp h
  exact ⟨rfl, rfl, rfl⟩

/-- A query takes the first rows of the memories it finds. -/
theorem canonicalCandidates_eq : s.canonicalCandidates U scope terms limit =
    ((s.found U scope terms).flatMap s.rowsOf).take limit := by
  have hrows : s.memories.memories.rows.flatMap (s.canonicalRows U scope terms) =
      (s.memories.memories.rows.filterMap fun memory =>
        ((s.inScope scope memory).filter fun version =>
          matchesTerms U terms version.normalizedText).map fun version =>
            (memory, version)).flatMap s.rowsOf := by
    induction s.memories.memories.rows with
    | nil => rfl
    | cons memory rows ih =>
        rw [List.flatMap_cons, ih, List.filterMap_cons, RetrievalStore.canonicalRows]
        cases (s.inScope scope memory).filter fun version =>
            matchesTerms U terms version.normalizedText with
        | none => rfl
        | some version => rfl
  rw [RetrievalStore.canonicalCandidates, hrows, KeySort.sortBy_flatMap
    (fun x _ row hrow => (of_mem_rowsOf s hrow).2.2) fun x _ => rowsOf_ne_nil s x]
  rfl

/-- Where every block has an element, the first elements are of the first blocks. -/
lemma mem_take_flatMap {α β : Type} {f : α → List β} {xs : List α} (hne : ∀ x ∈ xs, f x ≠ []) {n : ℕ}
    {b : β} (hb : b ∈ (xs.flatMap f).take n) : ∃ x ∈ xs.take n, b ∈ f x := by
  induction xs generalizing n with
  | nil => simp at hb
  | cons x xs ih =>
      cases n with
      | zero => simp at hb
      | succ n =>
          rw [List.flatMap_cons, List.take_append, List.mem_append] at hb
          rcases hb with hb | hb
          · exact ⟨x, by simp, List.mem_of_mem_take hb⟩
          · obtain ⟨y, hy, hby⟩ := ih (fun y hy => hne y (List.mem_cons_of_mem x hy)) hb
            have hpos : 0 < (f x).length := List.length_pos_of_ne_nil (hne x List.mem_cons_self)
            refine ⟨y, ?_, hby⟩
            rw [List.take_succ_cons]
            exact List.mem_cons_of_mem x (List.take_subset_take_left xs (by omega) hy)

lemma of_mem_canonicalCandidates {row : RetrievedRow}
    (h : row ∈ s.canonicalCandidates U scope terms limit) :
    ∃ x ∈ (s.found U scope terms).take limit, row ∈ s.rowsOf x := by
  rw [canonicalCandidates_eq] at h
  exact mem_take_flatMap (fun x _ => rowsOf_ne_nil s x) h

/-! ### Merging -/

lemma hasVersion_iff {versionUuid : String} {rows : List MergedRow} :
    hasVersion versionUuid rows ↔ ∃ merged ∈ rows, merged.row.memoryVersionUuid = versionUuid := by
  simp [hasVersion]

/-- Changing rows keeps their versions. -/
lemma hasVersion_changeVersion {versionUuid : String} {f : MergedRow → MergedRow}
    (hf : ∀ merged, (f merged).row = merged.row) (rows : List MergedRow) (other : String) :
    hasVersion other (changeVersion versionUuid f rows) = hasVersion other rows := by
  rw [hasVersion, hasVersion, changeVersion, List.any_map]
  refine congrArg rows.any (funext fun merged => ?_)
  rw [Function.comp_apply]
  split_ifs <;> simp [hf]

lemma hasVersion_append {versionUuid : String} (rows : List MergedRow) (merged : MergedRow) :
    hasVersion versionUuid (rows ++ [merged]) ↔
      hasVersion versionUuid rows ∨ merged.row.memoryVersionUuid = versionUuid := by
  simp [hasVersion, List.any_append]

/-- A canonical row adds its version. -/
lemma hasVersion_mergeCanonical (rows : List MergedRow) (candidate : RetrievedRow) (versionUuid : String) :
    hasVersion versionUuid (mergeCanonical rows candidate) ↔
      hasVersion versionUuid rows ∨ candidate.memoryVersionUuid = versionUuid := by
  rw [mergeCanonical, hasVersion_changeVersion]
  · split_ifs with hthere
    · refine (or_iff_left_of_imp ?_).symm
      rintro rfl
      exact hthere
    · rw [hasVersion_append]
  · exact fun _ => rfl

lemma hasVersion_foldl_mergeCanonical (canonical : List RetrievedRow) (rows : List MergedRow)
    (versionUuid : String) : hasVersion versionUuid (canonical.foldl mergeCanonical rows) ↔
      hasVersion versionUuid rows ∨ ∃ row ∈ canonical, row.memoryVersionUuid = versionUuid := by
  induction canonical generalizing rows with
  | nil => simp
  | cons candidate canonical ih =>
      rw [List.foldl_cons, ih, hasVersion_mergeCanonical, List.exists_mem_cons_iff, or_assoc]

/-- A graph row keeps the versions that are there. -/
lemma hasVersion_mergeGraph {rows : List MergedRow} {versionUuid : String} (graph : GraphRow)
    (h : hasVersion versionUuid rows) : hasVersion versionUuid (mergeGraph s scope rows graph) := by
  rw [mergeGraph]
  split_ifs
  · rw [hasVersion_changeVersion]
    · exact h
    · exact fun _ => rfl
  · exact h
  · rw [hasVersion_iff] at h ⊢
    obtain ⟨merged, hmerged, hversion⟩ := h
    exact ⟨merged, List.mem_append_left _ hmerged, hversion⟩
  · exact h

lemma hasVersion_foldl_mergeGraph {rows : List MergedRow} {versionUuid : String}
    (h : hasVersion versionUuid rows) :
    hasVersion versionUuid (graphRows.foldl (mergeGraph s scope) rows) := by
  induction graphRows generalizing rows with
  | nil => exact h
  | cons graph graphRows ih => exact ih (hasVersion_mergeGraph s scope graph h)

/-- An accepted graph row of a memory of the scope adds its version. -/
lemma hasVersion_of_graphProjection {graph : GraphRow} (hmem : graph ∈ graphRows)
    (hvalid : s.validGraphSource graph) (hprojection : (s.graphProjection scope graph).isSome)
    (rows : List MergedRow) :
    hasVersion graph.memoryVersionUuid (graphRows.foldl (mergeGraph s scope) rows) := by
  obtain ⟨before, after, rfl⟩ := List.append_of_mem hmem
  rw [List.foldl_append, List.foldl_cons]
  refine hasVersion_foldl_mergeGraph s scope after ?_
  rw [mergeGraph]
  split_ifs with hthere
  · rw [hasVersion_changeVersion]
    · exact hthere
    · exact fun _ => rfl
  · obtain ⟨row, hrow⟩ := Option.isSome_iff_exists.mp hprojection
    obtain ⟨memory, -, hrow'⟩ := Option.bind_eq_some_iff.mp hrow
    obtain ⟨version, hversion, rfl⟩ := Option.map_eq_some_iff.mp hrow'
    rw [hrow, Option.map_some, Option.toList_some, hasVersion_append]
    exact .inr (of_decide_eq_true (Option.filter_eq_some_iff.mp hversion).2)

/-- Graph rows that are not accepted change nothing. -/
lemma foldl_mergeGraph_of_invalid (h : ∀ graph ∈ graphRows, s.validGraphSource graph = false)
    (rows : List MergedRow) : graphRows.foldl (mergeGraph s scope) rows = rows := by
  induction graphRows with
  | nil => rfl
  | cons graph graphRows ih =>
      have hstep : mergeGraph s scope rows graph = rows := by
        rw [mergeGraph, h graph List.mem_cons_self]
        simp
      rw [List.foldl_cons, hstep]
      exact ih fun other hother => h other (List.mem_cons_of_mem graph hother)

/-- Canonical rows of one version are merged into one row, with their evidence. -/
lemma foldl_mergeCanonical_of_same {canonical : List RetrievedRow} {merged : MergedRow}
    (h : ∀ row ∈ canonical, row.memoryVersionUuid = merged.row.memoryVersionUuid) :
    ∃ merged', canonical.foldl mergeCanonical [merged] = [merged'] ∧ merged'.row = merged.row ∧
      merged'.evidenceUuids = merged.evidenceUuids ++
        canonical.filterMap fun row => row.evidenceUuid.filter (· ≠ "") := by
  induction canonical generalizing merged with
  | nil => exact ⟨merged, rfl, rfl, (List.append_nil _).symm⟩
  | cons candidate canonical ih =>
      obtain ⟨hcandidate, hrest⟩ := List.forall_mem_cons.mp h
      have hstep : mergeCanonical [merged] candidate = [merged.withEvidence candidate] := by
        rw [mergeCanonical, hcandidate]
        simp [hasVersion, changeVersion]
      rw [List.foldl_cons, hstep]
      obtain ⟨merged', hmerged', hrow, hevidence⟩ := @ih (merged.withEvidence candidate) hrest
      refine ⟨merged', hmerged', hrow, ?_⟩
      rw [hevidence, MergedRow.withEvidence, List.append_assoc, List.filterMap_cons]
      cases candidate.evidenceUuid.filter (· ≠ "") <;> rfl

/-- Canonical rows of one version, from the first on. -/
lemma foldl_mergeCanonical_cons {row : RetrievedRow} {canonical : List RetrievedRow}
    (h : ∀ other ∈ canonical, other.memoryVersionUuid = row.memoryVersionUuid) :
    ∃ merged, (row :: canonical).foldl mergeCanonical [] = [merged] ∧ merged.row = row ∧
      merged.evidenceUuids =
        (row :: canonical).filterMap fun row => row.evidenceUuid.filter (· ≠ "") := by
  have hfirst : mergeCanonical [] row = [MergedRow.withEvidence { row := row } row] := by
    simp [mergeCanonical, hasVersion, changeVersion]
  rw [List.foldl_cons, hfirst]
  obtain ⟨merged, hmerged, hrow, hevidence⟩ :=
    @foldl_mergeCanonical_of_same canonical (MergedRow.withEvidence { row := row } row) h
  refine ⟨merged, hmerged, hrow, ?_⟩
  rw [hevidence, MergedRow.withEvidence, List.filterMap_cons]
  cases row.evidenceUuid.filter (· ≠ "") <;> rfl

lemma length_foldl_mergeCanonical_le_one {canonical : List RetrievedRow} {versionUuid : String}
    (h : ∀ row ∈ canonical, row.memoryVersionUuid = versionUuid) :
    (canonical.foldl mergeCanonical []).length ≤ 1 := by
  cases canonical with
  | nil => exact Nat.zero_le 1
  | cons row rows =>
      obtain ⟨hrow, hrows⟩ := List.forall_mem_cons.mp h
      obtain ⟨merged, hmerged, -⟩ := @foldl_mergeCanonical_cons row rows fun other hother =>
        (hrows other hother).trans hrow.symm
      rw [hmerged]
      exact le_rfl

/-- Graph rows that add no version leave a single row, with its evidence. -/
lemma foldl_mergeGraph_singleton {merged : MergedRow}
    (h : ∀ graph ∈ graphRows, s.validGraphSource graph →
      graph.memoryVersionUuid ≠ merged.row.memoryVersionUuid → s.graphProjection scope graph = none) :
    ∃ merged', graphRows.foldl (mergeGraph s scope) [merged] = [merged'] ∧
      merged'.row = merged.row ∧ merged'.evidenceUuids = merged.evidenceUuids := by
  induction graphRows generalizing merged with
  | nil => exact ⟨merged, rfl, rfl, rfl⟩
  | cons graph graphRows ih =>
      obtain ⟨hgraph, hrest⟩ := List.forall_mem_cons.mp h
      have hstep : ∃ merged', mergeGraph s scope [merged] graph = [merged'] ∧
          merged'.row = merged.row ∧ merged'.evidenceUuids = merged.evidenceUuids := by
        rw [mergeGraph]
        split_ifs with hthere hvalid hvalid
        · refine ⟨_, rfl, ?_⟩
          dsimp only
          split_ifs <;> exact ⟨rfl, rfl⟩
        · exact ⟨merged, rfl, rfl, rfl⟩
        · have hne : graph.memoryVersionUuid ≠ merged.row.memoryVersionUuid := fun heq =>
            hthere (hasVersion_iff.mpr ⟨merged, List.mem_singleton_self _, heq.symm⟩)
          rw [hgraph hvalid hne]
          exact ⟨merged, rfl, rfl, rfl⟩
        · exact ⟨merged, rfl, rfl, rfl⟩
      obtain ⟨next, hnext, hrow, hevidence⟩ := hstep
      obtain ⟨last, hlast, hrow', hevidence'⟩ := @ih next (by rw [hrow]; exact hrest)
      rw [List.foldl_cons, hnext]
      exact ⟨last, hlast, hrow'.trans hrow, hevidence'.trans hevidence⟩

/-! ### What is delivered -/

/-- The memories that are delivered, with their versions, in their order. -/
def retrieved : List (String × String) :=
  (validateAndMerge s scope (s.canonicalCandidates U scope terms limit) graphRows).map fun item =>
    (item.memoryUuid, item.memoryVersionUuid)

/-- The memories delivered are the same with any other links and evidence, and each carries all
evidence of its version. -/
def EvidenceEvictsNothing : Prop :=
  (∀ links evidence,
    retrieved (s.withEvidence links evidence) U scope terms limit graphRows =
      retrieved s U scope terms limit graphRows) ∧
  ∀ item ∈ validateAndMerge s scope (s.canonicalCandidates U scope terms limit) graphRows,
    ∀ evidence, some evidence ∈ s.evidenceOf item.memoryVersionUuid →
      evidence.evidenceUuid ∈ item.evidenceUuids

/-- The first memories found are all of one version. -/
def SingleVersion : Prop :=
  ∀ x ∈ (s.found U scope terms).take limit, ∀ y ∈ (s.found U scope terms).take limit,
    x.2.memoryVersionUuid = y.2.memoryVersionUuid

/-- A graph row that names a candidate, a route and a memory of the scope names the version of a
first memory found. -/
def GraphAddsNothing : Prop :=
  ∀ graph ∈ graphRows, ∀ candidate route, graph.memoryCandidateUuid = some candidate →
    graph.memorySignalRouteUuid = some route → candidate ≠ "" → route ≠ "" →
      (s.graphProjection scope graph).isSome →
        ∃ x ∈ (s.found U scope terms).take limit, x.2.memoryVersionUuid = graph.memoryVersionUuid

/-- The evidence of the first memories found is named, and linked within the limit. -/
def EvidenceWithinLimit : Prop :=
  ∀ x ∈ (s.found U scope terms).take limit, ∀ evidence,
    some evidence ∈ s.evidenceOf x.2.memoryVersionUuid →
      evidence.evidenceUuid ≠ "" ∧ some evidence ∈ (s.evidenceOf x.2.memoryVersionUuid).take limit

lemma length_retrieved : (retrieved s U scope terms limit graphRows).length =
    min 12 (mergedRows s scope (s.canonicalCandidates U scope terms limit) graphRows).length := by
  rw [retrieved, validateAndMerge, List.length_map, List.length_take, KeySort.length_sortBy,
    List.length_map, List.length_zipIdx]

lemma validGraphSource_iff {graph : GraphRow} : s.validGraphSource graph ↔
    ∃ candidate route, graph.memoryCandidateUuid = some candidate ∧
      graph.memorySignalRouteUuid = some route ∧ candidate ≠ "" ∧ route ≠ "" ∧
        s.linkCarries graph.memoryUuid graph.memoryVersionUuid candidate route := by
  rw [RetrievalStore.validGraphSource]
  cases graph.memorySignalRouteUuid <;> cases graph.memoryCandidateUuid <;>
    simp [and_assoc, and_left_comm]

variable {s U scope terms limit graphRows}

/-- The candidates start with a row of the first memory found. -/
lemma canonicalCandidates_eq_cons {x : MemoryRow × MemoryVersionRow}
    {xs : List (MemoryRow × MemoryVersionRow)}
    (hfound : (s.found U scope terms).take limit = x :: xs) :
    ∃ row rows, s.canonicalCandidates U scope terms limit = row :: rows ∧ row ∈ s.rowsOf x := by
  cases limit with
  | zero => cases hfound
  | succ n =>
      cases hall : s.found U scope terms with
      | nil => rw [hall] at hfound; cases hfound
      | cons y ys =>
          rw [hall, List.take_succ_cons] at hfound
          obtain ⟨rfl, -⟩ := List.cons.inj hfound
          obtain ⟨row, rows, hrows⟩ := List.exists_cons_of_ne_nil (rowsOf_ne_nil s y)
          rw [canonicalCandidates_eq, hall, List.flatMap_cons, hrows, List.cons_append,
            List.take_succ_cons]
          exact ⟨row, _, rfl, List.mem_cons_self⟩

/-- A graph row that is accepted and names a memory of the scope names a version found. -/
lemma GraphAddsNothing.exists_found (h : GraphAddsNothing s U scope terms limit graphRows)
    {graph : GraphRow} (hmem : graph ∈ graphRows) (hvalid : s.validGraphSource graph)
    (hprojection : s.graphProjection scope graph ≠ none) :
    ∃ x ∈ (s.found U scope terms).take limit, x.2.memoryVersionUuid = graph.memoryVersionUuid := by
  obtain ⟨candidate, route, hcandidate, hroute, hne, hne', -⟩ := (validGraphSource_iff s).mp hvalid
  exact h graph hmem candidate route hcandidate hroute hne hne' (Option.isSome_iff_ne_none.mpr hprojection)

/-- Without further versions of the graph, the rows of one version are delivered as one. -/
lemma SingleVersion.mergedRows (hsingle : SingleVersion s U scope terms limit)
    (hgraph : GraphAddsNothing s U scope terms limit graphRows) :
    (s.found U scope terms).take limit = [] ∧
        mergedRows s scope (s.canonicalCandidates U scope terms limit) graphRows = [] ∨
      ∃ x xs merged, (s.found U scope terms).take limit = x :: xs ∧
        mergedRows s scope (s.canonicalCandidates U scope terms limit) graphRows = [merged] ∧
        merged.row.memoryUuid = x.1.memoryUuid ∧
        merged.row.memoryVersionUuid = x.2.memoryVersionUuid ∧
        merged.evidenceUuids = (s.canonicalCandidates U scope terms limit).filterMap fun row =>
          row.evidenceUuid.filter (· ≠ "") := by
  cases hfound : (s.found U scope terms).take limit with
  | nil =>
      have hcanonical : s.canonicalCandidates U scope terms limit = [] := by
        refine List.eq_nil_iff_forall_not_mem.mpr fun row hrow => ?_
        obtain ⟨x, hx, -⟩ := of_mem_canonicalCandidates s U scope terms limit hrow
        rw [hfound] at hx
        exact absurd hx List.not_mem_nil
      refine .inl ⟨rfl, ?_⟩
      rw [Memorist.mergedRows, hcanonical, List.foldl_nil]
      have hnone : ∀ graph ∈ graphRows, s.validGraphSource graph →
          s.graphProjection scope graph = none := by
        intro graph hmem hvalid
        by_contra hprojection
        obtain ⟨x, hx, -⟩ := hgraph.exists_found hmem hvalid hprojection
        rw [hfound] at hx
        exact absurd hx List.not_mem_nil
      clear hgraph
      induction graphRows with
      | nil => rfl
      | cons graph graphRows ih =>
          obtain ⟨hone, hrest⟩ := List.forall_mem_cons.mp hnone
          have hstep : mergeGraph s scope [] graph = [] := by
            rw [mergeGraph, if_neg (by simp [hasVersion])]
            split_ifs with hvalid
            · rw [hone hvalid]
              rfl
            · rfl
          rw [List.foldl_cons, hstep]
          exact ih hrest
  | cons x xs =>
      obtain ⟨row, rows, hrows, hrow⟩ := canonicalCandidates_eq_cons hfound
      obtain ⟨hmemory, hversion, -⟩ := of_mem_rowsOf s hrow
      have hx : x ∈ (s.found U scope terms).take limit := by
        rw [hfound]
        exact List.mem_cons_self
      have hsame : ∀ other ∈ rows, other.memoryVersionUuid = row.memoryVersionUuid := by
        intro other hother
        obtain ⟨y, hy, hyrow⟩ := of_mem_canonicalCandidates s U scope terms limit
          (hrows ▸ List.mem_cons_of_mem row hother)
        rw [(of_mem_rowsOf s hyrow).2.1, hversion]
        exact hsingle y hy x hx
      obtain ⟨merged, hmerged, hmergedRow, hevidence⟩ := foldl_mergeCanonical_cons hsame
      obtain ⟨merged', hmerged', hmergedRow', hevidence'⟩ :=
        @foldl_mergeGraph_singleton s scope graphRows merged (by
          intro graph hmem hvalid hne
          by_contra hprojection
          obtain ⟨y, hy, hyversion⟩ := hgraph.exists_found hmem hvalid hprojection
          rw [hmergedRow, hversion, ← hsingle y hy x hx] at hne
          exact hne hyversion.symm)
      refine .inr ⟨x, xs, merged', rfl, ?_, ?_, ?_, ?_⟩
      · rw [Memorist.mergedRows, hrows, hmerged, hmerged']
      · rw [hmergedRow', hmergedRow, hmemory]
      · rw [hmergedRow', hmergedRow, hversion]
      · rw [hevidence', hevidence, hrows]

/-- Where one row is left, one item is delivered. -/
lemma validateAndMerge_of_singleton {merged : MergedRow}
    (h : mergedRows s scope (s.canonicalCandidates U scope terms limit) graphRows = [merged]) :
    validateAndMerge s scope (s.canonicalCandidates U scope terms limit) graphRows =
      [merged.item 0] := by
  rw [validateAndMerge, h]
  rfl

/-- The conditions on the memories found do not hang on the evidence. -/
lemma SingleVersion.retrieved_withEvidence (hsingle : SingleVersion s U scope terms limit)
    (hgraph : GraphAddsNothing s U scope terms limit graphRows) (links : List EvidenceLink)
    (evidence : Table EvidenceRow String EvidenceRow.evidenceUuid) :
    retrieved (s.withEvidence links evidence) U scope terms limit graphRows =
      retrieved s U scope terms limit graphRows := by
  have hsingle' : SingleVersion (s.withEvidence links evidence) U scope terms limit := hsingle
  have hgraph' : GraphAddsNothing (s.withEvidence links evidence) U scope terms limit graphRows :=
    hgraph
  have hfound : (s.withEvidence links evidence).found U scope terms = s.found U scope terms := rfl
  rcases hsingle.mergedRows hgraph with ⟨hnil, hrows⟩ | ⟨x, xs, merged, hcons, hrows, hmemory, hversion, -⟩
  · rcases hsingle'.mergedRows hgraph' with ⟨-, hrows'⟩ | ⟨x, xs, merged, hcons, -⟩
    · rw [retrieved, retrieved, validateAndMerge, validateAndMerge, hrows, hrows']
    · rw [hfound, hnil] at hcons
      cases hcons
  · rcases hsingle'.mergedRows hgraph' with
      ⟨hnil, -⟩ | ⟨x', xs', merged', hcons', hrows', hmemory', hversion', -⟩
    · rw [hfound, hcons] at hnil
      cases hnil
    · rw [hfound, hcons] at hcons'
      obtain ⟨rfl, -⟩ := List.cons.inj hcons'
      rw [retrieved, retrieved, validateAndMerge_of_singleton hrows,
        validateAndMerge_of_singleton hrows']
      show [(merged'.row.memoryUuid, merged'.row.memoryVersionUuid)] =
        [(merged.row.memoryUuid, merged.row.memoryVersionUuid)]
      rw [hmemory, hversion, hmemory', hversion']

/-- The first rows of the first memory found are candidates, and so are others only beyond them. -/
lemma canonicalCandidates_eq_append {x : MemoryRow × MemoryVersionRow}
    {xs : List (MemoryRow × MemoryVersionRow)}
    (hfound : (s.found U scope terms).take limit = x :: xs) :
    ∃ rest, s.canonicalCandidates U scope terms limit = (s.rowsOf x).take limit ++ rest ∧
      (rest ≠ [] → (s.rowsOf x).length < limit) := by
  cases hall : s.found U scope terms with
  | nil => rw [hall, List.take_nil] at hfound; cases hfound
  | cons y ys =>
      obtain rfl : y = x := by
        cases limit with
        | zero => cases hfound
        | succ n =>
            rw [hall, List.take_succ_cons] at hfound
            exact (List.cons.inj hfound).1
      rw [canonicalCandidates_eq, hall, List.flatMap_cons, List.take_append]
      refine ⟨_, rfl, fun hne => ?_⟩
      by_contra hle
      rw [Nat.sub_eq_zero_of_le (not_lt.mp hle)] at hne
      exact hne rfl

/-- The evidence of the rows found is that of their version, within the limit. -/
lemma SingleVersion.evidence_of_row (hsingle : SingleVersion s U scope terms limit)
    {x : MemoryRow × MemoryVersionRow} {xs : List (MemoryRow × MemoryVersionRow)}
    (hfound : (s.found U scope terms).take limit = x :: xs) {row : RetrievedRow}
    (hrow : row ∈ s.canonicalCandidates U scope terms limit) :
    ∃ evidence ∈ (s.evidenceOf x.2.memoryVersionUuid).take limit,
      row.evidenceUuid = evidence.map EvidenceRow.evidenceUuid := by
  have hx : x ∈ (s.found U scope terms).take limit := by
    rw [hfound]
    exact List.mem_cons_self
  obtain ⟨rest, hcandidates, hrest⟩ := canonicalCandidates_eq_append hfound
  obtain ⟨y, hy, hyrow⟩ := of_mem_canonicalCandidates s U scope terms limit hrow
  rw [hcandidates] at hrow
  rcases List.mem_append.mp hrow with hfirst | hbeyond
  · rw [RetrievalStore.rowsOf, ← List.map_take] at hfirst
    obtain ⟨evidence, hevidence, rfl⟩ := List.mem_map.mp hfirst
    exact ⟨evidence, hevidence, rfl⟩
  · have hlt := hrest (List.ne_nil_of_mem hbeyond)
    rw [RetrievalStore.rowsOf, List.length_map] at hlt
    obtain ⟨evidence, hevidence, rfl⟩ := List.mem_map.mp hyrow
    rw [hsingle y hy x hx] at hevidence
    exact ⟨evidence, by rwa [List.take_of_length_le hlt.le], rfl⟩

/-- The first pieces of evidence are in the rows found. -/
lemma exists_row_of_evidence {x : MemoryRow × MemoryVersionRow}
    {xs : List (MemoryRow × MemoryVersionRow)}
    (hfound : (s.found U scope terms).take limit = x :: xs) {evidence : Option EvidenceRow}
    (h : evidence ∈ (s.evidenceOf x.2.memoryVersionUuid).take limit) :
    ∃ row ∈ s.canonicalCandidates U scope terms limit,
      row.evidenceUuid = evidence.map EvidenceRow.evidenceUuid := by
  obtain ⟨rest, hcandidates, -⟩ := canonicalCandidates_eq_append hfound
  rw [hcandidates, RetrievalStore.rowsOf, ← List.map_take]
  exact ⟨_, List.mem_append_left _ (List.mem_map_of_mem h), rfl⟩

/-! ### When nothing is evicted -/

/-- A piece of evidence is the one of its name. -/
lemma eq_of_mem_evidenceOf {versionUuid : String} {e e' : EvidenceRow}
    (he : some e ∈ s.evidenceOf versionUuid) (he' : some e' ∈ s.evidenceOf versionUuid)
    (heq : e.evidenceUuid = e'.evidenceUuid) : e = e' := by
  have hget : ∀ {e : EvidenceRow}, some e ∈ s.evidenceOf versionUuid →
      s.evidence.get? e.evidenceUuid = some e := by
    intro e he
    rw [RetrievalStore.evidenceOf] at he
    split at he
    · cases List.mem_singleton.mp he
    · obtain ⟨link, -, hlink⟩ := List.mem_map.mp he
      rw [Table.key_of_get? hlink]
      exact hlink
  have := (hget he).symm.trans ((congrArg s.evidence.get? heq).trans (hget he'))
  exact Option.some.inj this

/-- The item carries all evidence if and only if that of the first memory found is named, and
linked within the limit. -/
lemma SingleVersion.carries_iff (hsingle : SingleVersion s U scope terms limit)
    (hgraph : GraphAddsNothing s U scope terms limit graphRows) :
    (∀ item ∈ validateAndMerge s scope (s.canonicalCandidates U scope terms limit) graphRows,
      ∀ evidence, some evidence ∈ s.evidenceOf item.memoryVersionUuid →
        evidence.evidenceUuid ∈ item.evidenceUuids) ↔ EvidenceWithinLimit s U scope terms limit := by
  rcases hsingle.mergedRows hgraph with
    ⟨hnil, hrows⟩ | ⟨x, xs, merged, hcons, hrows, -, hversion, hevidence⟩
  · rw [EvidenceWithinLimit, hnil, validateAndMerge, hrows]
    simp [KeySort.sortBy]
  · rw [validateAndMerge_of_singleton hrows, List.forall_mem_singleton]
    have hx : x ∈ (s.found U scope terms).take limit := by
      rw [hcons]
      exact List.mem_cons_self
    have hitem : ∀ uuid, uuid ∈ (merged.item 0).evidenceUuids ↔ uuid ≠ "" ∧
        ∃ row ∈ s.canonicalCandidates U scope terms limit, row.evidenceUuid = some uuid := by
      intro uuid
      show uuid ∈ merged.evidenceUuids.eraseDups ↔ _
      rw [List.mem_eraseDups, hevidence, List.mem_filterMap]
      simp only [Option.filter_eq_some_iff, decide_eq_true_eq]
      constructor
      · rintro ⟨row, hrow, hsome, hne⟩
        exact ⟨hne, row, hrow, hsome⟩
      · rintro ⟨hne, row, hrow, hsome⟩
        exact ⟨row, hrow, hsome, hne⟩
    have hitemVersion : (merged.item 0).memoryVersionUuid = x.2.memoryVersionUuid := hversion
    rw [hitemVersion]
    constructor
    · intro h y hy evidence hmem
      rw [hsingle y hy x hx] at hmem ⊢
      obtain ⟨hne, row, hrow, hsome⟩ := (hitem _).mp (h evidence hmem)
      obtain ⟨other, hother, hotherRow⟩ := hsingle.evidence_of_row hcons hrow
      obtain ⟨e, rfl, he⟩ := Option.map_eq_some_iff.mp (hotherRow.symm.trans hsome)
      refine ⟨hne, ?_⟩
      rw [eq_of_mem_evidenceOf hmem (List.mem_of_mem_take hother) he.symm]
      exact hother
    · intro h evidence hmem
      obtain ⟨hne, htake⟩ := h x hx evidence hmem
      obtain ⟨row, hrow, hrowEvidence⟩ := exists_row_of_evidence hcons htake
      exact (hitem _).mpr ⟨hne, row, hrow, hrowEvidence⟩

/-- Links without a candidate support no graph row. -/
lemma validGraphSource_eq_false {links : List EvidenceLink}
    (hlinks : ∀ link ∈ links, link.candidateUuid = "")
    (evidence : Table EvidenceRow String EvidenceRow.evidenceUuid) (graph : GraphRow) :
    (s.withEvidence links evidence).validGraphSource graph = false := by
  rw [Bool.eq_false_iff, ne_eq, validGraphSource_iff]
  rintro ⟨candidate, route, -, -, hne, -, hcarries⟩
  obtain ⟨link, hlink, hmatch⟩ := List.any_eq_true.mp hcarries
  simp only [Bool.and_eq_true, decide_eq_true_eq] at hmatch
  exact hne (hmatch.1.2.symm.trans (hlinks link hlink))

/-- Without links each memory found is a candidate. -/
lemma exists_candidate_of_found (evidence : Table EvidenceRow String EvidenceRow.evidenceUuid)
    {x : MemoryRow × MemoryVersionRow} (hx : x ∈ (s.found U scope terms).take limit) :
    ∃ row ∈ (s.withEvidence [] evidence).canonicalCandidates U scope terms limit,
      row.memoryVersionUuid = x.2.memoryVersionUuid := by
  have hrows : ∀ y, ∃ row, (s.withEvidence [] evidence).rowsOf y = [row] ∧
      row.memoryVersionUuid = y.2.memoryVersionUuid := fun y => ⟨_, rfl, rfl⟩
  have hflat : ∀ xs : List (MemoryRow × MemoryVersionRow), x ∈ xs.take limit →
      ∃ row ∈ (xs.flatMap (s.withEvidence [] evidence).rowsOf).take limit,
        row.memoryVersionUuid = x.2.memoryVersionUuid := by
    intro xs
    clear hx
    induction xs generalizing limit with
    | nil => simp
    | cons y xs ih =>
        intro hmem
        obtain ⟨row, hrow, hversion⟩ := hrows y
        cases limit with
        | zero => simp at hmem
        | succ n =>
            rw [List.take_succ_cons] at hmem
            rw [List.flatMap_cons, hrow, List.singleton_append, List.take_succ_cons]
            rcases List.mem_cons.mp hmem with rfl | hmem
            · exact ⟨row, List.mem_cons_self, hversion⟩
            · obtain ⟨other, hother, hotherVersion⟩ := ih hmem
              exact ⟨other, List.mem_cons_of_mem row hother, hotherVersion⟩
  rw [canonicalCandidates_eq]
  exact hflat _ hx

/-- Two versions are two rows. -/
lemma two_le_length {rows : List MergedRow} {v w : String} (hv : hasVersion v rows)
    (hw : hasVersion w rows) (hne : v ≠ w) : 2 ≤ rows.length := by
  obtain ⟨a, ha, rfl⟩ := hasVersion_iff.mp hv
  obtain ⟨b, hb, rfl⟩ := hasVersion_iff.mp hw
  by_contra hlt
  obtain ⟨c, rfl⟩ := List.length_eq_one_iff.mp
    (Nat.le_antisymm (Nat.le_of_lt_succ (not_le.mp hlt)) (List.length_pos_of_mem ha))
  rw [List.mem_singleton] at ha hb
  exact hne (by rw [ha, hb])

/-- Enough links of the first memory found leave its version alone. -/
lemma length_retrieved_of_links {x : MemoryRow × MemoryVersionRow}
    {xs : List (MemoryRow × MemoryVersionRow)}
    (hfound : (s.found U scope terms).take limit = x :: xs) :
    ∃ links, (retrieved (s.withEvidence links s.evidence) U scope terms limit graphRows).length ≤ 1 := by
  let link : EvidenceLink := ⟨x.1.memoryUuid, x.2.memoryVersionUuid, "", ""⟩
  refine ⟨List.replicate limit link, ?_⟩
  have hinvalid : ∀ graph ∈ graphRows,
      (s.withEvidence (List.replicate limit link) s.evidence).validGraphSource graph = false :=
    fun graph _ => validGraphSource_eq_false
      (fun other hother => by rw [List.eq_of_mem_replicate hother]) s.evidence graph
  have hfound' : ((s.withEvidence (List.replicate limit link) s.evidence).found U scope terms).take
      limit = x :: xs := hfound
  obtain ⟨rest, hcandidates, hrest⟩ := canonicalCandidates_eq_append hfound'
  have hlength : limit ≤ ((s.withEvidence (List.replicate limit link) s.evidence).rowsOf x).length := by
    rw [RetrievalStore.rowsOf, List.length_map, RetrievalStore.evidenceOf]
    have hfilter : (List.replicate limit link).filter
        (fun other => other.memoryVersionUuid = x.2.memoryVersionUuid) = List.replicate limit link :=
      List.filter_eq_self.mpr fun other hother =>
        decide_eq_true (by rw [List.eq_of_mem_replicate hother])
    dsimp only [RetrievalStore.withEvidence]
    rw [hfilter]
    split
    · next hnil =>
        rw [List.replicate_eq_nil_iff] at hnil
        rw [hnil]
        exact Nat.zero_le _
    · rw [List.length_map, List.length_replicate]
  have hempty : rest = [] := by
    by_contra hne
    exact absurd (hrest hne) (not_lt.mpr hlength)
  rw [hempty, List.append_nil] at hcandidates
  rw [length_retrieved, mergedRows, foldl_mergeGraph_of_invalid _ _ _ hinvalid]
  refine (min_le_right _ _).trans ?_
  refine @length_foldl_mergeCanonical_le_one _ x.2.memoryVersionUuid fun row hrow => ?_
  rw [hcandidates] at hrow
  exact (of_mem_rowsOf _ (List.mem_of_mem_take hrow)).2.1

/-- Where links do not matter, the first memories found are all of one version. -/
lemma singleVersion_of_retrieved
    (h : ∀ links evidence, retrieved (s.withEvidence links evidence) U scope terms limit graphRows =
      retrieved s U scope terms limit graphRows) : SingleVersion s U scope terms limit := by
  intro x hx y hy
  by_contra hne
  cases hfound : (s.found U scope terms).take limit with
  | nil =>
      rw [hfound] at hx
      exact absurd hx List.not_mem_nil
  | cons first rest =>
      obtain ⟨links, hlinks⟩ := @length_retrieved_of_links s U scope terms limit graphRows _ _ hfound
      have hbare : 2 ≤ (retrieved (s.withEvidence [] s.evidence) U scope terms limit
          graphRows).length := by
        have hversion : ∀ {z : MemoryRow × MemoryVersionRow}, z ∈ (s.found U scope terms).take limit →
            hasVersion z.2.memoryVersionUuid (((s.withEvidence [] s.evidence).canonicalCandidates U
              scope terms limit).foldl mergeCanonical []) := fun hz =>
          (hasVersion_foldl_mergeCanonical _ _ _).mpr (.inr (exists_candidate_of_found s.evidence hz))
        rw [length_retrieved, mergedRows, foldl_mergeGraph_of_invalid _ _ _ fun graph _ =>
          validGraphSource_eq_false (by simp) s.evidence graph]
        exact le_min (by decide) (two_le_length (hversion hx) (hversion hy) hne)
      rw [h] at hlinks hbare
      omega

/-- Where links do not matter, the graph names no further version. -/
lemma graphAddsNothing_of_retrieved
    (h : ∀ links evidence, retrieved (s.withEvidence links evidence) U scope terms limit graphRows =
      retrieved s U scope terms limit graphRows) :
    GraphAddsNothing s U scope terms limit graphRows := by
  intro graph hmem candidate route hcandidate hroute hne hne' hprojection
  by_contra hnone
  push Not at hnone
  have hsingle := singleVersion_of_retrieved h
  -- a link that carries the candidate and the route of the graph row
  let links : List EvidenceLink := [⟨graph.memoryUuid, graph.memoryVersionUuid, candidate, "e"⟩]
  let evidence : Table EvidenceRow String EvidenceRow.evidenceUuid :=
    ⟨[⟨"e", candidate, some route, none⟩], List.nodup_singleton _⟩
  have hvalid : (s.withEvidence links evidence).validGraphSource graph := by
    refine (validGraphSource_iff _).mpr ⟨candidate, route, hcandidate, hroute, hne, hne', ?_⟩
    simp [RetrievalStore.linkCarries, RetrievalStore.withEvidence, links, evidence, Table.get?]
  have hbare := congrArg List.length (h [] s.evidence)
  have hlinked := congrArg List.length (h links evidence)
  rw [length_retrieved, mergedRows, foldl_mergeGraph_of_invalid _ _ _ fun graph _ =>
    validGraphSource_eq_false (by simp) s.evidence graph] at hbare
  rw [length_retrieved] at hlinked
  have hadded : hasVersion graph.memoryVersionUuid (mergedRows (s.withEvidence links evidence) scope
      ((s.withEvidence links evidence).canonicalCandidates U scope terms limit) graphRows) :=
    hasVersion_of_graphProjection _ scope graphRows hmem hvalid hprojection _
  cases hfound : (s.found U scope terms).take limit with
  | nil =>
      have hcandidates : (s.withEvidence [] s.evidence).canonicalCandidates U scope terms limit = [] := by
        refine List.eq_nil_iff_forall_not_mem.mpr fun row hrow => ?_
        obtain ⟨x, hx, -⟩ := of_mem_canonicalCandidates _ U scope terms limit hrow
        exact absurd (hfound ▸ hx : x ∈ []) List.not_mem_nil
      rw [hcandidates, List.foldl_nil, List.length_nil, Nat.min_zero] at hbare
      obtain ⟨merged, hmerged, -⟩ := hasVersion_iff.mp hadded
      have hpos := List.length_pos_of_mem hmerged
      omega
  | cons x xs =>
      have hx : x ∈ (s.found U scope terms).take limit := by
        rw [hfound]
        exact List.mem_cons_self
      obtain ⟨row, rows, hrows, hrow⟩ := @canonicalCandidates_eq_cons
        (s.withEvidence links evidence) U scope terms limit x xs hfound
      have hthere : hasVersion x.2.memoryVersionUuid (mergedRows (s.withEvidence links evidence) scope
          ((s.withEvidence links evidence).canonicalCandidates U scope terms limit) graphRows) := by
        refine hasVersion_foldl_mergeGraph _ scope graphRows
          ((hasVersion_foldl_mergeCanonical _ _ _).mpr (.inr ⟨row, ?_, (of_mem_rowsOf _ hrow).2.1⟩))
        rw [hrows]
        exact List.mem_cons_self
      have htwo := two_le_length hthere hadded (hnone x hx)
      have hone : (((s.withEvidence [] s.evidence).canonicalCandidates U scope terms limit).foldl
          mergeCanonical []).length ≤ 1 := length_foldl_mergeCanonical_le_one fun other hother => by
        obtain ⟨y, hy, hyrow⟩ := of_mem_canonicalCandidates _ U scope terms limit hother
        exact (of_mem_rowsOf _ hyrow).2.1.trans (hsingle y hy x hx)
      omega

variable (s U scope terms limit graphRows)

/-- Evidence evicts nothing if and only if the first memories found are all of one version, the
graph names no further one, and their evidence is linked within the limit. -/
theorem evidenceEvictsNothing_iff : EvidenceEvictsNothing s U scope terms limit graphRows ↔
    SingleVersion s U scope terms limit ∧ GraphAddsNothing s U scope terms limit graphRows ∧
      EvidenceWithinLimit s U scope terms limit := by
  constructor
  · rintro ⟨hsame, hcarries⟩
    have hsingle := singleVersion_of_retrieved hsame
    have hgraph := graphAddsNothing_of_retrieved hsame
    exact ⟨hsingle, hgraph, (hsingle.carries_iff hgraph).mp hcarries⟩
  · rintro ⟨hsingle, hgraph, hwithin⟩
    exact ⟨hsingle.retrieved_withEvidence hgraph, (hsingle.carries_iff hgraph).mpr hwithin⟩

end

/-! ### Thirty pieces of evidence -/

/-- A memory of a project, at its version. -/
def projectMemory (uuid : String) : MemoryRow where
  memoryUuid := uuid
  canonicalKey := uuid.toList
  memoryType := "fact"
  scopeType := "project"
  scopeUuid := some "p1"
  currentVersionUuid := some (uuid ++ "v1")

/-- The version. -/
def projectVersion (uuid : String) : MemoryVersionRow where
  memoryVersionUuid := uuid ++ "v1"
  memoryUuid := uuid
  versionNumber := 1
  normalizedText := "likes tea".toList
  transactionFrom := 0
  changeOperation := .add

/-- The name of a piece of evidence. -/
def evidenceName (n : ℕ) : String := String.ofList ('e' :: List.replicate n '1')

/-- Two memories, the first with thirty pieces of evidence. -/
def crowded : RetrievalStore where
  memories :=
    { memories := ⟨[projectMemory "m1", projectMemory "m2"], by decide⟩
      versions := ⟨[projectVersion "m1", projectVersion "m2"], by decide⟩
      decisions := .empty }
  links := (List.range 30).map fun n => ⟨"m1", "m1v1", "c1", evidenceName n⟩
  evidence := ⟨(List.range 30).map fun n =>
    { evidenceUuid := evidenceName n, candidateUuid := "c1" }, by decide +kernel⟩

/-- The evidence of the first memory takes the place of the second. -/
theorem not_evidenceEvictsNothing : ¬EvidenceEvictsNothing crowded basicLatin
    { sessionUuid := "s1", projectUuid := some "p1" } [] 30 [] := by
  intro h
  have hcrowded : retrieved crowded basicLatin { sessionUuid := "s1", projectUuid := some "p1" }
      [] 30 [] = [("m1", "m1v1")] := by decide +kernel
  have hbare : retrieved (crowded.withEvidence [] .empty) basicLatin
      { sessionUuid := "s1", projectUuid := some "p1" } [] 30 [] =
        [("m1", "m1v1"), ("m2", "m2v1")] := by decide +kernel
  have heq := h.1 [] .empty
  rw [hcrowded, hbare] at heq
  exact absurd heq (by decide)

end Memorist
