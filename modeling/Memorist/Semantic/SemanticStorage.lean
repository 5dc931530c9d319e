import Memorist.Coverage.TextUnits
import Memorist.Library.Runs
import Memorist.Semantic.MessageSemantics

/-!
When an accepted analysis can be stored.

* `accepted_facts`: what the validators promise about an answer;
* `persistConceptTags_eq_ok`, `persistMessageSemantics_eq_ok`: the tables that are written, one by one;
* `Sound`: what holds of the ledger after any analyses, `Sound.persist`: another one keeps it;
* `Storable`: what the constraints ask beyond the validators;
* `stores_iff`: an accepted analysis is stored, once, exactly when it is there or storable.
-/

namespace Memorist.MessageSemantics

variable {P : Platform} {nfkc : Text → Text} {now : String} {request : SemanticsRequest}

/-! ### What the validators promise -/

/-- What holds of an accepted answer. -/
structure AcceptedFacts (output : MessageAnalysis) : Prop where
  importance : inUnitInterval output.importance
  categories : ∀ category ∈ output.messageCategories, inUnitInterval category.confidence
  tags : ∀ tag ∈ output.conceptTags, inUnitInterval tag.confidence ∧ spanChecked tag.toTagSpan
  few : output.conceptTags.length ≤ 5
  unitRanges : ∀ unit ∈ output.semanticUnits, unit.rawStart < unit.rawEnd
  unitIds : (output.semanticUnits.map fun unit => unit.id).Nodup
  entities : ∀ entity ∈ output.entities, inUnitInterval entity.confidence
  processes : ∀ process ∈ output.processReferences, inUnitInterval process.confidence

lemma unitInterval_eq_ok {path : String} {value : ℚ} {u : Unit} :
    unitInterval path value = .ok u ↔ inUnitInterval value := by
  simp only [unitInterval, Checks.bind_eq_ok, Checks.require_eq_ok, inUnitInterval, exists_const]

lemma forall_of_zipIdx {α : Type} {xs : List α} {q : α → Prop} (h : ∀ p ∈ xs.zipIdx, q p.1) :
    ∀ x ∈ xs, q x := fun x hx => by
  obtain ⟨i, hi⟩ := List.getElem?_of_mem hx
  exact h (x, i) (List.mem_zipIdx_iff_getElem?.mpr hi)

/-- What an accepted answer satisfies. -/
lemma accepted_facts {semanticInput : SemanticAnalysisV1Input} {output : MessageAnalysis}
    {report : ValidationReport} (h : validateMessageAnalysis P semanticInput output = .ok report) :
    AcceptedFacts output := by
  rw [validateMessageAnalysis, Checks.bind_eq_ok] at h
  obtain ⟨_, hmetadata, hbinding⟩ := h
  simp only [MessageAnalysis.modelValidate, MessageCategoryTag.modelValidate,
    MessageConceptTag.modelValidate, MessageEntity.modelValidate,
    MessageProcessReference.modelValidate, Checks.bind_eq_ok, Checks.forM_eq_ok,
    unitInterval_eq_ok] at hmetadata
  obtain ⟨_, hcategories, _, htags, _, hentities, _, hprocesses, himportance⟩ := hmetadata
  have hevidence := (validateSemanticBinding_facts hbinding).evidence
  rw [validateSemanticBinding, Checks.bind_eq_ok] at hbinding
  obtain ⟨_, -, hbinding⟩ := hbinding
  obtain ⟨_, houtput, -⟩ := Checks.bind_eq_ok.mp hbinding
  simp only [SemanticAnalysisV1Output.modelValidate, TagSpan.spanIsComplete, Checks.bind_eq_ok,
    Checks.require_eq_ok, Checks.forM_eq_ok] at houtput
  obtain ⟨_, hspans, _, -, _, -, _, -, _, -, _, -, _, hfew, -⟩ := houtput
  have hchecked : ∀ tag ∈ output.binding.conceptTags, spanChecked tag :=
    forall_of_zipIdx fun p hp => (hspans p hp).choose_spec.2.choose_spec.2
  have hconfident : ∀ tag ∈ output.conceptTags, inUnitInterval tag.confidence :=
    forall_of_zipIdx fun p hp => (htags p hp).choose_spec.2
  exact
    { importance := himportance
      categories := forall_of_zipIdx hcategories
      tags := fun tag htag => ⟨hconfident tag htag, hchecked tag.toTagSpan (List.mem_map_of_mem htag)⟩
      few := by simpa [MessageAnalysis.binding] using hfew
      unitRanges := fun unit hunit => hevidence.lt unit.toSemanticUnit (List.mem_map_of_mem hunit)
      unitIds := by simpa [MessageAnalysis.binding, Function.comp_def] using hevidence.nodup
      entities := forall_of_zipIdx fun p hp => (hentities p hp).choose_spec.2
      processes := forall_of_zipIdx fun p hp => (hprocesses p hp).choose_spec.2.choose_spec.2 }

/-! ### The tables that are written -/

/-- The tags of a message write three tables, each by itself. -/
lemma persistConceptTags_eq_ok {analysisUuid : String} {tags : List (MessageConceptTag × ℕ)}
    {c c' : ConceptTables} :
    tags.foldlM (persistConceptTag P nfkc now analysisUuid) c = .ok c' ↔
      tags.foldlM (fun t p => t.insertOrKeep conceptConstraints (conceptRow P nfkc now p.1))
          c.canonicalConcepts = .ok c'.canonicalConcepts ∧
        c.conceptAliases.insertAllOrKeep aliasConstraints
          (tags.flatMap fun p => aliasRows P nfkc p.1) = .ok c'.conceptAliases ∧
        c.messageConceptTags.insertAllUnder tagConstraints
          (tags.map (conceptTagRow P nfkc analysisUuid)) = .ok c'.messageConceptTags := by
  induction tags generalizing c with
  | nil =>
      obtain ⟨concepts, aliases, tags⟩ := c
      obtain ⟨concepts', aliases', tags'⟩ := c'
      simp [Table.insertAllOrKeep, Table.insertAllUnder, pure, Except.pure]
  | cons p tags ih =>
      have hone : ∀ c₁, persistConceptTag P nfkc now analysisUuid c p = .ok c₁ ↔
          c.canonicalConcepts.insertOrKeep conceptConstraints (conceptRow P nfkc now p.1) =
              .ok c₁.canonicalConcepts ∧
            c.conceptAliases.insertAllOrKeep aliasConstraints (aliasRows P nfkc p.1) =
              .ok c₁.conceptAliases ∧
            c.messageConceptTags.insertUnder tagConstraints (conceptTagRow P nfkc analysisUuid p) =
              .ok c₁.messageConceptTags := by
        rintro ⟨concepts, aliases, rows⟩
        simp only [persistConceptTag, Checks.bind_eq_ok, Checks.pure_eq_ok, ConceptTables.mk.injEq]
        constructor
        · rintro ⟨_, hconcepts, _, haliases, _, hrows, rfl, rfl, rfl⟩
          exact ⟨hconcepts, haliases, hrows⟩
        · rintro ⟨hconcepts, haliases, hrows⟩
          exact ⟨_, hconcepts, _, haliases, _, hrows, rfl, rfl, rfl⟩
      rw [List.foldlM_cons, List.foldlM_cons, List.flatMap_cons, List.map_cons,
        Table.insertAllOrKeep, List.foldlM_append, Table.insertAllUnder, List.foldlM_cons]
      simp only [Checks.bind_eq_ok, hone, ih]
      constructor
      · rintro ⟨c₁, ⟨hconcepts, haliases, hrows⟩, hconcepts', haliases', hrows'⟩
        exact ⟨⟨_, hconcepts, hconcepts'⟩, ⟨_, haliases, haliases'⟩, ⟨_, hrows, hrows'⟩⟩
      · rintro ⟨⟨concepts, hconcepts, hconcepts'⟩, ⟨aliases, haliases, haliases'⟩,
          ⟨rows, hrows, hrows'⟩⟩
        exact ⟨⟨concepts, aliases, rows⟩, ⟨hconcepts, haliases, hrows⟩, hconcepts', haliases', hrows'⟩

/-- The name of an analysis has a row. -/
def Analysed (s : SemanticTables) (analysisUuid : String) : Prop :=
  ∃ row ∈ s.messageSemanticAnalyses.rows, row.semanticAnalysisUuid = analysisUuid

lemma isSome_get?_analysis {s : SemanticTables} {analysisUuid : String} :
    (s.messageSemanticAnalyses.get? analysisUuid).isSome = true ↔ Analysed s analysisUuid := by
  rw [Option.isSome_iff_ne_none, Ne, Table.get?_eq_none, not_not, List.mem_map]
  rfl

variable (P nfkc now request) in
/-- The tables before and after an analysis is written. -/
structure Written (s s' : SemanticTables) : Prop where
  analyses : s.messageSemanticAnalyses.insertUnder analysisConstraints (analysisRow P now request) =
    .ok s'.messageSemanticAnalyses
  categories : s.messageSemanticCategories.insertAllUnder categoryConstraints
    (request.output.messageCategories.map (categoryRow (semanticAnalysisUuid P request))) =
      .ok s'.messageSemanticCategories
  concepts : request.output.conceptTags.zipIdx.foldlM (fun t p =>
    t.insertOrKeep conceptConstraints (conceptRow P nfkc now p.1)) s.canonicalConcepts =
      .ok s'.canonicalConcepts
  aliases : s.conceptAliases.insertAllOrKeep aliasConstraints
    (request.output.conceptTags.zipIdx.flatMap fun p => aliasRows P nfkc p.1) = .ok s'.conceptAliases
  tags : s.messageConceptTags.insertAllUnder tagConstraints (request.output.conceptTags.zipIdx.map
    (conceptTagRow P nfkc (semanticAnalysisUuid P request))) = .ok s'.messageConceptTags
  units : s.messageSemanticUnits.insertAllUnder unitConstraints (request.output.semanticUnits.zipIdx.map
    (unitRow P now (semanticAnalysisUuid P request))) = .ok s'.messageSemanticUnits
  entities : s.messageEntityReferences.insertAllUnder entityConstraints
    (request.output.entities.zipIdx.map (entityReferenceRow P (semanticAnalysisUuid P request))) =
      .ok s'.messageEntityReferences
  processes : s.messageProcessReferences.insertAllUnder processConstraints
    (request.output.processReferences.zipIdx.map
      (processReferenceRow P (semanticAnalysisUuid P request))) = .ok s'.messageProcessReferences
  outcomes : s.semanticJobOutcomes.insertUnder outcomeConstraints (jobOutcomeRow P now request) =
    .ok s'.semanticJobOutcomes

/-- An analysis that is not there is written, table by table. -/
lemma persistMessageSemantics_eq_ok {s s' : SemanticTables} {analysisUuid : String}
    (hnew : ¬Analysed s (semanticAnalysisUuid P request)) :
    persistMessageSemantics P nfkc now s request = .ok (analysisUuid, s') ↔
      analysisUuid = semanticAnalysisUuid P request ∧ Written P nfkc now request s s' := by
  rw [persistMessageSemantics]
  dsimp only
  rw [if_neg (isSome_get?_analysis.not.mpr hnew)]
  simp only [Checks.bind_eq_ok, Checks.pure_eq_ok, Prod.mk.injEq]
  constructor
  · rintro ⟨_, hanalyses, _, hcategories, concepts, hconcepts, _, hunits, _, hentities, _, hprocesses, _,
      houtcomes, rfl, rfl⟩
    obtain ⟨hconcepts, haliases, htags⟩ := persistConceptTags_eq_ok.mp hconcepts
    exact ⟨rfl, hanalyses, hcategories, hconcepts, haliases, htags, hunits, hentities, hprocesses,
      houtcomes⟩
  · rintro ⟨rfl, h⟩
    exact ⟨_, h.analyses, _, h.categories, s'.toConceptTables,
      persistConceptTags_eq_ok.mpr ⟨h.concepts, h.aliases, h.tags⟩, _, h.units, _, h.entities, _,
      h.processes, _, h.outcomes, rfl, rfl⟩

/-- An analysis that is there is left alone. -/
lemma persistMessageSemantics_of_analysed {s : SemanticTables}
    (h : Analysed s (semanticAnalysisUuid P request)) :
    persistMessageSemantics P nfkc now s request = .ok (semanticAnalysisUuid P request, s) := by
  rw [persistMessageSemantics]
  dsimp only
  rw [if_pos (isSome_get?_analysis.mpr h)]
  rfl

/-! ### Names -/

variable (P) in
/-- What the names of the ledger rest on: texts have names of their own, and no name holds a colon. -/
structure PlainNames : Prop where
  injective : ∀ space, Function.Injective (P.uuid5 space)
  plain : ∀ space name, ':' ∉ (P.uuid5 space name).toList

lemma toList_ordinal (name : String) (ordinal : ℕ) :
    s!"{name}:{ordinal}".toList = name.toList ++ ':' :: Nat.toDigits 10 ordinal := by
  rw [String.toList_append, String.toList_append, toList_toString_nat, List.append_assoc]
  rfl

lemma toList_pair (name other : String) :
    s!"{name}:{other}".toList = name.toList ++ ':' :: other.toList := by
  rw [String.toList_append, String.toList_append, List.append_assoc]
  rfl

lemma append_colon_inj {x x' z z' : Text} (h : ':' ∉ x) (h' : ':' ∉ x')
    (heq : x ++ ':' :: z = x' ++ ':' :: z') : x = x' ∧ z = z' := by
  rcases List.append_eq_append_iff.mp heq with ⟨c, hx, hz⟩ | ⟨c, hx, hz⟩
  · cases c with
    | nil => exact ⟨(hx.trans (List.append_nil x)).symm, (List.cons.inj hz).2⟩
    | cons d c =>
        obtain rfl := (List.cons.inj hz).1
        exact absurd (hx ▸ List.mem_append_right x List.mem_cons_self) h'
  · cases c with
    | nil => exact ⟨hx.trans (List.append_nil x'), (List.cons.inj hz).2.symm⟩
    | cons d c =>
        obtain rfl := (List.cons.inj hz).1
        exact absurd (hx ▸ List.mem_append_right x' List.mem_cons_self) h

/-- A plain name and a text are told apart by the first colon. -/
lemma pair_inj {name label rest other : String} (h : ':' ∉ name.toList) (h' : ':' ∉ label.toList)
    (heq : s!"{name}:{rest}" = s!"{label}:{other}") : name = label ∧ rest = other := by
  have htext := congrArg String.toList heq
  rw [toList_pair, toList_pair] at htext
  obtain ⟨hname, hother⟩ := append_colon_inj h h' htext
  exact ⟨String.toList_inj.mp hname, String.toList_inj.mp hother⟩

/-- A plain name and a number are told apart, after the same beginning. -/
lemma ordinal_inj {start name label : String} {m n : ℕ} (h : ':' ∉ name.toList)
    (h' : ':' ∉ label.toList) (heq : s!"{start}{name}:{m}" = s!"{start}{label}:{n}") :
    name = label ∧ m = n := by
  have hstart : ∀ (name : String) (n : ℕ), s!"{start}{name}:{n}".toList =
      start.toList ++ s!"{name}:{n}".toList := fun name n => by
    simp only [String.toList_append, List.append_assoc]
    rfl
  have htext := congrArg String.toList heq
  rw [hstart, hstart, toList_ordinal, toList_ordinal] at htext
  obtain ⟨hname, hnumber⟩ := append_colon_inj h h' (List.append_cancel_left htext)
  refine ⟨String.toList_inj.mp hname, ?_⟩
  exact (IJson.toDigits_append_inj IJson.noDigit_nil IJson.noDigit_nil
    (congrArg (· ++ []) hnumber)).1

/-! ### The ledger after any analyses -/

variable (P) in
/-- What holds of the ledger: names are made of what they name, and what is said about an analysis is
said about one that is there. -/
structure Sound (s : SemanticTables) : Prop where
  analyses : ∀ row ∈ s.messageSemanticAnalyses.rows, row.semanticAnalysisUuid =
    analysisUuidOf P row.messageUuid row.processingRunUuid row.contractHash row.rawTextHash
  categories : ∀ row ∈ s.messageSemanticCategories.rows, Analysed s row.semanticAnalysisUuid
  concepts : ∀ row ∈ s.canonicalConcepts.rows,
    row.conceptUuid = P.uuid5 conceptNamespace (String.ofList row.canonicalLabel)
  tags : ∀ row ∈ s.messageConceptTags.rows, Analysed s row.semanticAnalysisUuid
  units : ∀ row ∈ s.messageSemanticUnits.rows, Analysed s row.semanticAnalysisUuid ∧
    row.semanticUnitUuid =
      P.uuid5 unitNamespace s!"{row.semanticAnalysisUuid}:{row.semanticUnitId}"
  entities : ∀ row ∈ s.messageEntityReferences.rows, Analysed s row.semanticAnalysisUuid ∧
    ∃ index : ℕ, row.entityReferenceUuid =
      P.uuid5 referenceNamespace s!"entity:{row.semanticAnalysisUuid}:{index}"
  processes : ∀ row ∈ s.messageProcessReferences.rows, Analysed s row.semanticAnalysisUuid ∧
    ∃ index : ℕ, row.processReferenceUuid =
      P.uuid5 referenceNamespace s!"process:{row.semanticAnalysisUuid}:{index}"
  outcomes : ∀ row ∈ s.semanticJobOutcomes.rows, Analysed s row.semanticAnalysisUuid ∧
    row.semanticJobOutcomeUuid =
      P.uuid5 referenceNamespace s!"outcome:{row.semanticAnalysisUuid}"

lemma sound_noSemantics : Sound P noSemantics where
  analyses := fun _ hrow => absurd hrow List.not_mem_nil
  categories := fun _ hrow => absurd hrow List.not_mem_nil
  concepts := fun _ hrow => absurd hrow List.not_mem_nil
  tags := fun _ hrow => absurd hrow List.not_mem_nil
  units := fun _ hrow => absurd hrow List.not_mem_nil
  entities := fun _ hrow => absurd hrow List.not_mem_nil
  processes := fun _ hrow => absurd hrow List.not_mem_nil
  outcomes := fun _ hrow => absurd hrow List.not_mem_nil

variable {s s' : SemanticTables}

variable (nfkc now) in
/-- Concepts are kept or added, and named by their labels. -/
lemma exists_concepts (tags : List (MessageConceptTag × ℕ)) :
    ∀ {t : Table ConceptRow String ConceptRow.conceptUuid}, (∀ row ∈ t.rows,
      row.conceptUuid = P.uuid5 conceptNamespace (String.ofList row.canonicalLabel)) →
    ∃ t', tags.foldlM (fun t p => t.insertOrKeep conceptConstraints (conceptRow P nfkc now p.1)) t =
        .ok t' ∧ ∀ row ∈ t'.rows,
          row.conceptUuid = P.uuid5 conceptNamespace (String.ofList row.canonicalLabel) := by
  induction tags with
  | nil => exact fun {t} ht => ⟨t, rfl, ht⟩
  | cons p tags ih =>
      intro t ht
      have hindexes : ∀ row ∈ t.rows, ∀ index ∈ conceptConstraints.indexes,
          index.1 (conceptRow P nfkc now p.1) row = true →
            row.conceptUuid = (conceptRow P nfkc now p.1).conceptUuid := by
        intro row hrow index hindex hsame
        obtain rfl := List.mem_singleton.mp hindex
        rw [ht row hrow, ← of_decide_eq_true hsame]
        rfl
      obtain ⟨t₁, hfirst, hrows⟩ := Table.exists_insertOrKeep rfl hindexes
      have ht₁ : ∀ row ∈ t₁.rows,
          row.conceptUuid = P.uuid5 conceptNamespace (String.ofList row.canonicalLabel) := by
        intro row hrow
        rcases hrows row hrow with hold | rfl
        · exact ht row hold
        · rfl
      obtain ⟨t', hrest, ht'⟩ := ih ht₁
      refine ⟨t', ?_, ht'⟩
      rw [List.foldlM_cons, Checks.bind_eq_ok]
      exact ⟨t₁, hfirst, hrest⟩

lemma forall_mem_append_map {α ρ : Type} {q : ρ → Prop} {rows rows' : List ρ} {xs : List α}
    {f : α → ρ} (hrows : rows' = rows ++ xs.map f) (hold : ∀ row ∈ rows, q row)
    (hnew : ∀ x ∈ xs, q (f x)) : ∀ row ∈ rows', q row := by
  rw [hrows]
  exact List.forall_mem_append.mpr ⟨hold, List.forall_mem_map.mpr hnew⟩

/-- Another analysis keeps the ledger sound. -/
lemma Sound.written (hs : Sound P s) (h : Written P nfkc now request s s') : Sound P s' := by
  have hanalyses := Table.rows_insertUnder h.analyses
  have hkept : ∀ {a : String}, Analysed s a → Analysed s' a := fun ⟨row, hrow, heq⟩ =>
    ⟨row, hanalyses ▸ List.mem_append_left _ hrow, heq⟩
  have hthere : Analysed s' (semanticAnalysisUuid P request) :=
    ⟨_, hanalyses ▸ List.mem_append_right _ (List.mem_singleton_self _), rfl⟩
  obtain ⟨concepts, hconcepts, hnamed⟩ :=
    exists_concepts nfkc now request.output.conceptTags.zipIdx hs.concepts
  obtain rfl := Except.ok.inj (hconcepts.symm.trans h.concepts)
  exact
    { analyses := by
        rw [hanalyses]
        refine List.forall_mem_append.mpr ⟨hs.analyses, fun row hrow => ?_⟩
        obtain rfl := List.mem_singleton.mp hrow
        rfl
      categories := forall_mem_append_map (Table.rows_insertAllUnder h.categories)
        (fun row hrow => hkept (hs.categories row hrow)) fun _ _ => hthere
      concepts := hnamed
      tags := forall_mem_append_map (Table.rows_insertAllUnder h.tags)
        (fun row hrow => hkept (hs.tags row hrow)) fun _ _ => hthere
      units := forall_mem_append_map (Table.rows_insertAllUnder h.units)
        (fun row hrow => (hs.units row hrow).imp_left hkept) fun _ _ => ⟨hthere, rfl⟩
      entities := forall_mem_append_map (Table.rows_insertAllUnder h.entities)
        (fun row hrow => (hs.entities row hrow).imp_left hkept) fun p _ => ⟨hthere, p.2, rfl⟩
      processes := forall_mem_append_map (Table.rows_insertAllUnder h.processes)
        (fun row hrow => (hs.processes row hrow).imp_left hkept) fun p _ => ⟨hthere, p.2, rfl⟩
      outcomes := by
        rw [Table.rows_insertUnder h.outcomes]
        refine List.forall_mem_append.mpr
          ⟨fun row hrow => (hs.outcomes row hrow).imp_left hkept, fun row hrow => ?_⟩
        obtain rfl := List.mem_singleton.mp hrow
        exact ⟨hthere, rfl⟩ }

/-! ### What the constraints ask -/

variable (P nfkc) in
/-- What the constraints ask of an answer beyond the validators. -/
structure Storable (output : MessageAnalysis) : Prop where
  categories : (output.messageCategories.map fun tag => (tag.category, tag.normalizedLabel)).Nodup
  concepts : (output.conceptTags.map fun tag => normalizeLabel P nfkc tag.canonicalLabel).Nodup
  stages : ∀ process ∈ output.processReferences, ∀ ordinal ∈ process.stageOrdinal, ordinal < 2 ^ 63

lemma refuseUnless_eq_none {table : SemanticTable} {condition : Prop} [Decidable condition] :
    refuseUnless table condition = none ↔ condition := by
  rw [refuseUnless]
  split_ifs with h
  · exact iff_of_true rfl h
  · exact iff_of_false (by simp) h

/-- Numbered elements are apart when the elements are. -/
lemma pairwise_zipIdx {α : Type} {xs : List α} {q : α → α → Prop} (h : xs.Pairwise q) :
    xs.zipIdx.Pairwise fun a b => q a.1 b.1 ∧ a.2 ≠ b.2 := by
  have hfirst : xs.zipIdx.Pairwise fun a b => q a.1 b.1 := by
    rw [← List.pairwise_map (f := Prod.fst) (R := q), List.zipIdx_map_fst]
    exact h
  have hsecond : (xs.zipIdx.map Prod.snd).Nodup := by
    rw [List.zipIdx_map_snd]
    exact List.nodup_range'
  exact hfirst.and (List.pairwise_map.mp hsecond)

lemma pairwise_of_zipIdx {α : Type} {xs : List α} {q : α → α → Prop}
    (h : xs.zipIdx.Pairwise fun a b => q a.1 b.1) : xs.Pairwise q := by
  rw [← List.zipIdx_map_fst 0 xs]
  exact List.pairwise_map.mpr h

section

variable {ρ κ : Type} {key : ρ → κ} {c : Table.Constraints ρ StorageError} {row r : ρ}

lemma fits_singleton : c.Fits key [row] r ↔
    key row ≠ key r ∧ ∀ index ∈ c.indexes, index.1 r row = false := List.forall_mem_singleton

end

/-- Rows about other analyses leave room for those of a new one. -/
lemma exists_insertAllUnder_iff_of_fresh {ρ κ α : Type} [DecidableEq κ] {key : ρ → κ}
    {c : Table.Constraints ρ StorageError} {t : Table ρ κ key} {xs : List α} {f : α → ρ}
    (hfresh : ∀ row ∈ t.rows, ∀ x ∈ xs, c.Fits key [row] (f x)) :
    (∃ t', t.insertAllUnder c (xs.map f) = .ok t') ↔
      (∀ x ∈ xs, c.refused (f x) = none) ∧ xs.Pairwise fun x y => c.Fits key [f x] (f y) := by
  rw [Table.exists_insertAllUnder_iff, List.forall_mem_map, List.pairwise_map]
  refine and_congr_left fun _ => forall₂_congr fun x hx => and_iff_left ?_
  exact fun row hrow => fits_singleton.mp (hfresh row hrow x hx)

variable (now) in
/-- The analysis itself is written. -/
lemma exists_analyses (hs : Sound P s) (hnew : ¬Analysed s (semanticAnalysisUuid P request))
    (himportance : inUnitInterval request.output.importance) :
    ∃ t, s.messageSemanticAnalyses.insertUnder analysisConstraints (analysisRow P now request) =
      .ok t := by
  refine ⟨_, Table.insertUnder_eq_ok.mpr ⟨refuseUnless_eq_none.mpr himportance, ?_, rfl⟩⟩
  refine fun row hrow => ⟨fun heq => hnew ⟨row, hrow, heq⟩, fun index hindex => ?_⟩
  obtain rfl := List.mem_singleton.mp hindex
  refine decide_eq_false fun ⟨hmessage, hrun, hcontract, htext⟩ => hnew ⟨row, hrow, ?_⟩
  rw [hs.analyses row hrow, ← hmessage, ← hrun, ← hcontract, ← htext]
  rfl

lemma exists_categories_iff (hs : Sound P s) (haccepted : AcceptedFacts request.output)
    (hnew : ¬Analysed s (semanticAnalysisUuid P request)) :
    (∃ t, s.messageSemanticCategories.insertAllUnder categoryConstraints
      (request.output.messageCategories.map (categoryRow (semanticAnalysisUuid P request))) = .ok t) ↔
      (request.output.messageCategories.map fun tag => (tag.category, tag.normalizedLabel)).Nodup := by
  rw [exists_insertAllUnder_iff_of_fresh, and_iff_right, List.Nodup, List.pairwise_map]
  · refine iff_of_eq (congrArg (List.Pairwise · _) (funext₂ fun x y => propext ?_))
    rw [fits_singleton]
    simp [categoryRow, categoryConstraints]
  · exact fun tag htag => refuseUnless_eq_none.mpr (haccepted.categories tag htag)
  · refine fun row hrow tag _ => fits_singleton.mpr ⟨fun heq => hnew ?_, fun index hindex => ?_⟩
    · have hsame : row.semanticAnalysisUuid = semanticAnalysisUuid P request := (Prod.mk.inj heq).1
      exact hsame ▸ hs.categories row hrow
    · exact absurd hindex List.not_mem_nil

lemma conceptUuid_eq_iff (hP : PlainNames P) {label label' : Text} :
    conceptUuid P nfkc label = conceptUuid P nfkc label' ↔
      normalizeLabel P nfkc label = normalizeLabel P nfkc label' := by
  rw [conceptUuid, conceptUuid, (hP.injective _).eq_iff, String.ofList_inj]

/-- The tags are written when their concepts are different. -/
lemma exists_tags_iff (hP : PlainNames P) (hs : Sound P s) (haccepted : AcceptedFacts request.output)
    (hnew : ¬Analysed s (semanticAnalysisUuid P request)) :
    (∃ t, s.messageConceptTags.insertAllUnder tagConstraints (request.output.conceptTags.zipIdx.map
      (conceptTagRow P nfkc (semanticAnalysisUuid P request))) = .ok t) ↔
      (request.output.conceptTags.map fun tag => normalizeLabel P nfkc tag.canonicalLabel).Nodup := by
  rw [exists_insertAllUnder_iff_of_fresh, and_iff_right, List.Nodup, List.pairwise_map]
  · constructor
    · intro h
      refine pairwise_of_zipIdx (q := fun a b => normalizeLabel P nfkc a.canonicalLabel ≠
        normalizeLabel P nfkc b.canonicalLabel) (h.imp fun {p q} hfits heq => ?_)
      exact (fits_singleton.mp hfits).1 (Prod.ext rfl ((conceptUuid_eq_iff hP).mpr heq))
    · intro h
      refine (pairwise_zipIdx h).imp fun {p q} hapart => fits_singleton.mpr ⟨fun heq => ?_, ?_⟩
      · exact hapart.1 ((conceptUuid_eq_iff hP).mp (Prod.mk.inj heq).2)
      · intro index hindex
        obtain rfl := List.mem_singleton.mp hindex
        exact decide_eq_false fun hsame => hapart.2 hsame.2.symm
  · intro p hp
    obtain ⟨hindex, htag⟩ := List.mem_zipIdx' hp
    have hfew := haccepted.few
    obtain ⟨hconfidence, hspan⟩ := haccepted.tags p.1 (htag ▸ List.getElem_mem _)
    exact refuseUnless_eq_none.mpr ⟨by simp only [conceptTagRow]; omega, hconfidence, hspan⟩
  · intro row hrow p _
    have hother : row.semanticAnalysisUuid ≠ semanticAnalysisUuid P request := fun hsame =>
      hnew (hsame ▸ hs.tags row hrow)
    refine fits_singleton.mpr ⟨fun heq => hother (Prod.mk.inj heq).1, fun index hindex => ?_⟩
    obtain rfl := List.mem_singleton.mp hindex
    exact decide_eq_false fun hsame => hother hsame.1.symm

/-- A name of the ledger holds no colon. -/
lemma plain_of_analysed (hP : PlainNames P) (hs : Sound P s) {a : String} (h : Analysed s a) :
    ':' ∉ a.toList := by
  obtain ⟨row, hrow, rfl⟩ := h
  rw [hs.analyses row hrow]
  exact hP.plain _ _

variable (now) in
lemma exists_units (hP : PlainNames P) (hs : Sound P s) (haccepted : AcceptedFacts request.output)
    (hnew : ¬Analysed s (semanticAnalysisUuid P request)) :
    ∃ t, s.messageSemanticUnits.insertAllUnder unitConstraints (request.output.semanticUnits.zipIdx.map
      (unitRow P now (semanticAnalysisUuid P request))) = .ok t := by
  have hplain : ':' ∉ (semanticAnalysisUuid P request).toList := hP.plain _ _
  refine (exists_insertAllUnder_iff_of_fresh ?_).mpr ⟨fun p hp => ?_, ?_⟩
  · intro row hrow p _
    obtain ⟨hthere, hname⟩ := hs.units row hrow
    have hother : row.semanticAnalysisUuid ≠ semanticAnalysisUuid P request := fun hsame =>
      hnew (hsame ▸ hthere)
    refine fits_singleton.mpr ⟨fun heq => ?_, fun index hindex => ?_⟩
    · have htext := hP.injective _ (hname.symm.trans heq)
      exact hother (pair_inj (plain_of_analysed hP hs hthere) hplain htext).1
    · rcases List.mem_cons.mp hindex with rfl | hindex
      · exact decide_eq_false fun hsame => hother hsame.1.symm
      · obtain rfl := List.mem_singleton.mp hindex
        exact decide_eq_false fun hsame => hother hsame.1.symm
  · have hunit : p.1 ∈ request.output.semanticUnits := (List.mem_zipIdx' hp).2 ▸ List.getElem_mem _
    exact refuseUnless_eq_none.mpr (haccepted.unitRanges p.1 hunit)
  · have hids : request.output.semanticUnits.Pairwise fun u v => u.id ≠ v.id :=
      List.pairwise_map.mp haccepted.unitIds
    refine (pairwise_zipIdx hids).imp fun {p q} hapart => fits_singleton.mpr ⟨fun heq => ?_, ?_⟩
    · exact hapart.1 (pair_inj hplain hplain (hP.injective _ heq)).2
    · intro index hindex
      rcases List.mem_cons.mp hindex with rfl | hindex
      · exact decide_eq_false fun hsame => hapart.1 hsame.2.symm
      · obtain rfl := List.mem_singleton.mp hindex
        exact decide_eq_false fun hsame => hapart.2 hsame.2.symm

lemma pairwise_ordinals {α : Type} (xs : List α) : xs.zipIdx.Pairwise fun a b => a.2 ≠ b.2 := by
  have hall : xs.Pairwise fun _ _ => True := List.pairwise_of_forall fun _ _ => trivial
  exact (pairwise_zipIdx hall).imp fun h => h.2

lemma exists_entities (hP : PlainNames P) (hs : Sound P s) (haccepted : AcceptedFacts request.output)
    (hnew : ¬Analysed s (semanticAnalysisUuid P request)) :
    ∃ t, s.messageEntityReferences.insertAllUnder entityConstraints (request.output.entities.zipIdx.map
      (entityReferenceRow P (semanticAnalysisUuid P request))) = .ok t := by
  have hplain : ':' ∉ (semanticAnalysisUuid P request).toList := hP.plain _ _
  refine (exists_insertAllUnder_iff_of_fresh ?_).mpr ⟨fun p hp => ?_, ?_⟩
  · intro row hrow p _
    obtain ⟨hthere, index, hname⟩ := hs.entities row hrow
    refine fits_singleton.mpr ⟨fun heq => hnew ?_, fun index hindex => absurd hindex List.not_mem_nil⟩
    have htext := hP.injective _ (hname.symm.trans heq)
    exact (ordinal_inj (plain_of_analysed hP hs hthere) hplain htext).1 ▸ hthere
  · have hentity : p.1 ∈ request.output.entities := (List.mem_zipIdx' hp).2 ▸ List.getElem_mem _
    exact refuseUnless_eq_none.mpr (haccepted.entities p.1 hentity)
  · refine (pairwise_ordinals _).imp fun {p q} hapart => fits_singleton.mpr
      ⟨fun heq => hapart ?_, fun index hindex => absurd hindex List.not_mem_nil⟩
    exact (ordinal_inj hplain hplain (hP.injective _ heq)).2

/-- The process references are written when their stages have a column. -/
lemma exists_processes_iff (hP : PlainNames P) (hs : Sound P s)
    (haccepted : AcceptedFacts request.output)
    (hnew : ¬Analysed s (semanticAnalysisUuid P request)) :
    (∃ t, s.messageProcessReferences.insertAllUnder processConstraints
      (request.output.processReferences.zipIdx.map
        (processReferenceRow P (semanticAnalysisUuid P request))) = .ok t) ↔
      ∀ process ∈ request.output.processReferences, ∀ ordinal ∈ process.stageOrdinal,
        ordinal < 2 ^ 63 := by
  have hplain : ':' ∉ (semanticAnalysisUuid P request).toList := hP.plain _ _
  rw [exists_insertAllUnder_iff_of_fresh, and_iff_left]
  · have hrefused : ∀ p ∈ request.output.processReferences.zipIdx,
        (processConstraints.refused (processReferenceRow P (semanticAnalysisUuid P request) p) = none ↔
          ∀ ordinal ∈ p.1.stageOrdinal, ordinal < 2 ^ 63) := by
      intro p hp
      have hprocess : p.1 ∈ request.output.processReferences :=
        (List.mem_zipIdx' hp).2 ▸ List.getElem_mem _
      have hconfidence :
          refuseUnless .messageProcessReferences (inUnitInterval p.1.confidence) = none :=
        refuseUnless_eq_none.mpr (haccepted.processes p.1 hprocess)
      simp only [processConstraints, processReferenceRow, hconfidence]
      split_ifs with hlarge
      · refine iff_of_false (by simp) fun h => ?_
        obtain ⟨ordinal, hordinal, hle⟩ := hlarge
        exact absurd (h ordinal hordinal) (not_lt.mpr hle)
      · exact iff_of_true rfl fun ordinal hordinal => not_le.mp fun hle =>
          hlarge ⟨ordinal, hordinal, hle⟩
    rw [forall₂_congr hrefused]
    refine ⟨fun h => forall_of_zipIdx h, fun h p hp => h p.1 ?_⟩
    exact (List.mem_zipIdx' hp).2 ▸ List.getElem_mem _
  · refine (pairwise_ordinals _).imp fun {p q} hapart => fits_singleton.mpr
      ⟨fun heq => hapart ?_, fun index hindex => absurd hindex List.not_mem_nil⟩
    exact (ordinal_inj hplain hplain (hP.injective _ heq)).2
  · intro row hrow p _
    obtain ⟨hthere, index, hname⟩ := hs.processes row hrow
    refine fits_singleton.mpr ⟨fun heq => hnew ?_, fun index hindex => absurd hindex List.not_mem_nil⟩
    have htext := hP.injective _ (hname.symm.trans heq)
    exact (ordinal_inj (plain_of_analysed hP hs hthere) hplain htext).1 ▸ hthere

variable (now) in
lemma exists_outcomes (hP : PlainNames P) (hs : Sound P s)
    (hnew : ¬Analysed s (semanticAnalysisUuid P request)) :
    ∃ t, s.semanticJobOutcomes.insertUnder outcomeConstraints (jobOutcomeRow P now request) =
      .ok t := by
  refine ⟨_, Table.insertUnder_eq_ok.mpr ⟨rfl, fun row hrow => ⟨fun heq => hnew ?_, ?_⟩, rfl⟩⟩
  · obtain ⟨hthere, hname⟩ := hs.outcomes row hrow
    have htext := congrArg String.toList (hP.injective _ (hname.symm.trans heq))
    simp only [String.toList_append, List.append_cancel_left_eq] at htext
    have hsame : row.semanticAnalysisUuid = semanticAnalysisUuid P request :=
      String.toList_inj.mp htext
    exact hsame ▸ hthere
  · exact fun index hindex => absurd hindex List.not_mem_nil

variable (now) in
/-- An accepted analysis that is not there can be written when it is storable. -/
lemma exists_written_iff (hP : PlainNames P) (hs : Sound P s)
    (haccepted : AcceptedFacts request.output)
    (hnew : ¬Analysed s (semanticAnalysisUuid P request)) :
    (∃ s', Written P nfkc now request s s') ↔ Storable P nfkc request.output := by
  constructor
  · rintro ⟨s', h⟩
    exact
      { categories := (exists_categories_iff hs haccepted hnew).mp ⟨_, h.categories⟩
        concepts := (exists_tags_iff hP hs haccepted hnew).mp ⟨_, h.tags⟩
        stages := (exists_processes_iff hP hs haccepted hnew).mp ⟨_, h.processes⟩ }
  · intro h
    obtain ⟨analyses, hanalyses⟩ := exists_analyses now hs hnew haccepted.importance
    obtain ⟨categories, hcategories⟩ := (exists_categories_iff hs haccepted hnew).mpr h.categories
    obtain ⟨concepts, hconcepts, -⟩ :=
      exists_concepts nfkc now request.output.conceptTags.zipIdx hs.concepts
    obtain ⟨aliases, haliases⟩ := @Table.exists_insertAllOrKeep _ _ _ _ _ s.conceptAliases
      aliasConstraints (request.output.conceptTags.zipIdx.flatMap fun p => aliasRows P nfkc p.1)
      (fun _ _ => rfl) rfl
    obtain ⟨tags, htags⟩ := (exists_tags_iff hP hs haccepted hnew).mpr h.concepts
    obtain ⟨units, hunits⟩ := exists_units now hP hs haccepted hnew
    obtain ⟨entities, hentities⟩ := exists_entities hP hs haccepted hnew
    obtain ⟨processes, hprocesses⟩ := (exists_processes_iff hP hs haccepted hnew).mpr h.stages
    obtain ⟨outcomes, houtcomes⟩ := exists_outcomes now hP hs hnew
    exact ⟨⟨⟨concepts, aliases, tags⟩, analyses, categories, units, entities, processes, outcomes⟩,
      hanalyses, hcategories, hconcepts, haliases, htags, hunits, hentities, hprocesses, houtcomes⟩

/-! ### Stored once -/

/-- A call for the same message, run, contract and text. -/
structure SameText (request again : SemanticsRequest) : Prop where
  messageUuid : again.messageUuid = request.messageUuid
  processingRunUuid : again.processingRunUuid = request.processingRunUuid
  contractHash : again.contractHash = request.contractHash
  rawText : again.input.currentRawText = request.input.currentRawText

variable (P nfkc) in
/-- The analysis is stored, and another call for the same text changes nothing and has the same
name. -/
def Stores (now : String) (s : SemanticTables) (request : SemanticsRequest) : Prop :=
  ∃ analysisUuid s', persistMessageSemantics P nfkc now s request = .ok (analysisUuid, s') ∧
    ∀ later again, SameText request again →
      persistMessageSemantics P nfkc later s' again = .ok (analysisUuid, s')

variable (P nfkc) in
/-- A call that stores an analysis at a time. -/
def PersistStep (s : SemanticTables) (call : String × SemanticsRequest) (s' : SemanticTables) : Prop :=
  ∃ analysisUuid, persistMessageSemantics P nfkc call.1 s call.2 = .ok (analysisUuid, s')

lemma Sound.persist (hs : Sound P s) {call : String × SemanticsRequest}
    (h : PersistStep P nfkc s call s') : Sound P s' := by
  obtain ⟨analysisUuid, h⟩ := h
  by_cases hthere : Analysed s (semanticAnalysisUuid P call.2)
  · rw [persistMessageSemantics_of_analysed hthere] at h
    obtain rfl := (Prod.mk.inj (Except.ok.inj h)).2
    exact hs
  · exact hs.written ((persistMessageSemantics_eq_ok hthere).mp h).2

/-- The ledger is sound after any calls. -/
lemma sound_of_runs {calls : List (String × SemanticsRequest)}
    (h : Runs (PersistStep P nfkc) noSemantics calls s) : Sound P s :=
  h.invariant (fun hs hstep => hs.persist hstep) sound_noSemantics

lemma SameText.uuid_eq {again : SemanticsRequest} (h : SameText request again) :
    semanticAnalysisUuid P again = semanticAnalysisUuid P request := by
  rw [semanticAnalysisUuid, semanticAnalysisUuid, h.messageUuid, h.processingRunUuid, h.contractHash,
    h.rawText]

/-- Once an analysis is there, another call for its text leaves it alone. -/
lemma persist_again {again : SemanticsRequest} {later : String} (h : SameText request again)
    (hthere : Analysed s (semanticAnalysisUuid P request)) :
    persistMessageSemantics P nfkc later s again = .ok (semanticAnalysisUuid P request, s) := by
  rw [← h.uuid_eq] at hthere ⊢
  exact persistMessageSemantics_of_analysed hthere

/-- After any calls, an accepted analysis is stored, once, exactly when it is there or meets what the
constraints ask beyond the validators. -/
theorem stores_iff {calls : List (String × SemanticsRequest)} {report : ValidationReport}
    (hP : PlainNames P) (hs : Runs (PersistStep P nfkc) noSemantics calls s)
    (h : validateMessageAnalysis P request.input request.output = .ok report) :
    Stores P nfkc now s request ↔
      Analysed s (semanticAnalysisUuid P request) ∨ Storable P nfkc request.output := by
  have hsound := sound_of_runs hs
  by_cases hthere : Analysed s (semanticAnalysisUuid P request)
  · refine iff_of_true ⟨_, s, persistMessageSemantics_of_analysed hthere, ?_⟩ (.inl hthere)
    exact fun later again hsame => persist_again hsame hthere
  · rw [or_iff_right hthere, ← exists_written_iff now hP hsound (accepted_facts h) hthere]
    constructor
    · rintro ⟨analysisUuid, s', hstored, -⟩
      exact ⟨s', ((persistMessageSemantics_eq_ok hthere).mp hstored).2⟩
    · rintro ⟨s', hwritten⟩
      have hrow : Analysed s' (semanticAnalysisUuid P request) :=
        ⟨analysisRow P now request, Table.rows_insertUnder hwritten.analyses ▸
          List.mem_append_right _ (List.mem_singleton_self _), rfl⟩
      exact ⟨_, s', (persistMessageSemantics_eq_ok hthere).mpr ⟨rfl, hwritten⟩,
        fun later again hsame => persist_again hsame hrow⟩

/-! ### Two tags of one name -/

/-- A character of a name without colons. -/
def escapeColon (c : Char) : Text :=
  if c = ':' then ['%', 'c'] else if c = '%' then ['%', 'p'] else [c]

/-- A platform whose names hold all that went in, and no colon. -/
def plainPlatform : Platform :=
  { latinPlatform with uuid5 := fun _ name => String.ofList (name.toList.flatMap escapeColon) }

lemma escapeColon_append_inj {c d : Char} {x y : Text}
    (h : escapeColon c ++ x = escapeColon d ++ y) : c = d ∧ x = y := by
  have hone : ∀ {c : Char}, c ≠ ':' → c ≠ '%' → escapeColon c = [c] := fun hc hp => by
    rw [escapeColon, if_neg hc, if_neg hp]
  by_cases hc : c = ':'
  · by_cases hd : d = ':'
    · exact ⟨hc.trans hd.symm, List.append_cancel_left (hd ▸ hc ▸ h)⟩
    · by_cases hd' : d = '%'
      · rw [hc, hd'] at h
        exact absurd (List.cons.inj (List.cons.inj h).2).1 (by decide)
      · rw [hc, hone hd hd'] at h
        exact absurd (List.cons.inj h).1.symm hd'
  · by_cases hc' : c = '%'
    · by_cases hd : d = ':'
      · rw [hc', hd] at h
        exact absurd (List.cons.inj (List.cons.inj h).2).1 (by decide)
      · by_cases hd' : d = '%'
        · exact ⟨hc'.trans hd'.symm, List.append_cancel_left (hd' ▸ hc' ▸ h)⟩
        · rw [hc', hone hd hd'] at h
          exact absurd (List.cons.inj h).1.symm hd'
    · rw [hone hc hc'] at h
      by_cases hd : d = ':'
      · rw [hd] at h
        exact absurd (List.cons.inj h).1 hc'
      · by_cases hd' : d = '%'
        · rw [hd'] at h
          exact absurd (List.cons.inj h).1 hc'
        · rw [hone hd hd'] at h
          exact List.cons.inj h

lemma escapeColon_ne_nil (c : Char) : escapeColon c ≠ [] := by
  rw [escapeColon]
  split_ifs <;> simp

lemma plainNames_plainPlatform : PlainNames plainPlatform where
  injective := by
    intro space a b h
    have htext : ∀ {x y : Text}, x.flatMap escapeColon = y.flatMap escapeColon → x = y := by
      intro x
      induction x with
      | nil =>
          intro y hxy
          cases y with
          | nil => rfl
          | cons d y =>
              have hnil := (List.append_eq_nil_iff.mp hxy.symm).1
              exact absurd hnil (escapeColon_ne_nil d)
      | cons c x ih =>
          intro y hxy
          cases y with
          | nil => exact absurd (List.append_eq_nil_iff.mp hxy).1 (escapeColon_ne_nil c)
          | cons d y =>
              obtain ⟨rfl, hrest⟩ := escapeColon_append_inj hxy
              rw [ih hrest]
    exact String.toList_inj.mp (htext (String.ofList_inj.mp h))
  plain := by
    intro space name hcolon
    have htext : ':' ∈ name.toList.flatMap escapeColon := by
      simpa only [plainPlatform, String.toList_ofList] using hcolon
    obtain ⟨c, -, hc⟩ := List.mem_flatMap.mp htext
    rw [escapeColon] at hc
    split_ifs at hc with hone htwo
    · exact absurd hc (by decide)
    · exact absurd hc (by decide)
    · exact hone (List.mem_singleton.mp hc).symm

/-- A message about databases. -/
def noteText : Text := "use pg".toList

/-- An answer without units, with concepts. -/
def noteOutput (conceptTags : List MessageConceptTag) : MessageAnalysis where
  status := .abstain
  warnings := []
  conceptTags := conceptTags
  semanticUnits := []
  references := []
  relations := []

/-- What is stored for the message. -/
def noteRequest (conceptTags : List MessageConceptTag) : SemanticsRequest where
  messageUuid := "m1"
  processingRunUuid := "r1"
  promptExecutionUuid := "p1"
  stageExecutionUuid := "e1"
  contractHash := "c1"
  scope :=
    { messageUuid := "m1", rawText := noteText, messageVersionUuid := none, sessionUuid := "s1"
      workspaceUuid := none, projectUuid := none, userUuid := some "u1", actorWorkspaceUuid := none
      role := "user", turnIndex := some 0 }
  input :=
    { currentMessageUuid := "m1"
      currentMessageVersionUuid := none
      currentRawText := noteText
      textEnvelope := (buildEnvelope plainPlatform noteText).asDict
      boundedContextItems := []
      boundary :=
        { userUuid := "u1", sessionUuid := "s1", workspaceUuid := none, projectUuid := none
          effectiveLimit := 2, dependencyExpansion := false } }
  output := noteOutput conceptTags
  outcome := deterministicOutcome basicLatin [] 0

/-- A concept with an alias. -/
def postgresTag : MessageConceptTag where
  canonicalLabel := "Postgres".toList
  aliases := ["pg".toList]

/-- Another concept with the same alias. -/
def pagingTag : MessageConceptTag where
  canonicalLabel := "Paging".toList
  aliases := ["pg".toList]

/-- The first concept in another spelling. -/
def lowerTag : MessageConceptTag where
  canonicalLabel := "postgres".toList

lemma exists_report (conceptTags : List MessageConceptTag)
    (h : (validateMessageAnalysis plainPlatform (noteRequest conceptTags).input
      (noteOutput conceptTags)).toOption.isSome = true) :
    ∃ report, validateMessageAnalysis plainPlatform (noteRequest conceptTags).input
      (noteRequest conceptTags).output = .ok report := by
  obtain ⟨report, hreport⟩ := Option.isSome_iff_exists.mp h
  refine ⟨report, ?_⟩
  cases hv : validateMessageAnalysis plainPlatform (noteRequest conceptTags).input
      (noteOutput conceptTags) with
  | error error => rw [hv] at hreport; cases hreport
  | ok found => rw [hv] at hreport; exact hv.trans (congrArg Except.ok (Option.some.inj hreport))

theorem stores_iff_postgres : ∃ report,
    validateMessageAnalysis plainPlatform (noteRequest [postgresTag, pagingTag]).input
        (noteRequest [postgresTag, pagingTag]).output = .ok report ∧
      (Stores plainPlatform id "t1" noSemantics (noteRequest [postgresTag, pagingTag]) ↔
        Analysed noSemantics
            (semanticAnalysisUuid plainPlatform (noteRequest [postgresTag, pagingTag])) ∨
          Storable plainPlatform id (noteRequest [postgresTag, pagingTag]).output) := by
  obtain ⟨report, h⟩ := exists_report [postgresTag, pagingTag] (by decide +kernel)
  exact ⟨report, h, stores_iff plainNames_plainPlatform .refl h⟩

/-- Two spellings of one label are accepted, and not stored. -/
theorem not_stores_spellings : ¬ ∀ calls s request report,
    Runs (PersistStep plainPlatform id) noSemantics calls s →
      validateMessageAnalysis plainPlatform request.input request.output = .ok report →
        Stores plainPlatform id "t1" s request := by
  intro hall
  obtain ⟨report, h⟩ := exists_report [postgresTag, lowerTag] (by decide +kernel)
  obtain ⟨analysisUuid, s', hstored, -⟩ := hall [] noSemantics _ report .refl h
  have hfails : (persistMessageSemantics plainPlatform id "t1" noSemantics
      (noteRequest [postgresTag, lowerTag])).toOption = none := by decide +kernel
  rw [hstored] at hfails
  cases hfails

end Memorist.MessageSemantics
