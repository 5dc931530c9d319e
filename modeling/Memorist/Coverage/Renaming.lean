import Memorist.Coverage.Run

/-!
Inputs under other names.

* `CoveragePlannerInput.renamed`: an input whose units are renamed and whose references
  and relations come under any name, in any order (`Renaming`);
* `Renaming.resolveTarget_eq`: a renamed referent stands for the renamed unit;
* `Renaming.unitFingerprint_eq`, `Renaming.decideUnit_eq`: a unit keeps its fingerprint and its
  decision.
-/

namespace Memorist

open Correspond (Corresponds)

/-! ### Renaming -/

/-- Rename the unit that a referent names. -/
def renameReferent (σ : String → String) (referentId : String) : String :=
  if startsWith "current_unit:" referentId then
    currentUnit (σ (removePrefix "current_unit:" referentId))
  else referentId

/-- Rename a unit. -/
def SemanticUnit.rename (σ : String → String) (unit : SemanticUnit) : SemanticUnit :=
  { unit with id := σ unit.id }

/-- Rename the units that a reference names, and the reference. -/
def SemanticReference.rename (σ : String → String) (reference : SemanticReference) (id : String) :
    SemanticReference :=
  { reference with
    id := id
    sourceUnitId := σ reference.sourceUnitId
    candidateReferentIds := reference.candidateReferentIds.map (renameReferent σ)
    selectedReferentId := reference.selectedReferentId.map (renameReferent σ) }

/-- Rename the units that a relation names, and the relation. -/
def SemanticRelation.rename (σ : String → String) (relation : SemanticRelation) (id : String) :
    SemanticRelation :=
  { relation with
    id := id
    sourceUnitId := σ relation.sourceUnitId
    targetReferentId := renameReferent σ relation.targetReferentId }

/-- The input with renamed units and the given references and relations. -/
def CoveragePlannerInput.renamed (value : CoveragePlannerInput) (σ : String → String)
    (references : List SemanticReference) (relations : List SemanticRelation) :
    CoveragePlannerInput :=
  { value with
    semanticAnalysis :=
      { value.semanticAnalysis with
        semanticUnits := value.semanticAnalysis.semanticUnits.map (SemanticUnit.rename σ)
        references := references
        relations := relations }
    acceptedUnitIds := value.acceptedUnitIds.map σ }

/-- The names of units that an input mentions. -/
def unitNames (value : CoveragePlannerInput) : Set String :=
  {name | (∃ u ∈ value.semanticAnalysis.semanticUnits, u.id = name) ∨
    (∃ r ∈ value.semanticAnalysis.references,
      r.sourceUnitId = name ∨ r.selectedReferentId = some (currentUnit name)) ∨
    ∃ r ∈ value.semanticAnalysis.relations,
      r.sourceUnitId = name ∨ r.targetReferentId = currentUnit name}

/-- The references and relations of an input under a renaming that keeps the names of units apart
and leaves none empty. -/
structure Renaming (value : CoveragePlannerInput) (σ : String → String)
    (references : List SemanticReference) (relations : List SemanticRelation) : Prop where
  injOn : Set.InjOn σ (unitNames value)
  nonempty : ∀ u ∈ value.semanticAnalysis.semanticUnits, σ u.id ≠ ""
  references : Corresponds (fun r r' => ∃ id, r' = r.rename σ id)
    value.semanticAnalysis.references references
  relations : Corresponds (fun r r' => ∃ id, r' = r.rename σ id)
    value.semanticAnalysis.relations relations

section

variable {σ : String → String}

@[simp] lemma renameReferent_currentUnit (name : String) :
    renameReferent σ (currentUnit name) = currentUnit (σ name) := by
  simp [renameReferent, currentUnit]

lemma renameReferent_of_not_currentUnit {id : String} (h : startsWith "current_unit:" id = false) :
    renameReferent σ id = id := by
  simp [renameReferent, h]

/-- A referent names a unit of the message, or it is no such name. -/
lemma referent_cases (id : String) :
    (∃ name, id = currentUnit name) ∨ startsWith "current_unit:" id = false := by
  cases h : startsWith "current_unit:" id with
  | false => exact .inr rfl
  | true => exact .inl ⟨_, (append_removePrefix h).symm⟩

lemma renameReferent_eq_priorContext {id contextItemId : String} :
    renameReferent σ id = priorContext contextItemId ↔ id = priorContext contextItemId := by
  have hne (name : String) : currentUnit name ≠ priorContext contextItemId := by
    intro h
    have := startsWith_currentUnit_priorContext contextItemId
    rw [← h] at this
    simp [currentUnit] at this
  rcases referent_cases id with ⟨name, rfl⟩ | h
  · rw [renameReferent_currentUnit]
    exact ⟨fun h => absurd h (hne _), fun h => absurd h (hne _)⟩
  · rw [renameReferent_of_not_currentUnit h]

end

/-! ### Referents -/

section

variable {P : Platform} {value : CoveragePlannerInput} {σ : String → String}
  {references : List SemanticReference} {relations : List SemanticRelation}

/-- Rename the unit that a target is. -/
def Target.rename (σ : String → String) : Target → Target
  | .currentUnit unit => .currentUnit (unit.rename σ)
  | t => t

@[simp] lemma Target.fingerprint_rename (t : Target) :
    (t.rename σ).fingerprint P = t.fingerprint P := by
  cases t <;> rfl

lemma unitsById_renamed (h : Renaming value σ references relations) {name : String}
    (hname : name ∈ unitNames value) :
    (unitsById (value.renamed σ references relations).semanticAnalysis).get? (σ name) =
      ((unitsById value.semanticAnalysis).get? name).map (SemanticUnit.rename σ) := by
  rw [unitsById, unitsById, Dict.get?_ofPairs, Dict.get?_ofPairs]
  simp only [CoveragePlannerInput.renamed, List.map_map, ← List.map_reverse]
  rw [← Dict.get?_map σ (SemanticUnit.rename σ), List.map_map]
  · rfl
  · simp only [List.mem_map, List.mem_reverse, forall_exists_index, and_imp]
    rintro _ u hu rfl heq
    exact h.injOn (.inl ⟨u, hu, rfl⟩) hname heq

/-- A renamed referent stands for the renamed unit. -/
theorem Renaming.resolveTarget_eq (h : Renaming value σ references relations)
    (contexts : Dict String BoundedContextItem) (referentId : Option String)
    (hnames : ∀ name, referentId = some (currentUnit name) → name ∈ unitNames value) :
    resolveTarget
        (unitsById (value.renamed σ references relations).semanticAnalysis) contexts
        (referentId.map (renameReferent σ)) =
      (resolveTarget (unitsById value.semanticAnalysis) contexts referentId).rename σ := by
  cases referentId with
  | none => rfl
  | some id =>
      rcases referent_cases id with ⟨name, rfl⟩ | hcurrent
      · rw [Option.map_some, renameReferent_currentUnit, resolveTarget_currentUnit,
          resolveTarget_currentUnit, unitsById_renamed h (hnames name rfl)]
        cases (unitsById value.semanticAnalysis).get? name <;> rfl
      · rw [Option.map_some, renameReferent_of_not_currentUnit hcurrent]
        simp only [resolveTarget, hcurrent, Bool.false_eq_true, if_false]
        split_ifs
        · cases contexts.get? (removePrefix "prior_context:" id) <;> rfl
        · rfl

lemma Renaming.hashedReference_eq (h : Renaming value σ references relations)
    {r : SemanticReference} (hr : r ∈ value.semanticAnalysis.references) (id : String) :
    hashedReference P (value.renamed σ references relations) (r.rename σ id) =
      hashedReference P value r := by
  have htarget := h.resolveTarget_eq (contextsById value.boundedContextItems) r.selectedReferentId
    fun name hname => .inr (.inl ⟨r, hr, .inr hname⟩)
  simp only [hashedReference, referenceMaterial, targetFingerprint]
  rw [show ((r.rename σ id).selectedReferentId) = r.selectedReferentId.map (renameReferent σ)
    from rfl, show (value.renamed σ references relations).boundedContextItems =
      value.boundedContextItems from rfl, htarget, Target.fingerprint_rename]
  rfl

lemma Renaming.hashedRelation_eq (h : Renaming value σ references relations)
    {r : SemanticRelation} (hr : r ∈ value.semanticAnalysis.relations) (id : String) :
    hashedRelation P (value.renamed σ references relations) (r.rename σ id) =
      hashedRelation P value r := by
  have htarget := h.resolveTarget_eq (contextsById value.boundedContextItems)
    (some r.targetReferentId) fun name hname => .inr (.inr ⟨r, hr, .inr (Option.some.inj hname)⟩)
  simp only [hashedRelation, relationMaterial, targetFingerprint]
  rw [show some (r.rename σ id).targetReferentId =
    (some r.targetReferentId).map (renameReferent σ) from rfl,
    show (value.renamed σ references relations).boundedContextItems =
      value.boundedContextItems from rfl, htarget, Target.fingerprint_rename]
  rfl

/-! ### The records of a unit -/

lemma Renaming.unitReferences_corresponds (h : Renaming value σ references relations) {unit : SemanticUnit}
    (hunit : unit ∈ value.semanticAnalysis.semanticUnits) :
    Corresponds (fun r r' => r ∈ unitReferences value unit ∧ ∃ id, r' = r.rename σ id)
      (unitReferences value unit)
      (unitReferences (value.renamed σ references relations) (unit.rename σ)) := by
  refine (h.references.filter ?_).imp_of_mem fun r hr r' h => ⟨hr, h⟩
  rintro r hr _ ⟨id, rfl⟩
  refine decide_eq_decide.mpr ⟨fun heq => congrArg σ heq, fun heq => ?_⟩
  exact h.injOn (.inr (.inl ⟨r, hr, .inl rfl⟩)) (.inl ⟨unit, hunit, rfl⟩) heq

lemma Renaming.unitRelations_corresponds (h : Renaming value σ references relations) {unit : SemanticUnit}
    (hunit : unit ∈ value.semanticAnalysis.semanticUnits) :
    Corresponds (fun r r' => r ∈ unitRelations value unit ∧ ∃ id, r' = r.rename σ id)
      (unitRelations value unit)
      (unitRelations (value.renamed σ references relations) (unit.rename σ)) := by
  refine (h.relations.filter ?_).imp_of_mem fun r hr r' h => ⟨hr, h⟩
  rintro r hr _ ⟨id, rfl⟩
  refine decide_eq_decide.mpr ⟨fun heq => congrArg σ heq, fun heq => ?_⟩
  exact h.injOn (.inr (.inr ⟨r, hr, .inl rfl⟩)) (.inl ⟨unit, hunit, rfl⟩) heq

lemma AcceptsAll.renamed (haccepts : AcceptsAll P value)
    (h : Renaming value σ references relations) :
    AcceptsAll P (value.renamed σ references relations) where
  envelopeHash := haccepts.envelopeHash
  unitIds := by
    simp only [CoveragePlannerInput.renamed, List.map_map, haccepts.unitIds]
    rfl
  referenceIndexes := by
    rw [CoveragePlannerInput.renamed, haccepts.referenceIndexes, h.references.length_eq]
  relationIndexes := by
    rw [CoveragePlannerInput.renamed, haccepts.relationIndexes, h.relations.length_eq]
  nodup := by
    have hmap : ((value.renamed σ references relations).semanticAnalysis.semanticUnits.map
        SemanticUnit.id) = (value.semanticAnalysis.semanticUnits.map SemanticUnit.id).map σ := by
      simp only [CoveragePlannerInput.renamed, List.map_map]
      rfl
    rw [hmap]
    refine haccepts.nodup.map_on fun a ha b hb heq => ?_
    obtain ⟨u, hu, rfl⟩ := List.mem_map.mp ha
    obtain ⟨v, hv, rfl⟩ := List.mem_map.mp hb
    exact h.injOn (.inl ⟨u, hu, rfl⟩) (.inl ⟨v, hv, rfl⟩) heq

/-! ### Fingerprints -/

/-- The texts whose digests order the references and relations of an input. -/
def hashedRecords (P : Platform) (value : CoveragePlannerInput) : Set Text :=
  {text | ∃ material : IJson, material.dump = text ∧
    ((∃ r ∈ value.semanticAnalysis.references, hashedReference P value r = .ok material) ∨
      ∃ r ∈ value.semanticAnalysis.relations, hashedRelation P value r = .ok material)}

/-- Sorting by hash forgets the order, where digests tell the values apart. -/
lemma sortByHash_of_perm {values values' sorted : List IJson}
    (hsha : ∀ a ∈ values, ∀ b ∈ values, P.sha256 a.dump = P.sha256 b.dump → a = b)
    (hperm : values'.Perm values) (h : sortByHash P values = .ok sorted) :
    sortByHash P values' = .ok sorted := by
  obtain ⟨hvalid, rfl⟩ := sortByHash_eq_ok.mp h
  refine sortByHash_eq_ok.mpr ⟨fun v hv => hvalid v (hperm.mem_iff.mp hv), ?_⟩
  refine (KeySort.sortBy_eq_of_perm hperm.symm fun a ha b hb hkey => ?_).symm
  exact hsha a ha b hb (String.toList_inj.mp hkey)

/-- A unit keeps its fingerprint. -/
theorem Renaming.unitFingerprint_eq (h : Renaming value σ references relations)
    (hsha : Set.InjOn P.sha256 (hashedRecords P value)) (haccepts : AcceptsAll P value)
    {unit : SemanticUnit} (hunit : unit ∈ value.semanticAnalysis.semanticUnits)
    {fingerprint : String} (hf : unitFingerprint P value unit = .ok fingerprint) :
    unitFingerprint P (value.renamed σ references relations) (unit.rename σ) =
      .ok fingerprint := by
  obtain ⟨refs, rels, hp⟩ := (unitFingerprint_eq_ok haccepts).mp hf
  obtain ⟨sortedRefs, sortedRels, hsortedRefs, hsortedRels, hhash⟩ := hp.hash
  obtain ⟨refs', hrefs', hpermRefs⟩ := (h.unitReferences_corresponds hunit).results
    (T := fun r material =>
      hashedReference P (value.renamed σ references relations) r = .ok material)
    (fun r r' material hr hm => by
      obtain ⟨hr, id, rfl⟩ := hr
      rwa [h.hashedReference_eq (List.mem_filter.mp hr).1])
    hp.reference_materials
  obtain ⟨rels', hrels', hpermRels⟩ := (h.unitRelations_corresponds hunit).results
    (T := fun r material =>
      hashedRelation P (value.renamed σ references relations) r = .ok material)
    (fun r r' material hr hm => by
      obtain ⟨hr, id, rfl⟩ := hr
      rwa [h.hashedRelation_eq (List.mem_filter.mp hr).1])
    hp.relation_materials
  refine (unitFingerprint_eq_ok (haccepts.renamed h)).mpr
    ⟨refs', rels', hrefs', hrels', sortedRefs, sortedRels, ?_, ?_, hhash⟩
  · refine sortByHash_of_perm (fun a ha b hb heq => ?_) hpermRefs hsortedRefs
    obtain ⟨r, hr, hra⟩ := Checks.exists_of_mem_right hp.reference_materials ha
    obtain ⟨s, hs, hsb⟩ := Checks.exists_of_mem_right hp.reference_materials hb
    have hdump := hsha ⟨a, rfl, .inl ⟨r, (List.mem_filter.mp hr).1, hra⟩⟩
      ⟨b, rfl, .inl ⟨s, (List.mem_filter.mp hs).1, hsb⟩⟩ heq
    exact (referenceMaterial_inj hra hsb (IJson.dump_inj.mp hdump)).1
  · refine sortByHash_of_perm (fun a ha b hb heq => ?_) hpermRels hsortedRels
    obtain ⟨r, hr, hra⟩ := Checks.exists_of_mem_right hp.relation_materials ha
    obtain ⟨s, hs, hsb⟩ := Checks.exists_of_mem_right hp.relation_materials hb
    have hdump := hsha ⟨a, rfl, .inr ⟨r, (List.mem_filter.mp hr).1, hra⟩⟩
      ⟨b, rfl, .inr ⟨s, (List.mem_filter.mp hs).1, hsb⟩⟩ heq
    exact relationMaterial_inj hra hsb (IJson.dump_inj.mp hdump)

/-! ### Decisions -/

lemma contextItem?_renamed (contexts : Dict String BoundedContextItem)
    (referentId : Option String) :
    contextItem? contexts (referentId.map (renameReferent σ)) =
      contextItem? contexts referentId := by
  cases referentId with
  | none => rfl
  | some id =>
      rcases referent_cases id with ⟨name, rfl⟩ | hcurrent
      · simp [contextItem?]
      · rw [Option.map_some, renameReferent_of_not_currentUnit hcurrent]

/-- A referent with a context item is the name of one. -/
lemma exists_priorContext {contexts : Dict String BoundedContextItem} {referentId : Option String}
    {item : BoundedContextItem} (h : contextItem? contexts referentId = some item) :
    ∃ name, referentId = some (priorContext name) := by
  obtain ⟨id, rfl, hid⟩ := Option.bind_eq_some_iff.mp h
  split_ifs at hid with hprior
  exact ⟨_, congrArg some (append_removePrefix hprior).symm⟩

lemma map_renameReferent_eq_priorContext {referentId : Option String} {name : String} :
    referentId.map (renameReferent σ) = some (priorContext name) ↔
      referentId = some (priorContext name) := by
  cases referentId <;> simp [renameReferent_eq_priorContext]

lemma assistantTarget_renamed (contexts : Dict String BoundedContextItem) {unit : SemanticUnit}
    {r : SemanticReference} (hr : r ∈ unitReferences value unit) (id : String) :
    assistantTarget contexts (unit.rename σ) (r.rename σ id) = assistantTarget contexts unit r := by
  have hsource : r.sourceUnitId = unit.id := by simpa using (List.mem_filter.mp hr).2
  have hsource' : (r.rename σ id).sourceUnitId = (unit.rename σ).id := congrArg σ hsource
  rw [assistantTarget, assistantTarget]
  simp only [hsource, hsource', ne_eq, not_true, false_or]
  rw [show (r.rename σ id).selectedReferentId = r.selectedReferentId.map (renameReferent σ)
    from rfl, contextItem?_renamed]
  cases hitem : contextItem? contexts r.selectedReferentId with
  | none => rfl
  | some item =>
      obtain ⟨name, hname⟩ := exists_priorContext hitem
      have hrenamed := (map_renameReferent_eq_priorContext (σ := σ)).mpr hname
      rw [hname] at hrenamed ⊢
      simp only [hrenamed]
      rfl

/-- The targets of a unit among the assistant's items are names of context items. -/
lemma exists_priorContext_of_mem {contexts : Dict String BoundedContextItem} {unit : SemanticUnit}
    {rs : List SemanticReference} {target : String}
    (h : target ∈ assistantTargets contexts unit rs) : ∃ name, target = priorContext name := by
  obtain ⟨r, -, hr⟩ := List.mem_filterMap.mp (List.mem_dedup.mp h)
  rw [assistantTarget] at hr
  split_ifs at hr
  split at hr
  case h_2 => exact absurd hr (by simp)
  case h_1 item hitem =>
    split_ifs at hr
    obtain ⟨name, hname⟩ := exists_priorContext hitem
    exact ⟨name, Option.some.inj (hr.symm.trans hname)⟩

lemma Renaming.assistantReferenceIsNotRatified_eq {U : UnicodeData}
    (h : Renaming value σ references relations) (haccepts : AcceptsAll P value)
    {unit : SemanticUnit} (hunit : unit ∈ value.semanticAnalysis.semanticUnits) :
    assistantReferenceIsNotRatified U (value.renamed σ references relations) (unit.rename σ)
        (unitReferenceIndexes (value.renamed σ references relations) (unit.rename σ))
        (unitRelationIndexes (value.renamed σ references relations) (unit.rename σ)) =
      assistantReferenceIsNotRatified U value unit (unitReferenceIndexes value unit)
        (unitRelationIndexes value unit) := by
  let contexts := contextsById value.boundedContextItems
  have htarget : ∀ r r', (r ∈ unitReferences value unit ∧ ∃ id, r' = r.rename σ id) →
      assistantTarget contexts unit r = assistantTarget contexts (unit.rename σ) r' := by
    rintro r _ ⟨hr, id, rfl⟩
    exact (assistantTarget_renamed contexts hr id).symm
  have htargets : (assistantTargets contexts unit (unitReferences value unit)).Perm
      (assistantTargets contexts (unit.rename σ)
        (unitReferences (value.renamed σ references relations) (unit.rename σ))) :=
    ((h.unitReferences_corresponds hunit).filterMap_perm htarget).dedup
  have hchoice (ids : List String) : (unitReferences value unit).any
      (assistantChoice contexts ids unit) =
        (unitReferences (value.renamed σ references relations) (unit.rename σ)).any
          (assistantChoice contexts ids (unit.rename σ)) := by
    refine (h.unitReferences_corresponds hunit).any_eq fun r r' hr => ?_
    have hlength : r'.candidateReferentIds.length = r.candidateReferentIds.length := by
      obtain ⟨-, id, rfl⟩ := hr
      exact List.length_map _
    rw [assistantChoice, assistantChoice, htarget r r' hr, hlength]
  have hratified : ((unitRelations value unit).any fun relation =>
      decide (relation.sourceUnitId = unit.id ∧ relation.ratifying ∧ relation.targetReferentId ∈
        assistantTargets contexts unit (unitReferences value unit))) =
      ((unitRelations (value.renamed σ references relations) (unit.rename σ)).any fun relation =>
        decide (relation.sourceUnitId = (unit.rename σ).id ∧ relation.ratifying ∧
          relation.targetReferentId ∈ assistantTargets contexts (unit.rename σ)
            (unitReferences (value.renamed σ references relations) (unit.rename σ)))) := by
    refine (h.unitRelations_corresponds hunit).any_eq ?_
    rintro r _ ⟨hr, id, rfl⟩
    have hsource : r.sourceUnitId = unit.id := by simpa using (List.mem_filter.mp hr).2
    rw [decide_eq_decide, ← htargets.mem_iff]
    simp only [SemanticRelation.rename, SemanticRelation.ratifying, SemanticUnit.rename, hsource,
      true_and]
    -- the targets are names of context items, which no renaming touches
    refine and_congr_right fun _ => ⟨fun hmem => ?_, fun hmem => ?_⟩
    · obtain ⟨name, hname⟩ := exists_priorContext_of_mem hmem
      rw [renameReferent_eq_priorContext.mpr hname, ← hname]
      exact hmem
    · obtain ⟨name, hname⟩ := exists_priorContext_of_mem hmem
      rw [hname] at hmem
      rw [renameReferent_eq_priorContext.mp hname]
      exact hmem
  simp only [assistantReferenceIsNotRatified, valuesAt_unitReferenceIndexes haccepts,
    valuesAt_unitRelationIndexes haccepts, valuesAt_unitReferenceIndexes (haccepts.renamed h),
    valuesAt_unitRelationIndexes (haccepts.renamed h)]
  rw [hchoice, htargets.isEmpty_eq, htargets.length_eq, hratified]
  rfl

lemma Renaming.assistantPropositionInjection_eq {U : UnicodeData}
    (h : Renaming value σ references relations) (haccepts : AcceptsAll P value)
    {unit : SemanticUnit} (hunit : unit ∈ value.semanticAnalysis.semanticUnits) :
    assistantPropositionInjection U (value.renamed σ references relations) (unit.rename σ)
        (unitReferenceIndexes (value.renamed σ references relations) (unit.rename σ))
        (unitRelationIndexes (value.renamed σ references relations) (unit.rename σ)) =
      assistantPropositionInjection U value unit (unitReferenceIndexes value unit)
        (unitRelationIndexes value unit) := by
  have hrefs (target : String) : ((unitReferences value unit).any fun reference =>
      reference.sourceUnitId = unit.id ∧ reference.status = .resolved ∧
        reference.selectedReferentId = some (priorContext target)) =
      ((unitReferences (value.renamed σ references relations) (unit.rename σ)).any fun reference =>
        reference.sourceUnitId = (unit.rename σ).id ∧ reference.status = .resolved ∧
          reference.selectedReferentId = some (priorContext target)) := by
    refine (h.unitReferences_corresponds hunit).any_eq ?_
    rintro r _ ⟨hr, id, rfl⟩
    have hsource : r.sourceUnitId = unit.id := by simpa using (List.mem_filter.mp hr).2
    simp only [SemanticReference.rename, SemanticUnit.rename, hsource,
      map_renameReferent_eq_priorContext]
  have hrels (target : String) : ((unitRelations value unit).any fun relation =>
      relation.sourceUnitId = unit.id ∧ relation.ratifying ∧
        relation.targetReferentId = priorContext target) =
      ((unitRelations (value.renamed σ references relations) (unit.rename σ)).any fun relation =>
        relation.sourceUnitId = (unit.rename σ).id ∧ relation.ratifying ∧
          relation.targetReferentId = priorContext target) := by
    refine (h.unitRelations_corresponds hunit).any_eq ?_
    rintro r _ ⟨hr, id, rfl⟩
    have hsource : r.sourceUnitId = unit.id := by simpa using (List.mem_filter.mp hr).2
    simp only [SemanticRelation.rename, SemanticRelation.ratifying, SemanticUnit.rename, hsource,
      renameReferent_eq_priorContext]
  simp only [assistantPropositionInjection, valuesAt_unitReferenceIndexes haccepts,
    valuesAt_unitRelationIndexes haccepts, valuesAt_unitReferenceIndexes (haccepts.renamed h),
    valuesAt_unitRelationIndexes (haccepts.renamed h), ← hrefs, ← hrels]
  rfl

lemma Renaming.unitUnresolved_eq (h : Renaming value σ references relations)
    (haccepts : AcceptsAll P value) {unit : SemanticUnit}
    (hunit : unit ∈ value.semanticAnalysis.semanticUnits) :
    unitUnresolved (value.renamed σ references relations) (unit.rename σ) =
      unitUnresolved value unit := by
  have hrefs {p : SemanticReference → Bool}
      (hp : ∀ (r : SemanticReference) (id : String), p (r.rename σ id) = p r) :
      (unitReferences (value.renamed σ references relations) (unit.rename σ)).any p =
        (unitReferences value unit).any p := by
    refine ((h.unitReferences_corresponds hunit).any_eq ?_).symm
    rintro r _ ⟨-, id, rfl⟩
    exact (hp r id).symm
  simp only [unitUnresolved, dependencyHintWithoutReference,
    valuesAt_unitReferenceIndexes haccepts, valuesAt_unitReferenceIndexes (haccepts.renamed h)]
  rw [hrefs fun _ _ => rfl]
  congr 1
  refine congrArg (List.any _) (funext fun hint => ?_)
  rw [hrefs fun _ _ => rfl]

/-- A unit keeps its decision. -/
theorem Renaming.decideUnit_eq {U : UnicodeData} (h : Renaming value σ references relations)
    (haccepts : AcceptsAll P value) {unit : SemanticUnit}
    (hunit : unit ∈ value.semanticAnalysis.semanticUnits)
    (containing : List PersistedUnitAuthority) :
    decideUnit U (value.renamed σ references relations) (unit.rename σ) containing =
      decideUnit U value unit containing := by
  have hoverridden : authorityOverridden U (value.renamed σ references relations)
      (unit.rename σ) = authorityOverridden U value unit := by
    rw [authorityOverridden, h.assistantReferenceIsNotRatified_eq haccepts hunit,
      h.assistantPropositionInjection_eq haccepts hunit]
    rfl
  have hauthority : unitAuthority U (value.renamed σ references relations) (unit.rename σ)
      containing = unitAuthority U value unit containing := by
    simp only [unitAuthority, hoverridden]
  simp only [decideUnit, hauthority, h.unitUnresolved_eq haccepts hunit]
  rfl

end

end Memorist
