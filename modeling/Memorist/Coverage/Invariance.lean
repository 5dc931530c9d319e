import Memorist.Coverage.Renaming
import Memorist.Coverage.Soundness

/-!
The plan of a renamed input.

* `PlanParts.itemOf`: the item of a unit in its plan;
* `Renaming.planUnit_eq`: a renamed unit is planned as before;
* `plan_renamed`: renaming units, references and relations, and reordering the latter,
  changes no disposition, fingerprint or identity.
-/

namespace Memorist

/-! ### The item of a unit -/

/-- The item of a unit. -/
def CoveragePlan.itemOf (plan : CoveragePlan) (unitId : String) : Option CoverageItem :=
  plan.items.find? fun item => item.semanticUnitId = some unitId

section

variable {P : Platform} {value : CoveragePlannerInput}

lemma semanticUnitId_of_mem_uncovered {index : AuthorityIndex} {units : List SemanticUnit}
    {uncovered : List CoverageItem} (h : uncoveredItems P value units index = .ok uncovered)
    {item : CoverageItem} (hitem : item ∈ uncovered) : item.semanticUnitId = none := by
  obtain ⟨_, -, h⟩ := Checks.exists_of_mem_right (Checks.mapM_eq_ok.mp h) hitem
  exact (coverageItem_eq h).2.1

/-- The units of a plan's items are the units of the answer. -/
lemma unitIds_perm {planned : List (CoverageItem × Option CandidateProposal)}
    {uncovered : List CoverageItem}
    (hunits : List.Forall₂ (fun unit result =>
      planUnit P value (AuthorityIndex.ofAuthorities value.authorities) unit = .ok result)
      value.semanticAnalysis.semanticUnits planned)
    (huncovered : uncoveredItems P value value.semanticAnalysis.semanticUnits
      (AuthorityIndex.ofAuthorities value.authorities) = .ok uncovered) :
    ((KeySort.sortBy itemKey (planned.map Prod.fst ++ uncovered)).filterMap
      CoverageItem.semanticUnitId).Perm
        (value.semanticAnalysis.semanticUnits.map SemanticUnit.id) := by
  have hids : value.semanticAnalysis.semanticUnits.map (some ∘ SemanticUnit.id) =
      planned.map (CoverageItem.semanticUnitId ∘ Prod.fst) := by
    refine Correspond.map_eq_of_forall₂ (hunits.imp fun unit result hresult => ?_)
    obtain ⟨_, hr⟩ := planUnit_eq_ok.mp hresult
    exact (coverageItem_eq hr.item_eq).2.1.symm
  have hplanned : (planned.map Prod.fst).filterMap CoverageItem.semanticUnitId =
      value.semanticAnalysis.semanticUnits.map SemanticUnit.id := by
    have h := congrArg (List.filterMap id) hids
    simpa [List.filterMap_map, Function.comp_def] using h.symm
  have hnone : uncovered.filterMap CoverageItem.semanticUnitId = [] :=
    List.filterMap_eq_nil_iff.mpr fun _ hitem => semanticUnitId_of_mem_uncovered huncovered hitem
  refine ((KeySort.sortBy_perm itemKey _).filterMap _).trans ?_
  rw [List.filterMap_append, hplanned, hnone, List.append_nil]

/-- The item of a unit is the one planned for it. -/
lemma PlanParts.itemOf {plan : CoveragePlan} {proposals : List CandidateProposal}
    {planned : List (CoverageItem × Option CandidateProposal)} {uncovered : List CoverageItem}
    (h : PlanParts P value plan proposals planned uncovered) {item : CoverageItem}
    (hitem : item ∈ plan.items) {unitId : String} (hid : item.semanticUnitId = some unitId) :
    plan.itemOf unitId = some item := by
  have hnodup : (plan.items.filterMap CoverageItem.semanticUnitId).Nodup := by
    rw [h.items_eq]
    exact (unitIds_perm h.units h.uncovered_eq).nodup_iff.mpr h.accepts.nodup
  have hunique : ∀ a ∈ plan.items, a.semanticUnitId = some unitId → a = item := by
    intro a ha haid
    by_contra hne
    have : Std.Symm fun a b : CoverageItem => ∀ x, a.semanticUnitId = some x →
        ∀ y, b.semanticUnitId = some y → x ≠ y :=
      ⟨fun _ _ hab x hx y hy => (hab y hy x hx).symm⟩
    exact (List.pairwise_filterMap.mp hnodup).forall ha hitem hne unitId haid unitId hid rfl
  cases hfind : plan.itemOf unitId with
  | none =>
      exact absurd hid (by simpa using List.find?_eq_none.mp hfind item hitem)
  | some found =>
      rw [hunique found (List.mem_of_find?_eq_some hfind) (by simpa using List.find?_some hfind)]

/-! ### The plan of a renamed input -/

/-- Rename the unit of an item. -/
def CoverageItem.rename (σ : String → String) (item : CoverageItem) : CoverageItem :=
  { item with semanticUnitId := item.semanticUnitId.map σ }

variable {σ : String → String} {references : List SemanticReference}
  {relations : List SemanticRelation}

lemma coverageItem_renamed {semanticUnitId fingerprint : Option String} {span : Span}
    {disposition : CoverageDisposition} {reasonCodes : List String}
    {authority : Option PersistedUnitAuthority} {proposalId : Option String} {item : CoverageItem}
    (h : coverageItem P value semanticUnitId fingerprint span disposition reasonCodes authority
      proposalId = .ok item) :
    coverageItem P (value.renamed σ references relations) (semanticUnitId.map σ) fingerprint span
      disposition reasonCodes authority proposalId = .ok (item.rename σ) := by
  simp only [coverageItem, Checks.bind_eq_ok, Checks.pure_eq_ok] at h ⊢
  obtain ⟨id, hid, _, hnonempty, _, hpositive, rfl⟩ := h
  exact ⟨id, hid, (), hnonempty, (), hpositive, rfl⟩

lemma Renaming.buildProposal_eq (h : Renaming value σ references relations) {unit : SemanticUnit}
    (hunit : unit ∈ value.semanticAnalysis.semanticUnits) {fingerprint : String}
    {reasons : List String} {basis : CandidateBasis} {p : CandidateProposal}
    (hp : buildProposal P value unit fingerprint reasons basis = .ok p) :
    ∃ q, buildProposal P (value.renamed σ references relations) (unit.rename σ) fingerprint reasons
      basis = .ok q ∧ q.proposalId = p.proposalId := by
  simp only [buildProposal, Checks.bind_eq_ok, Checks.pure_eq_ok] at hp ⊢
  obtain ⟨id, hid, _, hvalid, rfl⟩ := hp
  refine ⟨_, ⟨id, hid, (), ?_, rfl⟩, rfl⟩
  simp only [CandidateProposal.modelValidate, Checks.check_bind_eq_ok] at hvalid ⊢
  obtain ⟨hproposal, -, hrest⟩ := hvalid
  refine ⟨hproposal, ?_, hrest⟩
  simpa [nonEmpty, proposalRecord, SemanticUnit.rename] using h.nonempty unit hunit

/-- A renamed unit is planned as before. -/
theorem Renaming.planUnit_eq (h : Renaming value σ references relations)
    (hsha : Set.InjOn P.sha256 (hashedRecords P value)) (haccepts : AcceptsAll P value)
    {unit : SemanticUnit} (hunit : unit ∈ value.semanticAnalysis.semanticUnits)
    {item : CoverageItem} {proposal : Option CandidateProposal}
    (hplan : planUnit P value (AuthorityIndex.ofAuthorities value.authorities) unit =
      .ok (item, proposal)) :
    ∃ proposal', planUnit P (value.renamed σ references relations)
        (AuthorityIndex.ofAuthorities value.authorities) (unit.rename σ) =
        .ok (item.rename σ, proposal') ∧
      proposal'.map CandidateProposal.proposalId = proposal.map CandidateProposal.proposalId := by
  obtain ⟨fingerprint, hr⟩ := planUnit_eq_ok.mp hplan
  have hdecision : decideUnit P.unicode (value.renamed σ references relations) (unit.rename σ)
      (unitContaining (value.renamed σ references relations) (unit.rename σ)) =
        decideUnit P.unicode value unit (unitContaining value unit) :=
    h.decideUnit_eq haccepts hunit (unitContaining value unit)
  have hproposal : ∃ proposal',
      (decideUnit P.unicode value unit (unitContaining value unit)).basis.mapM
        (buildProposal P (value.renamed σ references relations) (unit.rename σ) fingerprint
          (decideUnit P.unicode value unit (unitContaining value unit)).reasons) =
            .ok proposal' ∧
      proposal'.map CandidateProposal.proposalId = proposal.map CandidateProposal.proposalId := by
    have hbuilt := hr.proposal_eq
    cases hbasis : (decideUnit P.unicode value unit (unitContaining value unit)).basis with
    | none =>
        rw [hbasis] at hbuilt
        obtain rfl := Checks.pure_eq_ok.mp hbuilt
        exact ⟨none, rfl, rfl⟩
    | some basis =>
        rw [hbasis] at hbuilt
        simp only [Option.mapM_some, Checks.map_eq_ok] at hbuilt ⊢
        obtain ⟨p, hp, rfl⟩ := hbuilt
        obtain ⟨q, hq, hid⟩ := h.buildProposal_eq hunit hp
        exact ⟨some q, ⟨q, hq, rfl⟩, by simp [hid]⟩
  obtain ⟨proposal', hproposal', hids⟩ := hproposal
  refine ⟨proposal', planUnit_eq_ok.mpr ⟨fingerprint, ?_⟩, hids⟩
  exact
    { fingerprint_eq := h.unitFingerprint_eq hsha haccepts hunit hr.fingerprint_eq
      item_eq := by
        rw [hdecision, hids]
        exact coverageItem_renamed hr.item_eq
      proposal_eq := by
        rw [hdecision]
        exact hproposal' }

lemma uncoveredItems_renamed {index : AuthorityIndex} {uncovered : List CoverageItem}
    (h : uncoveredItems P value value.semanticAnalysis.semanticUnits index = .ok uncovered) :
    uncoveredItems P (value.renamed σ references relations)
      (value.renamed σ references relations).semanticAnalysis.semanticUnits index =
        .ok uncovered := by
  have hgroups : uncoveredGroups P (value.renamed σ references relations)
      (value.renamed σ references relations).semanticAnalysis.semanticUnits index =
        uncoveredGroups P value value.semanticAnalysis.semanticUnits index := by
    simp only [uncoveredGroups, CoveragePlannerInput.renamed, List.map_map]
    rfl
  rw [uncoveredItems, hgroups]
  exact h

/-- A complete plan stays complete under other names. -/
lemma CompletePlan.renamed {items items' : List CoverageItem} {proposalIds : List String}
    (h : CompletePlan value items proposalIds) (hperm : items'.Perm (items.map (CoverageItem.rename σ)))
    (hunits : (items'.filterMap CoverageItem.semanticUnitId).Nodup) :
    CompletePlan (value.renamed σ references relations) items' proposalIds where
  count := by
    have hids : (items.map (CoverageItem.rename σ)).filterMap CoverageItem.semanticUnitId =
        (items.filterMap CoverageItem.semanticUnitId).map σ := by
      rw [List.filterMap_map, List.map_filterMap]
      rfl
    rw [(hperm.filterMap _).length_eq, hids, List.length_map, h.count]
    exact (List.length_map _).symm
  unitIds := hunits
  itemIds := by
    rw [(hperm.map _).nodup_iff, List.map_map]
    exact h.itemIds
  proposed item hitem hd := by
    obtain ⟨source, hsource, rfl⟩ := List.mem_map.mp (hperm.mem_iff.mp hitem)
    exact h.proposed source hsource hd
  durable id hid := by
    obtain ⟨item, hitem, hd⟩ := h.durable id hid
    exact ⟨item.rename σ, hperm.mem_iff.mpr (List.mem_map_of_mem hitem), hd⟩
  named item hitem hsome := by
    obtain ⟨source, hsource, rfl⟩ := List.mem_map.mp (hperm.mem_iff.mp hitem)
    exact h.named source hsource hsome

/-- Other names for units, references and relations, and another order of the latter, leave every
unit its item and its fingerprint, where digests tell the hashed records apart. -/
theorem plan_renamed (hsha : Set.InjOn P.sha256 (hashedRecords P value))
    (h : Renaming value σ references relations) {plan : CoveragePlan}
    {proposals : List CandidateProposal}
    (hplan : planCandidateCoverage P value = .ok (plan, proposals)) :
    ∃ plan' proposals', planCandidateCoverage P (value.renamed σ references relations) =
        .ok (plan', proposals') ∧
      ∀ unit ∈ value.semanticAnalysis.semanticUnits, ∃ item fingerprint,
        plan.itemOf unit.id = some item ∧ plan'.itemOf (σ unit.id) = some (item.rename σ) ∧
        unitFingerprint P value unit = .ok fingerprint ∧
        unitFingerprint P (value.renamed σ references relations) (unit.rename σ) =
          .ok fingerprint := by
  obtain ⟨planned, uncovered, hparts⟩ := planCandidateCoverage_eq_ok.mp hplan
  have haccepts := hparts.accepts
  obtain ⟨planned', hunits', hplanned'⟩ := Correspond.exists_third
    (S := fun unit result => planUnit P (value.renamed σ references relations)
      (AuthorityIndex.ofAuthorities value.authorities) (unit.rename σ) = .ok result)
    (T := fun result result' => result'.1 = result.1.rename σ ∧
      result'.2.map CandidateProposal.proposalId = result.2.map CandidateProposal.proposalId)
    hparts.units fun unit hunit result hresult => by
      obtain ⟨proposal', hproposal', hids⟩ := h.planUnit_eq hsha haccepts hunit hresult
      exact ⟨_, hproposal', rfl, hids⟩
  have hunits'' : List.Forall₂ (fun unit result =>
      planUnit P (value.renamed σ references relations)
        (AuthorityIndex.ofAuthorities value.authorities) unit = .ok result)
      (value.semanticAnalysis.semanticUnits.map (SemanticUnit.rename σ)) planned' :=
    List.forall₂_map_left_iff.mpr hunits'
  have huncovered := @uncoveredItems_renamed P value σ references relations _ _ hparts.uncovered_eq
  let items' := KeySort.sortBy itemKey (planned'.map Prod.fst ++ uncovered)
  have hperm : items'.Perm (plan.items.map (CoverageItem.rename σ)) := by
    have hfst : planned'.map Prod.fst = (planned.map Prod.fst).map (CoverageItem.rename σ) := by
      rw [List.map_map]
      exact (Correspond.map_eq_of_forall₂ (hplanned'.imp fun _ _ h => h.1.symm)).symm
    have hrest : uncovered.map (CoverageItem.rename σ) = uncovered := by
      refine (List.map_congr_left fun item hitem => ?_).trans (List.map_id _)
      have hnone := semanticUnitId_of_mem_uncovered hparts.uncovered_eq hitem
      rw [CoverageItem.rename, hnone, Option.map_none, ← hnone]
      rfl
    have happend : planned'.map Prod.fst ++ uncovered =
        (planned.map Prod.fst ++ uncovered).map (CoverageItem.rename σ) := by
      rw [List.map_append, hfst, hrest]
    rw [hparts.items_eq]
    refine (KeySort.sortBy_perm itemKey _).trans ?_
    rw [happend]
    exact ((KeySort.sortBy_perm itemKey _).map _).symm
  have hids : (planned'.filterMap Prod.snd).map CandidateProposal.proposalId =
      proposals.map CandidateProposal.proposalId := by
    have hmap := Correspond.map_eq_of_forall₂ (hplanned'.imp fun _ _ h => h.2.symm)
    have h := congrArg (List.filterMap id) hmap
    rw [hparts.proposals_eq, List.map_filterMap, List.map_filterMap]
    simpa [List.filterMap_map, Function.comp_def] using h.symm
  have hcomplete : CompletePlan (value.renamed σ references relations) items'
      ((planned'.filterMap Prod.snd).map CandidateProposal.proposalId) := by
    rw [hids]
    exact (assertComplete_eq_ok.mp hparts.complete).renamed hperm
      ((unitIds_perm hunits'' huncovered).nodup_iff.mpr (haccepts.renamed h).nodup)
  have hvalid : ValidValue P.unicode none
      (planMaterial P (value.renamed σ references relations) items') := by
    have hitems := validValue_planMaterial.mp (canonicalHashIjson_eq_ok.mp hparts.hash_eq).1
    refine validValue_planMaterial.mpr fun item hitem => ?_
    obtain ⟨source, hsource, rfl⟩ := List.mem_map.mp (hperm.mem_iff.mp hitem)
    have hsource := CoverageItem.validValue_json.mp (hitems source hsource)
    exact CoverageItem.validValue_json.mpr hsource
  have hparts' : PlanParts P (value.renamed σ references relations)
      (planRecord P (value.renamed σ references relations) items'
        (P.sha256 (planMaterial P (value.renamed σ references relations) items').dump))
      (planned'.filterMap Prod.snd) planned' uncovered :=
    { accepts := haccepts.renamed h
      units := hunits''
      proposals_eq := rfl
      uncovered_eq := huncovered
      items_eq := rfl
      complete := assertComplete_eq_ok.mpr hcomplete
      hash_eq := canonicalHashIjson_eq_ok.mpr ⟨hvalid, rfl⟩
      record_eq := rfl }
  refine ⟨_, _, planCandidateCoverage_eq_ok.mpr ⟨planned', uncovered, hparts'⟩, ?_⟩
  intro unit hunit
  obtain ⟨⟨item, proposal⟩, hresult, hplanUnit⟩ := Checks.exists_of_mem_left hparts.units hunit
  obtain ⟨fingerprint, hr⟩ := planUnit_eq_ok.mp hplanUnit
  have hid := (coverageItem_eq hr.item_eq).2.1
  have hitem : item ∈ plan.items := by
    rw [hparts.items_eq, KeySort.mem_sortBy, List.mem_append]
    exact .inl (List.mem_map_of_mem hresult)
  refine ⟨item, fingerprint, hparts.itemOf hitem hid, ?_, hr.fingerprint_eq,
    h.unitFingerprint_eq hsha haccepts hunit hr.fingerprint_eq⟩
  refine hparts'.itemOf (hperm.mem_iff.mpr (List.mem_map_of_mem hitem)) ?_
  rw [CoverageItem.rename, hid]
  rfl

/-- Records whose digests differ are told apart. -/
lemma injOn_hashedRecords
    (h : ((value.semanticAnalysis.references.map (hashedReference P value) ++
      value.semanticAnalysis.relations.map (hashedRelation P value)).map fun material =>
        material.toOption.map fun j => P.sha256 j.dump).Nodup) :
    Set.InjOn P.sha256 (hashedRecords P value) := by
  have hmem {material : IJson}
      (hm : (∃ r ∈ value.semanticAnalysis.references, hashedReference P value r = .ok material) ∨
        ∃ r ∈ value.semanticAnalysis.relations, hashedRelation P value r = .ok material) :
      .ok material ∈ value.semanticAnalysis.references.map (hashedReference P value) ++
        value.semanticAnalysis.relations.map (hashedRelation P value) :=
    List.mem_append.mpr (hm.imp List.mem_map.mpr List.mem_map.mpr)
  rintro _ ⟨a, rfl, ha⟩ _ ⟨b, rfl, hb⟩ heq
  have hab := List.inj_on_of_nodup_map h (hmem ha) (hmem hb) (congrArg some heq)
  rw [Except.ok.inj hab]

end

/-! ### A renamed answer -/

/-- Another name for a unit. -/
def unitName (name : String) : String := "unit-" ++ name

lemma unitName_injective : Function.Injective unitName := by
  intro a b h
  have htext : ("unit-" ++ a).toList = ("unit-" ++ b).toList := congrArg String.toList h
  simpa [← String.toList_inj] using htext

lemma tabs_renaming : Renaming tabsInput unitName
    (tabsAnalysis.references.map fun r => r.rename unitName "reference")
    (tabsAnalysis.relations.map fun r => r.rename unitName "relation") where
  injOn := unitName_injective.injOn
  nonempty := by simp [unitName]
  references := ⟨_, .cons ⟨_, rfl⟩ .nil, .refl _⟩
  relations := ⟨_, .cons ⟨_, rfl⟩ .nil, .refl _⟩

theorem plan_renamed_tabs : ∃ plan proposals plan' proposals',
    planCandidateCoverage latinPlatform tabsInput = .ok (plan, proposals) ∧
    planCandidateCoverage latinPlatform (tabsInput.renamed unitName
      (tabsAnalysis.references.map fun r => r.rename unitName "reference")
      (tabsAnalysis.relations.map fun r => r.rename unitName "relation")) =
        .ok (plan', proposals') ∧
    ∃ item, plan.itemOf "u1" = some item ∧ plan'.itemOf "unit-u1" = some (item.rename unitName) := by
  have hsha : Set.InjOn latinPlatform.sha256 (hashedRecords latinPlatform tabsInput) :=
    injOn_hashedRecords (by decide +kernel)
  obtain ⟨plan, proposals, hplan, -⟩ := tabs_planned
  obtain ⟨plan', proposals', hplan', hunits⟩ := plan_renamed hsha tabs_renaming hplan
  obtain ⟨item, fingerprint, hitem, hitem', -⟩ := hunits _ List.mem_cons_self
  exact ⟨plan, proposals, plan', proposals', hplan, hplan', item, hitem, hitem'⟩

end Memorist
