import Memorist.Coverage.Planner
import Memorist.Library.Correspond

/-!
What a returned plan consists of.

* `PlanParts`: the pieces of a plan, unit by unit (`planCandidateCoverage_eq_ok`);
* `unitReferences`, `unitRelations`: the accepted records of a unit are those that come
  from it (`valuesAt_unitReferenceIndexes`);
* `unitFingerprint_eq_ok`: what the fingerprint of a unit is the hash of;
* `decideUnit_basis`: exactly when a unit has a proposal;
* `assertComplete_eq_ok`, `validValue_planMaterial`, `exists_proposalIdentity`,
  `exists_coverageItem`: when a plan can be put together;
* `CoveragePlannerInput.BoundTo`: an input for the message that the model was shown.
-/

namespace Memorist

section

variable {P : Platform} {value : CoveragePlannerInput}

/-! ### The pieces of a plan -/

/-- What an input whose records are all accepted satisfies. -/
structure AcceptsAll (P : Platform) (value : CoveragePlannerInput) : Prop where
  envelopeHash : value.textEnvelope.rawTextHash = P.sha256 value.currentRawText
  unitIds : value.acceptedUnitIds = value.semanticAnalysis.semanticUnits.map SemanticUnit.id
  referenceIndexes :
    value.acceptedReferenceIndexes = List.range value.semanticAnalysis.references.length
  relationIndexes :
    value.acceptedRelationIndexes = List.range value.semanticAnalysis.relations.length
  nodup : (value.semanticAnalysis.semanticUnits.map SemanticUnit.id).Nodup

lemma filter_acceptedUnitIds
    (h : value.acceptedUnitIds = value.semanticAnalysis.semanticUnits.map SemanticUnit.id) :
    (value.semanticAnalysis.semanticUnits.filter fun u => u.id ∈ value.acceptedUnitIds) =
      value.semanticAnalysis.semanticUnits := by
  refine List.filter_eq_self.mpr fun u hu => ?_
  rw [decide_eq_true_eq, h]
  exact List.mem_map_of_mem hu

lemma checkAccepted_eq_ok : checkAccepted P value = .ok () ↔ AcceptsAll P value := by
  simp only [checkAccepted, Checks.bind_eq_ok, Checks.require_eq_ok]
  constructor
  · rintro ⟨_, hhash, _, hunits, _, href, _, hrel, hlen⟩
    refine ⟨hhash, hunits, href, hrel, ?_⟩
    rw [filter_acceptedUnitIds hunits, ← List.length_map SemanticUnit.id, ← hunits] at hlen
    have hself := (List.dedup_sublist value.acceptedUnitIds).eq_of_length hlen.symm
    rw [← hunits]
    exact List.dedup_eq_self.mp hself
  · rintro ⟨hhash, hunits, href, hrel, hnodup⟩
    refine ⟨(), hhash, (), hunits, (), href, (), hrel, ?_⟩
    rw [filter_acceptedUnitIds hunits, ← List.length_map SemanticUnit.id, hunits,
      List.dedup_eq_self.mpr hnodup]

/-- The pieces a plan is made of: the results of its units, and the items of uncovered text. -/
structure PlanParts (P : Platform) (value : CoveragePlannerInput) (plan : CoveragePlan)
    (proposals : List CandidateProposal)
    (planned : List (CoverageItem × Option CandidateProposal)) (uncovered : List CoverageItem) :
    Prop where
  accepts : AcceptsAll P value
  units : List.Forall₂
    (fun unit result =>
      planUnit P value (AuthorityIndex.ofAuthorities value.authorities) unit = .ok result)
    value.semanticAnalysis.semanticUnits planned
  proposals_eq : proposals = planned.filterMap Prod.snd
  uncovered_eq : uncoveredItems P value value.semanticAnalysis.semanticUnits
    (AuthorityIndex.ofAuthorities value.authorities) = .ok uncovered
  items_eq : plan.items = KeySort.sortBy itemKey (planned.map Prod.fst ++ uncovered)
  complete : assertComplete value plan.items proposals = .ok ()
  hash_eq : canonicalHashIjson P (planMaterial P value plan.items) = .ok plan.coverageHash
  record_eq : plan = planRecord P value plan.items plan.coverageHash

/-- A plan is returned exactly when it can be put together. -/
theorem planCandidateCoverage_eq_ok {plan : CoveragePlan} {proposals : List CandidateProposal} :
    planCandidateCoverage P value = .ok (plan, proposals) ↔
      ∃ planned uncovered, PlanParts P value plan proposals planned uncovered := by
  simp only [planCandidateCoverage, Checks.bind_eq_ok, Checks.pure_eq_ok, Checks.mapM_eq_ok,
    Prod.mk.injEq]
  constructor
  · rintro ⟨_, haccept, planned, hplanned, uncovered, huncovered, _, hcomplete, hash, hhash, rfl,
      rfl⟩
    have hall := checkAccepted_eq_ok.mp haccept
    rw [filter_acceptedUnitIds hall.unitIds] at hplanned huncovered
    exact ⟨planned, uncovered, hall, hplanned, rfl, huncovered, rfl, hcomplete, hhash, rfl⟩
  · rintro ⟨planned, uncovered, h⟩
    refine ⟨(), checkAccepted_eq_ok.mpr h.accepts, planned, ?_, uncovered, ?_, (), ?_,
      plan.coverageHash, ?_, ?_, h.proposals_eq.symm⟩
    · rw [filter_acceptedUnitIds h.accepts.unitIds]
      exact h.units
    · rw [filter_acceptedUnitIds h.accepts.unitIds]
      exact h.uncovered_eq
    · rw [← h.items_eq, ← h.proposals_eq]
      exact h.complete
    · rw [← h.items_eq]
      exact h.hash_eq
    · rw [← h.items_eq]
      exact h.record_eq.symm

/-! ### The records of a unit -/

/-- The references of a unit. -/
def unitReferences (value : CoveragePlannerInput) (unit : SemanticUnit) : List SemanticReference :=
  value.semanticAnalysis.references.filter fun r => r.sourceUnitId = unit.id

/-- The relations of a unit. -/
def unitRelations (value : CoveragePlannerInput) (unit : SemanticUnit) : List SemanticRelation :=
  value.semanticAnalysis.relations.filter fun r => r.sourceUnitId = unit.id

lemma filterMap_range_getElem? {α : Type} (values : List α) :
    (List.range values.length).filterMap (fun i => values[i]?) = values := by
  induction values with
  | nil => rfl
  | cons v values ih =>
      rw [List.length_cons, List.range_succ_eq_map, List.filterMap_cons_some List.getElem?_cons_zero,
        List.filterMap_map]
      simpa [Function.comp_def] using ih

/-- Looking the positions of a source up gives the records of that source. -/
lemma valuesAt_indexesBySource {α : Type} (source : α → String) (values : List α) (id : String) :
    valuesAt values (((indexesBySource source values (List.range values.length)).get? id).getD [])
      = values.filter fun v => source v = id := by
  rw [indexesBySource, Dict.get?_groupBy, valuesAt]
  conv_rhs => rw [← filterMap_range_getElem? values]
  rw [List.filter_filterMap, List.filterMap_filter]
  refine List.filterMap_congr fun i hi => ?_
  have hlt : i < values.length := List.mem_range.mp hi
  simp [List.getElem?_eq_getElem hlt, Option.filter]

lemma valuesAt_unitReferenceIndexes (h : AcceptsAll P value) (unit : SemanticUnit) :
    valuesAt value.semanticAnalysis.references (unitReferenceIndexes value unit) =
      unitReferences value unit := by
  rw [unitReferenceIndexes, h.referenceIndexes, valuesAt_indexesBySource]
  rfl

lemma valuesAt_unitRelationIndexes (h : AcceptsAll P value) (unit : SemanticUnit) :
    valuesAt value.semanticAnalysis.relations (unitRelationIndexes value unit) =
      unitRelations value unit := by
  rw [unitRelationIndexes, h.relationIndexes, valuesAt_indexesBySource]
  rfl

/-! ### Fingerprints -/

/-- Sorting by hash sorts valid values by the digests of their texts. -/
lemma sortByHash_eq_ok {values sorted : List IJson} :
    sortByHash P values = .ok sorted ↔ (∀ v ∈ values, ValidValue P.unicode none v) ∧
      KeySort.sortBy (fun v => (P.sha256 v.dump).toList) values = sorted := by
  have hkeyed {keyed : List (String × IJson)} :
      (values.mapM fun value => do
        let hash ← canonicalHashIjson P value
        pure (hash, value)) = .ok keyed ↔
      (∀ v ∈ values, ValidValue P.unicode none v) ∧
        (values.map fun v => (P.sha256 v.dump, v)) = keyed := by
    simp only [Checks.mapM_eq_ok, Checks.bind_eq_ok, Checks.pure_eq_ok, canonicalHashIjson_eq_ok]
    constructor
    · intro h
      refine ⟨fun v hv => ?_, ?_⟩
      · obtain ⟨_, -, _, ⟨hvalid, -⟩, -⟩ := Checks.exists_of_mem_left h hv
        exact hvalid
      · rw [← List.map_id keyed]
        refine Correspond.map_eq_of_forall₂ (h.imp fun v pair h => ?_)
        obtain ⟨_, ⟨-, rfl⟩, rfl⟩ := h
        rfl
    · rintro ⟨hvalid, rfl⟩
      exact List.forall₂_map_right_iff.mpr (List.forall₂_same.mpr fun v hv =>
        ⟨_, ⟨hvalid v hv, rfl⟩, rfl⟩)
  have hmap : (KeySort.sortBy (fun v : IJson => (P.sha256 v.dump).toList) values).map
      (fun v => (P.sha256 v.dump, v)) =
        KeySort.sortBy (fun p => p.1.toList) (values.map fun v => (P.sha256 v.dump, v)) :=
    KeySort.map_sortBy fun _ _ => rfl
  have hsort : (KeySort.sortBy (fun p => p.1.toList)
      (values.map fun v => (P.sha256 v.dump, v))).map Prod.snd =
        KeySort.sortBy (fun v => (P.sha256 v.dump).toList) values := by
    rw [← hmap, List.map_map]
    exact List.map_id _
  simp only [sortByHash, Checks.bind_eq_ok, Checks.pure_eq_ok, hkeyed]
  constructor
  · rintro ⟨_, ⟨hvalid, rfl⟩, rfl⟩
    exact ⟨hvalid, hsort.symm⟩
  · rintro ⟨hvalid, rfl⟩
    exact ⟨_, ⟨hvalid, rfl⟩, hsort⟩

lemma sortByHash_perm {values sorted : List IJson} (h : sortByHash P values = .ok sorted) :
    sorted.Perm values := by
  obtain ⟨-, rfl⟩ := sortByHash_eq_ok.mp h
  exact KeySort.sortBy_perm _ values

/-- The fingerprint of a unit of an input. -/
def unitFingerprint (P : Platform) (value : CoveragePlannerInput) (unit : SemanticUnit) :
    Except String String :=
  semanticUnitFingerprint P unit value.semanticAnalysis (unitReferenceIndexes value unit)
    (unitRelationIndexes value unit) value.boundedContextItems

/-- What is hashed of a reference of an input. -/
def hashedReference (P : Platform) (value : CoveragePlannerInput) (reference : SemanticReference) :
    Except String IJson :=
  referenceMaterial P (unitsById value.semanticAnalysis) (contextsById value.boundedContextItems)
    reference

/-- What is hashed of a relation of an input. -/
def hashedRelation (P : Platform) (value : CoveragePlannerInput) (relation : SemanticRelation) :
    Except String IJson :=
  relationMaterial P (unitsById value.semanticAnalysis) (contextsById value.boundedContextItems)
    relation

/-- What the fingerprint of a unit is the hash of. -/
structure FingerprintParts (P : Platform) (value : CoveragePlannerInput) (unit : SemanticUnit)
    (fingerprint : String) (references relations : List IJson) : Prop where
  reference_materials : List.Forall₂ (fun reference material =>
    hashedReference P value reference = .ok material) (unitReferences value unit) references
  relation_materials : List.Forall₂ (fun relation material =>
    hashedRelation P value relation = .ok material) (unitRelations value unit) relations
  hash : ∃ sortedReferences sortedRelations, sortByHash P references = .ok sortedReferences ∧
    sortByHash P relations = .ok sortedRelations ∧
    canonicalHashIjson P (unitMaterial P unit sortedReferences sortedRelations) = .ok fingerprint

lemma unitFingerprint_eq_ok (h : AcceptsAll P value) {unit : SemanticUnit} {fingerprint : String} :
    unitFingerprint P value unit = .ok fingerprint ↔
      ∃ references relations, FingerprintParts P value unit fingerprint references relations := by
  have hreferences : ((valuesAt value.semanticAnalysis.references
      (unitReferenceIndexes value unit)).filter fun r => r.sourceUnitId = unit.id) =
        unitReferences value unit := by
    rw [valuesAt_unitReferenceIndexes h]
    exact List.filter_eq_self.mpr fun r hr => (List.mem_filter.mp hr).2
  have hrelations : ((valuesAt value.semanticAnalysis.relations
      (unitRelationIndexes value unit)).filter fun r => r.sourceUnitId = unit.id) =
        unitRelations value unit := by
    rw [valuesAt_unitRelationIndexes h]
    exact List.filter_eq_self.mpr fun r hr => (List.mem_filter.mp hr).2
  simp only [unitFingerprint, semanticUnitFingerprint, hreferences, hrelations, Checks.bind_eq_ok,
    Checks.mapM_eq_ok]
  constructor
  · rintro ⟨references, href, relations, hrel, sorted, hsorted, sorted', hsorted', hhash⟩
    exact ⟨references, relations, href, hrel, sorted, sorted', hsorted, hsorted', hhash⟩
  · rintro ⟨references, relations, href, hrel, sorted, sorted', hsorted, hsorted', hhash⟩
    exact ⟨references, href, relations, hrel, sorted, hsorted, sorted', hsorted', hhash⟩

/-! ### The decision on a unit -/

/-- The authorities that contain a unit. -/
def unitContaining (value : CoveragePlannerInput) (unit : SemanticUnit) :
    List PersistedUnitAuthority :=
  (AuthorityIndex.ofAuthorities value.authorities).containing unit.rawStart unit.rawEnd

/-- What the proposal of a unit rests on: one authority that holds nothing back, a meaning that may
be asserted, resolved references, a candidate, and a source that creates memories. -/
structure DurableBasis (U : UnicodeData) (value : CoveragePlannerInput) (unit : SemanticUnit)
    (containing : List PersistedUnitAuthority) (basis : CandidateBasis) : Prop where
  containing_eq : containing = [basis.authority]
  notOverridden : authorityOverridden U value unit = false
  notConflicting : basis.authority.conflictingAuthority = false
  storageAllowed : basis.authority.privacyStorageAllowed = true
  ceiling : basis.authority.privacyCeiling = .normal
  resolved : unitUnresolved value unit = false
  assertable : unit.Assertable
  mapping : unitMapping U value unit (some basis.authority) = some basis.mapping
  provenance : basis.provenance = decideCandidateProvenance value.messageRole
    basis.mapping.routeType basis.mapping.status value.importedRecord
  allows : basis.provenance.allowsAutomaticMemoryCreation = true

lemma unitAuthority_eq_some {U : UnicodeData} {unit : SemanticUnit}
    {containing : List PersistedUnitAuthority} {a : PersistedUnitAuthority}
    (ha : a.conflictingAuthority = false) :
    unitAuthority U value unit containing = some a ↔
      containing = [a] ∧ authorityOverridden U value unit = false := by
  have hne (b : PersistedUnitAuthority) : b.conflicting ≠ a := by
    rintro rfl
    exact absurd ha (by simp [PersistedUnitAuthority.conflicting])
  cases containing with
  | nil => simp [unitAuthority]
  | cons b rest =>
      cases rest with
      | nil => cases h : authorityOverridden U value unit <;> simp [unitAuthority, h, hne]
      | cons c rest => simp [unitAuthority]

/-- The route of a decision that creates a memory is ready for consolidation. -/
lemma CandidateProvenanceDecision.allowsCandidate {role : MessageRole}
    {route : MemorySignalRouteType} {status : CandidateStatus} {imported : Bool}
    (h : (decideCandidateProvenance role route status imported).allowsAutomaticMemoryCreation =
      true) :
    (decideCandidateProvenance role route status imported).allowsCandidateCreation = true ∧
      status = .readyForConsolidation := by
  obtain ⟨hstatus, -, hdecision⟩ := decideCandidateProvenance_allows h
  rw [hdecision]
  exact ⟨rfl, hstatus⟩

/-- A unit has a proposal exactly when it has the basis of one. -/
theorem decideUnit_basis {U : UnicodeData} {unit : SemanticUnit}
    {containing : List PersistedUnitAuthority} {basis : CandidateBasis} :
    (decideUnit U value unit containing).basis = some basis ↔
      DurableBasis U value unit containing basis := by
  constructor
  · intro h
    simp only [decideUnit] at h
    split at h
    case h_1 a m hdisposition hauthority hmapping =>
      split_ifs at h with hrefused
      rw [Option.some.injEq] at h
      subst h
      rw [hauthority] at hdisposition hmapping
      obtain ⟨hreview, hresolved, hassertable, -⟩ := dispositionForUnit_durable.mp hdisposition
      obtain ⟨a', ha', -, hconflict, hstorage, hceiling⟩ :=
        authorityNeedsReview_eq_false.mp hreview
      obtain rfl := Option.some.inj ha'
      obtain ⟨hcontaining, hoverridden⟩ := (unitAuthority_eq_some hconflict).mp hauthority
      simp only [not_or, Bool.not_eq_false] at hrefused
      exact ⟨hcontaining, hoverridden, hconflict, hstorage, hceiling, hresolved, hassertable,
        hmapping, rfl, hrefused.2.1⟩
    case h_2 => exact absurd h (by simp)
  · intro h
    have hauthority := (unitAuthority_eq_some h.notConflicting).mpr
      ⟨h.containing_eq, h.notOverridden⟩
    have hdisposition : (dispositionForUnit unit (some basis.authority) containing.length
        (unitUnresolved value unit) (unitMapping U value unit (some basis.authority)).isSome
        ).disposition = .durableCandidate := by
      rw [dispositionForUnit_durable, authorityNeedsReview_eq_false, h.mapping, h.containing_eq]
      exact ⟨⟨_, rfl, rfl, h.notConflicting, h.storageAllowed, h.ceiling⟩, h.resolved,
        h.assertable, rfl⟩
    have hallows := h.allows
    rw [h.provenance] at hallows
    obtain ⟨hcandidate, hready⟩ := CandidateProvenanceDecision.allowsCandidate hallows
    rw [h.mapping] at hdisposition
    simp only [decideUnit, hauthority, h.mapping, hdisposition]
    rw [if_neg (by rw [hcandidate, hallows]; simp [hready])]
    simp only [← h.provenance]

/-- A unit with a basis is a durable candidate. -/
lemma decideUnit_of_basis {U : UnicodeData} {unit : SemanticUnit}
    {containing : List PersistedUnitAuthority} {basis : CandidateBasis}
    (h : (decideUnit U value unit containing).basis = some basis) :
    (decideUnit U value unit containing).disposition = .durableCandidate ∧
      (decideUnit U value unit containing).reasons = ["durable_policy_eligible"] := by
  simp only [decideUnit] at h ⊢
  split at h
  case h_1 a m hdisposition hauthority hmapping =>
    split_ifs at h with hrefused
    simp only [hdisposition, if_neg hrefused]
    exact ⟨trivial, dispositionForUnit_reasonCodes hdisposition⟩
  case h_2 => exact absurd h (by simp)

/-- A unit with a basis has its authority. -/
lemma decideUnit_authority {U : UnicodeData} {unit : SemanticUnit}
    {containing : List PersistedUnitAuthority} {basis : CandidateBasis}
    (h : (decideUnit U value unit containing).basis = some basis) :
    (decideUnit U value unit containing).authority = some basis.authority := by
  simp only [decideUnit] at h ⊢
  split at h
  case h_1 a m hdisposition hauthority hmapping =>
    split_ifs at h with hrefused
    rw [Option.some.injEq] at h
    simp only [if_neg hrefused, ← h]
    exact hauthority
  case h_2 => exact absurd h (by simp)

/-! ### The records of a plan -/

/-- The item of a range records what was decided of it, under its identity. -/
lemma coverageItem_eq {semanticUnitId fingerprint : Option String} {span : Span}
    {disposition : CoverageDisposition} {reasonCodes : List String}
    {authority : Option PersistedUnitAuthority} {proposalId : Option String} {item : CoverageItem}
    (h : coverageItem P value semanticUnitId fingerprint span disposition reasonCodes authority
      proposalId = .ok item) :
    item.span = span ∧ item.semanticUnitId = semanticUnitId ∧ item.disposition = disposition ∧
      item.proposalId = proposalId := by
  simp only [coverageItem, Checks.bind_eq_ok, Checks.pure_eq_ok] at h
  obtain ⟨_, -, _, -, _, -, rfl⟩ := h
  exact ⟨rfl, rfl, rfl, rfl⟩

/-- How a proposal came about: from a unit, on a basis, under the identity of its fingerprint. -/
structure ProposalOrigin (P : Platform) (value : CoveragePlannerInput) (p : CandidateProposal)
    (unit : SemanticUnit) (fingerprint : String) (basis : CandidateBasis) : Prop where
  mem : unit ∈ value.semanticAnalysis.semanticUnits
  basis_eq : DurableBasis P.unicode value unit (unitContaining value unit) basis
  fingerprint_eq : unitFingerprint P value unit = .ok fingerprint
  identity_eq : proposalIdentity P (proposalMaterial P value unit fingerprint basis) =
    .ok p.proposalId
  record_eq : p = proposalRecord value unit fingerprint ["durable_policy_eligible"] basis
    p.proposalId

/-- What the plan makes of a unit. -/
structure UnitResult (P : Platform) (value : CoveragePlannerInput) (unit : SemanticUnit)
    (item : CoverageItem) (proposal : Option CandidateProposal) (fingerprint : String) : Prop where
  fingerprint_eq : unitFingerprint P value unit = .ok fingerprint
  item_eq : coverageItem P value (some unit.id) (some fingerprint) unit.span
    (decideUnit P.unicode value unit (unitContaining value unit)).disposition
    (decideUnit P.unicode value unit (unitContaining value unit)).reasons.eraseDups
    (decideUnit P.unicode value unit (unitContaining value unit)).authority
    (proposal.map CandidateProposal.proposalId) = .ok item
  proposal_eq : (decideUnit P.unicode value unit (unitContaining value unit)).basis.mapM
    (buildProposal P value unit fingerprint
      (decideUnit P.unicode value unit (unitContaining value unit)).reasons) = .ok proposal

lemma planUnit_eq_ok {unit : SemanticUnit} {item : CoverageItem}
    {proposal : Option CandidateProposal} :
    planUnit P value (AuthorityIndex.ofAuthorities value.authorities) unit = .ok (item, proposal) ↔
      ∃ fingerprint, UnitResult P value unit item proposal fingerprint := by
  simp only [planUnit, Checks.bind_eq_ok, Checks.pure_eq_ok, Prod.mk.injEq]
  constructor
  · rintro ⟨fingerprint, hfingerprint, _, hproposal, _, hitem, rfl, rfl⟩
    exact ⟨fingerprint, hfingerprint, hitem, hproposal⟩
  · rintro ⟨fingerprint, h⟩
    exact ⟨fingerprint, h.fingerprint_eq, proposal, h.proposal_eq, item, h.item_eq, rfl, rfl⟩

/-- Every proposal of a plan comes from a unit with a durable basis. -/
theorem PlanParts.origin {plan : CoveragePlan} {proposals : List CandidateProposal}
    {planned : List (CoverageItem × Option CandidateProposal)} {uncovered : List CoverageItem}
    (h : PlanParts P value plan proposals planned uncovered) {p : CandidateProposal}
    (hp : p ∈ proposals) :
    ∃ unit fingerprint basis, ProposalOrigin P value p unit fingerprint basis := by
  rw [h.proposals_eq] at hp
  obtain ⟨⟨item, proposal⟩, hresult, rfl⟩ := List.mem_filterMap.mp hp
  obtain ⟨unit, hunit, hplan⟩ := Checks.exists_of_mem_right h.units hresult
  obtain ⟨fingerprint, hr⟩ := planUnit_eq_ok.mp hplan
  have hproposal := hr.proposal_eq
  cases hb : (decideUnit P.unicode value unit (unitContaining value unit)).basis with
  | none =>
      rw [hb] at hproposal
      exact absurd hproposal (by simp [Option.mapM, pure, Except.pure])
  | some basis =>
      rw [hb, (decideUnit_of_basis hb).2] at hproposal
      simp only [Option.mapM_some, Checks.map_eq_ok, Option.some.injEq, exists_eq_right,
        buildProposal, Checks.bind_eq_ok, Checks.pure_eq_ok] at hproposal
      obtain ⟨proposalId, hid, _, -, rfl⟩ := hproposal
      exact ⟨unit, fingerprint, basis, hunit, decideUnit_basis.mp hb, hr.fingerprint_eq, hid, rfl⟩

/-- Every unit with a durable basis has a proposal over its range. -/
theorem PlanParts.exists_proposal {plan : CoveragePlan} {proposals : List CandidateProposal}
    {planned : List (CoverageItem × Option CandidateProposal)} {uncovered : List CoverageItem}
    (h : PlanParts P value plan proposals planned uncovered) {unit : SemanticUnit}
    (hunit : unit ∈ value.semanticAnalysis.semanticUnits) {basis : CandidateBasis}
    (hbasis : DurableBasis P.unicode value unit (unitContaining value unit) basis) :
    ∃ p ∈ proposals, p.span = unit.span := by
  obtain ⟨⟨item, proposal⟩, hresult, hplan⟩ := Checks.exists_of_mem_left h.units hunit
  obtain ⟨fingerprint, hr⟩ := planUnit_eq_ok.mp hplan
  have hproposal := hr.proposal_eq
  rw [decideUnit_basis.mpr hbasis] at hproposal
  simp only [Option.mapM_some, Checks.map_eq_ok, buildProposal, Checks.bind_eq_ok,
    Checks.pure_eq_ok] at hproposal
  obtain ⟨p, ⟨_, -, _, -, rfl⟩, rfl⟩ := hproposal
  rw [h.proposals_eq]
  exact ⟨_, List.mem_filterMap.mpr ⟨_, hresult, rfl⟩, rfl⟩

/-! ### Complete plans -/

/-- A plan has an item for each accepted unit, items of distinct identities, and a durable item
for each proposal. -/
structure CompletePlan (value : CoveragePlannerInput) (items : List CoverageItem)
    (proposalIds : List String) : Prop where
  count : (items.filterMap CoverageItem.semanticUnitId).length = value.acceptedUnitIds.length
  unitIds : (items.filterMap CoverageItem.semanticUnitId).Nodup
  itemIds : (items.map CoverageItem.coverageItemId).Nodup
  proposed : ∀ item ∈ items, item.disposition = .durableCandidate →
    ∃ id ∈ proposalIds, item.proposalId = some id
  durable : ∀ id ∈ proposalIds, ∃ item ∈ items, item.disposition = .durableCandidate ∧
    item.proposalId = some id
  named : ∀ item ∈ items, item.proposalId.isSome → item.disposition = .durableCandidate

lemma assertComplete_eq_ok {items : List CoverageItem} {proposals : List CandidateProposal} :
    assertComplete value items proposals = .ok () ↔
      CompletePlan value items (proposals.map CandidateProposal.proposalId) := by
  simp only [assertComplete, Checks.check_bind_eq_ok, Checks.require_eq_ok, List.mem_filter,
    decide_eq_true_eq, and_imp]
  constructor
  · rintro ⟨hcount, hunits, hitems, ⟨hproposed, hdurable⟩, hnamed⟩
    refine ⟨hcount, hunits, hitems, fun item hitem hd => ?_, ?_, hnamed⟩
    · obtain ⟨p, hp, hid⟩ := hproposed item hitem hd
      exact ⟨_, List.mem_map_of_mem hp, hid⟩
    · rintro _ hid
      obtain ⟨p, hp, rfl⟩ := List.mem_map.mp hid
      obtain ⟨item, ⟨hitem, hd⟩, hid⟩ := hdurable p hp
      exact ⟨item, hitem, hd, hid⟩
  · rintro ⟨hcount, hunits, hitems, hproposed, hdurable, hnamed⟩
    refine ⟨hcount, hunits, hitems, ⟨fun item hitem hd => ?_, fun p hp => ?_⟩, hnamed⟩
    · obtain ⟨_, hid, h⟩ := hproposed item hitem hd
      obtain ⟨p, hp, rfl⟩ := List.mem_map.mp hid
      exact ⟨p, hp, h⟩
    · obtain ⟨item, hitem, hd, hid⟩ := hdurable _ (List.mem_map_of_mem hp)
      exact ⟨item, ⟨hitem, hd⟩, hid⟩

/-- An item is hashed when its offsets are integers that every reader represents. -/
lemma CoverageItem.validValue_json {U : UnicodeData} {item : CoverageItem} :
    ValidValue U none item.json ↔
      (item.rawStart : ℤ) ≤ maxSafeInteger ∧ (item.rawEnd : ℤ) ≤ maxSafeInteger := by
  rw [CoverageItem.json, validValue_fields ["coverage_item_id", "semantic_unit_id", "raw_start",
    "raw_end", "disposition", "reason_codes", "gate_decision_uuid", "route_uuid", "proposal_id"]
    (by decide) rfl]
  simp [field, validValue_arr]

/-- A plan is hashed when its items are. -/
lemma validValue_planMaterial {U : UnicodeData} {items : List CoverageItem} :
    ValidValue U none (planMaterial P value items) ↔ ∀ item ∈ items, ValidValue U none item.json := by
  rw [planMaterial, validValue_fields ["coverage_plan_version", "message_uuid", "raw_text_hash",
    "processing_run_uuid", "semantic_prompt_execution_uuid", "semantic_contract_hash", "status",
    "items", "warnings"] (by decide) rfl]
  simp [field, validValue_arr]

/-- A proposal has an identity when its offsets are integers that every reader represents. -/
lemma exists_proposalIdentity {m : ProposalMaterial} (hstart : (m.rawStart : ℤ) ≤ maxSafeInteger)
    (hend : (m.rawEnd : ℤ) ≤ maxSafeInteger) :
    ∃ name, proposalIdentity P m = .ok (P.uuid5 proposalNamespace name) := by
  have hvalid : ValidValue P.unicode none m.json := by
    rw [ProposalMaterial.json, validValue_fields ["identity_version", "planner_version",
      "message_uuid", "raw_text_hash", "semantic_contract_hash", "semantic_unit_fingerprint",
      "raw_start", "raw_end", "route_type", "route_status", "gate_decision", "source_authority",
      "coverage_disposition"] (by decide) rfl]
    simp [field, hstart, hend]
  refine ⟨proposalNamePrefix ++ P.sha256 m.json.dump, ?_⟩
  rw [proposalIdentity, canonicalHashIjson_eq_ok.mpr ⟨hvalid, rfl⟩]
  rfl

/-- A range has an item when its offsets are integers that every reader represents. -/
lemma exists_coverageItem (huuid : ∀ space name, P.uuid5 space name ≠ "")
    (semanticUnitId fingerprint : Option String) {span : Span} (disposition : CoverageDisposition)
    (reasonCodes : List String) (authority : Option PersistedUnitAuthority)
    (proposalId : Option String) (hpos : 0 < span.stop)
    (hstart : (span.start : ℤ) ≤ maxSafeInteger) (hstop : (span.stop : ℤ) ≤ maxSafeInteger) :
    ∃ item, coverageItem P value semanticUnitId fingerprint span disposition reasonCodes authority
      proposalId = .ok item := by
  simp only [coverageItem, coverageItemIdentity, Checks.bind_eq_ok, Checks.pure_eq_ok,
    canonicalHashIjson_eq_ok]
  refine ⟨_, _, ⟨_, ⟨?_, rfl⟩, rfl⟩, (), ?_, (), ?_, rfl⟩
  · rw [validValue_fields ["identity_version", "planner_version", "message_uuid", "raw_text_hash",
      "semantic_contract_hash", "semantic_unit_fingerprint", "raw_start", "raw_end", "disposition",
      "reason_codes", "proposal_id"] (by decide) rfl]
    simp [field, validValue_arr, hstart, hstop]
  · simpa [nonEmpty] using huuid _ _
  · simpa [positive] using hpos

/-! ### Inputs of accepted answers -/

/-- The planner works on the message and the manifest that the model was shown. -/
structure CoveragePlannerInput.BoundTo (value : CoveragePlannerInput)
    (semanticInput : SemanticAnalysisV1Input) : Prop where
  messageUuid : semanticInput.currentMessageUuid = value.messageUuid
  rawText : semanticInput.currentRawText = value.currentRawText
  envelope : semanticInput.textEnvelope = value.textEnvelope
  context : semanticInput.boundedContextItems = value.boundedContextItems

end

end Memorist
