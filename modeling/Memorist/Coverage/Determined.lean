import Memorist.Coverage.Run

/-!
The identity of a proposal determines what it proposes.

* `unitFingerprint_inj`: units of one fingerprint say the same, with one lineage up to
  order;
* `DurableBasis.mapping_eq`: the hashed route, with the unit's type and proposition,
  fixes the candidate, whichever of the three sources it came from;
* `proposal_determined`: proposals of one identity agree.
-/

namespace Memorist

section

variable {P : Platform}

/-! ### Lineage -/

lemma contextItem?_eq (units : Dict String SemanticUnit)
    (contexts : Dict String BoundedContextItem) (referentId : Option String) :
    contextItem? contexts referentId = (resolveTarget units contexts referentId).item? := by
  cases referentId with
  | none => rfl
  | some id =>
      rw [contextItem?, Option.bind_some]
      by_cases hprior : startsWith "prior_context:" id = true
      · have hcurrent : startsWith "current_unit:" id = false := by
          rw [← append_removePrefix hprior]
          exact startsWith_currentUnit_priorContext _
        rw [if_pos hprior, resolveTarget, if_neg (by simp [hcurrent]), if_pos hprior]
        cases contexts.get? (removePrefix "prior_context:" id) <;> rfl
      · rw [if_neg hprior, resolveTarget]
        split_ifs
        · cases units.get? (removePrefix "current_unit:" id) <;> rfl
        · rfl

/-- The lineage of a unit lists the context items its references name. -/
lemma contextLineage_eq {value : CoveragePlannerInput} (h : AcceptsAll P value)
    (unit : SemanticUnit) :
    contextLineage value unit.id (unitReferenceIndexes value unit) =
      (unitReferences value unit).filterMap fun reference =>
        (resolveTarget (unitsById value.semanticAnalysis) (contextsById value.boundedContextItems)
          reference.selectedReferentId).item?.map
            (lineageEntry value.semanticContractHash reference) := by
  rw [contextLineage, valuesAt_unitReferenceIndexes h]
  refine List.filterMap_congr fun r hr => ?_
  have hsource : r.sourceUnitId = unit.id := by simpa using (List.mem_filter.mp hr).2
  rw [if_neg (by simpa using hsource), contextItem?_eq (unitsById value.semanticAnalysis)]

/-- A lineage entry records of its item what the fingerprint hashes, and the marker. -/
lemma lineageEntry_congr {contractHash : String} {r r' : SemanticReference}
    {o o' : Option BoundedContextItem} (hmarker : r.marker = r'.marker)
    (hitem : o.map contextMembers = o'.map contextMembers) :
    o.map (lineageEntry contractHash r) = o'.map (lineageEntry contractHash r') := by
  cases o with
  | none =>
      cases o' with
      | none => rfl
      | some b => simp at hitem
  | some a =>
      cases o' with
      | none => simp at hitem
      | some b =>
          simp only [SemanticReference.marker, Span.mk.injEq] at hmarker
          simp only [Option.map_some, Option.some.injEq, contextMembers, field, List.cons.injEq,
            Prod.mk.injEq, jsonString_inj, jsonNat_inj, jsonOption_inj,
            ContextRole.value_injective.eq_iff, AuthorityCeiling.value_injective.eq_iff] at hitem
          simp only [Option.map_some, lineageEntry, hmarker, hitem]

/-- Units of one fingerprint say the same, with one lineage up to order. -/
theorem unitFingerprint_inj (hsha : Function.Injective P.sha256)
    {value value' : CoveragePlannerInput} (h : AcceptsAll P value) (h' : AcceptsAll P value')
    (hcontract : value.semanticContractHash = value'.semanticContractHash)
    {unit unit' : SemanticUnit} {fingerprint : String}
    (hf : unitFingerprint P value unit = .ok fingerprint)
    (hf' : unitFingerprint P value' unit' = .ok fingerprint) :
    unit.SameMeaning unit' ∧
      (contextLineage value unit.id (unitReferenceIndexes value unit)).Perm
        (contextLineage value' unit'.id (unitReferenceIndexes value' unit')) := by
  obtain ⟨references, relations, hp⟩ := (unitFingerprint_eq_ok h).mp hf
  obtain ⟨references', relations', hp'⟩ := (unitFingerprint_eq_ok h').mp hf'
  obtain ⟨sorted, _, hsorted, -, hhash⟩ := hp.hash
  obtain ⟨sorted', _, hsorted', -, hhash'⟩ := hp'.hash
  obtain ⟨hunit, hmaterials, -⟩ := unitMaterial_inj hsha (canonicalHashIjson_inj hsha hhash hhash')
  refine ⟨hunit, ?_⟩
  have hperm : (references.map IJson.canon).Perm (references'.map IJson.canon) := by
    refine ((sortByHash_perm hsorted).symm.map _).trans ?_
    rw [hmaterials]
    exact (sortByHash_perm hsorted').map _
  have hcommon {v : CoveragePlannerInput} {u : SemanticUnit} {materials : List IJson}
      (hforall : List.Forall₂ (fun reference material =>
        hashedReference P v reference = .ok material) (unitReferences v u) materials) :
      List.Forall₂ (fun reference canonical => ∃ material,
        hashedReference P v reference = .ok material ∧ material.canon = canonical)
        (unitReferences v u) (materials.map IJson.canon) :=
    List.forall₂_map_right_iff.mpr (hforall.imp fun _ _ hm => ⟨_, hm, rfl⟩)
  have hfilterMap {α β : Type} (f : α → Option β) (xs : List α) :
      xs.filterMap f = (xs.map f).filterMap id := by rw [List.filterMap_map]; rfl
  rw [contextLineage_eq h, contextLineage_eq h', hfilterMap,
    hfilterMap _ (unitReferences value' unit')]
  refine (Correspond.map_perm_of_common ?_ (hcommon hp.reference_materials)
    (hcommon hp'.reference_materials) hperm).filterMap id
  rintro r r' _ ⟨i, hi, rfl⟩ ⟨j, hj, hij⟩
  obtain ⟨-, hmarker, hitem⟩ := referenceMaterial_inj hi hj hij.symm
  rw [← hcontract]
  exact lineageEntry_congr hmarker hitem

/-! ### The candidate -/

variable {value : CoveragePlannerInput} {unit : SemanticUnit}

/-- The candidate that a hashed route stands for: that of the route, else that of the unit's
type. -/
def routeCandidate (U : UnicodeData) (route : String) (unitType : SemanticUnitType)
    (proposition : Text) (messageUuid : String) : Option RouteCandidateMapping :=
  (candidateMappingForRoute U (some route) proposition (some messageUuid)).or
    (candidateMappingForSemanticUnit U unitType proposition messageUuid none)

lemma candidateMappingForRoute_pyStr {U : UnicodeData} (routeType : Option String) (text : Text)
    (messageUuid : Option String) :
    candidateMappingForRoute U (some (pyStr routeType)) text messageUuid =
      candidateMappingForRoute U routeType text messageUuid := by
  cases routeType with
  | none =>
      have hnone : routeValue (some (pyStr none)) = none := by decide
      rw [candidateMappingForRoute, hnone]
      rfl
  | some s => rfl

/-- The hashed route stands for the candidate, whether the kind, the stored route or the type
gave it. -/
theorem DurableBasis.mapping_eq {containing : List PersistedUnitAuthority} {basis : CandidateBasis}
    (h : DurableBasis P.unicode value unit containing basis) (fingerprint : String) :
    some basis.mapping = routeCandidate P.unicode
      (proposalMaterial P value unit fingerprint basis).routeType unit.unitType unit.proposition
      value.messageUuid := by
  have hmapping := h.mapping
  rw [unitMapping] at hmapping
  rw [routeCandidate]
  cases hsemantic : semanticMapping P.unicode value unit with
  | some m =>
      rw [hsemantic, Option.some_or, Option.some_or, Option.some.injEq] at hmapping
      subst hmapping
      have hkind : candidateMappingForSemanticUnit P.unicode unit.unitType unit.proposition
          value.messageUuid unit.memoryKind = some basis.mapping := by
        rw [semanticMapping] at hsemantic
        split_ifs at hsemantic
        exact hsemantic
      simp only [proposalMaterial, hsemantic, Option.isSome_some, if_true]
      rw [(candidateMappingForSemanticUnit_eq hkind).1, Option.some_or]
  | none =>
      rw [hsemantic, Option.none_or] at hmapping
      simp only [proposalMaterial, hsemantic, Option.isSome_none, Bool.false_eq_true, if_false]
      rw [candidateMappingForRoute_pyStr, ← hmapping]
      rfl

/-! ### Proposals of one identity -/

/-- Two proposals propose the same candidate. -/
structure SameCandidate (p q : CandidateProposal) : Prop where
  messageUuid : p.messageUuid = q.messageUuid
  rawStart : p.rawStart = q.rawStart
  rawEnd : p.rawEnd = q.rawEnd
  evidence : p.evidence = q.evidence
  candidateType : p.candidateType = q.candidateType
  subjectKey : p.subjectKey = q.subjectKey
  predicate : p.predicate = q.predicate
  objectPayload : p.objectPayload = q.objectPayload
  normalizedText : p.normalizedText = q.normalizedText
  polarity : p.polarity = q.polarity
  epistemicStatus : p.epistemicStatus = q.epistemicStatus
  durability : p.durability = q.durability
  sourceAuthority : p.sourceAuthority = q.sourceAuthority
  explicitness : p.explicitness = q.explicitness
  status : p.status = q.status
  reasonCodes : p.reasonCodes = q.reasonCodes
  contextLineage : p.contextLineage.Perm q.contextLineage

/-- The authority of a basis fixes its provenance. -/
lemma DurableBasis.provenance_eq {containing : List PersistedUnitAuthority}
    {basis : CandidateBasis} {U : UnicodeData} (h : DurableBasis U value unit containing basis) :
    basis.provenance =
      ⟨basis.provenance.sourceAuthority, basis.provenance.sourceAuthority.carries,
        .readyForConsolidation, true, true, basis.provenance.sourceAuthority.creationReasons⟩ := by
  have hallows := h.allows
  rw [h.provenance] at hallows ⊢
  exact (decideCandidateProvenance_allows hallows).2.2

/-- Where digests and name-based identifiers tell their inputs apart, proposals of one identity
propose the same candidate. -/
theorem proposal_determined (hsha : Function.Injective P.sha256)
    (huuid : ∀ space, Function.Injective (P.uuid5 space)) {value value' : CoveragePlannerInput}
    {plan plan' : CoveragePlan} {proposals proposals' : List CandidateProposal}
    (hplan : planCandidateCoverage P value = .ok (plan, proposals))
    (hplan' : planCandidateCoverage P value' = .ok (plan', proposals'))
    {p q : CandidateProposal} (hp : p ∈ proposals) (hq : q ∈ proposals')
    (hid : p.proposalId = q.proposalId) : SameCandidate p q := by
  obtain ⟨_, _, hparts⟩ := planCandidateCoverage_eq_ok.mp hplan
  obtain ⟨_, _, hparts'⟩ := planCandidateCoverage_eq_ok.mp hplan'
  obtain ⟨unit, fingerprint, basis, ho⟩ := hparts.origin hp
  obtain ⟨unit', fingerprint', basis', ho'⟩ := hparts'.origin hq
  have hmaterial := proposalIdentity_inj hsha huuid ho.identity_eq (hid ▸ ho'.identity_eq)
  have hroute := congrArg ProposalMaterial.routeType hmaterial
  have hmessage : value.messageUuid = value'.messageUuid :=
    congrArg ProposalMaterial.messageUuid hmaterial
  have hcontract : value.semanticContractHash = value'.semanticContractHash :=
    congrArg ProposalMaterial.semanticContractHash hmaterial
  have hfingerprint : fingerprint = fingerprint' :=
    congrArg ProposalMaterial.unitFingerprint hmaterial
  have hauthority : basis.provenance.sourceAuthority = basis'.provenance.sourceAuthority :=
    SourceAuthority.value_injective (congrArg ProposalMaterial.sourceAuthority hmaterial)
  subst hfingerprint
  obtain ⟨hunit, hlineage⟩ := unitFingerprint_inj hsha hparts.accepts hparts'.accepts hcontract
    ho.fingerprint_eq ho'.fingerprint_eq
  have hmapping : basis.mapping = basis'.mapping := by
    have h := ho.basis_eq.mapping_eq fingerprint
    rw [hroute, hunit.unitType, hunit.proposition, hmessage,
      ← ho'.basis_eq.mapping_eq fingerprint] at h
    exact Option.some.inj h
  have hprovenance : basis.provenance = basis'.provenance := by
    rw [ho.basis_eq.provenance_eq, ho'.basis_eq.provenance_eq, hauthority]
  rw [ho.record_eq, ho'.record_eq]
  exact
    { messageUuid := hmessage
      rawStart := hunit.rawStart
      rawEnd := hunit.rawEnd
      evidence := hunit.evidence
      candidateType := by simp only [proposalRecord, hmapping]
      subjectKey := by simp only [proposalRecord, hmapping]
      predicate := by simp only [proposalRecord, hmapping]
      objectPayload := by simp only [proposalRecord, hmapping]
      normalizedText := by simp only [proposalRecord, hmapping]
      polarity := hunit.polarity
      epistemicStatus := hunit.epistemicStatus
      durability := hunit.durability
      sourceAuthority := by simp only [proposalRecord, hprovenance]
      explicitness := by simp only [proposalRecord, hprovenance]
      status := by simp only [proposalRecord, hprovenance]
      reasonCodes := by simp only [proposalRecord, hprovenance]
      contextLineage := hlineage }

end

/-! ### One preference from two sources -/

/-- A platform whose digests and identifiers keep everything that went in. -/
def exactPlatform : Platform where
  unicode := basicLatin
  sha256 := String.ofList
  uuid5 := fun space name => "uuid:" ++ (space ++ name)

lemma exactPlatform_sha256 : Function.Injective exactPlatform.sha256 :=
  fun _ _ h => String.ofList_inj.mp h

lemma exactPlatform_uuid5 (space : String) : Function.Injective (exactPlatform.uuid5 space) := by
  intro a b h
  have htext : ("uuid:" ++ (space ++ a)).toList = ("uuid:" ++ (space ++ b)).toList :=
    congrArg String.toList h
  simpa [← String.toList_inj] using htext

lemma exactPlatform_uuid5_ne (space name : String) : exactPlatform.uuid5 space name ≠ "" := by
  intro h
  have htext : ("uuid:" ++ (space ++ name)).toList = [] := congrArg String.toList h
  simp at htext

/-- A preference of one word. -/
def teaUnit (id : String) (kind : Option MemoryKind) : SemanticUnit where
  id := id
  rawStart := 0
  rawEnd := 3
  evidence := "tea".toList
  proposition := "tea".toList
  unitType := .statement
  durability := .durable
  polarity := .affirmed
  epistemicStatus := .asserted
  memoryKind := kind

/-- The authority of the message, with the route that is stored for it. -/
def teaAuthority (route status : Option String) : PersistedUnitAuthority where
  textUnitUuid := "t1"
  rawStart := 0
  rawEnd := 3
  annotationUuid := none
  gateDecisionUuid := none
  gateDecision := none
  routeUuid := none
  routeType := route
  routeStatus := status
  privacyCeiling := .normal
  privacyStorageAllowed := true
  orderedSpan := by decide

/-- The planner's input for the preference. -/
def teaInput (id : String) (kind : Option MemoryKind) (route status : Option String) :
    CoveragePlannerInput where
  messageUuid := "m1"
  messageRole := .user
  processingRunUuid := "p1"
  currentRawText := "tea".toList
  textEnvelope := (buildEnvelope exactPlatform "tea".toList).asDict
  semanticAnalysis :=
    { status := .ok, semanticUnits := [teaUnit id kind], references := [], relations := [] }
  acceptedUnitIds := [id]
  acceptedReferenceIndexes := []
  acceptedRelationIndexes := []
  authorities := [teaAuthority route status]
  semanticPromptExecutionUuid := some "e1"
  semanticContractHash := "h"
  boundedContextItems := []

/-- The fingerprint of the preference. -/
def teaFingerprint : String :=
  exactPlatform.sha256 (unitMaterial exactPlatform (teaUnit "" none) [] []).dump

/-- What the identity of the preference is made of. -/
def teaMaterial : ProposalMaterial where
  plannerVersion := coveragePlannerVersion
  messageUuid := "m1"
  rawTextHash := exactPlatform.sha256 "tea".toList
  semanticContractHash := "h"
  unitFingerprint := teaFingerprint
  rawStart := 0
  rawEnd := 3
  routeType := "user_preference"
  routeStatus := "ready_for_consolidation"
  gateDecision := "semantic_model_led"
  sourceAuthority := "user_explicit"
  coverageDisposition := CoverageDisposition.durableCandidate.value

section

variable {id : String} {kind : Option MemoryKind} {route status : Option String}

lemma tea_accepts : AcceptsAll exactPlatform (teaInput id kind route status) :=
  ⟨rfl, rfl, rfl, rfl, List.nodup_singleton _⟩

lemma tea_fingerprint : unitFingerprint exactPlatform (teaInput id kind route status)
    (teaUnit id kind) = .ok teaFingerprint := by
  refine (unitFingerprint_eq_ok tea_accepts).mpr ⟨[], [], .nil, .nil, [], [], ?_, ?_, ?_⟩
  · exact sortByHash_eq_ok.mpr ⟨by simp, rfl⟩
  · exact sortByHash_eq_ok.mpr ⟨by simp, rfl⟩
  · refine canonicalHashIjson_eq_ok.mpr ⟨?_, rfl⟩
    rw [unitMaterial, validValue_fields ["raw_start", "raw_end", "evidence_hash", "proposition",
      "unit_type", "durability", "polarity", "epistemic_status", "references", "relations"]
      (by decide +kernel) rfl]
    simp [unitMembers, field, validValue_arr, teaUnit, maxSafeInteger]

/-- The preference is proposed under one identity, if its route is that of preferences. -/
lemma tea_planned (hid : id ≠ "")
    (hroute : (decideUnit exactPlatform.unicode (teaInput id kind route status) (teaUnit id kind)
      [teaAuthority route status]).basis.map (fun basis =>
        let m := proposalMaterial exactPlatform (teaInput id kind route status) (teaUnit id kind) ""
          basis
        (basis.authority, m.routeType, m.routeStatus, m.gateDecision, m.sourceAuthority)) =
      some (teaAuthority route status, "user_preference", "ready_for_consolidation",
        "semantic_model_led", "user_explicit"))
    (hgroups : uncoveredGroups exactPlatform (teaInput id kind route status) [teaUnit id kind]
      (AuthorityIndex.ofAuthorities [teaAuthority route status]) = []) :
    ∃ plan p, planCandidateCoverage exactPlatform (teaInput id kind route status) =
        .ok (plan, [p]) ∧ proposalIdentity exactPlatform teaMaterial = .ok p.proposalId := by
  obtain ⟨basis, hbasis, hmaterial⟩ := Option.map_eq_some_iff.mp hroute
  simp only [Prod.mk.injEq] at hmaterial
  obtain ⟨hauthority, htype, hstatus, hgate, hsource⟩ := hmaterial
  obtain ⟨hdisposition, hreasons⟩ := decideUnit_of_basis hbasis
  have hteaMaterial : proposalMaterial exactPlatform (teaInput id kind route status)
      (teaUnit id kind) teaFingerprint basis = teaMaterial := by
    simp only [proposalMaterial, teaMaterial, ProposalMaterial.mk.injEq] at *
    exact ⟨trivial, rfl, rfl, rfl, trivial, rfl, rfl, htype, hstatus, hgate, hsource, trivial⟩
  obtain ⟨name, hname⟩ := @exists_proposalIdentity exactPlatform teaMaterial (by decide) (by decide)
  have huuid := exactPlatform_uuid5_ne proposalNamespace name
  have hproposal : buildProposal exactPlatform (teaInput id kind route status) (teaUnit id kind)
      teaFingerprint ["durable_policy_eligible"] basis = .ok
        (proposalRecord (teaInput id kind route status) (teaUnit id kind) teaFingerprint
          ["durable_policy_eligible"] basis
          (exactPlatform.uuid5 proposalNamespace name)) := by
    simp only [buildProposal, Checks.bind_eq_ok, Checks.pure_eq_ok]
    refine ⟨_, by rw [hteaMaterial]; exact hname, (), ?_, rfl⟩
    simp [CandidateProposal.modelValidate, proposalRecord, hauthority, nonEmpty, positive,
      Checks.require, teaInput, teaUnit, teaAuthority, huuid, pyStr, hid]
  obtain ⟨item, hitem⟩ := @exists_coverageItem exactPlatform (teaInput id kind route status)
    exactPlatform_uuid5_ne (some id) (some teaFingerprint) ⟨0, 3⟩ .durableCandidate
    ["durable_policy_eligible"] (some (teaAuthority route status))
    (some (exactPlatform.uuid5 proposalNamespace name)) (by decide) (by decide) (by decide)
  let p := proposalRecord (teaInput id kind route status) (teaUnit id kind) teaFingerprint
    ["durable_policy_eligible"] basis (exactPlatform.uuid5 proposalNamespace name)
  have hcontaining : unitContaining (teaInput id kind route status) (teaUnit id kind) =
      [teaAuthority route status] := rfl
  have hunit : planUnit exactPlatform (teaInput id kind route status)
      (AuthorityIndex.ofAuthorities (teaInput id kind route status).authorities)
      (teaUnit id kind) = .ok (item, some p) := by
    refine planUnit_eq_ok.mpr ⟨teaFingerprint, tea_fingerprint, ?_, ?_⟩
    · rw [hcontaining, hdisposition, hreasons, decideUnit_authority hbasis, hauthority]
      exact hitem
    · rw [hcontaining, hbasis, hreasons, Option.mapM_some, hproposal]
      rfl
  obtain ⟨hspan, hunitId, hdurable, hproposalId⟩ := coverageItem_eq hitem
  have hcomplete : CompletePlan (teaInput id kind route status) [item] [p.proposalId] := by
    refine ⟨?_, ?_, List.nodup_singleton _, ?_, ?_, ?_⟩ <;>
      simp [hunitId, hdurable, hproposalId, teaInput, p, proposalRecord]
  have hvalid : ValidValue exactPlatform.unicode none
      (planMaterial exactPlatform (teaInput id kind route status) [item]) := by
    refine validValue_planMaterial.mpr fun item' hitem' => CoverageItem.validValue_json.mpr ?_
    rw [List.mem_singleton.mp hitem']
    simp only [CoverageItem.span, Span.mk.injEq] at hspan
    rw [hspan.1, hspan.2]
    decide
  have hparts : PlanParts exactPlatform (teaInput id kind route status)
      (planRecord exactPlatform (teaInput id kind route status) [item]
        (exactPlatform.sha256
          (planMaterial exactPlatform (teaInput id kind route status) [item]).dump))
      [p] [(item, some p)] [] :=
    { accepts := tea_accepts
      units := .cons hunit .nil
      proposals_eq := rfl
      uncovered_eq := by
        have hnone : uncoveredGroups exactPlatform (teaInput id kind route status)
            (teaInput id kind route status).semanticAnalysis.semanticUnits
            (AuthorityIndex.ofAuthorities (teaInput id kind route status).authorities) = [] :=
          hgroups
        rw [uncoveredItems, hnone]
        rfl
      items_eq := rfl
      complete := assertComplete_eq_ok.mpr hcomplete
      hash_eq := canonicalHashIjson_eq_ok.mpr ⟨hvalid, rfl⟩
      record_eq := rfl }
  exact ⟨_, p, planCandidateCoverage_eq_ok.mpr ⟨_, _, hparts⟩, hname⟩

end

lemma tea_planned_kind : ∃ plan p,
    planCandidateCoverage exactPlatform (teaInput "u1" (some .preference) none none) =
      .ok (plan, [p]) ∧ proposalIdentity exactPlatform teaMaterial = .ok p.proposalId :=
  tea_planned (by decide) (by decide +kernel) (by decide +kernel)

lemma tea_planned_route : ∃ plan p,
    planCandidateCoverage exactPlatform (teaInput "u2" none (some "user_preference")
      (some "ready_for_consolidation")) =
      .ok (plan, [p]) ∧ proposalIdentity exactPlatform teaMaterial = .ok p.proposalId :=
  tea_planned (by decide) (by decide +kernel) (by decide +kernel)

theorem proposal_determined_tea : ∃ plan plan' p q,
    planCandidateCoverage exactPlatform (teaInput "u1" (some .preference) none none) =
      .ok (plan, [p]) ∧
    planCandidateCoverage exactPlatform (teaInput "u2" none (some "user_preference")
      (some "ready_for_consolidation")) = .ok (plan', [q]) ∧ SameCandidate p q := by
  obtain ⟨plan, p, hplan, hp⟩ := tea_planned_kind
  obtain ⟨plan', q, hplan', hq⟩ := tea_planned_route
  refine ⟨plan, plan', p, q, hplan, hplan', ?_⟩
  exact proposal_determined exactPlatform_sha256 exactPlatform_uuid5 hplan hplan'
    List.mem_cons_self List.mem_cons_self (Except.ok.inj (hp.symm.trans hq))

end Memorist
