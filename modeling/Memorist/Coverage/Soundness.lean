import Memorist.Coverage.Run

/-!
What a proposal may rest on.

* `SoundProposal`: exact evidence, one authority that holds nothing back, an assertable
  unit with resolved references, and a source that creates memories
  (`proposal_sound`);
* `AssistantRatified`: the assistant's words enter a proposal
  only through a unit that names and ratifies them (`proposal_ratified`).
-/

namespace Memorist

/-! ### Soundness of proposals -/

/-- What a durable proposal rests on: its unit, its authority and its candidate. -/
structure SoundProposal (U : UnicodeData) (value : CoveragePlannerInput) (p : CandidateProposal)
    (unit : SemanticUnit) (authority : PersistedUnitAuthority) (mapping : RouteCandidateMapping) :
    Prop where
  evidence : p.evidence = slice value.currentRawText p.rawStart p.rawEnd
  one_authority : (value.authorities.filter fun a => a.span.Contains p.span) = [authority]
  notConflicting : authority.conflictingAuthority = false
  storageAllowed : authority.privacyStorageAllowed = true
  ceiling : authority.privacyCeiling = .normal
  unit_mem : unit ∈ value.semanticAnalysis.semanticUnits
  unit_id : p.semanticUnitId = unit.id
  unit_span : unit.span = p.span
  durable : unit.durability = .durable
  asserted : unit.epistemicStatus = .asserted ∨ unit.epistemicStatus = .hedged
  notQuestion : unit.unitType ≠ .question
  resolved : ∀ r ∈ unitReferences value unit, r.status = .resolved
  hints : ∀ hint ∈ value.textEnvelope.contextDependencyHints, p.span.Contains hint →
    ∃ r ∈ unitReferences value unit, r.marker.Contains hint
  promptExecution : value.semanticPromptExecutionUuid = some p.promptExecutionUuid
  mapping_eq : unitMapping U value unit (some authority) = some mapping
  provenance : (decideCandidateProvenance value.messageRole mapping.routeType mapping.status
    value.importedRecord).allowsAutomaticMemoryCreation = true

section

variable {P : Platform} {value : CoveragePlannerInput}

/-- A unit whose references are settled has none open and no hint without one. -/
lemma unitUnresolved_eq_false (h : AcceptsAll P value) {unit : SemanticUnit} :
    unitUnresolved value unit = false ↔
      (∀ r ∈ unitReferences value unit, r.status = .resolved) ∧
        ∀ hint ∈ value.textEnvelope.contextDependencyHints, unit.span.Contains hint →
          ∃ r ∈ unitReferences value unit, r.marker.Contains hint := by
  rw [unitUnresolved, dependencyHintWithoutReference, valuesAt_unitReferenceIndexes h,
    Bool.or_eq_false_iff]
  refine and_congr (by simp) ?_
  simp [Span.Contains, SemanticUnit.span, SemanticReference.marker]

lemma authorityOverridden_eq_false {U : UnicodeData} {unit : SemanticUnit} :
    authorityOverridden U value unit = false ↔
      (∃ uuid, value.semanticPromptExecutionUuid = some uuid) ∧
        assistantReferenceIsNotRatified U value unit (unitReferenceIndexes value unit)
          (unitRelationIndexes value unit) = false ∧
        assistantPropositionInjection U value unit (unitReferenceIndexes value unit)
          (unitRelationIndexes value unit) = false := by
  rw [authorityOverridden, Bool.or_eq_false_iff, Bool.or_eq_false_iff, and_assoc]
  cases value.semanticPromptExecutionUuid <;> simp

/-- Every proposal of a plan for an accepted answer is sound. -/
theorem proposal_sound {semanticInput : SemanticAnalysisV1Input} {report : ValidationReport}
    (hbinding : validateSemanticBinding P semanticInput value.semanticAnalysis = .ok report)
    (hbound : value.BoundTo semanticInput) {plan : CoveragePlan}
    {proposals : List CandidateProposal}
    (hplan : planCandidateCoverage P value = .ok (plan, proposals)) {p : CandidateProposal}
    (hp : p ∈ proposals) :
    ∃ unit authority mapping, SoundProposal P.unicode value p unit authority mapping := by
  have facts := (validateSemanticBinding_facts hbinding).evidence
  obtain ⟨planned, uncovered, hparts⟩ := planCandidateCoverage_eq_ok.mp hplan
  obtain ⟨unit, fingerprint, basis, horigin⟩ := hparts.origin hp
  have hbasis := horigin.basis_eq
  have hlt := facts.lt unit horigin.mem
  obtain ⟨hresolved, hhints⟩ := (unitUnresolved_eq_false hparts.accepts).mp hbasis.resolved
  obtain ⟨⟨uuid, huuid⟩, -, -⟩ := authorityOverridden_eq_false.mp hbasis.notOverridden
  obtain ⟨hdurable, hasserted, hquestion⟩ := hbasis.assertable
  have hallows := hbasis.allows
  rw [hbasis.provenance] at hallows
  have hrecord := horigin.record_eq
  refine ⟨unit, basis.authority, basis.mapping, ?_⟩
  rw [hrecord]
  exact
    { evidence := by rw [← hbound.rawText]; exact facts.exact unit horigin.mem
      one_authority := (containing_eq_singleton hlt).mp hbasis.containing_eq
      notConflicting := hbasis.notConflicting
      storageAllowed := hbasis.storageAllowed
      ceiling := hbasis.ceiling
      unit_mem := horigin.mem
      unit_id := rfl
      unit_span := rfl
      durable := hdurable
      asserted := hasserted
      notQuestion := hquestion
      resolved := hresolved
      hints := hhints
      promptExecution := by rw [huuid]; simp [proposalRecord, huuid, pyStr]
      mapping_eq := hbasis.mapping
      provenance := hallows }

/-! ### The assistant's words -/

/-- The one assistant item of the context that a reference of a unit resolves to is its only
candidate, and the unit ratifies or corrects it with words of its own. -/
structure AssistantRatified (U : UnicodeData) (value : CoveragePlannerInput) (unit : SemanticUnit)
    (reference : SemanticReference) (item : BoundedContextItem) : Prop where
  only_item : (value.boundedContextItems.filter fun i => i.role = .assistant) = [item]
  only_candidate : reference.candidateReferentIds = [priorContext item.contextItemId]
  own_words : acknowledgementOnly U unit.evidence = false
  ratified : ∃ relation ∈ unitRelations value unit,
    (relation.relationType = .ratifies ∨ relation.relationType = .corrects) ∧
      relation.targetReferentId = priorContext item.contextItemId

/-- Two meaningful tokens of the proposition come from a context item and not from the evidence. -/
def ImportsWords (U : UnicodeData) (unit : SemanticUnit) (item : BoundedContextItem) : Prop :=
  ∃ s t, s ≠ t ∧ ∀ token ∈ [s, t], token ∈ meaningfulTokens U unit.proposition ∧
    token ∉ meaningfulTokens U unit.evidence ∧ token ∈ meaningfulTokens U item.text

/-- The unit both resolves a reference to a context item and ratifies or corrects it. -/
def NamesAndRatifies (value : CoveragePlannerInput) (unit : SemanticUnit)
    (item : BoundedContextItem) : Prop :=
  (∃ r ∈ unitReferences value unit, r.status = .resolved ∧
    r.selectedReferentId = some (priorContext item.contextItemId)) ∧
  ∃ relation ∈ unitRelations value unit,
    (relation.relationType = .ratifies ∨ relation.relationType = .corrects) ∧
      relation.targetReferentId = priorContext item.contextItemId

lemma SemanticRelation.ratifying_eq_true {relation : SemanticRelation} :
    relation.ratifying = true ↔
      relation.relationType = .ratifies ∨ relation.relationType = .corrects := by
  rw [SemanticRelation.ratifying, decide_eq_true_eq]

/-- The context names each of its items. -/
lemma contextItem?_priorContext
    (hnodup : (value.boundedContextItems.map BoundedContextItem.contextItemId).Nodup)
    {item : BoundedContextItem} (hitem : item ∈ value.boundedContextItems) :
    contextItem? (contextsById value.boundedContextItems)
      (some (priorContext item.contextItemId)) = some item := by
  rw [contextItem?, Option.bind_some, priorContext, if_pos (startsWith_append _ _),
    removePrefix_append, contextsById]
  refine Dict.get?_ofPairs_of_mem ?_ (List.mem_map_of_mem hitem)
  rwa [List.map_map]

/-- A context with one assistant name has one assistant item. -/
lemma filter_assistant_eq_singleton {items : List BoundedContextItem}
    (hnodup : (items.map BoundedContextItem.contextItemId).Nodup)
    (hone : (assistantContextIds items).length = 1) {item : BoundedContextItem}
    (hitem : item ∈ items) (hrole : item.role = .assistant) :
    (items.filter fun i => i.role = .assistant) = [item] := by
  have hnames : ((items.filter fun i => i.role = .assistant).map fun i =>
      priorContext i.contextItemId).Nodup := by
    have hids := hnodup.sublist ((List.filter_sublist
      (p := fun i : BoundedContextItem => i.role = .assistant) (l := items)).map
        BoundedContextItem.contextItemId)
    simpa [List.map_map, Function.comp_def] using hids.map priorContext_injective
  rw [assistantContextIds, List.dedup_eq_self.mpr hnames, List.length_map] at hone
  obtain ⟨only, honly⟩ := List.length_eq_one_iff.mp hone
  have hmem : item ∈ items.filter fun i => i.role = .assistant :=
    List.mem_filter.mpr ⟨hitem, by simpa using hrole⟩
  rw [honly, List.mem_singleton] at hmem
  rw [honly, hmem]

/-- A resolved reference of an accepted answer selects one of its candidates. -/
lemma selected_mem_candidates {units : List SemanticUnit} {allowed : List String}
    {reference : SemanticReference} (h : checkReference units allowed reference = .ok ())
    (hresolved : reference.status = .resolved) {selected : String}
    (hselected : reference.selectedReferentId = some selected) :
    selected ∈ reference.candidateReferentIds := by
  simp only [checkReference, hresolved, if_true, Checks.bind_eq_ok, Checks.require_eq_ok] at h
  obtain ⟨_, -, _, -, _, ⟨selected', hsome, hmem⟩, -⟩ := h
  rw [hselected, Option.mem_some_iff] at hsome
  rwa [hsome]

/-- What the reference guard lets through. -/
lemma ratified_of_guard {U : UnicodeData} {unit : SemanticUnit} {referenceIndexes relationIndexes : List ℕ}
    (hguard : assistantReferenceIsNotRatified U value unit referenceIndexes relationIndexes = false)
    {reference : SemanticReference}
    (hreference : reference ∈ valuesAt value.semanticAnalysis.references referenceIndexes)
    {target : String}
    (htarget : assistantTarget (contextsById value.boundedContextItems) unit reference =
      some target) :
    reference.candidateReferentIds.length = 1 ∧
      (assistantContextIds value.boundedContextItems).length = 1 ∧
      value.messageRole = .user ∧ acknowledgementOnly U unit.evidence = false ∧
      ∃ relation ∈ valuesAt value.semanticAnalysis.relations relationIndexes,
        relation.sourceUnitId = unit.id ∧ relation.ratifying = true ∧
          relation.targetReferentId = target := by
  have hmem : target ∈ assistantTargets (contextsById value.boundedContextItems) unit
      (valuesAt value.semanticAnalysis.references referenceIndexes) :=
    List.mem_dedup.mpr (List.mem_filterMap.mpr ⟨reference, hreference, htarget⟩)
  simp only [assistantReferenceIsNotRatified] at hguard
  generalize assistantTargets (contextsById value.boundedContextItems) unit
    (valuesAt value.semanticAnalysis.references referenceIndexes) = targets at hmem hguard
  split_ifs at hguard with hchoice hempty hrole hack
  · exact absurd (List.isEmpty_iff.mp hempty) (List.ne_nil_of_mem hmem)
  · rw [List.any_eq_true] at hchoice
    push Not at hchoice hrole
    have hone := hchoice reference hreference
    simp only [assistantChoice, htarget, ne_eq, decide_eq_true_eq, not_or, not_not] at hone
    obtain ⟨only, rfl⟩ := List.length_eq_one_iff.mp hrole.2
    obtain rfl := List.mem_singleton.mp hmem
    simp only [Bool.not_eq_false', List.any_eq_true, decide_eq_true_eq, List.mem_singleton]
      at hguard
    exact ⟨hone.1, hone.2.1, hrole.1, Bool.eq_false_iff.mpr hack, hguard⟩

/-- What the lexical guard lets through. -/
lemma namesAndRatifies_of_guard {U : UnicodeData} {unit : SemanticUnit}
    {referenceIndexes relationIndexes : List ℕ}
    (hguard : assistantPropositionInjection U value unit referenceIndexes relationIndexes = false)
    {item : BoundedContextItem} (hitem : item ∈ value.boundedContextItems)
    (hrole : item.role = .assistant) (himports : ImportsWords U unit item) :
    (∃ r ∈ valuesAt value.semanticAnalysis.references referenceIndexes,
      r.sourceUnitId = unit.id ∧ r.status = .resolved ∧
        r.selectedReferentId = some (priorContext item.contextItemId)) ∧
    ∃ relation ∈ valuesAt value.semanticAnalysis.relations relationIndexes,
      relation.sourceUnitId = unit.id ∧ relation.ratifying = true ∧
        relation.targetReferentId = priorContext item.contextItemId := by
  obtain ⟨s, t, hne, himported⟩ := himports
  simp only [assistantPropositionInjection] at hguard
  set propositionOnly := ((meaningfulTokens U unit.proposition).filter fun token =>
    !(meaningfulTokens U unit.evidence).contains token).dedup with hdef
  have hfresh : ∀ token ∈ [s, t], token ∈ propositionOnly := by
    intro token htoken
    obtain ⟨hp, he, -⟩ := himported token htoken
    rw [hdef, List.mem_dedup, List.mem_filter]
    exact ⟨hp, by simpa using he⟩
  have two_le {l : List Text} (hl : ∀ token ∈ [s, t], token ∈ l) : 2 ≤ l.length := by
    have hsub : [s, t] ⊆ l := hl
    exact (List.subperm_of_subset (by simpa using hne) hsub).length_le
  rw [if_neg (not_lt.mpr (two_le hfresh))] at hguard
  rw [List.any_eq_false] at hguard
  have hnot := hguard item (List.mem_filter.mpr ⟨hitem, by simpa using hrole⟩)
  have hcount : 2 ≤ (propositionOnly.filter fun token =>
      (meaningfulTokens U item.text).contains token).length := by
    refine two_le fun token htoken => List.mem_filter.mpr ⟨hfresh token htoken, ?_⟩
    simpa using (himported token htoken).2.2
  simp only [Bool.and_eq_true, decide_eq_true_eq, Bool.not_eq_true', not_and, Bool.not_eq_false,
    List.any_eq_true] at hnot
  exact hnot hcount

/-- A proposal speaks as the user only for the user's own message, and the assistant's words enter
a proposal only through a unit that names and ratifies them. -/
theorem proposal_ratified {semanticInput : SemanticAnalysisV1Input} {report : ValidationReport}
    (hbinding : validateSemanticBinding P semanticInput value.semanticAnalysis = .ok report)
    (hbound : value.BoundTo semanticInput) {plan : CoveragePlan}
    {proposals : List CandidateProposal}
    (hplan : planCandidateCoverage P value = .ok (plan, proposals)) {p : CandidateProposal}
    (hp : p ∈ proposals) :
    (p.sourceAuthority = SourceAuthority.userExplicit.value →
      value.messageRole = .user ∧ value.importedRecord = false) ∧
    ∃ unit ∈ value.semanticAnalysis.semanticUnits, unit.id = p.semanticUnitId ∧
      (∀ item ∈ value.boundedContextItems, item.role = .assistant →
        ∀ r ∈ unitReferences value unit, r.status = .resolved →
          r.selectedReferentId = some (priorContext item.contextItemId) →
            AssistantRatified P.unicode value unit r item) ∧
      ∀ item ∈ value.boundedContextItems, item.role = .assistant →
        ImportsWords P.unicode unit item → NamesAndRatifies value unit item := by
  have facts := validateSemanticBinding_facts hbinding
  have hnodup : (value.boundedContextItems.map BoundedContextItem.contextItemId).Nodup := by
    rw [← hbound.context]
    exact facts.contextNodup
  obtain ⟨planned, uncovered, hparts⟩ := planCandidateCoverage_eq_ok.mp hplan
  obtain ⟨unit, fingerprint, basis, horigin⟩ := hparts.origin hp
  have hbasis := horigin.basis_eq
  have hreferences := valuesAt_unitReferenceIndexes hparts.accepts unit
  have hrelations := valuesAt_unitRelationIndexes hparts.accepts unit
  obtain ⟨-, hreference, hinjection⟩ := authorityOverridden_eq_false.mp hbasis.notOverridden
  refine ⟨fun huser => ?_, unit, horigin.mem, by rw [horigin.record_eq]; rfl, ?_, ?_⟩
  · rw [horigin.record_eq] at huser
    have hauthority := SourceAuthority.value_injective huser
    rw [hbasis.provenance] at hauthority
    exact decideCandidateProvenance_userExplicit hauthority
  · intro item hitem hrole r hr hresolved hselected
    have hsource : r.sourceUnitId = unit.id := by simpa using (List.mem_filter.mp hr).2
    have htarget : assistantTarget (contextsById value.boundedContextItems) unit r =
        some (priorContext item.contextItemId) := by
      rw [assistantTarget, if_neg (by simp [hsource, hresolved]), hselected,
        contextItem?_priorContext hnodup hitem]
      simp [hrole]
    obtain ⟨hcandidates, hassistants, -, hack, relation, hrelation, -, hratifying, hrelationTarget⟩ :=
      ratified_of_guard hreference (by rw [hreferences]; exact hr) htarget
    rw [hrelations] at hrelation
    refine ⟨filter_assistant_eq_singleton hnodup hassistants hitem hrole, ?_, hack, relation,
      hrelation, SemanticRelation.ratifying_eq_true.mp hratifying, hrelationTarget⟩
    have hmem := selected_mem_candidates (facts.reference r (List.mem_filter.mp hr).1) hresolved
      hselected
    obtain ⟨only, honly⟩ := List.length_eq_one_iff.mp hcandidates
    rw [honly, List.mem_singleton] at hmem
    rw [honly, hmem]
  · intro item hitem hrole himports
    obtain ⟨⟨r, hr, -, hresolved, hselected⟩, relation, hrelation, -, hratifying, htarget⟩ :=
      namesAndRatifies_of_guard hinjection hitem hrole himports
    rw [hreferences] at hr
    rw [hrelations] at hrelation
    exact ⟨⟨r, hr, hresolved, hselected⟩, relation, hrelation,
      SemanticRelation.ratifying_eq_true.mp hratifying, htarget⟩

end

/-! ### A ratified message -/

/-- A user's answer to the assistant. -/
def tabsMessage : Text := "I agree, use tabs please".toList

/-- What the assistant had said. -/
def tabsContext : BoundedContextItem where
  contextItemId := "c1"
  userUuid := "u"
  sessionUuid := "s"
  workspaceUuid := none
  projectUuid := none
  messageUuid := "m0"
  messageVersionUuid := none
  textUnitUuid := "t0"
  role := .assistant
  turnIndex := 0
  unitIndex := 0
  rawStart := 0
  rawEnd := 14
  text := "tabs or spaces".toList
  rawTextHash := checksum "tabs or spaces".toList
  sourceAuthorityCeiling := .assistantClaim

/-- The model's answer: one unit that names and ratifies what the assistant said. -/
def tabsAnalysis : SemanticAnalysisV1Output where
  status := .ok
  semanticUnits :=
    [{ id := "u1", rawStart := 0, rawEnd := 24, evidence := tabsMessage
       proposition := "the user wants tabs or spaces".toList
       unitType := .statement, durability := .durable, polarity := .affirmed
       epistemicStatus := .asserted, memoryKind := some .preference }]
  references :=
    [{ id := "r1", sourceUnitId := "u1", markerStart := 13, markerEnd := 17
       markerEvidence := "tabs".toList, status := .resolved
       candidateReferentIds := ["prior_context:c1"]
       selectedReferentId := some "prior_context:c1" }]
  relations :=
    [{ id := "x1", relationType := .ratifies, sourceUnitId := "u1"
       targetReferentId := "prior_context:c1", evidenceStart := 2, evidenceEnd := 7
       evidence := "agree".toList }]

/-- The manifest of the answer. -/
def tabsManifest : SemanticAnalysisV1Input where
  currentMessageUuid := "m1"
  currentMessageVersionUuid := none
  currentRawText := tabsMessage
  textEnvelope := (buildEnvelope latinPlatform tabsMessage).asDict
  boundedContextItems := [tabsContext]
  boundary :=
    { userUuid := "u", sessionUuid := "s", workspaceUuid := none, projectUuid := none
      effectiveLimit := 2, dependencyExpansion := false }

/-- The planner's input for the answer. -/
def tabsInput : CoveragePlannerInput where
  messageUuid := "m1"
  messageRole := .user
  processingRunUuid := "p1"
  currentRawText := tabsMessage
  textEnvelope := (buildEnvelope latinPlatform tabsMessage).asDict
  semanticAnalysis := tabsAnalysis
  acceptedUnitIds := ["u1"]
  acceptedReferenceIndexes := [0]
  acceptedRelationIndexes := [0]
  authorities :=
    [{ textUnitUuid := "t1", rawStart := 0, rawEnd := 24, annotationUuid := none
       gateDecisionUuid := none, gateDecision := none, routeUuid := none, routeType := none
       routeStatus := none, privacyCeiling := .normal, privacyStorageAllowed := true
       orderedSpan := by decide }]
  semanticPromptExecutionUuid := some "e1"
  semanticContractHash := "h"
  boundedContextItems := [tabsContext]

lemma tabs_boundTo : tabsInput.BoundTo tabsManifest := ⟨rfl, rfl, rfl, rfl⟩

lemma tabs_accepted : ∃ report,
    validateSemanticBinding latinPlatform tabsManifest tabsInput.semanticAnalysis = .ok report := by
  have h : (validateSemanticBinding latinPlatform tabsManifest tabsAnalysis).toOption.map
      ValidationReport.ok = some true := by decide +kernel
  obtain ⟨report, hreport, -⟩ := Checks.ok_of_toOption_map h
  exact ⟨report, hreport⟩

lemma tabs_planned : ∃ plan proposals, planCandidateCoverage latinPlatform tabsInput =
    .ok (plan, proposals) ∧ proposals.length = 1 := by
  have h : (planCandidateCoverage latinPlatform tabsInput).toOption.map
      (fun r => r.2.length) = some 1 := by decide +kernel
  obtain ⟨⟨plan, proposals⟩, hplan, hlength⟩ := Checks.ok_of_toOption_map h
  exact ⟨plan, proposals, hplan, hlength⟩

theorem proposal_sound_tabs : ∃ plan proposals,
    planCandidateCoverage latinPlatform tabsInput = .ok (plan, proposals) ∧
      proposals.length = 1 ∧ ∀ p ∈ proposals, ∃ unit authority mapping,
        SoundProposal basicLatin tabsInput p unit authority mapping := by
  obtain ⟨report, hreport⟩ := tabs_accepted
  obtain ⟨plan, proposals, hplan, hlength⟩ := tabs_planned
  exact ⟨plan, proposals, hplan, hlength,
    fun p hp => proposal_sound hreport tabs_boundTo hplan hp⟩

theorem proposal_ratified_tabs : ∃ plan proposals,
    planCandidateCoverage latinPlatform tabsInput = .ok (plan, proposals) ∧
      proposals.length = 1 ∧ ∀ p ∈ proposals,
        ∃ unit ∈ tabsInput.semanticAnalysis.semanticUnits, unit.id = p.semanticUnitId ∧
          ∀ r ∈ unitReferences tabsInput unit, r.status = .resolved →
            r.selectedReferentId = some (priorContext tabsContext.contextItemId) →
              AssistantRatified basicLatin tabsInput unit r tabsContext := by
  obtain ⟨report, hreport⟩ := tabs_accepted
  obtain ⟨plan, proposals, hplan, hlength⟩ := tabs_planned
  refine ⟨plan, proposals, hplan, hlength, fun p hp => ?_⟩
  obtain ⟨-, unit, hunit, hid, hratified, -⟩ := proposal_ratified hreport tabs_boundTo hplan hp
  exact ⟨unit, hunit, hid, hratified tabsContext (List.mem_singleton_self _) rfl⟩

end Memorist
