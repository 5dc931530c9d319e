import Memorist.Coverage.AuthorityIndex
import Memorist.Coverage.Guards
import Memorist.Coverage.Policy
import Memorist.Coverage.Sweep

/-!
The coverage planner (`memory_worker/semantic/coverage/planner.py`).

* `decideUnit`: the disposition of a unit, and the basis of its proposal if it has one;
* `planUnit`: its coverage item and its proposal, with their identities;
* `uncoveredItems`: the items of the text no unit covers;
* `planCandidateCoverage`: the plan of a message and its proposals.
-/

namespace Memorist

open Checks (require)

/-! ### The decision on a unit -/

/-- The indexes of records under the unit they come from. -/
def indexesBySource {α : Type} (sourceUnitId : α → String) (values : List α)
    (acceptedIndexes : List ℕ) : Dict String (List ℕ) :=
  Dict.groupBy (fun index => (values[index]?.map sourceUnitId).getD "") acceptedIndexes

/-- The accepted references of a unit. -/
def unitReferenceIndexes (value : CoveragePlannerInput) (unit : SemanticUnit) : List ℕ :=
  ((indexesBySource SemanticReference.sourceUnitId value.semanticAnalysis.references
    value.acceptedReferenceIndexes).get? unit.id).getD []

/-- The accepted relations of a unit. -/
def unitRelationIndexes (value : CoveragePlannerInput) (unit : SemanticUnit) : List ℕ :=
  ((indexesBySource SemanticRelation.sourceUnitId value.semanticAnalysis.relations
    value.acceptedRelationIndexes).get? unit.id).getD []

section

variable (U : UnicodeData)

/-- Whether the authority of a unit is overridden: no prompt execution vouches for it, or it brings
in the assistant's words. -/
def authorityOverridden (value : CoveragePlannerInput) (unit : SemanticUnit) : Bool :=
  value.semanticPromptExecutionUuid.isNone ||
    assistantReferenceIsNotRatified U value unit (unitReferenceIndexes value unit)
      (unitRelationIndexes value unit) ||
    assistantPropositionInjection U value unit (unitReferenceIndexes value unit)
      (unitRelationIndexes value unit)

/-- The authority of a unit among those that contain it. -/
def unitAuthority (value : CoveragePlannerInput) (unit : SemanticUnit)
    (containing : List PersistedUnitAuthority) : Option PersistedUnitAuthority :=
  match containing with
  | [a] => some (if authorityOverridden U value unit then a.conflicting else a)
  | _ => none

/-- The candidate of the unit's memory kind. -/
def semanticMapping (value : CoveragePlannerInput) (unit : SemanticUnit) :
    Option RouteCandidateMapping :=
  if unit.memoryKind.isSome then
    candidateMappingForSemanticUnit U unit.unitType unit.proposition value.messageUuid
      unit.memoryKind
  else none

/-- The candidate of the stored route. -/
def legacyMapping (value : CoveragePlannerInput) (unit : SemanticUnit)
    (authority : Option PersistedUnitAuthority) : Option RouteCandidateMapping :=
  authority.bind fun a =>
    candidateMappingForRoute U a.routeType unit.proposition (some value.messageUuid)

/-- The candidate of the unit's type. -/
def historicalUnitMapping (value : CoveragePlannerInput) (unit : SemanticUnit) :
    Option RouteCandidateMapping :=
  candidateMappingForSemanticUnit U unit.unitType unit.proposition value.messageUuid none

/-- The candidate of a unit: of its memory kind, else of its stored route, else of its type. -/
def unitMapping (value : CoveragePlannerInput) (unit : SemanticUnit)
    (authority : Option PersistedUnitAuthority) : Option RouteCandidateMapping :=
  ((semanticMapping U value unit).or (legacyMapping U value unit authority)).or
    (historicalUnitMapping U value unit)

/-- Whether a reference of the unit is open, or a hint inside it has no reference. -/
def unitUnresolved (value : CoveragePlannerInput) (unit : SemanticUnit) : Bool :=
  ((valuesAt value.semanticAnalysis.references (unitReferenceIndexes value unit)).any
    fun reference => reference.status ≠ .resolved) ||
  dependencyHintWithoutReference value unit.rawStart unit.rawEnd (unitReferenceIndexes value unit)

/-- What a proposal rests on. -/
structure CandidateBasis where
  authority : PersistedUnitAuthority
  mapping : RouteCandidateMapping
  provenance : CandidateProvenanceDecision

/-- What is decided of a unit. -/
structure UnitDecision where
  disposition : CoverageDisposition
  reasons : List String
  authority : Option PersistedUnitAuthority
  basis : Option CandidateBasis

/-- Decide on a unit among the authorities that contain it. -/
def decideUnit (value : CoveragePlannerInput) (unit : SemanticUnit)
    (containing : List PersistedUnitAuthority) : UnitDecision :=
  let authority := unitAuthority U value unit containing
  let mapping := unitMapping U value unit authority
  let decision := dispositionForUnit unit authority containing.length (unitUnresolved value unit)
    mapping.isSome
  match decision.disposition, authority, mapping with
  | .durableCandidate, some a, some m =>
      let provenance := decideCandidateProvenance value.messageRole m.routeType m.status
        value.importedRecord
      if provenance.allowsCandidateCreation = false ∨
          provenance.allowsAutomaticMemoryCreation = false ∨
          m.status ≠ .readyForConsolidation then
        let refused := dispositionForUnit unit (some a.conflicting) 1 false true
        { disposition := refused.disposition
          reasons := refused.reasonCodes ++ provenance.reasonCodes
          authority
          basis := none }
      else
        { disposition := decision.disposition
          reasons := decision.reasonCodes
          authority
          basis := some ⟨a, m, provenance⟩ }
  | disposition, _, _ =>
      { disposition, reasons := decision.reasonCodes, authority, basis := none }

end

/-! ### The records of a unit -/

section

variable (P : Platform)

/-- What identifies the proposal of a unit. -/
def proposalMaterial (value : CoveragePlannerInput) (unit : SemanticUnit) (fingerprint : String)
    (basis : CandidateBasis) : ProposalMaterial where
  plannerVersion := coveragePlannerVersion
  messageUuid := value.messageUuid
  rawTextHash := P.sha256 value.currentRawText
  semanticContractHash := value.semanticContractHash
  unitFingerprint := fingerprint
  rawStart := unit.rawStart
  rawEnd := unit.rawEnd
  routeType :=
    if (semanticMapping P.unicode value unit).isSome then basis.mapping.routeType.value
    else pyStr basis.authority.routeType
  routeStatus :=
    if (semanticMapping P.unicode value unit).isSome then basis.mapping.status.value
    else pyStr basis.authority.routeStatus
  -- the gate is audit metadata, kept so that historical identities stay
  gateDecision :=
    match basis.authority.gateDecision with
    | none => "semantic_model_led"
    | some gate => if gate = "" then "semantic_model_led" else gate
  sourceAuthority := basis.provenance.sourceAuthority.value
  coverageDisposition := CoverageDisposition.durableCandidate.value

/-- The proposal of a unit, under its identity. -/
def proposalRecord (value : CoveragePlannerInput) (unit : SemanticUnit) (fingerprint : String)
    (reasons : List String) (basis : CandidateBasis) (proposalId : String) :
    CandidateProposal where
  proposalId := proposalId
  semanticUnitId := unit.id
  messageUuid := value.messageUuid
  textUnitUuid := basis.authority.textUnitUuid
  rawStart := unit.rawStart
  rawEnd := unit.rawEnd
  evidence := unit.evidence
  candidateType := basis.mapping.candidateType.value
  subjectKey := basis.mapping.subjectKey
  predicate := basis.mapping.predicate
  objectPayload := [("value", basis.mapping.objectValue)]
  normalizedText := basis.mapping.normalizedText
  polarity := unit.polarity
  epistemicStatus := unit.epistemicStatus
  durability := unit.durability
  sourceAuthority := basis.provenance.sourceAuthority.value
  explicitness := basis.provenance.explicitness.value
  privacyCeiling := basis.authority.privacyCeiling
  status := basis.provenance.status.value
  gateDecisionUuid := basis.authority.gateDecisionUuid
  routeUuid := basis.authority.routeUuid
  annotationUuid := basis.authority.annotationUuid
  promptExecutionUuid := pyStr value.semanticPromptExecutionUuid
  contextLineage := contextLineage value unit.id (unitReferenceIndexes value unit)
  reasonCodes := (reasons ++ basis.provenance.reasonCodes).eraseDups
  automaticCandidateCreationAllowed := true
  semanticUnitFingerprint := fingerprint

/-- Build and check the proposal of a unit. -/
def buildProposal (value : CoveragePlannerInput) (unit : SemanticUnit) (fingerprint : String)
    (reasons : List String) (basis : CandidateBasis) : Except String CandidateProposal := do
  let proposalId ← proposalIdentity P (proposalMaterial P value unit fingerprint basis)
  let proposal := proposalRecord value unit fingerprint reasons basis proposalId
  proposal.modelValidate
  pure proposal

/-- The coverage item of a range. -/
def coverageItem (value : CoveragePlannerInput) (semanticUnitId fingerprint : Option String)
    (span : Span) (disposition : CoverageDisposition) (reasonCodes : List String)
    (authority : Option PersistedUnitAuthority) (proposalId : Option String) :
    Except String CoverageItem := do
  let coverageItemId ← coverageItemIdentity P
    [field "planner_version" (jsonString coveragePlannerVersion),
     field "message_uuid" (jsonString value.messageUuid),
     field "raw_text_hash" (jsonString value.textEnvelope.rawTextHash),
     field "semantic_contract_hash" (jsonString value.semanticContractHash),
     field "semantic_unit_fingerprint" (jsonOption fingerprint),
     field "raw_start" (jsonNat span.start),
     field "raw_end" (jsonNat span.stop),
     field "disposition" (jsonString disposition.value),
     field "reason_codes" (.arr (reasonCodes.map jsonString)),
     field "proposal_id" (jsonOption proposalId)]
  nonEmpty "coverage_item_id" coverageItemId.toList
  positive "raw_end" span.stop
  pure
    { coverageItemId, semanticUnitId
      rawStart := span.start
      rawEnd := span.stop
      disposition, reasonCodes
      gateDecisionUuid := authority.bind PersistedUnitAuthority.gateDecisionUuid
      routeUuid := authority.bind PersistedUnitAuthority.routeUuid
      proposalId }

/-- The coverage item and the proposal of a unit. -/
def planUnit (value : CoveragePlannerInput) (index : AuthorityIndex) (unit : SemanticUnit) :
    Except String (CoverageItem × Option CandidateProposal) := do
  let decision := decideUnit P.unicode value unit (index.containing unit.rawStart unit.rawEnd)
  let fingerprint ← semanticUnitFingerprint P unit value.semanticAnalysis
    (unitReferenceIndexes value unit) (unitRelationIndexes value unit) value.boundedContextItems
  let proposal ← decision.basis.mapM (buildProposal P value unit fingerprint decision.reasons)
  let item ← coverageItem P value (some unit.id) (some fingerprint) unit.span
    decision.disposition decision.reasons.eraseDups decision.authority
    (proposal.map CandidateProposal.proposalId)
  pure (item, proposal)

/-! ### Uncovered text -/

/-- The one authority that contains a token, by name. -/
def tokenAuthorityKey (index : AuthorityIndex) (token : Span) : Option String :=
  match index.containing token.start token.stop with
  | [a] => some a.textUnitUuid
  | _ => none

/-- Whether a token continues a run: the same authority, and nothing alphanumeric in between. -/
def tokensJoin (U : UnicodeData) (raw : Text) (index : AuthorityIndex) (previous token : Span) :
    Bool :=
  tokenAuthorityKey index token == tokenAuthorityKey index previous &&
    !(slice raw previous.stop token.start).any U.isalnum

/-- The runs of tokens that no unit overlaps. -/
def uncoveredGroups (value : CoveragePlannerInput) (units : List SemanticUnit)
    (index : AuthorityIndex) : List (List Span) :=
  groupTokens (tokensJoin P.unicode value.currentRawText index)
    (tokensOutsideIntervals value.textEnvelope.tokens
      (mergeIntervals (units.map SemanticUnit.span)))

/-- The coverage items of the text no unit covers. -/
def uncoveredItems (value : CoveragePlannerInput) (units : List SemanticUnit)
    (index : AuthorityIndex) : Except String (List CoverageItem) :=
  (uncoveredGroups P value units index).mapM fun group =>
    let span := groupSpan group
    let authority := match index.containing span.start span.stop with
      | [a] => some a
      | _ => none
    coverageItem P value none none span .unsupported ["uncovered_material"] authority none

/-! ### The plan -/

/-- The order of items. -/
def itemKey (item : CoverageItem) : ℕ ×ₗ ℕ ×ₗ List Char :=
  toLex (item.rawStart, toLex (item.rawEnd, (item.semanticUnitId.getD "").toList))

/-- Check a plan for gaps and doubles. -/
def assertComplete (value : CoveragePlannerInput) (items : List CoverageItem)
    (proposals : List CandidateProposal) : Except String Unit := do
  let unitIds := items.filterMap CoverageItem.semanticUnitId
  require (unitIds.length = value.acceptedUnitIds.length)
    "coverage must contain exactly one item per accepted unit"
  require unitIds.Nodup "coverage contains duplicate semantic units"
  require (items.map CoverageItem.coverageItemId).Nodup "coverage item identity collision"
  let durable := items.filter fun item => item.disposition = .durableCandidate
  require ((∀ item ∈ durable, ∃ p ∈ proposals, item.proposalId = some p.proposalId) ∧
      ∀ p ∈ proposals, ∃ item ∈ durable, item.proposalId = some p.proposalId)
    "durable coverage and proposals are inconsistent"
  require (∀ item ∈ items, item.proposalId.isSome → item.disposition = .durableCandidate)
    "only durable coverage may name a proposal"

/-- The status of a plan. -/
def planStatus (value : CoveragePlannerInput) (items : List CoverageItem) : PlanStatus :=
  let dispositions := items.map CoverageItem.disposition
  if value.semanticAnalysis.status = .abstain then .abstain
  else if .needsReview ∈ dispositions then .needsReview
  else if dispositions ≠ [] ∧ ∀ d ∈ dispositions, d = .rejectedByGate then .retainRawOnly
  else .complete

/-- The warnings of a plan. -/
def planWarnings (value : CoveragePlannerInput) : List String :=
  if value.semanticAnalysis.status = .abstain then ["semantic_model_abstained"] else []

/-- The hashed form of an item. -/
def CoverageItem.json (item : CoverageItem) : IJson :=
  .obj
    [field "coverage_item_id" (jsonString item.coverageItemId),
     field "semantic_unit_id" (jsonOption item.semanticUnitId),
     field "raw_start" (jsonNat item.rawStart),
     field "raw_end" (jsonNat item.rawEnd),
     field "disposition" (jsonString item.disposition.value),
     field "reason_codes" (.arr (item.reasonCodes.map jsonString)),
     field "gate_decision_uuid" (jsonOption item.gateDecisionUuid),
     field "route_uuid" (jsonOption item.routeUuid),
     field "proposal_id" (jsonOption item.proposalId)]

/-- What a plan is hashed by. -/
def planMaterial (value : CoveragePlannerInput) (items : List CoverageItem) : IJson :=
  .obj
    [field "coverage_plan_version" (jsonString coveragePlanVersion),
     field "message_uuid" (jsonString value.messageUuid),
     field "raw_text_hash" (jsonString (P.sha256 value.currentRawText)),
     field "processing_run_uuid" (jsonString value.processingRunUuid),
     field "semantic_prompt_execution_uuid" (jsonOption value.semanticPromptExecutionUuid),
     field "semantic_contract_hash" (jsonString value.semanticContractHash),
     field "status" (jsonString (planStatus value items).value),
     field "items" (.arr (items.map CoverageItem.json)),
     field "warnings" (.arr ((planWarnings value).map jsonString))]

/-- The plan of the items, under its digest. -/
def planRecord (value : CoveragePlannerInput) (items : List CoverageItem) (coverageHash : String) :
    CoveragePlan where
  planVersion := coveragePlanVersion
  messageUuid := value.messageUuid
  rawTextHash := P.sha256 value.currentRawText
  processingRunUuid := value.processingRunUuid
  semanticPromptExecutionUuid := value.semanticPromptExecutionUuid
  semanticContractHash := value.semanticContractHash
  status := planStatus value items
  items := items
  warnings := planWarnings value
  coverageHash := coverageHash

/-- Check that an input accepts every record of its analysis, in order. -/
def checkAccepted (value : CoveragePlannerInput) : Except String Unit := do
  let analysis := value.semanticAnalysis
  require (value.textEnvelope.rawTextHash = P.sha256 value.currentRawText)
    "TextEnvelope does not bind the current raw message"
  require (value.acceptedUnitIds = analysis.semanticUnits.map SemanticUnit.id)
    "accepted unit IDs must cover every semantic output unit in order"
  require (value.acceptedReferenceIndexes = List.range analysis.references.length)
    "accepted reference indexes must cover every semantic reference in order"
  require (value.acceptedRelationIndexes = List.range analysis.relations.length)
    "accepted relation indexes must cover every semantic relation in order"
  require ((analysis.semanticUnits.filter fun u => u.id ∈ value.acceptedUnitIds).length =
      value.acceptedUnitIds.dedup.length)
    "accepted unit IDs must name semantic output units"

/-- Assign complete coverage and at most one proposal per accepted unit. -/
def planCandidateCoverage (value : CoveragePlannerInput) :
    Except String (CoveragePlan × List CandidateProposal) := do
  checkAccepted P value
  let units := value.semanticAnalysis.semanticUnits.filter fun u => u.id ∈ value.acceptedUnitIds
  let index := AuthorityIndex.ofAuthorities value.authorities
  let planned ← units.mapM (planUnit P value index)
  let proposals := planned.filterMap Prod.snd
  let uncovered ← uncoveredItems P value units index
  let items := KeySort.sortBy itemKey (planned.map Prod.fst ++ uncovered)
  assertComplete value items proposals
  let coverageHash ← canonicalHashIjson P (planMaterial P value items)
  pure (planRecord P value items coverageHash, proposals)

end

end Memorist
