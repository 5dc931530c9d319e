import Memorist.Semantic.Binding
import Memorist.Semantic.Provenance
import Memorist.Text.CanonicalHash

/-!
The records of the coverage planner (`memory_worker/semantic/coverage/contracts.py`).

* `PersistedUnitAuthority`: the stored authority of one text unit, a non-empty range by
  construction;
* `CoveragePlannerInput`: everything a plan depends on;
* `CoverageItem`, `CoveragePlan`, `CandidateProposal`: what a plan consists of, and the
  check a proposal passes on construction.
-/

namespace Memorist

open Checks (require)

/-- The version of a plan. -/
def coveragePlanVersion : String := "memorist.semantic_candidate.coverage_plan.v1"

/-- The version of the planner. -/
def coveragePlannerVersion : String := "memorist.semantic_candidate.coverage_planner.v1"

/-- What becomes of a range of the message. -/
inductive CoverageDisposition where
  | durableCandidate
  | contextOnly
  | transientInstruction
  | unresolvedReference
  | rejectedByGate
  | needsReview
  | unsupported
  deriving DecidableEq, Repr

/-- The text of a disposition. -/
def CoverageDisposition.value : CoverageDisposition → String
  | durableCandidate => "durable_candidate"
  | contextOnly => "context_only"
  | transientInstruction => "transient_instruction"
  | unresolvedReference => "unresolved_reference"
  | rejectedByGate => "rejected_by_gate"
  | needsReview => "needs_review"
  | unsupported => "unsupported"

/-- The persisted route, gate and annotation authority of one text unit. -/
structure PersistedUnitAuthority where
  textUnitUuid : String
  rawStart : ℕ
  rawEnd : ℕ
  annotationUuid : Option String
  gateDecisionUuid : Option String
  gateDecision : Option String
  routeUuid : Option String
  routeType : Option String
  routeStatus : Option String
  privacyCeiling : SensitivityClass
  privacyStorageAllowed : Bool
  conflictingAuthority : Bool := false
  orderedSpan : rawStart < rawEnd
  deriving DecidableEq, Repr

/-- The raw range of an authority. -/
def PersistedUnitAuthority.span (a : PersistedUnitAuthority) : Span := ⟨a.rawStart, a.rawEnd⟩

/-- The authority marked as conflicting, whatever it was. -/
def PersistedUnitAuthority.conflicting (a : PersistedUnitAuthority) : PersistedUnitAuthority :=
  { a with conflictingAuthority := true }

/-- The input of the planner. -/
structure CoveragePlannerInput where
  messageUuid : String
  messageRole : MessageRole
  processingRunUuid : String
  currentRawText : Text
  textEnvelope : EnvelopeDict
  semanticAnalysis : SemanticAnalysisV1Output
  acceptedUnitIds : List String
  acceptedReferenceIndexes : List ℕ
  acceptedRelationIndexes : List ℕ
  authorities : List PersistedUnitAuthority
  semanticPromptExecutionUuid : Option String
  semanticContractHash : String
  boundedContextItems : List BoundedContextItem
  importedRecord : Bool := false
  deriving DecidableEq, Repr

/-- What the plan says of one range. -/
structure CoverageItem where
  coverageItemId : String
  semanticUnitId : Option String
  rawStart : ℕ
  rawEnd : ℕ
  disposition : CoverageDisposition
  reasonCodes : List String
  gateDecisionUuid : Option String
  routeUuid : Option String
  proposalId : Option String
  deriving DecidableEq, Repr

/-- The raw range of an item. -/
def CoverageItem.span (item : CoverageItem) : Span := ⟨item.rawStart, item.rawEnd⟩

/-- The status of a plan. -/
inductive PlanStatus where
  | complete
  | abstain
  | retainRawOnly
  | needsReview
  deriving DecidableEq, Repr

/-- The text of a plan's status. -/
def PlanStatus.value : PlanStatus → String
  | complete => "complete"
  | abstain => "abstain"
  | retainRawOnly => "retain_raw_only"
  | needsReview => "needs_review"

/-- The plan of a message. -/
structure CoveragePlan where
  planVersion : String
  messageUuid : String
  rawTextHash : String
  processingRunUuid : String
  semanticPromptExecutionUuid : Option String
  semanticContractHash : String
  status : PlanStatus
  items : List CoverageItem
  warnings : List String
  coverageHash : String
  deriving DecidableEq, Repr

/-- A context item a reference of a proposal resolves to. -/
structure ContextLineage where
  contextItemId : String
  messageUuid : String
  messageVersionUuid : Option String
  textUnitUuid : String
  role : ContextRole
  rawStart : ℕ
  rawEnd : ℕ
  rawTextHash : String
  sourceAuthorityCeiling : AuthorityCeiling
  referenceMarkerStart : ℕ
  referenceMarkerEnd : ℕ
  semanticContractHash : String
  deriving DecidableEq, Repr

/-- A memory candidate the plan proposes. -/
structure CandidateProposal where
  proposalId : String
  semanticUnitId : String
  messageUuid : String
  textUnitUuid : String
  rawStart : ℕ
  rawEnd : ℕ
  evidence : Text
  candidateType : String
  subjectKey : String
  predicate : String
  objectPayload : List (String × Text)
  normalizedText : Text
  polarity : SemanticPolarity
  epistemicStatus : SemanticEpistemicStatus
  durability : SemanticDurability
  sourceAuthority : String
  explicitness : String
  privacyCeiling : SensitivityClass
  status : String
  gateDecisionUuid : Option String
  routeUuid : Option String
  annotationUuid : Option String
  promptExecutionUuid : String
  contextLineage : List ContextLineage
  reasonCodes : List String
  automaticCandidateCreationAllowed : Bool
  semanticUnitFingerprint : String
  deriving DecidableEq, Repr

/-- The raw range of a proposal. -/
def CandidateProposal.span (p : CandidateProposal) : Span := ⟨p.rawStart, p.rawEnd⟩

/-- The texts of a proposal that may not be empty. -/
def CandidateProposal.modelValidate (p : CandidateProposal) : Except String Unit := do
  nonEmpty "proposal_id" p.proposalId.toList
  nonEmpty "semantic_unit_id" p.semanticUnitId.toList
  nonEmpty "message_uuid" p.messageUuid.toList
  nonEmpty "text_unit_uuid" p.textUnitUuid.toList
  positive "raw_end" p.rawEnd
  nonEmpty "evidence" p.evidence
  forM p.gateDecisionUuid.toList fun uuid => nonEmpty "gate_decision_uuid" uuid.toList
  forM p.routeUuid.toList fun uuid => nonEmpty "route_uuid" uuid.toList
  forM p.annotationUuid.toList fun uuid => nonEmpty "annotation_uuid" uuid.toList
  nonEmpty "prompt_execution_uuid" p.promptExecutionUuid.toList

end Memorist
