import Memorist.Coverage.Planner
import Memorist.Library.Table
import Memorist.Semantic.Candidate
import Memorist.Text.PyRepr

/-!
The store of coverage plans and their candidates (`repositories/semantic_coverage.py`,
`memory_worker/semantic_coverage_persistence.py`, `migrations/0037_semantic_coverage_audit.sql`).

* `CoverageStore`: the tables, with their unique indexes;
* `buildCandidateFromProposal`, `deterministicEvidence`, `candidatePayloadHash`: the candidate of a
  proposal, its evidence and the digest of both (`memory_worker/semantic/candidate_service.py`);
* `persistPlan`, `reserveCandidate`, `createAndLinkCandidate`: the commands, each one transaction: a
  command that fails leaves the tables as they were;
* `createCandidates`: the loop over the proposals of a plan
  (`memory_worker/semantic/orchestration.py`).

Times, foreign keys, the lease fence between proposals and the scores of a candidate, which follow
from its other columns, are left out, and so is that names have the form of UUIDs: they are texts. The evidence of proposals is primary and supporting, and the
texts of candidates are canonical, so that they are stored as they are.
-/

namespace Memorist

open Checks (require)

/-! ### Rows -/

/-- The version of the candidates of routes. -/
def routeCandidateMappingVersion : String := "pr4d-route-candidate-mapper-v1"

/-- The version of the provenance of candidates. -/
def provenancePolicyVersion : String := "pr4d-provenance-policy-v1"

/-- The version of the privacy of plans. -/
def semanticPrivacyPolicyVersion : String := "wp02-privacy-ceiling-v1"

/-- The version of the service that builds candidates. -/
def candidateServiceVersion : String := "pr4d-candidate-service-v1"

/-- The namespace of coverage runs. -/
def coverageRunNamespace : String := "16617151-5e87-54b0-b538-376911bb1959"

/-- The namespace of evidence. -/
def evidenceNamespace : String := "478e7c02-f908-55ef-b60e-a37b8b82ae12"

/-- What a plan is stored with. -/
structure CoveragePersistenceBindings where
  messageVersionUuid : Option String
  textEnvelopeContractVersion : String
  semanticUnitFingerprints : Dict String String
  annotationUuids : Dict String (Option String)
  routeMappingVersion : String := routeCandidateMappingVersion
  provenancePolicyVersion : String := Memorist.provenancePolicyVersion
  privacyPolicyVersion : String := semanticPrivacyPolicyVersion

/-- The authority a candidate was planned under. -/
structure CandidateAuthorityBinding where
  processingRunUuid : String
  textUnitUuid : String
  gateDecisionUuid : String
  gateDecision : String
  annotationUuid : String
  routeUuid : String
  routeType : String
  routeStatus : String
  deriving DecidableEq, Repr

/-- A row of `semantic_coverage_runs`. -/
structure CoverageRunRow where
  coverageRunUuid : String
  coveragePlanVersion : String
  coverageHash : String
  messageUuid : String
  messageVersionUuid : Option String
  processingRunUuid : String
  semanticPromptExecutionUuid : Option String
  rawTextHash : String
  textEnvelopeContractVersion : String
  semanticContractHash : String
  routeMappingVersion : String
  provenancePolicyVersion : String
  privacyPolicyVersion : String
  status : PlanStatus
  planIjson : Text
  warnings : List String
  deriving DecidableEq, Repr

/-- A row of `semantic_coverage_items`. -/
structure CoverageItemRow where
  coverageItemUuid : String
  coverageRunUuid : String
  semanticUnitId : Option String
  semanticUnitFingerprint : Option String
  rawStart : ℕ
  rawEnd : ℕ
  disposition : CoverageDisposition
  gateDecisionUuid : Option String
  routeUuid : Option String
  annotationUuid : Option String
  proposalUuid : Option String
  reasonCodes : List String
  deriving DecidableEq, Repr

/-- The states of a link. -/
inductive LinkState where
  | candidateCreationAttempted
  | candidateLinked
  deriving DecidableEq, Repr

/-- A row of `semantic_candidate_links`. -/
structure CandidateLinkRow where
  proposalUuid : String
  coverageItemUuid : String
  payloadHash : String
  state : LinkState
  deriving DecidableEq, Repr

/-- The candidate of a link: it has the name of the proposal. -/
def CandidateLinkRow.candidateUuid (link : CandidateLinkRow) : Option String :=
  match link.state with
  | .candidateCreationAttempted => none
  | .candidateLinked => some link.proposalUuid

/-- What the store keeps of a row of `memory_gate_decisions`. -/
structure GateDecisionRow where
  gateDecisionUuid : String
  processingRunUuid : String
  textUnitUuid : String
  decision : String
  deriving DecidableEq, Repr

/-- What the store keeps of a row of `memory_signal_routes`. -/
structure SignalRouteRow where
  routeUuid : String
  unitUuid : String
  annotationUuid : String
  routeType : String
  status : String
  deriving DecidableEq, Repr

/-- The tables of plans and candidates. -/
structure CoverageStore where
  runs : Table CoverageRunRow String CoverageRunRow.coverageRunUuid
  items : Table CoverageItemRow String CoverageItemRow.coverageItemUuid
  links : Table CandidateLinkRow String CandidateLinkRow.proposalUuid
  candidates : Table MemoryCandidate String MemoryCandidate.candidateUuid
  evidence : Table CandidateEvidence String CandidateEvidence.evidenceUuid
  gateDecisions : Table GateDecisionRow String GateDecisionRow.gateDecisionUuid
  routes : Table SignalRouteRow String SignalRouteRow.routeUuid

/-- The tables without rows. -/
def CoverageStore.empty : CoverageStore := ⟨.empty, .empty, .empty, .empty, .empty, .empty, .empty⟩

/-! ### Statements -/

/-- The error of a unique index. -/
def uniqueFailed (columns : String) : String := "UNIQUE constraint failed: " ++ columns

/-- Insert a run; its digest is unique. -/
def insertRun (runs : Table CoverageRunRow String CoverageRunRow.coverageRunUuid)
    (row : CoverageRunRow) :
    Except String (Table CoverageRunRow String CoverageRunRow.coverageRunUuid) :=
  runs.insertUnique (uniqueFailed "semantic_coverage_runs.coverage_run_uuid")
    [(fun row other => row.coverageHash = other.coverageHash,
      uniqueFailed "semantic_coverage_runs.coverage_hash")] row

/-- Insert an item; its proposal and its unit within the run are unique where they are not null, its
range is not empty, and it is durable exactly when it has a proposal. -/
def insertItem (items : Table CoverageItemRow String CoverageItemRow.coverageItemUuid)
    (row : CoverageItemRow) :
    Except String (Table CoverageItemRow String CoverageItemRow.coverageItemUuid) := do
  require (row.rawStart < row.rawEnd)
    "CHECK constraint failed: raw_start >= 0 AND raw_end > raw_start"
  require (row.disposition = .durableCandidate ↔ row.proposalUuid.isSome = true)
    "CHECK constraint failed: (disposition = 'durable_candidate' AND proposal_uuid IS NOT NULL)"
  items.insertUnique (uniqueFailed "semantic_coverage_items.coverage_item_uuid")
    [(fun row other => row.proposalUuid.isSome && row.proposalUuid = other.proposalUuid,
      uniqueFailed "semantic_coverage_items.proposal_uuid"),
     (fun row other => row.coverageRunUuid = other.coverageRunUuid && row.semanticUnitId.isSome &&
        row.semanticUnitId = other.semanticUnitId,
      uniqueFailed
        "semantic_coverage_items.coverage_run_uuid, semantic_coverage_items.semantic_unit_id")] row

/-- Insert a link; its item is unique. -/
def insertLink (links : Table CandidateLinkRow String CandidateLinkRow.proposalUuid)
    (row : CandidateLinkRow) :
    Except String (Table CandidateLinkRow String CandidateLinkRow.proposalUuid) :=
  links.insertUnique (uniqueFailed "semantic_candidate_links.proposal_uuid")
    [(fun row other => row.coverageItemUuid = other.coverageItemUuid,
      uniqueFailed "semantic_candidate_links.coverage_item_uuid")] row

/-- Whether two candidates agree in the columns of `idx_memory_candidate_idempotency`. -/
def MemoryCandidate.sameIndex (candidate other : MemoryCandidate) : Bool :=
  candidate.processingRunUuid = other.processingRunUuid &&
    candidate.textUnitUuid = other.textUnitUuid &&
    candidate.candidateType = other.candidateType &&
    candidate.normalizedText = other.normalizedText

/-- The error of `idx_memory_candidate_idempotency`. -/
def candidateIndexFailed : String :=
  uniqueFailed ("memory_candidates.processing_run_uuid, memory_candidates.text_unit_uuid, " ++
    "memory_candidates.candidate_type, memory_candidates.normalized_text")

/-- Insert a candidate; its text is unique within its run, text unit and type. -/
def insertCandidate (candidates : Table MemoryCandidate String MemoryCandidate.candidateUuid)
    (row : MemoryCandidate) :
    Except String (Table MemoryCandidate String MemoryCandidate.candidateUuid) :=
  candidates.insertUnique (uniqueFailed "memory_candidates.candidate_uuid")
    [(MemoryCandidate.sameIndex, candidateIndexFailed)] row

/-- Insert evidence. -/
def insertEvidence (evidence : Table CandidateEvidence String CandidateEvidence.evidenceUuid)
    (row : CandidateEvidence) :
    Except String (Table CandidateEvidence String CandidateEvidence.evidenceUuid) :=
  evidence.insertUnique (uniqueFailed "candidate_evidence.evidence_uuid") [] row

/-- Whether a command stored something or found it stored. -/
inductive CommandState where
  | existing
  | created
  deriving DecidableEq, Repr

/-- Compare the columns of two rows; the error names the first that differs. -/
def assertColumns (columns : List (String × Bool)) (error : String → String) :
    Except String Unit :=
  forM columns fun (column, same) => require (same = true) (error column)

/-! ### Plans -/

/-- The hashed form of a plan with its digest. -/
def CoveragePlan.json (plan : CoveragePlan) : IJson :=
  .obj
    [field "coverage_plan_version" (jsonString plan.planVersion),
     field "message_uuid" (jsonString plan.messageUuid),
     field "raw_text_hash" (jsonString plan.rawTextHash),
     field "processing_run_uuid" (jsonString plan.processingRunUuid),
     field "semantic_prompt_execution_uuid" (jsonOption plan.semanticPromptExecutionUuid),
     field "semantic_contract_hash" (jsonString plan.semanticContractHash),
     field "status" (jsonString plan.status.value),
     field "items" (.arr (plan.items.map CoverageItem.json)),
     field "warnings" (.arr (plan.warnings.map jsonString)),
     field "coverage_hash" (jsonString plan.coverageHash)]

section

variable (P : Platform)

/-- The name of the run of a plan. -/
def coverageRunUuid (coverageHash : String) : String := P.uuid5 coverageRunNamespace coverageHash

/-- The row of a plan. -/
def runValues (plan : CoveragePlan) (bindings : CoveragePersistenceBindings) :
    Except String CoverageRunRow := do
  let planIjson ← dumpIjson P.unicode plan.json
  pure
    { coverageRunUuid := coverageRunUuid P plan.coverageHash
      coveragePlanVersion := plan.planVersion
      coverageHash := plan.coverageHash
      messageUuid := plan.messageUuid
      messageVersionUuid := bindings.messageVersionUuid
      processingRunUuid := plan.processingRunUuid
      semanticPromptExecutionUuid := plan.semanticPromptExecutionUuid
      rawTextHash := plan.rawTextHash
      textEnvelopeContractVersion := bindings.textEnvelopeContractVersion
      semanticContractHash := plan.semanticContractHash
      routeMappingVersion := bindings.routeMappingVersion
      provenancePolicyVersion := bindings.provenancePolicyVersion
      privacyPolicyVersion := bindings.privacyPolicyVersion
      status := plan.status
      planIjson
      warnings := plan.warnings }

/-- The row of an item. -/
def itemValues (bindings : CoveragePersistenceBindings) (runUuid : String) (item : CoverageItem) :
    Except String CoverageItemRow := do
  let fingerprint := item.semanticUnitId.bind bindings.semanticUnitFingerprints.get?
  require (item.semanticUnitId.isSome = true → fingerprint.isSome = true)
    "every semantic coverage item requires its canonical fingerprint"
  pure
    { coverageItemUuid := item.coverageItemId
      coverageRunUuid := runUuid
      semanticUnitId := item.semanticUnitId
      semanticUnitFingerprint := fingerprint
      rawStart := item.rawStart
      rawEnd := item.rawEnd
      disposition := item.disposition
      gateDecisionUuid := item.gateDecisionUuid
      routeUuid := item.routeUuid
      annotationUuid := (bindings.annotationUuids.get? item.coverageItemId).join
      proposalUuid := item.proposalId
      reasonCodes := item.reasonCodes }

/-- The columns of a run and whether they are the expected ones. -/
def CoverageRunRow.compared (row expected : CoverageRunRow) : List (String × Bool) :=
  [("coverage_run_uuid", row.coverageRunUuid = expected.coverageRunUuid),
   ("coverage_plan_version", row.coveragePlanVersion = expected.coveragePlanVersion),
   ("coverage_hash", row.coverageHash = expected.coverageHash),
   ("message_uuid", row.messageUuid = expected.messageUuid),
   ("message_version_uuid", row.messageVersionUuid = expected.messageVersionUuid),
   ("processing_run_uuid", row.processingRunUuid = expected.processingRunUuid),
   ("semantic_prompt_execution_uuid",
    row.semanticPromptExecutionUuid = expected.semanticPromptExecutionUuid),
   ("raw_text_hash", row.rawTextHash = expected.rawTextHash),
   ("text_envelope_contract_version",
    row.textEnvelopeContractVersion = expected.textEnvelopeContractVersion),
   ("semantic_contract_hash", row.semanticContractHash = expected.semanticContractHash),
   ("route_mapping_version", row.routeMappingVersion = expected.routeMappingVersion),
   ("provenance_policy_version",
    row.provenancePolicyVersion = expected.provenancePolicyVersion),
   ("privacy_policy_version", row.privacyPolicyVersion = expected.privacyPolicyVersion),
   ("status", row.status = expected.status),
   ("plan_ijson", row.planIjson = expected.planIjson),
   ("warnings_ijson", row.warnings = expected.warnings)]

/-- The columns of an item and whether they are the expected ones. -/
def CoverageItemRow.compared (row expected : CoverageItemRow) : List (String × Bool) :=
  [("coverage_item_uuid", row.coverageItemUuid = expected.coverageItemUuid),
   ("coverage_run_uuid", row.coverageRunUuid = expected.coverageRunUuid),
   ("semantic_unit_id", row.semanticUnitId = expected.semanticUnitId),
   ("semantic_unit_fingerprint",
    row.semanticUnitFingerprint = expected.semanticUnitFingerprint),
   ("raw_start", row.rawStart = expected.rawStart),
   ("raw_end", row.rawEnd = expected.rawEnd),
   ("disposition", row.disposition = expected.disposition),
   ("gate_decision_uuid", row.gateDecisionUuid = expected.gateDecisionUuid),
   ("route_uuid", row.routeUuid = expected.routeUuid),
   ("annotation_uuid", row.annotationUuid = expected.annotationUuid),
   ("proposal_uuid", row.proposalUuid = expected.proposalUuid),
   ("reason_codes_ijson", row.reasonCodes = expected.reasonCodes)]

/-- The error of a plan that is stored otherwise. -/
def replayDiffers (column : String) : String :=
  "deterministic coverage replay differs at " ++ column

/-- Check that a plan is stored as it is now. -/
def assertPlanReplay (plan : CoveragePlan) (bindings : CoveragePersistenceBindings)
    (s : CoverageStore) : Except String Unit := do
  let runUuid := coverageRunUuid P plan.coverageHash
  match s.runs.get? runUuid with
  | none => .error "coverage replay row is missing"
  | some row =>
      let expected ← runValues P plan bindings
      assertColumns (row.compared expected) replayDiffers
      let rows := s.items.rows.filter fun item => item.coverageRunUuid = runUuid
      require ((∀ row ∈ rows, ∃ item ∈ plan.items, item.coverageItemId = row.coverageItemUuid) ∧
          ∀ item ∈ plan.items, ∃ row ∈ rows, row.coverageItemUuid = item.coverageItemId)
        "coverage replay item set differs"
      forM plan.items fun item => do
        let expected ← itemValues bindings runUuid item
        forM (s.items.get? item.coverageItemId).toList fun row =>
          assertColumns (row.compared expected) replayDiffers

/-- Store a plan, or find it stored. -/
def persistPlan (plan : CoveragePlan) (bindings : CoveragePersistenceBindings)
    (s : CoverageStore) : Except String (CoverageStore × CommandState) := do
  let runUuid := coverageRunUuid P plan.coverageHash
  match s.runs.get? runUuid with
  | some _ =>
      assertPlanReplay P plan bindings s
      pure (s, .existing)
  | none =>
      let run ← runValues P plan bindings
      let runs ← insertRun s.runs run
      let items ← plan.items.foldlM (fun items item => do
        let row ← itemValues bindings runUuid item
        insertItem items row) s.items
      pure ({ s with runs, items }, .created)

end

/-! ### Candidates of proposals -/

/-- The candidate types. -/
def CandidateType.all : List CandidateType :=
  [.fact, .preference, .goal, .constraint, .decision, .instruction, .definition, .episode,
   .feedback, .relationship, .identity, .style, .unresolvedQuestion]

/-- The source authorities. -/
def SourceAuthority.all : List SourceAuthority :=
  [.userExplicit, .userImplied, .assistantClaim, .toolObservation, .systemInstruction,
   .importedRecord]

/-- The ways a candidate is stated. -/
def Explicitness.all : List Explicitness := [.explicit, .implied, .inferred]

/-- The statuses of a candidate. -/
def CandidateStatus.all : List CandidateStatus :=
  [.pending, .validated, .rejected, .needsReview, .readyForConsolidation]

/-- The member of an enumeration that a text is the value of. -/
def enumMember {α : Type} (U : UnicodeData) (name : String) (all : List α) (value : α → String)
    (text : String) : Except String α :=
  match all.find? fun a => value a = text with
  | some a => .ok a
  | none => .error (String.ofList (reprText U text.toList) ++ " is not a valid " ++ name)

/-- The hashed form of a lineage. -/
def ContextLineage.json (lineage : ContextLineage) : IJson :=
  .obj
    [field "context_item_id" (jsonString lineage.contextItemId),
     field "message_uuid" (jsonString lineage.messageUuid),
     field "message_version_uuid" (jsonOption lineage.messageVersionUuid),
     field "text_unit_uuid" (jsonString lineage.textUnitUuid),
     field "role" (jsonString lineage.role.value),
     field "raw_start" (jsonNat lineage.rawStart),
     field "raw_end" (jsonNat lineage.rawEnd),
     field "raw_text_hash" (jsonString lineage.rawTextHash),
     field "source_authority_ceiling" (jsonString lineage.sourceAuthorityCeiling.value),
     field "reference_marker_start" (jsonNat lineage.referenceMarkerStart),
     field "reference_marker_end" (jsonNat lineage.referenceMarkerEnd),
     field "semantic_contract_hash" (jsonString lineage.semanticContractHash)]

/-- The metadata of the candidate of a proposal. -/
def extractionMetadata (proposal : CandidateProposal) : IJson :=
  .obj
    [field "semantic_authority" (jsonString "semantic_candidate_analysis_v1"),
     field "semantic_unit_id" (jsonString proposal.semanticUnitId),
     field "semantic_unit_fingerprint" (jsonString proposal.semanticUnitFingerprint),
     field "epistemic_status" (jsonString proposal.epistemicStatus.value),
     field "durability" (jsonString proposal.durability.value),
     field "context_lineage" (.arr (proposal.contextLineage.map ContextLineage.json)),
     field "gate_decision_uuid" (jsonOption proposal.gateDecisionUuid),
     field "route_uuid" (jsonOption proposal.routeUuid),
     field "annotation_uuid" (jsonOption proposal.annotationUuid),
     field "prompt_execution_uuid" (jsonString proposal.promptExecutionUuid),
     field "candidate_service_version" (jsonString candidateServiceVersion),
     field "route_mapping_version" (jsonString routeCandidateMappingVersion),
     field "provenance_policy_version" (jsonString provenancePolicyVersion),
     field "allows_automatic_memory_creation"
      (.bool proposal.automaticCandidateCreationAllowed)]

/-- The texts and the range that evidence must have. -/
def CandidateEvidence.modelValidate (evidence : CandidateEvidence) : Except String Unit := do
  nonEmpty "evidence_text" evidence.evidenceText
  positive "end_char" evidence.endChar
  require (evidence.startChar < evidence.endChar) "end_char must be greater than start_char"
  require (evidence.endChar - evidence.startChar = evidence.evidenceText.length)
    "evidence_text length must match start_char/end_char span length"

/-- The candidate of a proposal and its evidence, under a name drawn for it. -/
def buildCandidateFromProposal (U : UnicodeData) (newUuid processingRunUuid : String)
    (proposal : CandidateProposal) : Except String (MemoryCandidate × CandidateEvidence) := do
  let candidateType ← enumMember U "CandidateType" CandidateType.all CandidateType.value
    proposal.candidateType
  let sourceAuthority ← enumMember U "SourceAuthority" SourceAuthority.all SourceAuthority.value
    proposal.sourceAuthority
  let explicitness ← enumMember U "Explicitness" Explicitness.all Explicitness.value
    proposal.explicitness
  let status ← enumMember U "CandidateStatus" CandidateStatus.all CandidateStatus.value
    proposal.status
  let objectIjson ← dumpIjson U
    (.obj (proposal.objectPayload.map fun m => field m.1 (.str m.2)))
  let extractionMetadataIjson ← dumpIjson U (extractionMetadata proposal)
  let candidate : MemoryCandidate :=
    { candidateUuid := proposal.proposalId
      processingRunUuid
      textUnitUuid := proposal.textUnitUuid
      promptExecutionUuid := some proposal.promptExecutionUuid
      candidateType
      subjectKey := some proposal.subjectKey
      predicate := some proposal.predicate
      objectIjson := some objectIjson
      normalizedText := proposal.normalizedText
      sourceAuthority, explicitness
      polarity := proposal.polarity
      status
      sensitivityClass := proposal.privacyCeiling
      extractionMetadataIjson := some extractionMetadataIjson
      rejectionReasonCodes := some proposal.reasonCodes }
  let evidence : CandidateEvidence :=
    { evidenceUuid := newUuid
      candidateUuid := proposal.proposalId
      messageUuid := proposal.messageUuid
      textUnitUuid := proposal.textUnitUuid
      annotationUuid := proposal.annotationUuid
      routeUuid := proposal.routeUuid
      evidenceText := proposal.evidence
      startChar := proposal.rawStart
      endChar := proposal.rawEnd }
  evidence.modelValidate
  pure (candidate, evidence)

/-- An optional text, `null` when absent. -/
def jsonOptionText : Option Text → IJson
  | none => .null
  | some text => .str text

/-- What is hashed of the evidence of a candidate. -/
def evidencePayload (evidence : CandidateEvidence) : IJson :=
  .obj
    [field "message_uuid" (jsonString evidence.messageUuid),
     field "text_unit_uuid" (jsonString evidence.textUnitUuid),
     field "annotation_uuid" (jsonOption evidence.annotationUuid),
     field "route_uuid" (jsonOption evidence.routeUuid),
     field "evidence_text" (.str evidence.evidenceText),
     field "start_char" (jsonNat evidence.startChar),
     field "end_char" (jsonNat evidence.endChar),
     field "evidence_role" (jsonString "primary"),
     field "support_type" (jsonString "supporting")]

/-- What is hashed of a candidate and its evidence. -/
def candidatePayload (candidate : MemoryCandidate) (evidence : List CandidateEvidence) : IJson :=
  .obj
    [field "candidate_uuid" (jsonString candidate.candidateUuid),
     field "processing_run_uuid" (jsonString candidate.processingRunUuid),
     field "text_unit_uuid" (jsonString candidate.textUnitUuid),
     field "prompt_execution_uuid" (jsonOption candidate.promptExecutionUuid),
     field "candidate_type" (jsonString candidate.candidateType.value),
     field "subject_key" (jsonOption candidate.subjectKey),
     field "predicate" (jsonOption candidate.predicate),
     field "object_ijson" (jsonOptionText candidate.objectIjson),
     field "normalized_text" (.str candidate.normalizedText),
     field "source_authority" (jsonString candidate.sourceAuthority.value),
     field "explicitness" (jsonString candidate.explicitness.value),
     field "polarity" (jsonString candidate.polarity.value),
     field "status" (jsonString candidate.status.value),
     field "sensitivity_class" (jsonString candidate.sensitivityClass.value),
     field "extraction_metadata_ijson" (jsonOptionText candidate.extractionMetadataIjson),
     field "rejection_reason_codes_ijson"
      (jsonOptionText (candidate.rejectionReasonCodes.map fun codes =>
        (IJson.arr (codes.map jsonString)).dump)),
     field "evidence" (.arr (evidence.map evidencePayload))]

section

variable (P : Platform)

/-- The digest of a candidate and its evidence, whatever the evidence is called. -/
def candidatePayloadHash (candidate : MemoryCandidate) (evidence : List CandidateEvidence) :
    Except String String :=
  canonicalHashIjson P (candidatePayload candidate evidence)

/-- What identifies the evidence of a proposal. -/
def evidenceIdentity (proposalId : String) (evidence : CandidateEvidence) : IJson :=
  .obj
    [field "proposal_id" (jsonString proposalId),
     field "message_uuid" (jsonString evidence.messageUuid),
     field "text_unit_uuid" (jsonString evidence.textUnitUuid),
     field "annotation_uuid" (jsonOption evidence.annotationUuid),
     field "route_uuid" (jsonOption evidence.routeUuid),
     field "start_char" (jsonNat evidence.startChar),
     field "end_char" (jsonNat evidence.endChar),
     field "evidence_role" (jsonString "primary"),
     field "support_type" (jsonString "supporting")]

/-- The evidence of a proposal under its identity. -/
def deterministicEvidence (proposalId : String) (evidence : CandidateEvidence) :
    Except String CandidateEvidence := do
  let identity ← canonicalHashIjson P (evidenceIdentity proposalId evidence)
  pure
    { evidence with
      evidenceUuid := P.uuid5 evidenceNamespace identity
      candidateUuid := proposalId }

/-- Check that a candidate and its evidence are those of a proposal. -/
def validateCandidateBinding (proposal : CandidateProposal) (candidate : MemoryCandidate)
    (evidenceItems : List CandidateEvidence) : Except String (List CandidateEvidence) := do
  require (candidate.candidateUuid = proposal.proposalId)
    "candidate UUID must equal deterministic proposal UUID"
  require (evidenceItems ≠ []) "candidate link requires at least one evidence span"
  let deterministic ← evidenceItems.mapM (deterministicEvidence P proposal.proposalId)
  forM deterministic fun evidence =>
    require (evidence.messageUuid = proposal.messageUuid ∧
        evidence.textUnitUuid = proposal.textUnitUuid ∧
        evidence.startChar = proposal.rawStart ∧ evidence.endChar = proposal.rawEnd ∧
        evidence.evidenceText = proposal.evidence)
      "candidate evidence does not match its deterministic proposal"
  pure deterministic

end

/-! ### Reservations and links -/

/-- Check that a link is for an item and a payload. -/
def assertLinkRow (link : CandidateLinkRow) (coverageItemId payloadHash : String) :
    Except String Unit :=
  require (link.coverageItemUuid = coverageItemId ∧ link.payloadHash = payloadHash)
    "deterministic proposal identity replayed with different payload"

/-- Reserve the candidate of a proposal, or find it reserved. -/
def reserveCandidate (proposalId coverageItemId payloadHash : String) (s : CoverageStore) :
    Except String (CoverageStore × CommandState) := do
  match s.links.get? proposalId with
  | some link =>
      assertLinkRow link coverageItemId payloadHash
      pure (s, .existing)
  | none =>
      require (∃ item ∈ (s.items.get? coverageItemId).toList,
          item.disposition = .durableCandidate ∧ item.proposalUuid = some proposalId)
        "reservation does not match durable coverage"
      let links ← insertLink s.links
        { proposalUuid := proposalId
          coverageItemUuid := coverageItemId
          payloadHash
          state := .candidateCreationAttempted }
      pure ({ s with links }, .created)

/-- The error of an authority that is stored otherwise. -/
def authorityChanged : String :=
  "persisted gate/route authority changed before candidate creation"

/-- Check that the gate and the route of a candidate are still the ones it was planned under. -/
def CoverageStore.assertCandidateAuthority (s : CoverageStore)
    (authority : CandidateAuthorityBinding) : Except String Unit :=
  let gates := s.gateDecisions.rows.filter fun gate =>
    gate.processingRunUuid = authority.processingRunUuid &&
      gate.textUnitUuid = authority.textUnitUuid
  let route := (s.routes.get? authority.routeUuid).filter fun route =>
    route.unitUuid = authority.textUnitUuid
  match gates.head?, route with
  | some gate, some route =>
      require (gate.gateDecisionUuid = authority.gateDecisionUuid ∧
          gate.decision = authority.gateDecision ∧ route.routeType = authority.routeType ∧
          route.status = authority.routeStatus ∧
          route.annotationUuid = authority.annotationUuid)
        authorityChanged
  | _, _ => .error authorityChanged

/-- The columns of a candidate and whether they are the expected ones. -/
def MemoryCandidate.compared (row expected : MemoryCandidate) : List (String × Bool) :=
  [("candidate_uuid", row.candidateUuid = expected.candidateUuid),
   ("processing_run_uuid", row.processingRunUuid = expected.processingRunUuid),
   ("text_unit_uuid", row.textUnitUuid = expected.textUnitUuid),
   ("prompt_execution_uuid", row.promptExecutionUuid = expected.promptExecutionUuid),
   ("candidate_type", row.candidateType = expected.candidateType),
   ("subject_key", row.subjectKey = expected.subjectKey),
   ("predicate", row.predicate = expected.predicate),
   ("object_ijson", row.objectIjson = expected.objectIjson),
   ("normalized_text", row.normalizedText = expected.normalizedText),
   ("source_authority", row.sourceAuthority = expected.sourceAuthority),
   ("explicitness", row.explicitness = expected.explicitness),
   ("polarity", row.polarity = expected.polarity),
   ("status", row.status = expected.status),
   ("sensitivity_class", row.sensitivityClass = expected.sensitivityClass),
   ("extraction_metadata_ijson",
    row.extractionMetadataIjson = expected.extractionMetadataIjson),
   ("rejection_reason_codes_ijson", row.rejectionReasonCodes = expected.rejectionReasonCodes)]

/-- The columns of evidence and whether they are the expected ones. -/
def CandidateEvidence.compared (row expected : CandidateEvidence) : List (String × Bool) :=
  [("candidate_uuid", row.candidateUuid = expected.candidateUuid),
   ("message_uuid", row.messageUuid = expected.messageUuid),
   ("text_unit_uuid", row.textUnitUuid = expected.textUnitUuid),
   ("annotation_uuid", row.annotationUuid = expected.annotationUuid),
   ("route_uuid", row.routeUuid = expected.routeUuid),
   ("evidence_text", row.evidenceText = expected.evidenceText),
   ("start_char", row.startChar = expected.startChar),
   ("end_char", row.endChar = expected.endChar)]

/-- Check that a stored candidate and its evidence are the expected ones. -/
def CoverageStore.assertExistingCandidate (s : CoverageStore) (row candidate : MemoryCandidate)
    (evidence : List CandidateEvidence) : Except String Unit := do
  assertColumns (row.compared candidate) ("existing candidate differs at " ++ ·)
  let stored := s.evidence.rows.filter fun e => e.candidateUuid = candidate.candidateUuid
  require ((∀ e ∈ stored, ∃ item ∈ evidence, item.evidenceUuid = e.evidenceUuid) ∧
      ∀ item ∈ evidence, ∃ e ∈ stored, e.evidenceUuid = item.evidenceUuid)
    "existing candidate evidence set differs from proposal"
  forM evidence fun item =>
    forM (s.evidence.get? item.evidenceUuid).toList fun e =>
      assertColumns (e.compared item) ("existing candidate evidence differs at " ++ ·)

/-- Mark the link of a proposal as linked. -/
def CoverageStore.linked (s : CoverageStore) (proposalId : String) : CoverageStore :=
  { s with
    links := s.links.updateWhere (fun link => link.proposalUuid = proposalId)
      (fun link => { link with state := .candidateLinked }) fun _ => rfl }

section

variable (P : Platform)

/-- Create the candidate of a reserved proposal with its evidence and link it, or find it linked. -/
def createAndLinkCandidate (proposal : CandidateProposal) (candidate : MemoryCandidate)
    (evidenceItems : List CandidateEvidence) (authority : Option CandidateAuthorityBinding)
    (s : CoverageStore) : Except String (CoverageStore × CommandState) := do
  let evidence ← validateCandidateBinding P proposal candidate evidenceItems
  let payloadHash ← candidatePayloadHash P candidate evidence
  match s.links.get? proposal.proposalId with
  | none => .error "candidate must be reserved before creation"
  | some link =>
      assertLinkRow link link.coverageItemUuid payloadHash
      forM authority.toList s.assertCandidateAuthority
      match link.state, s.candidates.get? proposal.proposalId with
      | .candidateLinked, none => .error "linked candidate row is missing"
      | .candidateLinked, some row =>
          s.assertExistingCandidate row candidate evidence
          pure (s, .existing)
      | .candidateCreationAttempted, none =>
          let candidates ← insertCandidate s.candidates candidate
          let evidence ← evidence.foldlM insertEvidence s.evidence
          pure (({ s with candidates, evidence }).linked proposal.proposalId, .created)
      | .candidateCreationAttempted, some row =>
          s.assertExistingCandidate row candidate evidence
          pure (s.linked proposal.proposalId, .created)

/-- The authority that a candidate is created under, where the planner saw all of it. -/
def candidateAuthorityBinding (processingRunUuid textUnitUuid : String)
    (authority : PersistedUnitAuthority) : Option CandidateAuthorityBinding := do
  let gateDecisionUuid ← authority.gateDecisionUuid
  let gateDecision ← authority.gateDecision
  let annotationUuid ← authority.annotationUuid
  let routeUuid ← authority.routeUuid
  let routeType ← authority.routeType
  let routeStatus ← authority.routeStatus
  pure
    { processingRunUuid, textUnitUuid, gateDecisionUuid, gateDecision, annotationUuid, routeUuid
      routeType, routeStatus }

/-- The items of a plan under the proposals they name. -/
def itemsByProposal (plan : CoveragePlan) : Dict String CoverageItem :=
  Dict.ofPairs (plan.items.filterMap fun item => item.proposalId.map fun id => (id, item))

/-- The authorities under their text units. -/
def authoritiesByUnit (authorities : List PersistedUnitAuthority) :
    Dict String PersistedUnitAuthority :=
  Dict.ofPairs (authorities.map fun a => (a.textUnitUuid, a))

/-- Reserve, create and link the candidate of a proposal. -/
def createCandidate (newUuid : String → String) (authorities : List PersistedUnitAuthority)
    (plan : CoveragePlan) (processingRunUuid : String) (proposal : CandidateProposal)
    (s : CoverageStore) : Except String CoverageStore :=
  match (itemsByProposal plan).get? proposal.proposalId,
      (authoritiesByUnit authorities).get? proposal.textUnitUuid with
  | none, _ => .error (String.ofList (reprText P.unicode proposal.proposalId.toList))
  | some _, none => .error "proposal lost its persisted authority before adaptation"
  | some item, some authority => do
      let (candidate, evidence) ← buildCandidateFromProposal P.unicode
        (newUuid proposal.proposalId) processingRunUuid proposal
      let payloadHash ← candidatePayloadHash P candidate [evidence]
      let (s, _) ← reserveCandidate proposal.proposalId item.coverageItemId payloadHash s
      let (s, _) ← createAndLinkCandidate P proposal candidate [evidence]
        (candidateAuthorityBinding processingRunUuid proposal.textUnitUuid authority) s
      pure s

/-- Create the candidates of the proposals of a plan, in their order. -/
def createCandidates (newUuid : String → String) (authorities : List PersistedUnitAuthority)
    (plan : CoveragePlan) (processingRunUuid : String) (proposals : List CandidateProposal)
    (s : CoverageStore) : Except String CoverageStore :=
  proposals.foldlM
    (fun s proposal => createCandidate P newUuid authorities plan processingRunUuid proposal s) s

end

end Memorist
