import Memorist.Semantic.CandidateMapping
import Memorist.Semantic.Provenance
import Memorist.Text.Sensitivity

/-!
Memory candidates and their evidence (`models/memory_worker.py`).
-/

namespace Memorist

/-- A row of `memory_candidates`. -/
structure MemoryCandidate where
  candidateUuid : String
  processingRunUuid : String
  textUnitUuid : String
  promptExecutionUuid : Option String := none
  candidateType : CandidateType
  subjectKey : Option String := none
  predicate : Option String := none
  objectIjson : Option Text := none
  normalizedText : Text
  sourceAuthority : SourceAuthority
  explicitness : Explicitness
  polarity : SemanticPolarity := .unknown
  status : CandidateStatus := .pending
  sensitivityClass : SensitivityClass := .normal
  extractionMetadataIjson : Option Text := none
  rejectionReasonCodes : Option (List String) := none
  deriving DecidableEq, Repr

/-- A row of `candidate_evidence`. -/
structure CandidateEvidence where
  evidenceUuid : String
  candidateUuid : String
  messageUuid : String
  textUnitUuid : String
  annotationUuid : Option String := none
  routeUuid : Option String := none
  evidenceText : Text
  startChar : ℕ
  endChar : ℕ
  deriving DecidableEq, Repr

end Memorist
