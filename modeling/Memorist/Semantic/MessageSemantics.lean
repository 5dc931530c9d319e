import Memorist.Library.TableInserts
import Memorist.Semantic.Binding
import Memorist.Semantic.BoundedContext
import Memorist.Text.Lines
import Memorist.Worker.Execution

/-!
Storing a semantic analysis (`memory_worker/message_semantics.py`, `prompts/contracts.py`,
`migrations/0038_message_first_semantics.sql`, `0039_ambiguous_concept_aliases.sql`).

* `MessageAnalysis`: all the members of the model's answer, with their own validators;
* `SemanticTables`: the tables of the ledger, with what an insert has to meet;
* `persistMessageSemantics`: one row for the analysis, and rows for what it names.
-/

namespace Memorist.MessageSemantics

open Checks (require)

/-! ### The model's answer -/

/-- What a message is about. -/
inductive MessageCategory where
  | instruction
  | need
  | preference
  | decision
  | projectArtifact
  | projectState
  | factClaim
  | hypothesis
  | constraint
  | question
  | learningGoal
  | feedback
  | correction
  | retraction
  | process
  | other
  deriving DecidableEq, Repr

/-- How the speaker stands to a message. -/
inductive MessageEpistemicStatus where
  | asserted
  | proposed
  | hypothetical
  | hedged
  | questioned
  | unvalidated
  | confirmed
  | corrected
  | contradicted
  | retracted
  | unknown
  deriving DecidableEq, Repr

/-- A category of a message. -/
structure MessageCategoryTag where
  category : MessageCategory
  normalizedLabel : Text := []
  confidence : ℚ := 1 / 2
  deriving DecidableEq, Repr

/-- A concept of a message. -/
structure MessageConceptTag extends TagSpan where
  canonicalLabel : Text
  aliases : List Text := []
  confidence : ℚ := 1 / 2
  rawStart := none
  rawEnd := none
  deriving DecidableEq, Repr

/-- An entity of a message. -/
structure MessageEntity extends TagSpan where
  canonicalName : Text
  entityType : Text := "Entity".toList
  aliases : List Text := []
  confidence : ℚ := 1 / 2
  rawStart := none
  rawEnd := none
  deriving DecidableEq, Repr

/-- A process that a message refers to. -/
structure MessageProcessReference extends TagSpan where
  processLabel : Text
  aliases : List Text := []
  stageLabel : Option Text := none
  stageOrdinal : Option ℕ := none
  confidence : ℚ := 1 / 2
  rawStart := none
  rawEnd := none
  deriving DecidableEq, Repr

/-- A unit of meaning, with its place in a life cycle. -/
structure MessageUnit extends SemanticUnit where
  lifecycleStatus : Text := "unknown".toList
  deriving DecidableEq, Repr

/-- All that the model returns. -/
structure MessageAnalysis where
  status : AnalysisStatus
  warnings : List Text
  intent : Text := "unknown".toList
  primaryTopic : Text := "unknown".toList
  secondaryTopic : Text := "unknown".toList
  oneLineSummary : Text := "unknown > unknown > unknown".toList
  messageCategories : List MessageCategoryTag := []
  conceptTags : List MessageConceptTag := []
  entities : List MessageEntity := []
  processReferences : List MessageProcessReference := []
  epistemicStatus : MessageEpistemicStatus := .unknown
  temporalStatus : Text := "unknown".toList
  importance : ℚ := 1 / 2
  explicitMemoryRequest : Bool := false
  semanticUnits : List MessageUnit
  references : List SemanticReference
  relations : List SemanticRelation
  deriving DecidableEq, Repr

/-- The part that is bound to the manifest. -/
def MessageAnalysis.binding (output : MessageAnalysis) : SemanticAnalysisV1Output where
  status := output.status
  oneLineSummary := output.oneLineSummary
  conceptTags := output.conceptTags.map MessageConceptTag.toTagSpan
  entities := output.entities.map MessageEntity.toTagSpan
  processReferences := output.processReferences.map MessageProcessReference.toTagSpan
  semanticUnits := output.semanticUnits.map MessageUnit.toSemanticUnit
  references := output.references
  relations := output.relations

/-- A number from 0 to 1. -/
def unitInterval (path : String) (value : ℚ) : Except String Unit := do
  require (0 ≤ value) s!"{path}: Input should be greater than or equal to 0"
  require (value ≤ 1) s!"{path}: Input should be less than or equal to 1"

/-- The validators of a category. -/
def MessageCategoryTag.modelValidate (path : String) (tag : MessageCategoryTag) :
    Except String Unit := unitInterval s!"{path}.confidence" tag.confidence

/-- The validators of a concept, beside those of its span. -/
def MessageConceptTag.modelValidate (path : String) (tag : MessageConceptTag) :
    Except String Unit := do
  nonEmpty s!"{path}.canonical_label" tag.canonicalLabel
  unitInterval s!"{path}.confidence" tag.confidence

/-- The validators of an entity, beside those of its span. -/
def MessageEntity.modelValidate (path : String) (entity : MessageEntity) : Except String Unit := do
  nonEmpty s!"{path}.canonical_name" entity.canonicalName
  unitInterval s!"{path}.confidence" entity.confidence

/-- The validators of a process reference, beside those of its span. -/
def MessageProcessReference.modelValidate (path : String) (process : MessageProcessReference) :
    Except String Unit := do
  nonEmpty s!"{path}.process_label" process.processLabel
  require (∀ ordinal ∈ process.stageOrdinal, 1 ≤ ordinal)
    s!"{path}.stage_ordinal: Input should be greater than or equal to 1"
  unitInterval s!"{path}.confidence" process.confidence

/-- The validators of the members that are not bound to the manifest. -/
def MessageAnalysis.modelValidate (output : MessageAnalysis) : Except String Unit := do
  forM output.messageCategories.zipIdx fun p => p.1.modelValidate s!"message_categories.{p.2}"
  forM output.conceptTags.zipIdx fun p => p.1.modelValidate s!"concept_tags.{p.2}"
  forM output.entities.zipIdx fun p => p.1.modelValidate s!"entities.{p.2}"
  forM output.processReferences.zipIdx fun p => p.1.modelValidate s!"process_references.{p.2}"
  unitInterval "importance" output.importance

/-- `validate_semantic_binding` of the whole answer. -/
def validateMessageAnalysis (P : Platform) (semanticInput : SemanticAnalysisV1Input)
    (output : MessageAnalysis) : Except String ValidationReport := do
  output.modelValidate
  validateSemanticBinding P semanticInput output.binding

/-! ### The tables -/

/-- The tables of the semantic ledger. -/
inductive SemanticTable where
  | messageSemanticAnalyses
  | messageSemanticCategories
  | canonicalConcepts
  | conceptAliases
  | messageConceptTags
  | messageSemanticUnits
  | messageEntityReferences
  | messageProcessReferences
  | semanticJobOutcomes
  deriving DecidableEq, Repr

/-- How an insert fails: a uniqueness constraint, a check, or an integer that has no column. -/
inductive StorageError where
  | unique (table : SemanticTable)
  | check (table : SemanticTable)
  | overflow
  deriving DecidableEq, Repr

/-- The authority of the source of a message. -/
inductive SourceAuthority where
  | userExplicit
  | assistantClaim
  | toolObservation
  | systemInstruction
  | untrustedRecord
  deriving DecidableEq, Repr

/-- The statuses that an analysis may have in its row. -/
inductive StoredAnalysisStatus where
  | succeeded
  | partiallySucceeded
  | abstained
  | blocked
  | failedOpen
  | erased
  deriving DecidableEq, Repr

/-- What the semantics of a message came to, when they are stored. -/
inductive SemanticOutcome where
  | succeededWithFailedOpenStage
  | succeededWithAbstention
  | succeededWithPartialSemantics
  | succeededNoCandidate
  deriving DecidableEq, Repr

/-- A row of `message_semantic_analyses`. -/
structure AnalysisRow where
  semanticAnalysisUuid : String
  messageUuid : String
  messageVersionUuid : Option String
  processingRunUuid : String
  promptExecutionUuid : String
  stageExecutionUuid : String
  workspaceUuid : Option String
  projectUuid : Option String
  sessionUuid : String
  userUuid : Option String
  sourceRole : String
  sourceAuthority : SourceAuthority
  contractHash : String
  rawTextHash : String
  status : StoredAnalysisStatus
  semanticOutcome : SemanticOutcome
  summaryIntent : Text
  primaryTopic : Text
  secondaryTopic : Text
  oneLineSummary : Text
  epistemicStatus : MessageEpistemicStatus
  temporalStatus : Text
  importance : ℚ
  explicitMemoryRequest : Bool
  warnings : List Text
  createdAt : String
  updatedAt : String
  deriving DecidableEq, Repr

/-- A row of `message_semantic_categories`. -/
structure CategoryRow where
  semanticAnalysisUuid : String
  category : MessageCategory
  normalizedLabel : Text
  confidence : ℚ
  deriving DecidableEq, Repr

/-- A row of `canonical_concepts`. -/
structure ConceptRow where
  conceptUuid : String
  canonicalLabel : Text
  createdAt : String
  deriving DecidableEq, Repr

/-- A row of `concept_aliases`. -/
structure AliasRow where
  conceptUuid : String
  aliasText : Text
  normalizedAlias : Text
  language : Option Text := none
  deriving DecidableEq, Repr

/-- A row of `message_concept_tags`. -/
structure ConceptTagRow extends TagSpan where
  semanticAnalysisUuid : String
  conceptUuid : String
  tagOrdinal : ℕ
  confidence : ℚ
  deriving DecidableEq, Repr

/-- A row of `message_semantic_units`. -/
structure UnitRow where
  semanticUnitUuid : String
  semanticAnalysisUuid : String
  semanticUnitId : String
  unitOrdinal : ℕ
  rawStart : ℕ
  rawEnd : ℕ
  evidenceHash : String
  propositionText : Text
  unitType : SemanticUnitType
  memoryKind : Option MemoryKind
  durability : SemanticDurability
  polarity : SemanticPolarity
  epistemicStatus : SemanticEpistemicStatus
  lifecycleStatus : Text
  createdAt : String
  deriving DecidableEq, Repr

/-- A row of `message_entity_references`. -/
structure EntityReferenceRow extends TagSpan where
  entityReferenceUuid : String
  semanticAnalysisUuid : String
  canonicalName : Text
  entityType : Text
  aliases : List Text
  confidence : ℚ
  deriving DecidableEq, Repr

/-- A row of `message_process_references`. -/
structure ProcessReferenceRow extends TagSpan where
  processReferenceUuid : String
  semanticAnalysisUuid : String
  processLabel : Text
  processAliases : List Text
  stageLabel : Option Text
  stageOrdinal : Option ℕ
  confidence : ℚ
  deriving DecidableEq, Repr

/-- A row of `semantic_job_outcomes`. -/
structure JobOutcomeRow where
  semanticJobOutcomeUuid : String
  semanticAnalysisUuid : String
  messageUuid : String
  processingRunUuid : String
  jobUuid : Option String := none
  outcome : SemanticOutcome
  reasonCode : String
  calledProvider : Bool
  providerOutputValid : Bool
  fallbackUsed : Bool
  candidateCount : ℕ := 0
  memoryCount : ℕ := 0
  latencyMs : ℤ
  createdAt : String
  deriving DecidableEq, Repr

/-- The tables of concepts, and of the messages that are tagged with them. -/
structure ConceptTables where
  canonicalConcepts : Table ConceptRow String ConceptRow.conceptUuid
  conceptAliases : Table AliasRow (String × Text) fun r => (r.conceptUuid, r.normalizedAlias)
  messageConceptTags : Table ConceptTagRow (String × String)
    fun r => (r.semanticAnalysisUuid, r.conceptUuid)

/-- The semantic ledger. -/
structure SemanticTables extends ConceptTables where
  messageSemanticAnalyses : Table AnalysisRow String AnalysisRow.semanticAnalysisUuid
  messageSemanticCategories : Table CategoryRow (String × MessageCategory × Text)
    fun r => (r.semanticAnalysisUuid, r.category, r.normalizedLabel)
  messageSemanticUnits : Table UnitRow String UnitRow.semanticUnitUuid
  messageEntityReferences : Table EntityReferenceRow String EntityReferenceRow.entityReferenceUuid
  messageProcessReferences : Table ProcessReferenceRow String
    ProcessReferenceRow.processReferenceUuid
  semanticJobOutcomes : Table JobOutcomeRow String JobOutcomeRow.semanticJobOutcomeUuid

/-- The ledger without rows. -/
def noSemantics : SemanticTables where
  canonicalConcepts := .empty
  conceptAliases := .empty
  messageConceptTags := .empty
  messageSemanticAnalyses := .empty
  messageSemanticCategories := .empty
  messageSemanticUnits := .empty
  messageEntityReferences := .empty
  messageProcessReferences := .empty
  semanticJobOutcomes := .empty

/-- A check of a column from 0 to 1. -/
def inUnitInterval (value : ℚ) : Prop := 0 ≤ value ∧ value ≤ 1

instance (value : ℚ) : Decidable (inUnitInterval value) := instDecidableAnd

/-- A row is refused unless it meets its check. -/
def refuseUnless (table : SemanticTable) (condition : Prop) [Decidable condition] :
    Option StorageError := if condition then none else some (.check table)

/-- The constraints of `message_semantic_analyses`; the types keep its other checks. -/
def analysisConstraints : Table.Constraints AnalysisRow StorageError where
  refused := fun r => refuseUnless .messageSemanticAnalyses (inUnitInterval r.importance)
  duplicate := .unique .messageSemanticAnalyses
  indexes := [(fun r row => decide (r.messageUuid = row.messageUuid ∧
    r.processingRunUuid = row.processingRunUuid ∧ r.contractHash = row.contractHash ∧
      r.rawTextHash = row.rawTextHash), .unique .messageSemanticAnalyses)]

/-- The constraints of `message_semantic_categories`. -/
def categoryConstraints : Table.Constraints CategoryRow StorageError where
  refused := fun r => refuseUnless .messageSemanticCategories (inUnitInterval r.confidence)
  duplicate := .unique .messageSemanticCategories

/-- The constraints of `canonical_concepts`. -/
def conceptConstraints : Table.Constraints ConceptRow StorageError where
  duplicate := .unique .canonicalConcepts
  indexes := [(fun r row => decide (r.canonicalLabel = row.canonicalLabel),
    .unique .canonicalConcepts)]

/-- The constraints of `concept_aliases`: an alias may belong to several concepts. -/
def aliasConstraints : Table.Constraints AliasRow StorageError where
  duplicate := .unique .conceptAliases

/-- The check of the range of a tag; a range with one end has no value, and passes. -/
def spanChecked (tag : TagSpan) : Prop :=
  ∀ start ∈ tag.rawStart, ∀ stop ∈ tag.rawEnd, start < stop

instance (tag : TagSpan) : Decidable (spanChecked tag) :=
  inferInstanceAs (Decidable (∀ start ∈ tag.rawStart, ∀ stop ∈ tag.rawEnd, start < stop))

/-- The constraints of `message_concept_tags`. -/
def tagConstraints : Table.Constraints ConceptTagRow StorageError where
  refused := fun r => refuseUnless .messageConceptTags
    (r.tagOrdinal ≤ 4 ∧ inUnitInterval r.confidence ∧ spanChecked r.toTagSpan)
  duplicate := .unique .messageConceptTags
  indexes := [(fun r row => decide (r.semanticAnalysisUuid = row.semanticAnalysisUuid ∧
    r.tagOrdinal = row.tagOrdinal), .unique .messageConceptTags)]

/-- The constraints of `message_semantic_units`. -/
def unitConstraints : Table.Constraints UnitRow StorageError where
  refused := fun r => refuseUnless .messageSemanticUnits (r.rawStart < r.rawEnd)
  duplicate := .unique .messageSemanticUnits
  indexes := [(fun r row => decide (r.semanticAnalysisUuid = row.semanticAnalysisUuid ∧
      r.semanticUnitId = row.semanticUnitId), .unique .messageSemanticUnits),
    (fun r row => decide (r.semanticAnalysisUuid = row.semanticAnalysisUuid ∧
      r.unitOrdinal = row.unitOrdinal), .unique .messageSemanticUnits)]

/-- The constraints of `message_entity_references`. -/
def entityConstraints : Table.Constraints EntityReferenceRow StorageError where
  refused := fun r => refuseUnless .messageEntityReferences (inUnitInterval r.confidence)
  duplicate := .unique .messageEntityReferences

/-- The constraints of `message_process_references`. The stage of a process is the only number that
no text bounds; the driver refuses one that a signed 64-bit integer cannot hold. -/
def processConstraints : Table.Constraints ProcessReferenceRow StorageError where
  refused := fun r =>
    if ∃ ordinal ∈ r.stageOrdinal, 2 ^ 63 ≤ ordinal then some .overflow
    else refuseUnless .messageProcessReferences (inUnitInterval r.confidence)
  duplicate := .unique .messageProcessReferences

/-- The constraints of `semantic_job_outcomes`; the types keep its checks. -/
def outcomeConstraints : Table.Constraints JobOutcomeRow StorageError where
  duplicate := .unique .semanticJobOutcomes

/-! ### Storing -/

/-- The namespace of analyses. -/
def analysisNamespace : String := "7018f153-3202-5b3a-8e13-98248e397d61"

/-- The namespace of units. -/
def unitNamespace : String := "38dab83c-00cb-58ba-a389-b04ab60eb816"

/-- The namespace of concepts. -/
def conceptNamespace : String := "091a2934-eb66-5a40-b915-0ac7f0375489"

/-- The namespace of references and of job outcomes. -/
def referenceNamespace : String := "b0a099a9-4baa-50d2-ae4e-73a188c12db9"

/-- What is stored: the answer as `model_validate` reads it, with the message it is about. -/
structure SemanticsRequest where
  messageUuid : String
  processingRunUuid : String
  promptExecutionUuid : String
  stageExecutionUuid : String
  contractHash : String
  scope : SessionContextScope
  input : SemanticAnalysisV1Input
  output : MessageAnalysis
  outcome : ContractExecutionOutcome

/-- The status of an analysis. -/
def analysisStatus (output : MessageAnalysis) (outcome : ContractExecutionOutcome) :
    StoredAnalysisStatus :=
  if outcome.fallbackUsed then .failedOpen
  else if output.status = .ok then .succeeded else .abstained

/-- What the semantics of a message came to. -/
def semanticOutcome (output : MessageAnalysis) (outcome : ContractExecutionOutcome) :
    SemanticOutcome :=
  if outcome.fallbackUsed then .succeededWithFailedOpenStage
  else if output.status = .abstain then .succeededWithAbstention
  else if output.warnings = [] then .succeededNoCandidate else .succeededWithPartialSemantics

/-- The authority of a role. -/
def sourceAuthority (role : String) : SourceAuthority :=
  if role = "user" then .userExplicit
  else if role = "assistant" then .assistantClaim
  else if role = "tool" then .toolObservation
  else if role = "system" then .systemInstruction
  else .untrustedRecord

/-- The reason of an outcome: that of its fallback, or the status of the answer. -/
def reasonCode (output : MessageAnalysis) (outcome : ContractExecutionOutcome) : String :=
  let status := match output.status with
    | .ok => "ok"
    | .abstain => "abstain"
  match outcome.fallbackReason with
  | some reason => if reason = "" then status else reason
  | none => status

section

variable (P : Platform) (nfkc : Text → Text)

/-- A label in its compatibility form, case-folded, its white space collapsed. -/
def normalizeLabel (value : Text) : Text :=
  collapseSpaces P.unicode (P.unicode.casefoldText (nfkc value))

/-- The name of the analysis of a text, for a message, a run and a contract. -/
def analysisUuidOf (messageUuid processingRunUuid contractHash rawHash : String) : String :=
  P.uuid5 analysisNamespace s!"{messageUuid}:{processingRunUuid}:{contractHash}:{rawHash}"

/-- The name of the analysis of a request. -/
def semanticAnalysisUuid (request : SemanticsRequest) : String :=
  analysisUuidOf P request.messageUuid request.processingRunUuid request.contractHash
    (P.sha256 request.input.currentRawText)

/-- The name of the concept of a label. -/
def conceptUuid (label : Text) : String :=
  P.uuid5 conceptNamespace (String.ofList (normalizeLabel P nfkc label))

/-- The row of an analysis. -/
def analysisRow (now : String) (request : SemanticsRequest) : AnalysisRow where
  semanticAnalysisUuid := semanticAnalysisUuid P request
  messageUuid := request.messageUuid
  messageVersionUuid := request.scope.messageVersionUuid
  processingRunUuid := request.processingRunUuid
  promptExecutionUuid := request.promptExecutionUuid
  stageExecutionUuid := request.stageExecutionUuid
  workspaceUuid := request.scope.workspaceUuid
  projectUuid := request.scope.projectUuid
  sessionUuid := request.scope.sessionUuid
  userUuid := request.scope.userUuid
  sourceRole := request.scope.role
  sourceAuthority := sourceAuthority request.scope.role
  contractHash := request.contractHash
  rawTextHash := P.sha256 request.input.currentRawText
  status := analysisStatus request.output request.outcome
  semanticOutcome := semanticOutcome request.output request.outcome
  summaryIntent := request.output.intent
  primaryTopic := request.output.primaryTopic
  secondaryTopic := request.output.secondaryTopic
  oneLineSummary := request.output.oneLineSummary
  epistemicStatus := request.output.epistemicStatus
  temporalStatus := request.output.temporalStatus
  importance := request.output.importance
  explicitMemoryRequest := request.output.explicitMemoryRequest
  warnings := request.output.warnings
  createdAt := now
  updatedAt := now

/-- The row of a category. -/
def categoryRow (analysisUuid : String) (category : MessageCategoryTag) : CategoryRow where
  semanticAnalysisUuid := analysisUuid
  category := category.category
  normalizedLabel := category.normalizedLabel
  confidence := category.confidence

/-- The row of a concept. -/
def conceptRow (now : String) (tag : MessageConceptTag) : ConceptRow where
  conceptUuid := conceptUuid P nfkc tag.canonicalLabel
  canonicalLabel := normalizeLabel P nfkc tag.canonicalLabel
  createdAt := now

/-- The rows of the names of a concept: each spelling once. -/
def aliasRows (tag : MessageConceptTag) : List AliasRow :=
  (tag.canonicalLabel :: tag.aliases).eraseDups.map fun spelling =>
    { conceptUuid := conceptUuid P nfkc tag.canonicalLabel
      aliasText := spelling
      normalizedAlias := normalizeLabel P nfkc spelling }

/-- The row of a concept of a message. -/
def conceptTagRow (analysisUuid : String) (p : MessageConceptTag × ℕ) : ConceptTagRow where
  semanticAnalysisUuid := analysisUuid
  conceptUuid := conceptUuid P nfkc p.1.canonicalLabel
  tagOrdinal := p.2
  confidence := p.1.confidence
  rawStart := p.1.rawStart
  rawEnd := p.1.rawEnd

/-- The row of a unit. -/
def unitRow (now analysisUuid : String) (p : MessageUnit × ℕ) : UnitRow where
  semanticUnitUuid := P.uuid5 unitNamespace s!"{analysisUuid}:{p.1.id}"
  semanticAnalysisUuid := analysisUuid
  semanticUnitId := p.1.id
  unitOrdinal := p.2
  rawStart := p.1.rawStart
  rawEnd := p.1.rawEnd
  evidenceHash := P.sha256 p.1.evidence
  propositionText := p.1.proposition
  unitType := p.1.unitType
  memoryKind := p.1.memoryKind
  durability := p.1.durability
  polarity := p.1.polarity
  epistemicStatus := p.1.epistemicStatus
  lifecycleStatus := p.1.lifecycleStatus
  createdAt := now

/-- The row of an entity. -/
def entityReferenceRow (analysisUuid : String) (p : MessageEntity × ℕ) : EntityReferenceRow where
  entityReferenceUuid := P.uuid5 referenceNamespace s!"entity:{analysisUuid}:{p.2}"
  semanticAnalysisUuid := analysisUuid
  canonicalName := p.1.canonicalName
  entityType := p.1.entityType
  aliases := p.1.aliases
  rawStart := p.1.rawStart
  rawEnd := p.1.rawEnd
  confidence := p.1.confidence

/-- The row of a process reference. -/
def processReferenceRow (analysisUuid : String) (p : MessageProcessReference × ℕ) :
    ProcessReferenceRow where
  processReferenceUuid := P.uuid5 referenceNamespace s!"process:{analysisUuid}:{p.2}"
  semanticAnalysisUuid := analysisUuid
  processLabel := p.1.processLabel
  processAliases := p.1.aliases
  stageLabel := p.1.stageLabel
  stageOrdinal := p.1.stageOrdinal
  rawStart := p.1.rawStart
  rawEnd := p.1.rawEnd
  confidence := p.1.confidence

/-- The row of what a job came to. -/
def jobOutcomeRow (now : String) (request : SemanticsRequest) : JobOutcomeRow where
  semanticJobOutcomeUuid :=
    P.uuid5 referenceNamespace s!"outcome:{semanticAnalysisUuid P request}"
  semanticAnalysisUuid := semanticAnalysisUuid P request
  messageUuid := request.messageUuid
  processingRunUuid := request.processingRunUuid
  outcome := semanticOutcome request.output request.outcome
  reasonCode := reasonCode request.output request.outcome
  calledProvider := request.outcome.calledProvider
  providerOutputValid := request.outcome.providerOutputValid
  fallbackUsed := request.outcome.fallbackUsed
  latencyMs := request.outcome.latencyMs
  createdAt := now

/-- Store a concept of a message: the concept unless it is there, its aliases unless it has them,
and the tag. -/
def persistConceptTag (now analysisUuid : String) (s : ConceptTables) (p : MessageConceptTag × ℕ) :
    Except StorageError ConceptTables := do
  let canonicalConcepts ←
    s.canonicalConcepts.insertOrKeep conceptConstraints (conceptRow P nfkc now p.1)
  let conceptAliases ← s.conceptAliases.insertAllOrKeep aliasConstraints (aliasRows P nfkc p.1)
  let messageConceptTags ←
    s.messageConceptTags.insertUnder tagConstraints (conceptTagRow P nfkc analysisUuid p)
  return { canonicalConcepts, conceptAliases, messageConceptTags }

/-- Persist normalized model proposals without granting direct write authority: nothing for an
analysis that is there. -/
def persistMessageSemantics (now : String) (s : SemanticTables) (request : SemanticsRequest) :
    Except StorageError (String × SemanticTables) := do
  let analysisUuid := semanticAnalysisUuid P request
  if (s.messageSemanticAnalyses.get? analysisUuid).isSome then
    return (analysisUuid, s)
  else
    let output := request.output
    let messageSemanticAnalyses ←
      s.messageSemanticAnalyses.insertUnder analysisConstraints (analysisRow P now request)
    let messageSemanticCategories ← s.messageSemanticCategories.insertAllUnder categoryConstraints
      (output.messageCategories.map (categoryRow analysisUuid))
    let concepts ← output.conceptTags.zipIdx.foldlM (persistConceptTag P nfkc now analysisUuid)
      s.toConceptTables
    let messageSemanticUnits ← s.messageSemanticUnits.insertAllUnder unitConstraints
      (output.semanticUnits.zipIdx.map (unitRow P now analysisUuid))
    let messageEntityReferences ← s.messageEntityReferences.insertAllUnder entityConstraints
      (output.entities.zipIdx.map (entityReferenceRow P analysisUuid))
    let messageProcessReferences ← s.messageProcessReferences.insertAllUnder processConstraints
      (output.processReferences.zipIdx.map (processReferenceRow P analysisUuid))
    let semanticJobOutcomes ←
      s.semanticJobOutcomes.insertUnder outcomeConstraints (jobOutcomeRow P now request)
    return (analysisUuid,
      { toConceptTables := concepts, messageSemanticAnalyses, messageSemanticCategories,
        messageSemanticUnits, messageEntityReferences, messageProcessReferences,
        semanticJobOutcomes })

end

end Memorist.MessageSemantics
