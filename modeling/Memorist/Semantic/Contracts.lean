import Memorist.Text.Envelope

/-!
The records a semantic analysis consists of (`memory_worker/prompts/contracts.py`,
`memory_worker/semantic_contract.py`).

* the closed vocabularies of the model's answer, each with its text `value`;
* `SemanticUnit`, `SemanticReference`, `SemanticRelation`, `SemanticAnalysisV1Output`:
  what the model returns;
* `BoundedContextItem`, `SemanticAnalysisV1Input`: what it was shown;
* `currentUnit`, `priorContext`: the names of referents, and what their prefixes tell.
-/

namespace Memorist

/-! ### Vocabularies -/

/-- The structural type of a semantic unit. -/
inductive SemanticUnitType where
  | statement
  | instruction
  | question
  | explanation
  | heading
  | listItem
  | tableRow
  | codeBlock
  | fragment
  deriving DecidableEq, Repr

/-- The text of a unit type. -/
def SemanticUnitType.value : SemanticUnitType → String
  | statement => "statement"
  | instruction => "instruction"
  | question => "question"
  | explanation => "explanation"
  | heading => "heading"
  | listItem => "list_item"
  | tableRow => "table_row"
  | codeBlock => "code_block"
  | fragment => "fragment"

/-- How long a unit stays true. -/
inductive SemanticDurability where
  | durable
  | transient
  | contextOnly
  | unknown
  deriving DecidableEq, Repr

/-- The text of a durability. -/
def SemanticDurability.value : SemanticDurability → String
  | durable => "durable"
  | transient => "transient"
  | contextOnly => "context_only"
  | unknown => "unknown"

/-- Whether a unit affirms or denies. -/
inductive SemanticPolarity where
  | affirmed
  | negated
  | unknown
  deriving DecidableEq, Repr

/-- The text of a polarity. -/
def SemanticPolarity.value : SemanticPolarity → String
  | affirmed => "affirmed"
  | negated => "negated"
  | unknown => "unknown"

/-- How the speaker stands to a unit. -/
inductive SemanticEpistemicStatus where
  | asserted
  | hedged
  | hypothetical
  | questioned
  | unknown
  deriving DecidableEq, Repr

/-- The text of an epistemic status. -/
def SemanticEpistemicStatus.value : SemanticEpistemicStatus → String
  | asserted => "asserted"
  | hedged => "hedged"
  | hypothetical => "hypothetical"
  | questioned => "questioned"
  | unknown => "unknown"

/-- What became of a reference. -/
inductive SemanticReferenceStatus where
  | resolved
  | unresolved
  | ambiguous
  deriving DecidableEq, Repr

/-- The text of a reference status. -/
def SemanticReferenceStatus.value : SemanticReferenceStatus → String
  | resolved => "resolved"
  | unresolved => "unresolved"
  | ambiguous => "ambiguous"

/-- How a unit relates to its target. -/
inductive SemanticRelationType where
  | ratifies
  | corrects
  | supersedes
  | contradicts
  | elaborates
  deriving DecidableEq, Repr

/-- The text of a relation type. -/
def SemanticRelationType.value : SemanticRelationType → String
  | ratifies => "ratifies"
  | corrects => "corrects"
  | supersedes => "supersedes"
  | contradicts => "contradicts"
  | elaborates => "elaborates"

/-- The meaning of a unit, as the versioned contract names it. -/
inductive MemoryKind where
  | instruction
  | need
  | preference
  | decision
  | projectArtifact
  | projectState
  | factClaim
  | hypothesis
  | constraint
  | question
  | learningGoal
  | feedback
  | correction
  | retraction
  deriving DecidableEq, Repr

/-- The text of a memory kind. -/
def MemoryKind.value : MemoryKind → String
  | instruction => "Instruction"
  | need => "Need"
  | preference => "Preference"
  | decision => "Decision"
  | projectArtifact => "ProjectArtifact"
  | projectState => "ProjectState"
  | factClaim => "FactClaim"
  | hypothesis => "Hypothesis"
  | constraint => "Constraint"
  | question => "Question"
  | learningGoal => "LearningGoal"
  | feedback => "Feedback"
  | correction => "Correction"
  | retraction => "Retraction"

/-- Whether the model answered. -/
inductive AnalysisStatus where
  | ok
  | abstain
  deriving DecidableEq, Repr

/-- Who wrote a message. -/
inductive MessageRole where
  | user
  | assistant
  | tool
  | system
  deriving DecidableEq, Repr

/-- Who wrote a message that may serve as context. -/
inductive ContextRole where
  | user
  | assistant
  | tool
  deriving DecidableEq, Repr

/-- The text of a context role. -/
def ContextRole.value : ContextRole → String
  | user => "user"
  | assistant => "assistant"
  | tool => "tool"

/-- The authority a context item speaks with. -/
inductive AuthorityCeiling where
  | userExplicit
  | assistantClaim
  | toolObservation
  deriving DecidableEq, Repr

/-- The text of an authority ceiling. -/
def AuthorityCeiling.value : AuthorityCeiling → String
  | userExplicit => "user_explicit"
  | assistantClaim => "assistant_claim"
  | toolObservation => "tool_observation"

/-- The canonical ceiling of a role. -/
def ContextRole.ceiling : ContextRole → AuthorityCeiling
  | user => .userExplicit
  | assistant => .assistantClaim
  | tool => .toolObservation

lemma SemanticUnitType.value_injective : Function.Injective SemanticUnitType.value := by
  intro a b; cases a <;> cases b <;> simp [value]

lemma SemanticDurability.value_injective : Function.Injective SemanticDurability.value := by
  intro a b; cases a <;> cases b <;> simp [value]

lemma SemanticPolarity.value_injective : Function.Injective SemanticPolarity.value := by
  intro a b; cases a <;> cases b <;> simp [value]

lemma SemanticEpistemicStatus.value_injective :
    Function.Injective SemanticEpistemicStatus.value := by
  intro a b; cases a <;> cases b <;> simp [value]

lemma ContextRole.value_injective : Function.Injective ContextRole.value := by
  intro a b; cases a <;> cases b <;> simp [value]

lemma AuthorityCeiling.value_injective : Function.Injective AuthorityCeiling.value := by
  intro a b; cases a <;> cases b <;> simp [value]

/-! ### The model's answer -/

/-- One unit of meaning, cited at a raw range. -/
structure SemanticUnit where
  id : String
  rawStart : ℕ
  rawEnd : ℕ
  evidence : Text
  proposition : Text
  unitType : SemanticUnitType
  durability : SemanticDurability
  polarity : SemanticPolarity
  epistemicStatus : SemanticEpistemicStatus
  memoryKind : Option MemoryKind := none
  deriving DecidableEq, Repr

/-- A marker inside a unit that refers to something else. -/
structure SemanticReference where
  id : String
  sourceUnitId : String
  markerStart : ℕ
  markerEnd : ℕ
  markerEvidence : Text
  status : SemanticReferenceStatus
  candidateReferentIds : List String
  selectedReferentId : Option String
  deriving DecidableEq, Repr

/-- How a unit relates to a referent. -/
structure SemanticRelation where
  id : String
  relationType : SemanticRelationType
  sourceUnitId : String
  targetReferentId : String
  evidenceStart : ℕ
  evidenceEnd : ℕ
  evidence : Text
  deriving DecidableEq, Repr

/-- The optional raw range of a tag of the message. -/
structure TagSpan where
  rawStart : Option ℕ
  rawEnd : Option ℕ
  deriving DecidableEq, Repr

/-- What the model returns. -/
structure SemanticAnalysisV1Output where
  status : AnalysisStatus
  oneLineSummary : Text := "unknown > unknown > unknown".toList
  conceptTags : List TagSpan := []
  entities : List TagSpan := []
  processReferences : List TagSpan := []
  semanticUnits : List SemanticUnit
  references : List SemanticReference
  relations : List SemanticRelation
  deriving DecidableEq, Repr

/-! ### What the model was shown -/

/-- An earlier text unit shown as context. -/
structure BoundedContextItem where
  contextItemId : String
  userUuid : String
  sessionUuid : String
  workspaceUuid : Option String
  projectUuid : Option String
  messageUuid : String
  messageVersionUuid : Option String
  textUnitUuid : String
  role : ContextRole
  turnIndex : ℕ
  unitIndex : ℕ
  rawStart : ℕ
  rawEnd : ℕ
  text : Text
  rawTextHash : String
  sourceAuthorityCeiling : AuthorityCeiling
  deriving DecidableEq, Repr

/-- The boundary that context may not cross. -/
structure SemanticContextBoundary where
  userUuid : String
  sessionUuid : String
  workspaceUuid : Option String
  projectUuid : Option String
  effectiveLimit : ℕ
  dependencyExpansion : Bool
  deriving DecidableEq, Repr

/-- The input of the semantic prompt. -/
structure SemanticAnalysisV1Input where
  currentMessageUuid : String
  currentMessageVersionUuid : Option String
  currentRawText : Text
  textEnvelope : EnvelopeDict
  boundedContextItems : List BoundedContextItem
  boundary : SemanticContextBoundary
  deriving DecidableEq, Repr

/-! ### Referents -/

/-- Python's `s.startswith(start)`. -/
def startsWith (start s : String) : Bool := start.toList.isPrefixOf s.toList

/-- Python's `str` of an optional text. -/
def pyStr : Option String → String
  | none => "None"
  | some s => s

/-- Python's `s.removeprefix(start)`. -/
def removePrefix (start s : String) : String :=
  if startsWith start s then String.ofList (s.toList.drop start.toList.length) else s

/-- The name of a unit of the current message as a referent. -/
def currentUnit (unitId : String) : String := "current_unit:" ++ unitId

/-- The name of a context item as a referent. -/
def priorContext (contextItemId : String) : String := "prior_context:" ++ contextItemId

@[simp] lemma startsWith_append (start s : String) : startsWith start (start ++ s) = true := by
  simp [startsWith, List.isPrefixOf_iff_prefix]

@[simp] lemma removePrefix_append (start s : String) : removePrefix start (start ++ s) = s := by
  rw [removePrefix, if_pos (startsWith_append start s), String.toList_append, List.drop_left,
    String.ofList_toList]

lemma append_removePrefix {start s : String} (h : startsWith start s = true) :
    start ++ removePrefix start s = s := by
  obtain ⟨rest, hrest⟩ := List.isPrefixOf_iff_prefix.mp h
  have hs : s = start ++ String.ofList rest := by
    rw [← String.toList_inj, String.toList_append, String.toList_ofList, hrest]
  rw [hs, removePrefix_append]

lemma priorContext_injective : Function.Injective priorContext := by
  intro a b h
  simpa [priorContext] using congrArg (removePrefix "prior_context:") h

@[simp] lemma startsWith_currentUnit_priorContext (s : String) :
    startsWith "current_unit:" (priorContext s) = false := by
  simp [startsWith, priorContext, List.isPrefixOf]

@[simp] lemma startsWith_priorContext_currentUnit (s : String) :
    startsWith "prior_context:" (currentUnit s) = false := by
  simp [startsWith, currentUnit, List.isPrefixOf]

end Memorist
