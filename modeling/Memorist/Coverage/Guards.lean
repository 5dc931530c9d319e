import Memorist.Coverage.Identity

/-!
What keeps a unit from becoming a memory besides its own meaning
(`memory_worker/semantic/coverage/planner.py`).

* `dependencyHintWithoutReference`: a deictic that no reference accounts for;
* `assistantReferenceIsNotRatified`: a reference to the assistant's words that the user
  does not confirm;
* `assistantPropositionInjection`: a proposition that imports the assistant's words;
* `contextLineage`: the context a proposal rests on.
-/

namespace Memorist

/-! ### Tokens of the guards -/

/-- The maximal runs of characters of a class, `re.findall("[..]+", text)`. -/
def runs (p : Char → Bool) (text : Text) : List Text :=
  (text.splitOnP fun c => !p c).filter fun run => run ≠ []

/-- The words of an acknowledgement. -/
def acknowledgementOnlyTokens : List String :=
  ["agreed", "confirmed", "fine", "no", "ok", "okay", "sure", "understood", "yeah", "yep", "yes",
   "آره", "باشه", "بله", "خوبه", "خیر", "شدم", "متوجه", "نه"]

/-- The words without meaning of their own. -/
def nonMeaningfulTokens : List String :=
  ["a", "an", "and", "are", "as", "at", "be", "by", "for", "from", "in", "is", "it", "of", "on",
   "or", "that", "the", "this", "to", "was", "were", "with",
   "از", "است", "این", "آن", "با", "برای", "به", "در", "را", "که", "و"]

section

variable (U : UnicodeData)

/-- The acknowledgement tokens of a text, its runs of alphanumeric characters. -/
def acknowledgementTokens (text : Text) : List Text := (runs U.isalnum text).map U.casefoldText

/-- Whether a text only acknowledges. -/
def acknowledgementOnly (text : Text) : Bool :=
  let tokens := acknowledgementTokens U text
  !tokens.isEmpty &&
    tokens.all fun token => (acknowledgementOnlyTokens.map String.toList).contains token

/-- The meaningful tokens of a text: its words of two characters at least, bar the stop words. -/
def meaningfulTokens (text : Text) : List Text :=
  (((runs U.isWord text).filter fun run => 2 ≤ run.length).map U.casefoldText).filter
    fun folded => !(nonMeaningfulTokens.map String.toList).contains folded

/-! ### The guards -/

/-- Whether a context-dependency hint inside the span has no accepted reference over it. -/
def dependencyHintWithoutReference (value : CoveragePlannerInput) (rawStart rawEnd : ℕ)
    (referenceIndexes : List ℕ) : Bool :=
  let unitHints := value.textEnvelope.contextDependencyHints.filter fun hint =>
    rawStart ≤ hint.start ∧ hint.stop ≤ rawEnd
  unitHints.any fun hint =>
    !(valuesAt value.semanticAnalysis.references referenceIndexes).any fun reference =>
      reference.markerStart ≤ hint.start ∧ hint.stop ≤ reference.markerEnd

/-- The item of the context a referent names. -/
def contextItem? (contexts : Dict String BoundedContextItem) (referentId : Option String) :
    Option BoundedContextItem :=
  referentId.bind fun id =>
    if startsWith "prior_context:" id then contexts.get? (removePrefix "prior_context:" id)
    else none

/-- The assistant item that a reference of the unit resolves to, by its name as a referent. -/
def assistantTarget (contexts : Dict String BoundedContextItem) (unit : SemanticUnit)
    (reference : SemanticReference) : Option String :=
  if reference.sourceUnitId ≠ unit.id ∨ reference.status ≠ .resolved then none
  else
    match contextItem? contexts reference.selectedReferentId with
    | some item => if item.role = .assistant then reference.selectedReferentId else none
    | none => none

/-- The names of the assistant's items. -/
def assistantContextIds (items : List BoundedContextItem) : List String :=
  ((items.filter fun item => item.role = .assistant).map fun item =>
    priorContext item.contextItemId).dedup

/-- Whether a reference to an assistant item leaves a choice, or the item is not the only one. -/
def assistantChoice (contexts : Dict String BoundedContextItem) (assistantIds : List String)
    (unit : SemanticUnit) (reference : SemanticReference) : Bool :=
  match assistantTarget contexts unit reference with
  | some target =>
      reference.candidateReferentIds.length ≠ 1 ∨ assistantIds.length ≠ 1 ∨ target ∉ assistantIds
  | none => false

/-- The assistant items that references of the unit resolve to. -/
def assistantTargets (contexts : Dict String BoundedContextItem) (unit : SemanticUnit)
    (references : List SemanticReference) : List String :=
  (references.filterMap (assistantTarget contexts unit)).dedup

/-- Whether a relation confirms or corrects its target. -/
def SemanticRelation.ratifying (relation : SemanticRelation) : Bool :=
  relation.relationType = .ratifies ∨ relation.relationType = .corrects

/-- Whether the unit refers to the assistant's words without ratifying them. -/
def assistantReferenceIsNotRatified (value : CoveragePlannerInput) (unit : SemanticUnit)
    (referenceIndexes relationIndexes : List ℕ) : Bool :=
  let contexts := contextsById value.boundedContextItems
  let assistantIds := assistantContextIds value.boundedContextItems
  let references := valuesAt value.semanticAnalysis.references referenceIndexes
  -- a reference with a choice, or among several assistant items, ends the loop at once
  if references.any (assistantChoice contexts assistantIds unit) then true
  else
    let targets := assistantTargets contexts unit references
    if targets.isEmpty then false
    else if value.messageRole ≠ .user ∨ targets.length ≠ 1 then true
    else if acknowledgementOnly U unit.evidence then true
    else !(valuesAt value.semanticAnalysis.relations relationIndexes).any fun relation =>
      relation.sourceUnitId = unit.id ∧ relation.ratifying ∧ relation.targetReferentId ∈ targets

/-- Whether the proposition imports an assistant item's words that the unit does not both resolve
to and ratify. -/
def assistantPropositionInjection (value : CoveragePlannerInput) (unit : SemanticUnit)
    (referenceIndexes relationIndexes : List ℕ) : Bool :=
  let evidenceTokens := meaningfulTokens U unit.evidence
  let propositionOnly :=
    ((meaningfulTokens U unit.proposition).filter fun token =>
      !evidenceTokens.contains token).dedup
  if propositionOnly.length < 2 then false
  else
    (value.boundedContextItems.filter fun item => item.role = .assistant).any fun item =>
      let imported := propositionOnly.filter fun token =>
        (meaningfulTokens U item.text).contains token
      let target := priorContext item.contextItemId
      let referenced := (valuesAt value.semanticAnalysis.references referenceIndexes).any
        fun reference => reference.sourceUnitId = unit.id ∧ reference.status = .resolved ∧
          reference.selectedReferentId = some target
      let ratified := (valuesAt value.semanticAnalysis.relations relationIndexes).any
        fun relation => relation.sourceUnitId = unit.id ∧ relation.ratifying ∧
          relation.targetReferentId = target
      2 ≤ imported.length && !(referenced && ratified)

end

/-! ### Lineage -/

/-- What a proposal records of a context item that a reference of its unit names. -/
def lineageEntry (semanticContractHash : String) (reference : SemanticReference)
    (item : BoundedContextItem) : ContextLineage where
  contextItemId := item.contextItemId
  messageUuid := item.messageUuid
  messageVersionUuid := item.messageVersionUuid
  textUnitUuid := item.textUnitUuid
  role := item.role
  rawStart := item.rawStart
  rawEnd := item.rawEnd
  rawTextHash := item.rawTextHash
  sourceAuthorityCeiling := item.sourceAuthorityCeiling
  referenceMarkerStart := reference.markerStart
  referenceMarkerEnd := reference.markerEnd
  semanticContractHash := semanticContractHash

/-- The context the references of a unit name. -/
def contextLineage (value : CoveragePlannerInput) (semanticUnitId : String)
    (referenceIndexes : List ℕ) : List ContextLineage :=
  let contexts := contextsById value.boundedContextItems
  (valuesAt value.semanticAnalysis.references referenceIndexes).filterMap fun reference =>
    if reference.sourceUnitId ≠ semanticUnitId then none
    else (contextItem? contexts reference.selectedReferentId).map
      (lineageEntry value.semanticContractHash reference)

end Memorist
