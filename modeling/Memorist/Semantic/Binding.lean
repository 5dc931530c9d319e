import Memorist.Library.KeySort
import Memorist.Semantic.EvidenceValidation
import Memorist.Text.Sensitivity

/-!
Binding a model's answer to the manifest it was shown (`memory_worker/semantic_contract.py`).

* `SemanticAnalysisV1Input.modelValidate`, `SemanticAnalysisV1Output.modelValidate`: the
  records' own validators;
* `validateSemanticBinding`: endpoints, order and evidence in one boundary;
* `BindingFacts`: what an accepted pair satisfies (`validateSemanticBinding_facts`).
-/

namespace Memorist

open Checks (require forDistinct)

/-! ### The records' own validators -/

/-- The message of a validator of the field at `path`. -/
def valueError (path message : String) : String := s!"{path}: Value error, {message}"

/-- A text that may not be empty. -/
def nonEmpty (path : String) (value : Text) : Except String Unit :=
  require (value ≠ []) s!"{path}: String should have at least 1 character"

/-- An end offset. -/
def positive (path : String) (value : ℕ) : Except String Unit :=
  require (0 < value) s!"{path}: Input should be greater than 0"

/-- The span, the hash and the authority ceiling of a context item. -/
def BoundedContextItem.integrity (P : Platform) (path : String) (item : BoundedContextItem) :
    Except String Unit := do
  nonEmpty s!"{path}.context_item_id" item.contextItemId.toList
  nonEmpty s!"{path}.user_uuid" item.userUuid.toList
  nonEmpty s!"{path}.session_uuid" item.sessionUuid.toList
  nonEmpty s!"{path}.message_uuid" item.messageUuid.toList
  nonEmpty s!"{path}.text_unit_uuid" item.textUnitUuid.toList
  positive s!"{path}.raw_end" item.rawEnd
  require (item.rawStart < item.rawEnd) (valueError path "raw_start must be less than raw_end")
  require (P.sha256 item.text = item.rawTextHash)
    (valueError path "raw_text_hash does not match text")
  require (item.sourceAuthorityCeiling = item.role.ceiling)
    (valueError path "source_authority_ceiling exceeds the canonical role ceiling")

/-- The expansion flag and the limit agree. -/
def SemanticContextBoundary.expansionMatchesLimit (boundary : SemanticContextBoundary) :
    Except String Unit := do
  nonEmpty "boundary.user_uuid" boundary.userUuid.toList
  nonEmpty "boundary.session_uuid" boundary.sessionUuid.toList
  require (boundary.effectiveLimit = 2 ∨ boundary.effectiveLimit = 6)
    "boundary.effective_limit: Input should be 2 or 6"
  require ((boundary.dependencyExpansion = true) ↔ boundary.effectiveLimit = 6)
    (valueError "boundary" "dependency_expansion must match effective_limit")

/-- The order of a context item in its session. -/
def BoundedContextItem.order (item : BoundedContextItem) : ℕ ×ₗ ℕ :=
  toLex (item.turnIndex, item.unitIndex)

/-- The context items from one on: distinct, ascending, of other messages and inside the
boundary. -/
def manifestItems (currentMessageUuid : String) (boundary : SemanticContextBoundary) :
    List String → Option (ℕ ×ₗ ℕ) → List BoundedContextItem → Except String Unit
  | _, _, [] => .ok ()
  | seen, priorOrder, item :: items => do
      require (item.contextItemId ∉ seen)
        (valueError "(root)" "bounded context item IDs must be unique")
      require (∀ prior ∈ priorOrder, ¬item.order ≤ prior)
        (valueError "(root)" "bounded context must be in canonical ascending order")
      require (item.messageUuid ≠ currentMessageUuid)
        (valueError "(root)" "current message must not appear in bounded context")
      require (item.userUuid = boundary.userUuid ∧ item.sessionUuid = boundary.sessionUuid ∧
          item.workspaceUuid = boundary.workspaceUuid ∧ item.projectUuid = boundary.projectUuid)
        (valueError "(root)" "bounded context crosses an authority boundary")
      manifestItems currentMessageUuid boundary (item.contextItemId :: seen) (some item.order) items

/-- The validators of the semantic input. -/
def SemanticAnalysisV1Input.modelValidate (P : Platform) (input : SemanticAnalysisV1Input) :
    Except String Unit := do
  nonEmpty "current_message_uuid" input.currentMessageUuid.toList
  forM input.boundedContextItems.zipIdx fun p =>
    p.1.integrity P s!"bounded_context_items.{p.2}"
  input.boundary.expansionMatchesLimit
  require (input.textEnvelope.rawTextHash = P.sha256 input.currentRawText)
    (valueError "(root)" "text_envelope raw_text_hash does not match current_raw_text")
  require (input.textEnvelope.contractVersion = textSemanticsContractVersion)
    (valueError "(root)" "text_envelope contract_version is not active")
  require (input.boundedContextItems.length ≤ input.boundary.effectiveLimit)
    (valueError "(root)" "bounded context exceeds effective_limit")
  manifestItems input.currentMessageUuid input.boundary [] none input.boundedContextItems

/-- The end of a tag, when it has one. -/
def TagSpan.modelValidate (path : String) (tag : TagSpan) : Except String Unit :=
  forM tag.rawEnd.toList fun stop => positive s!"{path}.raw_end" stop

/-- A concept's span is complete or omitted. -/
def TagSpan.spanIsComplete (path : String) (tag : TagSpan) : Except String Unit := do
  tag.modelValidate path
  require (tag.rawStart.isNone = tag.rawEnd.isNone)
    (valueError path "concept span must be complete or omitted")
  require (∀ start ∈ tag.rawStart, ∀ stop ∈ tag.rawEnd, start < stop)
    (valueError path "concept raw_start must be less than raw_end")

/-- The texts of a unit are not empty. -/
def SemanticUnit.modelValidate (path : String) (unit : SemanticUnit) : Except String Unit := do
  nonEmpty s!"{path}.id" unit.id.toList
  positive s!"{path}.raw_end" unit.rawEnd
  nonEmpty s!"{path}.evidence" unit.evidence
  nonEmpty s!"{path}.proposition" unit.proposition

/-- The texts of a reference are not empty. -/
def SemanticReference.modelValidate (path : String) (reference : SemanticReference) :
    Except String Unit := do
  nonEmpty s!"{path}.id" reference.id.toList
  nonEmpty s!"{path}.source_unit_id" reference.sourceUnitId.toList
  positive s!"{path}.marker_end" reference.markerEnd
  nonEmpty s!"{path}.marker_evidence" reference.markerEvidence

/-- The texts of a relation are not empty. -/
def SemanticRelation.modelValidate (path : String) (relation : SemanticRelation) :
    Except String Unit := do
  nonEmpty s!"{path}.id" relation.id.toList
  nonEmpty s!"{path}.source_unit_id" relation.sourceUnitId.toList
  nonEmpty s!"{path}.target_referent_id" relation.targetReferentId.toList
  positive s!"{path}.evidence_end" relation.evidenceEnd
  nonEmpty s!"{path}.evidence" relation.evidence

/-- How often a non-empty text occurs in another without overlap, from the left. -/
def countOccurrences (needle : Text) : ℕ → Text → ℕ
  | _, [] => 0
  | 0, c :: rest =>
      if needle.isPrefixOf (c :: rest) then 1 + countOccurrences needle (needle.length - 1) rest
      else countOccurrences needle 0 rest
  | skip + 1, _ :: rest => countOccurrences needle skip rest

/-- The validators of the semantic output. -/
def SemanticAnalysisV1Output.modelValidate (output : SemanticAnalysisV1Output) :
    Except String Unit := do
  forM output.conceptTags.zipIdx fun p => p.1.spanIsComplete s!"concept_tags.{p.2}"
  forM output.entities.zipIdx fun p => p.1.modelValidate s!"entities.{p.2}"
  forM output.processReferences.zipIdx fun p => p.1.modelValidate s!"process_references.{p.2}"
  forM output.semanticUnits.zipIdx fun p => p.1.modelValidate s!"semantic_units.{p.2}"
  forM output.references.zipIdx fun p => p.1.modelValidate s!"references.{p.2}"
  forM output.relations.zipIdx fun p => p.1.modelValidate s!"relations.{p.2}"
  require (output.conceptTags.length ≤ 5)
    (valueError "(root)" "concept_tags must contain at most five items")
  require (countOccurrences " > ".toList 0 output.oneLineSummary = 2)
    (valueError "(root)" "one_line_summary must use intent > primary topic > secondary topic")

/-! ### The binding -/

/-- The spans of one collection of tags. -/
def checkTagSpans (collectionName : String) (rawLength : ℕ) (records : List TagSpan) :
    Except String Unit :=
  forM records fun record => do
    require (record.rawStart.isNone = record.rawEnd.isNone)
      s!"{collectionName} span must be complete or omitted"
    require (∀ start ∈ record.rawStart, ∀ stop ∈ record.rawEnd, start < stop ∧ stop ≤ rawLength)
      s!"{collectionName} span is outside the current message"

/-- The span of a named unit. -/
def unitSpan (units : List SemanticUnit) (unitId : String) : Option Span :=
  (units.find? fun u => u.id = unitId).map SemanticUnit.span

/-- The names a referent may have: the units of the message and the context items. -/
def allowedReferents (units : List SemanticUnit) (items : List BoundedContextItem) : List String :=
  units.map (fun u => currentUnit u.id) ++ items.map fun item => priorContext item.contextItemId

/-- Check that a range lies inside the unit it is said to come from. -/
def checkSource (units : List SemanticUnit) (sourceUnitId : String) (range : Span)
    (unknownSource outside : String) : Except String Unit :=
  match unitSpan units sourceUnitId with
  | none => .error unknownSource
  | some source => require (source.Contains range) outside

/-- Check the ends of a reference. -/
def checkReference (units : List SemanticUnit) (allowed : List String)
    (reference : SemanticReference) : Except String Unit := do
  checkSource units reference.sourceUnitId reference.marker
    "reference source is not a current semantic unit"
    "reference marker must be contained in its source unit"
  require (∀ candidate ∈ reference.candidateReferentIds, candidate ∈ allowed)
    "reference candidate is outside the supplied manifest"
  if reference.status = .resolved then do
    require (∃ selected ∈ reference.selectedReferentId, selected ∈ reference.candidateReferentIds)
      "resolved reference must select one supplied candidate"
    require (reference.selectedReferentId ≠ some (currentUnit reference.sourceUnitId))
      "resolved reference cannot target its own source unit"
  else
    require (reference.selectedReferentId = none)
      "ambiguous or unresolved reference cannot select a target"

/-- Check the ends of a relation. -/
def checkRelation (units : List SemanticUnit) (allowed : List String)
    (relation : SemanticRelation) : Except String Unit := do
  checkSource units relation.sourceUnitId ⟨relation.evidenceStart, relation.evidenceEnd⟩
    "relation source is not a current semantic unit"
    "relation evidence must be contained in its source unit"
  require (relation.targetReferentId ∈ allowed) "relation target is outside the supplied manifest"

/-- A pair of offsets in the order of tuples. -/
def SemanticUnit.rawSpanKey (u : SemanticUnit) : ℕ ×ₗ ℕ := toLex (u.rawStart, u.rawEnd)

/-- Validate semantic endpoints, ordering and evidence in one boundary. -/
def validateSemanticBinding (P : Platform) (semanticInput : SemanticAnalysisV1Input)
    (semanticOutput : SemanticAnalysisV1Output) : Except String ValidationReport := do
  semanticInput.modelValidate P
  semanticOutput.modelValidate
  let units := semanticOutput.semanticUnits
  require (semanticOutput.status = .ok → units ≠ [])
    "status=ok requires at least one semantic unit"
  require (semanticOutput.status = .abstain →
      units = [] ∧ semanticOutput.references = [] ∧ semanticOutput.relations = [])
    "status=abstain requires empty semantic collections"
  require (units.map SemanticUnit.id).Nodup "semantic unit IDs must be unique"
  let ordered := units.map SemanticUnit.rawSpanKey
  require (ordered = KeySort.sortBy id ordered) "semantic units must be ordered by raw span"
  let rawLength := semanticInput.currentRawText.length
  require (∀ unit ∈ units, unit.rawStart < unit.rawEnd ∧ unit.rawEnd ≤ rawLength)
    "semantic unit span is outside the current message"
  checkTagSpans "concept" rawLength semanticOutput.conceptTags
  checkTagSpans "entity" rawLength semanticOutput.entities
  checkTagSpans "process" rawLength semanticOutput.processReferences
  -- a proposition may not hold more sensitive material than its exact source evidence
  forM units fun unit =>
    require ((classifySensitivity P.unicode unit.proposition).rank ≤
        (classifySensitivity P.unicode unit.evidence).rank)
      "semantic proposition exceeds its evidence privacy ceiling"
  let allowed := allowedReferents units semanticInput.boundedContextItems
  forDistinct SemanticReference.id "semantic reference IDs must be unique"
    (checkReference units allowed) [] semanticOutput.references
  forDistinct SemanticRelation.id "semantic relation IDs must be unique"
    (checkRelation units allowed) [] semanticOutput.relations
  let report := validateSemanticEvidence semanticInput.currentRawText semanticOutput allowed
  match report.rejections with
  | [] => pure report
  | first :: _ => .error s!"{first.recordKind}: {first.violation.value}"

/-! ### Accepted pairs -/

/-- What an accepted pair satisfies. -/
structure BindingFacts (P : Platform) (semanticInput : SemanticAnalysisV1Input)
    (semanticOutput : SemanticAnalysisV1Output) (report : ValidationReport) : Prop where
  evidence : EvidenceFacts semanticInput.currentRawText semanticOutput report
  envelopeHash : semanticInput.textEnvelope.rawTextHash = P.sha256 semanticInput.currentRawText
  contextNodup : (semanticInput.boundedContextItems.map BoundedContextItem.contextItemId).Nodup
  ordered : semanticOutput.semanticUnits.Pairwise fun u v => u.rawSpanKey ≤ v.rawSpanKey
  privacy : ∀ u ∈ semanticOutput.semanticUnits,
    (classifySensitivity P.unicode u.proposition).rank ≤
      (classifySensitivity P.unicode u.evidence).rank
  reference : ∀ r ∈ semanticOutput.references,
    checkReference semanticOutput.semanticUnits
      (allowedReferents semanticOutput.semanticUnits semanticInput.boundedContextItems) r = .ok ()
  referenceNodup : (semanticOutput.references.map SemanticReference.id).Nodup
  relation : ∀ r ∈ semanticOutput.relations,
    checkRelation semanticOutput.semanticUnits
      (allowedReferents semanticOutput.semanticUnits semanticInput.boundedContextItems) r = .ok ()
  relationNodup : (semanticOutput.relations.map SemanticRelation.id).Nodup

lemma manifestItems_nodup {currentMessageUuid : String} {boundary : SemanticContextBoundary}
    {items : List BoundedContextItem} : ∀ {seen : List String} {prior : Option (ℕ ×ₗ ℕ)},
      manifestItems currentMessageUuid boundary seen prior items = .ok () →
      (∀ item ∈ items, item.contextItemId ∉ seen) ∧
        (items.map BoundedContextItem.contextItemId).Nodup := by
  induction items with
  | nil => simp
  | cons item items ih =>
      intro seen prior h
      simp only [manifestItems, Checks.bind_eq_ok, Checks.require_eq_ok] at h
      obtain ⟨_, hfresh, _, -, _, -, _, -, h⟩ := h
      obtain ⟨hseen, hnodup⟩ := ih h
      refine ⟨List.forall_mem_cons.mpr ⟨hfresh, fun x hx hmem =>
        hseen x hx (List.mem_cons_of_mem _ hmem)⟩, List.nodup_cons.mpr ⟨fun hmem => ?_, hnodup⟩⟩
      obtain ⟨x, hx, hid⟩ := List.mem_map.mp hmem
      exact hseen x hx (hid ▸ List.mem_cons_self)

/-- An accepted pair is bound: exact disjoint evidence, distinct names, referents of the
manifest. -/
theorem validateSemanticBinding_facts {P : Platform} {semanticInput : SemanticAnalysisV1Input}
    {semanticOutput : SemanticAnalysisV1Output} {report : ValidationReport}
    (h : validateSemanticBinding P semanticInput semanticOutput = .ok report) :
    BindingFacts P semanticInput semanticOutput report := by
  simp only [validateSemanticBinding, Checks.bind_eq_ok, Checks.require_eq_ok, Checks.forM_eq_ok,
    Checks.forDistinct_eq_ok] at h
  obtain ⟨_, hinput, _, -, _, -, _, -, _, -, _, hsorted, _, -, _, -, _, -, _, -, _, hprivacy, _,
    ⟨href, hrefNodup⟩, _, ⟨hrel, hrelNodup⟩, hreport⟩ := h
  simp only [SemanticAnalysisV1Input.modelValidate, Checks.bind_eq_ok, Checks.require_eq_ok]
    at hinput
  obtain ⟨_, -, _, -, _, -, _, hhash, _, -, _, -, hitems⟩ := hinput
  split at hreport
  case h_2 => exact absurd hreport (by simp)
  case h_1 hrejections =>
    rw [Checks.pure_eq_ok] at hreport
    subst hreport
    refine
      { evidence := validateSemanticEvidence_facts (by rw [ValidationReport.ok, hrejections]; rfl)
        envelopeHash := hhash
        contextNodup := (manifestItems_nodup hitems).2
        ordered := ?_
        privacy := hprivacy
        reference := fun r hr => (href r hr).1
        referenceNodup := hrefNodup
        relation := fun r hr => (hrel r hr).1
        relationNodup := hrelNodup }
    have := KeySort.pairwise_sortBy id (semanticOutput.semanticUnits.map SemanticUnit.rawSpanKey)
    rw [← hsorted, List.pairwise_map] at this
    exact this

end Memorist
