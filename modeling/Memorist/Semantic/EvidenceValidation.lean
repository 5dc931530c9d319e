import Memorist.Library.Checks
import Memorist.Library.Dict
import Memorist.Semantic.Contracts

/-!
Evidence integrity of a model's answer (`textsemantics/validation.py`).

* `validateUnit`, `validateReference`, `validateRelation`: one record against the raw
  text and the units accepted before it;
* `validateSemanticEvidence`: the admissible part of an answer, and every rejection;
* `EvidenceFacts`: what an answer without rejections satisfies
  (`validateSemanticEvidence_facts`, `validateSemanticEvidence_ranges`).
-/

namespace Memorist

open Checks (require)

/-- Why a record was rejected. -/
inductive Violation where
  | spanOutOfRange
  | spanInverted
  | evidenceNotASlice
  | evidenceMissing
  | unitsOverlap
  | duplicateUnitId
  | unknownUnitId
  | candidateListRequired
  | unknownCandidateUnitId
  | referentNotACandidate
  | resolvedWithoutTarget
  | malformedRecord
  deriving DecidableEq, Repr

/-- The text of a violation. -/
def Violation.value : Violation → String
  | spanOutOfRange => "span_out_of_range"
  | spanInverted => "span_inverted"
  | evidenceNotASlice => "evidence_not_a_slice"
  | evidenceMissing => "evidence_missing"
  | unitsOverlap => "units_overlap"
  | duplicateUnitId => "duplicate_unit_id"
  | unknownUnitId => "unknown_unit_id"
  | candidateListRequired => "candidate_list_required"
  | unknownCandidateUnitId => "unknown_candidate_unit_id"
  | referentNotACandidate => "referent_not_a_candidate"
  | resolvedWithoutTarget => "resolved_without_target"
  | malformedRecord => "malformed_record"

/-- One rejected record. -/
structure Rejection where
  violation : Violation
  recordKind : String
  recordId : Option String
  deriving DecidableEq, Repr

/-- The admissible part of an answer, and every rejection. -/
structure ValidationReport where
  acceptedUnitIds : List String
  acceptedReferenceIndexes : List ℕ
  acceptedRelationIndexes : List ℕ
  rejections : List Rejection
  deriving DecidableEq, Repr

/-- Whether nothing was rejected. -/
def ValidationReport.ok (r : ValidationReport) : Bool := r.rejections.isEmpty

/-- The raw range of a unit. -/
def SemanticUnit.span (u : SemanticUnit) : Span := ⟨u.rawStart, u.rawEnd⟩

/-- The raw range of the marker of a reference. -/
def SemanticReference.marker (r : SemanticReference) : Span := ⟨r.markerStart, r.markerEnd⟩

/-! ### Single records -/

/-- Check that a span lies in the text and its evidence is the exact slice. -/
def checkEvidence (raw : Text) (kind : String) (label : Option String) (span : Span)
    (evidence : Text) : Except Rejection Unit := do
  require (span.start < span.stop) ⟨.spanInverted, kind, label⟩
  require (span.stop ≤ raw.length) ⟨.spanOutOfRange, kind, label⟩
  require (evidence = slice raw span.start span.stop) ⟨.evidenceNotASlice, kind, label⟩

/-- Check a unit against the text and the units accepted before it. -/
def validateUnit (raw : Text) (unit : SemanticUnit) (accepted : Dict String Span) :
    Except Rejection Unit := do
  require (unit.id ≠ "") ⟨.malformedRecord, "semantic_unit", none⟩
  require (unit.id ∉ accepted.map Prod.fst) ⟨.duplicateUnitId, "semantic_unit", some unit.id⟩
  checkEvidence raw "semantic_unit" (some unit.id) unit.span unit.evidence
  forM accepted fun other =>
    require (¬unit.span.Overlaps other.2) ⟨.unitsOverlap, "semantic_unit", some unit.id⟩

/-- Whether a referent is an accepted unit or an allowed name. -/
def knownReferent (accepted : Dict String Span) (allowedReferentIds : List String)
    (referentId : String) : Prop :=
  referentId ∈ accepted.map Prod.fst ∨
    removePrefix "current_unit:" referentId ∈ accepted.map Prod.fst ∨
    referentId ∈ allowedReferentIds

instance (accepted : Dict String Span) (allowed : List String) (referentId : String) :
    Decidable (knownReferent accepted allowed referentId) :=
  inferInstanceAs (Decidable (_ ∨ _ ∨ _))

/-- Check a reference against the text and the accepted units. -/
def validateReference (raw : Text) (accepted : Dict String Span)
    (allowedReferentIds : List String) (reference : SemanticReference) (position : ℕ) :
    Except Rejection Unit := do
  let label := some (toString position)
  checkEvidence raw "reference" label reference.marker reference.markerEvidence
  forM reference.candidateReferentIds fun candidate =>
    require (knownReferent accepted allowedReferentIds candidate)
      ⟨.unknownCandidateUnitId, "reference", label⟩
  if reference.status = .resolved then
    match reference.selectedReferentId with
    | none => .error ⟨.resolvedWithoutTarget, "reference", label⟩
    | some target => do
        require (target ≠ "") ⟨.resolvedWithoutTarget, "reference", label⟩
        require (knownReferent accepted allowedReferentIds target)
          ⟨.unknownUnitId, "reference", label⟩
        require (reference.candidateReferentIds ≠ [])
          ⟨.candidateListRequired, "reference", label⟩
        require (target ∈ reference.candidateReferentIds)
          ⟨.referentNotACandidate, "reference", label⟩
  else .ok ()

/-- Check a relation against the text and the accepted units. -/
def validateRelation (raw : Text) (accepted : Dict String Span)
    (allowedReferentIds : List String) (relation : SemanticRelation) (position : ℕ) :
    Except Rejection Unit := do
  let label := some (if relation.id = "" then toString position else relation.id)
  require (relation.sourceUnitId ∈ accepted.map Prod.fst) ⟨.unknownUnitId, "relation", label⟩
  require (knownReferent accepted allowedReferentIds relation.targetReferentId)
    ⟨.unknownUnitId, "relation", label⟩
  checkEvidence raw "relation" label ⟨relation.evidenceStart, relation.evidenceEnd⟩
    relation.evidence

/-! ### The whole answer -/

/-- Take one more unit: it is accepted, or its rejection is recorded. -/
def acceptUnit (raw : Text) (state : Dict String Span × List Rejection) (unit : SemanticUnit) :
    Dict String Span × List Rejection :=
  match validateUnit raw unit state.1 with
  | .ok _ => (state.1.set unit.id unit.span, state.2)
  | .error rejection => (state.1, state.2 ++ [rejection])

/-- The positions of the records that pass a check. -/
def passing {α : Type} (check : α → ℕ → Except Rejection Unit) (records : List α) : List ℕ :=
  records.zipIdx.filterMap fun p => match check p.1 p.2 with
    | .ok _ => some p.2
    | .error _ => none

/-- The rejections of the records that fail a check. -/
def failures {α : Type} (check : α → ℕ → Except Rejection Unit) (records : List α) :
    List Rejection :=
  records.zipIdx.filterMap fun p => match check p.1 p.2 with
    | .ok _ => none
    | .error rejection => some rejection

/-- Check model evidence and references against `raw`. -/
def validateSemanticEvidence (raw : Text) (payload : SemanticAnalysisV1Output)
    (allowedReferentIds : List String) : ValidationReport :=
  let (accepted, rejections) := payload.semanticUnits.foldl (acceptUnit raw) ([], [])
  let reference := validateReference raw accepted allowedReferentIds
  let relation := validateRelation raw accepted allowedReferentIds
  { acceptedUnitIds := accepted.map Prod.fst
    acceptedReferenceIndexes := passing reference payload.references
    acceptedRelationIndexes := passing relation payload.relations
    rejections :=
      rejections ++ failures reference payload.references ++ failures relation payload.relations }

/-! ### Answers without rejections -/

lemma checkEvidence_eq_ok {raw : Text} {kind : String} {label : Option String} {span : Span}
    {evidence : Text} :
    checkEvidence raw kind label span evidence = .ok () ↔
      span.start < span.stop ∧ span.stop ≤ raw.length ∧
        evidence = slice raw span.start span.stop := by
  simp [checkEvidence]

/-- Records without failures pass. -/
lemma check_of_failures {α : Type} {check : α → ℕ → Except Rejection Unit} {records : List α}
    (h : failures check records = []) : ∀ p ∈ records.zipIdx, check p.1 p.2 = .ok () := by
  intro p hp
  have := List.filterMap_eq_nil_iff.mp h p hp
  cases hc : check p.1 p.2 with
  | ok u => rfl
  | error r => simp [hc] at this

/-- A list of records without failures passes at every position. -/
lemma passing_of_failures {α : Type} {check : α → ℕ → Except Rejection Unit} {records : List α}
    (h : failures check records = []) : passing check records = List.range records.length := by
  have hsome : records.zipIdx.filterMap (fun p => match check p.1 p.2 with
      | .ok _ => some p.2
      | .error _ => none) = records.zipIdx.filterMap fun p => some p.2 :=
    List.filterMap_congr fun p hp => by rw [check_of_failures h p hp]
  rw [passing, hsome]
  simp [List.filterMap_eq_map', List.zipIdx_map_snd, List.range_eq_range']

/-- A unit that passes is recorded after the units before it. -/
lemma acceptUnit_ok {raw : Text} {u : SemanticUnit} {d : Dict String Span} {rs : List Rejection}
    (hu : validateUnit raw u d = .ok ()) :
    acceptUnit raw (d, rs) u = (d ++ [(u.id, u.span)], rs) := by
  have hfresh : u.id ∉ d.map Prod.fst := by
    simp only [validateUnit, Checks.bind_eq_ok, Checks.require_eq_ok] at hu
    exact hu.choose_spec.2.choose_spec.1
  simp only [acceptUnit, hu, Dict.set_of_not_mem hfresh]

lemma acceptUnit_error {raw : Text} {u : SemanticUnit} {d : Dict String Span}
    {rs : List Rejection} {r : Rejection} (hu : validateUnit raw u d = .error r) :
    acceptUnit raw (d, rs) u = (d, rs ++ [r]) := by
  simp only [acceptUnit, hu]

/-- Units that raise no rejection are exact disjoint slices, accepted in their order. -/
lemma foldl_acceptUnit {raw : Text} {units : List SemanticUnit} :
    ∀ {d : Dict String Span} {rs : List Rejection},
      (units.foldl (acceptUnit raw) (d, rs)).2 = [] →
      rs = [] ∧ (units.foldl (acceptUnit raw) (d, rs)).1 =
        d ++ units.map (fun u => (u.id, u.span)) ∧
      (∀ u ∈ units, checkEvidence raw "semantic_unit" (some u.id) u.span u.evidence = .ok () ∧
        u.id ∉ d.map Prod.fst ∧ ∀ other ∈ d, ¬u.span.Overlaps other.2) ∧
      (units.map SemanticUnit.id).Nodup ∧
      units.Pairwise fun u v => ¬v.span.Overlaps u.span := by
  induction units with
  | nil => simp
  | cons u units ih =>
      intro d rs h
      rw [List.foldl_cons] at h ⊢
      cases hu : validateUnit raw u d with
      | error r =>
          rw [acceptUnit_error hu] at h
          exact absurd (ih h).1 (by simp)
      | ok x =>
          rw [acceptUnit_ok hu] at h ⊢
          simp only [validateUnit, Checks.bind_eq_ok, Checks.require_eq_ok, Checks.forM_eq_ok] at hu
          obtain ⟨_, -, _, hfresh, _, hev, hover⟩ := hu
          obtain ⟨hrs, hd, hmem, hnodup, hpair⟩ := ih h
          refine ⟨hrs, by rw [hd, List.map_cons, List.append_assoc, List.singleton_append], ?_, ?_,
            ?_⟩
          · rintro v (_ | ⟨_, hv⟩)
            · exact ⟨hev, hfresh, hover⟩
            · obtain ⟨hev', hfresh', hover'⟩ := hmem v hv
              exact ⟨hev', fun h => hfresh' (by simp [h]),
                fun other h => hover' other (List.mem_append_left _ h)⟩
          · rw [List.map_cons, List.nodup_cons]
            refine ⟨fun h => ?_, hnodup⟩
            obtain ⟨v, hv, hid⟩ := List.mem_map.mp h
            exact (hmem v hv).2.1 (by simp [hid])
          · exact List.pairwise_cons.mpr ⟨fun v hv => (hmem v hv).2.2 (u.id, u.span) (by simp), hpair⟩

/-- What an answer without rejections satisfies. -/
structure EvidenceFacts (raw : Text) (payload : SemanticAnalysisV1Output)
    (report : ValidationReport) : Prop where
  unitIds : report.acceptedUnitIds = payload.semanticUnits.map SemanticUnit.id
  referenceIndexes : report.acceptedReferenceIndexes = List.range payload.references.length
  relationIndexes : report.acceptedRelationIndexes = List.range payload.relations.length
  nodup : (payload.semanticUnits.map SemanticUnit.id).Nodup
  lt : ∀ u ∈ payload.semanticUnits, u.rawStart < u.rawEnd
  le_length : ∀ u ∈ payload.semanticUnits, u.rawEnd ≤ raw.length
  exact : ∀ u ∈ payload.semanticUnits, u.evidence = slice raw u.rawStart u.rawEnd
  disjoint : payload.semanticUnits.Pairwise fun u v => ¬v.span.Overlaps u.span

theorem validateSemanticEvidence_facts {raw : Text} {payload : SemanticAnalysisV1Output}
    {allowed : List String} (h : (validateSemanticEvidence raw payload allowed).ok = true) :
    EvidenceFacts raw payload (validateSemanticEvidence raw payload allowed) := by
  rw [ValidationReport.ok, List.isEmpty_iff] at h
  simp only [validateSemanticEvidence, List.append_eq_nil_iff] at h ⊢
  obtain ⟨⟨hunits, hreferences⟩, hrelations⟩ := h
  obtain ⟨-, hd, hmem, hnodup, hpair⟩ := foldl_acceptUnit hunits
  have hev := fun u hu => checkEvidence_eq_ok.mp (hmem u hu).1
  exact
    { unitIds := by simp [hd, Function.comp_def]
      referenceIndexes := passing_of_failures hreferences
      relationIndexes := passing_of_failures hrelations
      nodup := hnodup
      lt := fun u hu => (hev u hu).1
      le_length := fun u hu => (hev u hu).2.1
      exact := fun u hu => (hev u hu).2.2
      disjoint := hpair }

/-- The markers and the evidence of an answer without rejections lie in the text. -/
theorem validateSemanticEvidence_ranges {raw : Text} {payload : SemanticAnalysisV1Output}
    {allowed : List String} (h : (validateSemanticEvidence raw payload allowed).ok = true) :
    (∀ r ∈ payload.references, r.markerStart < r.markerEnd ∧ r.markerEnd ≤ raw.length) ∧
      ∀ r ∈ payload.relations, r.evidenceStart < r.evidenceEnd ∧ r.evidenceEnd ≤ raw.length := by
  rw [ValidationReport.ok, List.isEmpty_iff] at h
  simp only [validateSemanticEvidence, List.append_eq_nil_iff] at h
  obtain ⟨⟨-, hreferences⟩, hrelations⟩ := h
  constructor
  · intro r hr
    obtain ⟨i, hi⟩ := List.mem_iff_getElem?.mp hr
    have hcheck := check_of_failures hreferences (r, i) (List.mem_zipIdx_iff_getElem?.mpr hi)
    simp only [validateReference, Checks.check_bind_eq_ok] at hcheck
    obtain ⟨hlt, hle, -⟩ := checkEvidence_eq_ok.mp hcheck.1
    exact ⟨hlt, hle⟩
  · intro r hr
    obtain ⟨i, hi⟩ := List.mem_iff_getElem?.mp hr
    have hcheck := check_of_failures hrelations (r, i) (List.mem_zipIdx_iff_getElem?.mpr hi)
    simp only [validateRelation, Checks.check_bind_eq_ok] at hcheck
    obtain ⟨hlt, hle, -⟩ := checkEvidence_eq_ok.mp hcheck.2.2
    exact ⟨hlt, hle⟩

end Memorist
