import Memorist.Coverage.Planable
import Memorist.Coverage.Store

/-!
The candidates of the proposals of a plan.

* `MemoryCandidate.Claims`, `CandidateProposal.SameClaim`: what the unique index of candidates is
  over, as a proposal has it;
* `AdaptedFrom`, `buildCandidateFromProposal_eq_ok`: what a candidate and its evidence have of their
  proposal;
* `CandidateProposal.Adaptable`, `Adaptable.exists_candidate`: the proposals that become candidates
  with a digest;
* `Plannable.adaptable`: **every proposal of a plan is one of them.**
-/

namespace Memorist

open Checks (require)

/-! ### Claims -/

/-- A candidate that a run made of the claim of a proposal: its text unit, type and text. -/
structure MemoryCandidate.Claims (processingRunUuid : String) (p : CandidateProposal)
    (candidate : MemoryCandidate) : Prop where
  processingRunUuid : candidate.processingRunUuid = processingRunUuid
  textUnitUuid : candidate.textUnitUuid = p.textUnitUuid
  candidateType : candidate.candidateType.value = p.candidateType
  normalizedText : candidate.normalizedText = p.normalizedText

/-- Two proposals with one claim: one text unit, type and text. -/
def CandidateProposal.SameClaim (p q : CandidateProposal) : Prop :=
  p.textUnitUuid = q.textUnitUuid ∧ p.candidateType = q.candidateType ∧
    p.normalizedText = q.normalizedText

lemma CandidateType.value_injective : Function.Injective CandidateType.value := by
  intro a b; cases a <;> cases b <;> simp [value]

/-- Candidates agree in the index when one has the claim of the other. -/
lemma MemoryCandidate.Claims.sameIndex_iff {run : String} {p : CandidateProposal}
    {candidate other : MemoryCandidate} (h : candidate.Claims run p) :
    candidate.sameIndex other = true ↔ other.Claims run p := by
  rw [sameIndex]
  simp only [Bool.and_eq_true, decide_eq_true_eq]
  constructor
  · rintro ⟨⟨⟨hrun, hunit⟩, htype⟩, htext⟩
    exact ⟨hrun ▸ h.processingRunUuid, hunit ▸ h.textUnitUuid, htype ▸ h.candidateType,
      htext ▸ h.normalizedText⟩
  · intro h'
    exact ⟨⟨⟨h.processingRunUuid.trans h'.processingRunUuid.symm,
      h.textUnitUuid.trans h'.textUnitUuid.symm⟩,
      CandidateType.value_injective (h.candidateType.trans h'.candidateType.symm)⟩,
      h.normalizedText.trans h'.normalizedText.symm⟩

/-- A candidate has the claim of another proposal when the proposals share it. -/
lemma MemoryCandidate.Claims.sameClaim_iff {run : String} {p q : CandidateProposal}
    {candidate : MemoryCandidate} (h : candidate.Claims run p) :
    candidate.Claims run q ↔ p.SameClaim q := by
  constructor
  · intro h'
    exact ⟨h.textUnitUuid.symm.trans h'.textUnitUuid, h.candidateType.symm.trans h'.candidateType,
      h.normalizedText.symm.trans h'.normalizedText⟩
  · rintro ⟨hunit, htype, htext⟩
    exact ⟨h.processingRunUuid, h.textUnitUuid.trans hunit, h.candidateType.trans htype,
      h.normalizedText.trans htext⟩

/-! ### Candidates -/

/-- A value of an enumeration names a member. -/
lemma exists_enumMember {α : Type} {U : UnicodeData} {name : String} {all : List α}
    {value : α → String} {a : α} (ha : a ∈ all) :
    ∃ b, enumMember U name all value (value a) = .ok b := by
  unfold enumMember
  split
  case h_1 b _ => exact ⟨b, rfl⟩
  case h_2 hnone => exact absurd (List.find?_eq_none.mp hnone a ha) (by simp)

/-- The member that is named has the value. -/
lemma enumMember_eq_ok {α : Type} {U : UnicodeData} {name text : String} {all : List α}
    {value : α → String} {a : α} (h : enumMember U name all value text = .ok a) :
    value a = text := by
  unfold enumMember at h
  split at h
  case h_1 b hb =>
    obtain rfl := Except.ok.inj h
    simpa using List.find?_some hb
  case h_2 => exact absurd h (by simp)

lemma CandidateType.mem_all (t : CandidateType) : t ∈ CandidateType.all := by
  cases t <;> decide

lemma SourceAuthority.mem_all (a : SourceAuthority) : a ∈ SourceAuthority.all := by
  cases a <;> decide

lemma Explicitness.mem_all (e : Explicitness) : e ∈ Explicitness.all := by
  cases e <;> decide

lemma CandidateStatus.mem_all (s : CandidateStatus) : s ∈ CandidateStatus.all := by
  cases s <;> decide

/-- What a candidate and its evidence have of their proposal. -/
structure AdaptedFrom (processingRunUuid : String) (p : CandidateProposal)
    (candidate : MemoryCandidate) (evidence : CandidateEvidence) : Prop where
  candidateUuid : candidate.candidateUuid = p.proposalId
  claims : candidate.Claims processingRunUuid p
  messageUuid : evidence.messageUuid = p.messageUuid
  textUnitUuid : evidence.textUnitUuid = p.textUnitUuid
  startChar : evidence.startChar = p.rawStart
  endChar : evidence.endChar = p.rawEnd
  evidenceText : evidence.evidenceText = p.evidence

/-- A candidate is built with what it has of its proposal. -/
theorem buildCandidateFromProposal_eq_ok {U : UnicodeData} {newUuid run : String}
    {p : CandidateProposal} {candidate : MemoryCandidate} {evidence : CandidateEvidence}
    (h : buildCandidateFromProposal U newUuid run p = .ok (candidate, evidence)) :
    AdaptedFrom run p candidate evidence := by
  simp only [buildCandidateFromProposal, Checks.bind_eq_ok, Checks.pure_eq_ok,
    Prod.mk.injEq] at h
  obtain ⟨candidateType, htype, _, -, _, -, _, -, _, -, _, -, _, -, rfl, rfl⟩ := h
  exact ⟨rfl, ⟨rfl, rfl, enumMember_eq_ok htype, rfl⟩, rfl, rfl, rfl, rfl, rfl⟩

/-- The offsets of a lineage are integers that every reader represents. -/
structure ContextLineage.Representable (l : ContextLineage) : Prop where
  rawStart : (l.rawStart : ℤ) ≤ maxSafeInteger
  rawEnd : (l.rawEnd : ℤ) ≤ maxSafeInteger
  referenceMarkerStart : (l.referenceMarkerStart : ℤ) ≤ maxSafeInteger
  referenceMarkerEnd : (l.referenceMarkerEnd : ℤ) ≤ maxSafeInteger

/-- What a proposal needs to become a candidate: the values of its enumerations, offsets that every
reader represents, and evidence of the length of its range. -/
structure CandidateProposal.Adaptable (P : Platform) (p : CandidateProposal) : Prop where
  named : ∃ name, p.proposalId = P.uuid5 proposalNamespace name
  candidateType : ∃ t : CandidateType, p.candidateType = t.value
  sourceAuthority : ∃ a : SourceAuthority, p.sourceAuthority = a.value
  explicitness : ∃ e : Explicitness, p.explicitness = e.value
  status : ∃ s : CandidateStatus, p.status = s.value
  objectPayload : ∃ text, p.objectPayload = [("value", text)]
  contextLineage : ∀ l ∈ p.contextLineage, l.Representable
  evidence : p.evidence ≠ []
  lt : p.rawStart < p.rawEnd
  length : p.rawEnd - p.rawStart = p.evidence.length
  rawEnd : (p.rawEnd : ℤ) ≤ maxSafeInteger

section

variable {P : Platform} {p : CandidateProposal}

lemma validValue_lineage {U : UnicodeData} {l : ContextLineage} (h : l.Representable) :
    ValidValue U none l.json := by
  rw [ContextLineage.json, validValue_fields ["context_item_id", "message_uuid",
    "message_version_uuid", "text_unit_uuid", "role", "raw_start", "raw_end", "raw_text_hash",
    "source_authority_ceiling", "reference_marker_start", "reference_marker_end",
    "semantic_contract_hash"] (by decide) rfl]
  simp [field, h.rawStart, h.rawEnd, h.referenceMarkerStart, h.referenceMarkerEnd]

lemma validValue_bool {U : UnicodeData} (b : Bool) : ValidValue U none (.bool b) := by
  simp [ValidValue, validateValue]

lemma validValue_optionText {U : UnicodeData} (text : Option Text) :
    ValidValue U none (jsonOptionText text) := by
  cases text <;> simp [ValidValue, validateValue, jsonOptionText]

lemma CandidateProposal.Adaptable.validValue_metadata (h : p.Adaptable P) :
    ValidValue P.unicode none (extractionMetadata p) := by
  have hlineage : ValidValue P.unicode none (.arr (p.contextLineage.map ContextLineage.json)) := by
    refine validValue_arr.mpr fun j hj => ?_
    obtain ⟨l, hl, rfl⟩ := List.mem_map.mp hj
    exact validValue_lineage (h.contextLineage l hl)
  rw [extractionMetadata, validValue_fields ["semantic_authority", "semantic_unit_id",
    "semantic_unit_fingerprint", "epistemic_status", "durability", "context_lineage",
    "gate_decision_uuid", "route_uuid", "annotation_uuid", "prompt_execution_uuid",
    "candidate_service_version", "route_mapping_version", "provenance_policy_version",
    "allows_automatic_memory_creation"] (by decide) rfl]
  simp [field, hlineage, validValue_bool]

/-- A candidate with evidence at offsets that every reader represents has a digest. -/
lemma exists_candidatePayloadHash {candidate : MemoryCandidate} {evidence : CandidateEvidence}
    (hstart : (evidence.startChar : ℤ) ≤ maxSafeInteger)
    (hend : (evidence.endChar : ℤ) ≤ maxSafeInteger) :
    ∃ payloadHash, candidatePayloadHash P candidate [evidence] = .ok payloadHash := by
  have hevidence : ValidValue P.unicode none (evidencePayload evidence) := by
    rw [evidencePayload, validValue_fields ["message_uuid", "text_unit_uuid", "annotation_uuid",
      "route_uuid", "evidence_text", "start_char", "end_char", "evidence_role", "support_type"]
      (by decide) rfl]
    simp [field, hstart, hend]
  have hpayload : ValidValue P.unicode none (candidatePayload candidate [evidence]) := by
    rw [candidatePayload, validValue_fields ["candidate_uuid", "processing_run_uuid",
      "text_unit_uuid", "prompt_execution_uuid", "candidate_type", "subject_key", "predicate",
      "object_ijson", "normalized_text", "source_authority", "explicitness", "polarity", "status",
      "sensitivity_class", "extraction_metadata_ijson", "rejection_reason_codes_ijson",
      "evidence"] (by decide) rfl]
    simp [field, validValue_optionText, validValue_arr, hevidence]
  exact ⟨_, canonicalHashIjson_eq_ok.mpr ⟨hpayload, rfl⟩⟩

/-- Evidence at offsets that every reader represents has an identity. -/
lemma exists_deterministicEvidence {proposalId : String} {evidence : CandidateEvidence}
    (hstart : (evidence.startChar : ℤ) ≤ maxSafeInteger)
    (hend : (evidence.endChar : ℤ) ≤ maxSafeInteger) :
    ∃ digest, canonicalHashIjson P (evidenceIdentity proposalId evidence) = .ok digest := by
  have hidentity : ValidValue P.unicode none (evidenceIdentity proposalId evidence) := by
    rw [evidenceIdentity, validValue_fields ["proposal_id", "message_uuid", "text_unit_uuid",
      "annotation_uuid", "route_uuid", "start_char", "end_char", "evidence_role", "support_type"]
      (by decide) rfl]
    simp [field, hstart, hend]
  exact ⟨_, canonicalHashIjson_eq_ok.mpr ⟨hidentity, rfl⟩⟩

/-- A proposal that can become a candidate does. -/
theorem CandidateProposal.Adaptable.exists_candidate (h : p.Adaptable P) (newUuid run : String) :
    ∃ candidate evidence,
      buildCandidateFromProposal P.unicode newUuid run p = .ok (candidate, evidence) := by
  obtain ⟨t, ht⟩ := h.candidateType
  obtain ⟨a, ha⟩ := h.sourceAuthority
  obtain ⟨e, he⟩ := h.explicitness
  obtain ⟨s, hs⟩ := h.status
  obtain ⟨text, htext⟩ := h.objectPayload
  obtain ⟨type, htype⟩ := @exists_enumMember _ P.unicode "CandidateType" _ CandidateType.value _
    t.mem_all
  obtain ⟨authority, hauthority⟩ := @exists_enumMember _ P.unicode "SourceAuthority" _
    SourceAuthority.value _ a.mem_all
  obtain ⟨explicitness, hexplicitness⟩ := @exists_enumMember _ P.unicode "Explicitness" _
    Explicitness.value _ e.mem_all
  obtain ⟨status, hstatus⟩ := @exists_enumMember _ P.unicode "CandidateStatus" _
    CandidateStatus.value _ s.mem_all
  have hobject : ValidValue P.unicode none
      (.obj (p.objectPayload.map fun m => field m.1 (.str m.2))) := by
    rw [htext]
    show ValidValue P.unicode none (.obj [field "value" (.str text)])
    rw [validValue_fields ["value"] (by decide) rfl]
    simp [field]
  simp only [buildCandidateFromProposal, ht, ha, he, hs, htype, hauthority, hexplicitness, hstatus,
    dumpIjson_of_valid hobject, dumpIjson_of_valid h.validValue_metadata, Checks.ok_bind,
    Checks.bind_eq_ok, Checks.pure_eq_ok]
  refine ⟨_, _, (), ?_, rfl⟩
  simp only [CandidateEvidence.modelValidate, Checks.check_bind_eq_ok, Checks.require_eq_ok,
    nonEmpty_eq_ok, positive]
  exact ⟨h.evidence, (Nat.zero_le _).trans_lt h.lt, h.lt, h.length⟩

end

/-! ### The proposals of a plan -/

section

variable {P : Platform} {value : CoveragePlannerInput}

/-- The item of a referent is one of the context. -/
lemma contextItem?_mem {items : List BoundedContextItem} {referentId : Option String}
    {item : BoundedContextItem} (h : contextItem? (contextsById items) referentId = some item) :
    item ∈ items := by
  obtain ⟨id, -, hid⟩ := Option.bind_eq_some_iff.mp h
  split_ifs at hid
  rw [contextsById, Dict.get?_ofPairs] at hid
  have hmem := Dict.mem_of_get? hid
  simp only [List.mem_reverse, List.mem_map, Prod.mk.injEq] at hmem
  obtain ⟨other, hother, -, rfl⟩ := hmem
  exact hother

/-- The lineage of a unit is at offsets that every reader represents. -/
lemma Plannable.contextLineage_representable (h : Plannable P value) (unitId : String)
    (indexes : List ℕ) : ∀ l ∈ contextLineage value unitId indexes, l.Representable := by
  intro l hl
  obtain ⟨reference, hreference, hentry⟩ := List.mem_filterMap.mp hl
  split_ifs at hentry
  obtain ⟨item, hitem, rfl⟩ := Option.map_eq_some_iff.mp hentry
  obtain ⟨index, -, hindex⟩ := List.mem_filterMap.mp hreference
  obtain ⟨hlt, hend⟩ := h.context item (contextItem?_mem hitem)
  obtain ⟨hmarker, hmarkerEnd⟩ := h.marker reference (List.mem_of_getElem? hindex)
  exact
    { rawStart := (Int.ofNat_le.mpr hlt.le).trans hend
      rawEnd := hend
      referenceMarkerStart := h.offset_le (hmarker.le.trans hmarkerEnd)
      referenceMarkerEnd := h.offset_le hmarkerEnd }

/-- The proposals of a plan whose units quote their message become candidates. -/
theorem Plannable.adaptable (h : Plannable P value)
    (hexact : ∀ u ∈ value.semanticAnalysis.semanticUnits,
      u.evidence = slice value.currentRawText u.rawStart u.rawEnd)
    {p : CandidateProposal} {unit : SemanticUnit} {fingerprint : String} {basis : CandidateBasis}
    (horigin : ProposalOrigin P value p unit fingerprint basis) : p.Adaptable P := by
  have hlt := h.lt unit horigin.mem
  have hend := h.unitEnd unit horigin.mem
  have hlength : unit.rawEnd - unit.rawStart = unit.evidence.length := by
    rw [hexact unit horigin.mem, slice_length]
    omega
  have hname := horigin.identity_eq
  simp only [proposalIdentity, Checks.bind_eq_ok, Checks.pure_eq_ok] at hname
  obtain ⟨digest, -, hdigest⟩ := hname
  have hrecord := horigin.record_eq
  rw [hrecord]
  exact
    { named := ⟨_, hdigest.symm⟩
      candidateType := ⟨_, rfl⟩
      sourceAuthority := ⟨_, rfl⟩
      explicitness := ⟨_, rfl⟩
      status := ⟨_, rfl⟩
      objectPayload := ⟨_, rfl⟩
      contextLineage := h.contextLineage_representable _ _
      evidence := h.evidence unit horigin.mem
      lt := hlt
      length := hlength
      rawEnd := h.offset_le hend }

end

end Memorist
