import Memorist.Coverage.Completeness
import Memorist.Coverage.Determined
import Memorist.Coverage.Invariance
import Memorist.Semantic.BoundedContext

/-!
An accepted answer has a plan.

* `PreparedFrom`: the input that the service builds from the report of an accepted answer
  (`memory_worker/semantic/orchestration.py`), and `Plannable`, what the planner needs of it;
* `exists_unitFingerprint`, `exists_planUnit`, `exists_uncoveredItems`: the pieces of the plan
  can be made;
* `coverageItem_inj`, `nodup_coverageItemIds`: its items have distinct identities;
* `durable_proposalIds`: its durable items name its proposals, one each;
* `accepted_is_planable`: **the planner returns a plan for every accepted answer.**
-/

namespace Memorist

/-! ### Prepared inputs -/

/-- The names of an authority are those of stored rows, none of them empty. -/
structure PersistedUnitAuthority.Named (a : PersistedUnitAuthority) : Prop where
  textUnitUuid : a.textUnitUuid ≠ ""
  gateDecisionUuid : a.gateDecisionUuid ≠ some ""
  routeUuid : a.routeUuid ≠ some ""
  annotationUuid : a.annotationUuid ≠ some ""

/-- The input that the service builds from a report. The texts are stored ones, and no store holds a
text whose offsets are greater than the integers that every reader represents. -/
structure CoveragePlannerInput.PreparedFrom (P : Platform) (value : CoveragePlannerInput)
    (semanticInput : SemanticAnalysisV1Input) (report : ValidationReport) : Prop where
  bound : value.BoundTo semanticInput
  envelope : value.textEnvelope = (buildEnvelope P value.currentRawText).asDict
  unitIds : value.acceptedUnitIds = report.acceptedUnitIds
  referenceIndexes : value.acceptedReferenceIndexes = report.acceptedReferenceIndexes
  relationIndexes : value.acceptedRelationIndexes = report.acceptedRelationIndexes
  authorities : ∀ a ∈ value.authorities, a.Named
  execution : value.semanticPromptExecutionUuid ≠ some ""
  rawText : (value.currentRawText.length : ℤ) ≤ maxSafeInteger
  context : ∀ item ∈ value.boundedContextItems, (item.rawEnd : ℤ) ≤ maxSafeInteger

section

variable {P : Platform} {value : CoveragePlannerInput} {semanticInput : SemanticAnalysisV1Input}
  {report : ValidationReport}

/-- What the planner needs of its input besides the accepted records: ranges that lie in the text,
and names that are not empty. -/
structure Plannable (P : Platform) (value : CoveragePlannerInput) : Prop where
  accepts : AcceptsAll P value
  messageUuid : value.messageUuid ≠ ""
  authorities : ∀ a ∈ value.authorities, a.Named
  execution : value.semanticPromptExecutionUuid ≠ some ""
  tokens : TokenRangesOf P.unicode value.currentRawText value.textEnvelope.tokens
  rawText : (value.currentRawText.length : ℤ) ≤ maxSafeInteger
  unitId : ∀ u ∈ value.semanticAnalysis.semanticUnits, u.id ≠ ""
  lt : ∀ u ∈ value.semanticAnalysis.semanticUnits, u.rawStart < u.rawEnd
  unitEnd : ∀ u ∈ value.semanticAnalysis.semanticUnits, u.rawEnd ≤ value.currentRawText.length
  evidence : ∀ u ∈ value.semanticAnalysis.semanticUnits, u.evidence ≠ []
  disjoint : value.semanticAnalysis.semanticUnits.Pairwise fun u v => ¬v.span.Overlaps u.span
  marker : ∀ r ∈ value.semanticAnalysis.references, r.markerStart < r.markerEnd ∧
    r.markerEnd ≤ value.currentRawText.length
  relation : ∀ r ∈ value.semanticAnalysis.relations, r.evidenceStart < r.evidenceEnd ∧
    r.evidenceEnd ≤ value.currentRawText.length
  context : ∀ item ∈ value.boundedContextItems, item.rawStart < item.rawEnd ∧
    (item.rawEnd : ℤ) ≤ maxSafeInteger

/-! ### Accepted answers -/

/-- The records of an accepted pair have names and ranges. -/
structure RecordFacts (semanticInput : SemanticAnalysisV1Input)
    (semanticOutput : SemanticAnalysisV1Output) : Prop where
  messageUuid : semanticInput.currentMessageUuid ≠ ""
  context : ∀ item ∈ semanticInput.boundedContextItems, item.rawStart < item.rawEnd
  unitId : ∀ u ∈ semanticOutput.semanticUnits, u.id ≠ ""
  evidence : ∀ u ∈ semanticOutput.semanticUnits, u.evidence ≠ []
  marker : ∀ r ∈ semanticOutput.references, r.markerStart < r.markerEnd ∧
    r.markerEnd ≤ semanticInput.currentRawText.length
  relation : ∀ r ∈ semanticOutput.relations, r.evidenceStart < r.evidenceEnd ∧
    r.evidenceEnd ≤ semanticInput.currentRawText.length

lemma exists_mem_zipIdx {α : Type} {xs : List α} {x : α} (h : x ∈ xs) :
    ∃ i, (x, i) ∈ xs.zipIdx := by
  obtain ⟨i, hi⟩ := List.mem_iff_getElem?.mp h
  exact ⟨i, List.mem_zipIdx_iff_getElem?.mpr hi⟩

lemma nonEmpty_eq_ok {path : String} {text : Text} : nonEmpty path text = .ok () ↔ text ≠ [] := by
  simp [nonEmpty]

/-- The records of an accepted pair have names and ranges. -/
theorem validateSemanticBinding_records {semanticOutput : SemanticAnalysisV1Output}
    (h : validateSemanticBinding P semanticInput semanticOutput = .ok report) :
    RecordFacts semanticInput semanticOutput := by
  simp only [validateSemanticBinding, Checks.check_bind_eq_ok] at h
  obtain ⟨hinput, houtput, -, -, -, -, -, -, -, -, -, -, -, hreport⟩ := h
  simp only [SemanticAnalysisV1Input.modelValidate, Checks.check_bind_eq_ok, Checks.forM_eq_ok]
    at hinput
  obtain ⟨hmessage, hcontext, -⟩ := hinput
  simp only [SemanticAnalysisV1Output.modelValidate, Checks.check_bind_eq_ok, Checks.forM_eq_ok]
    at houtput
  obtain ⟨-, -, -, hunits, -⟩ := houtput
  have hunit : ∀ u ∈ semanticOutput.semanticUnits, u.id ≠ "" ∧ u.evidence ≠ [] := by
    intro u hu
    obtain ⟨i, hi⟩ := exists_mem_zipIdx hu
    have hvalid := hunits _ hi
    simp only [SemanticUnit.modelValidate, Checks.check_bind_eq_ok, nonEmpty_eq_ok] at hvalid
    exact ⟨fun hid => hvalid.1 (by simp [hid]), hvalid.2.2.1⟩
  split at hreport
  case h_2 => exact absurd hreport (by simp)
  case h_1 hrejections =>
    obtain ⟨hmarkers, hrelations⟩ :=
      validateSemanticEvidence_ranges (by rw [ValidationReport.ok, hrejections]; rfl)
    refine ⟨fun hname => ?_, fun item hitem => ?_, fun u hu => (hunit u hu).1,
      fun u hu => (hunit u hu).2, hmarkers, hrelations⟩
    · exact nonEmpty_eq_ok.mp hmessage (by simp [hname])
    · obtain ⟨i, hi⟩ := exists_mem_zipIdx hitem
      have hvalid := hcontext _ hi
      simp only [BoundedContextItem.integrity, Checks.check_bind_eq_ok, Checks.require_eq_ok]
        at hvalid
      exact hvalid.2.2.2.2.2.2.1

/-- A prepared input can be planned. -/
theorem CoveragePlannerInput.PreparedFrom.plannable (h : value.PreparedFrom P semanticInput report)
    (hbinding : validateSemanticBinding P semanticInput value.semanticAnalysis = .ok report) :
    Plannable P value := by
  have hfacts := validateSemanticBinding_facts hbinding
  have hrecords := validateSemanticBinding_records hbinding
  have hraw := h.bound.rawText
  refine
    { accepts :=
        { envelopeHash := by rw [← h.bound.envelope, ← hraw]; exact hfacts.envelopeHash
          unitIds := h.unitIds.trans hfacts.evidence.unitIds
          referenceIndexes := h.referenceIndexes.trans hfacts.evidence.referenceIndexes
          relationIndexes := h.relationIndexes.trans hfacts.evidence.relationIndexes
          nodup := hfacts.evidence.nodup }
      messageUuid := h.bound.messageUuid ▸ hrecords.messageUuid
      authorities := h.authorities
      execution := h.execution
      tokens := by
        rw [h.envelope]
        exact buildEnvelope_tokenRangesOf P value.currentRawText
      rawText := h.rawText
      unitId := hrecords.unitId
      lt := hfacts.evidence.lt
      unitEnd := fun u hu => hraw ▸ hfacts.evidence.le_length u hu
      evidence := hrecords.evidence
      disjoint := hfacts.evidence.disjoint
      marker := fun r hr => hraw ▸ hrecords.marker r hr
      relation := fun r hr => hraw ▸ hrecords.relation r hr
      context := fun item hitem => ⟨?_, h.context item hitem⟩ }
  exact hrecords.context item (h.bound.context ▸ hitem)

/-! ### Fingerprints -/

/-- A target can be fingerprinted when its offsets are integers that every reader represents. -/
lemma Target.exists_fingerprint {t : Target}
    (hunit : ∀ unit, t = .currentUnit unit →
      (unit.rawStart : ℤ) ≤ maxSafeInteger ∧ (unit.rawEnd : ℤ) ≤ maxSafeInteger)
    (hitem : ∀ item, t = .priorContext item →
      (item.rawStart : ℤ) ≤ maxSafeInteger ∧ (item.rawEnd : ℤ) ≤ maxSafeInteger) :
    ∃ j, t.fingerprint P = .ok j ∧ ValidValue P.unicode none j := by
  cases t with
  | absent => exact ⟨_, rfl, by simp [ValidValue, validateValue]⟩
  | invalid =>
      refine ⟨_, rfl, ?_⟩
      rw [validValue_fields ["kind"] (by decide) rfl]
      simp [field]
  | currentUnit unit =>
      obtain ⟨hstart, hend⟩ := hunit unit rfl
      have hvalid : ValidValue P.unicode none (.obj (unitMembers P unit)) := by
        rw [validValue_fields ["raw_start", "raw_end", "evidence_hash", "proposition", "unit_type",
          "durability", "polarity", "epistemic_status"] (by decide) rfl]
        simp [unitMembers, field, hstart, hend]
      simp only [fingerprint, Checks.bind_eq_ok, Checks.pure_eq_ok]
      refine ⟨_, ⟨_, canonicalHashIjson_eq_ok.mpr ⟨hvalid, rfl⟩, rfl⟩, ?_⟩
      rw [validValue_fields ["kind", "fingerprint"] (by decide) rfl]
      simp [field]
  | priorContext item =>
      obtain ⟨hstart, hend⟩ := hitem item rfl
      refine ⟨_, rfl, ?_⟩
      rw [validValue_fields ["kind", "context_item_id", "message_uuid", "message_version_uuid",
        "text_unit_uuid", "raw_start", "raw_end", "raw_text_hash", "role",
        "source_authority_ceiling"] (by decide) rfl]
      simp [contextMembers, field, hstart, hend]

/-- What a referent resolves to is a unit of the answer or an item of the context. -/
lemma resolveTarget_mem {referentId : Option String} :
    (∀ unit, resolveTarget (unitsById value.semanticAnalysis)
        (contextsById value.boundedContextItems) referentId = .currentUnit unit →
      unit ∈ value.semanticAnalysis.semanticUnits) ∧
    ∀ item, resolveTarget (unitsById value.semanticAnalysis)
        (contextsById value.boundedContextItems) referentId = .priorContext item →
      item ∈ value.boundedContextItems := by
  cases referentId with
  | none => simp [resolveTarget]
  | some name =>
      rw [resolveTarget]
      split_ifs
      · cases hget : (unitsById value.semanticAnalysis).get? (removePrefix "current_unit:" name) with
        | none => simp
        | some found =>
            rw [unitsById, Dict.get?_ofPairs] at hget
            have hmem := Dict.mem_of_get? hget
            simp only [List.mem_reverse, List.mem_map, Prod.mk.injEq] at hmem
            obtain ⟨u, hu, -, rfl⟩ := hmem
            simpa using hu
      · cases hget : (contextsById value.boundedContextItems).get?
            (removePrefix "prior_context:" name) with
        | none => simp
        | some found =>
            rw [contextsById, Dict.get?_ofPairs] at hget
            have hmem := Dict.mem_of_get? hget
            simp only [List.mem_reverse, List.mem_map, Prod.mk.injEq] at hmem
            obtain ⟨item, hitem, -, rfl⟩ := hmem
            simpa using hitem
      · simp

/-- The offsets of an input that can be planned are integers that every reader represents. -/
lemma Plannable.offset_le (h : Plannable P value) {n : ℕ} (hn : n ≤ value.currentRawText.length) :
    (n : ℤ) ≤ maxSafeInteger :=
  (Int.ofNat_le.mpr hn).trans h.rawText

/-- A referent can be fingerprinted. -/
lemma Plannable.exists_targetFingerprint (h : Plannable P value) (referentId : Option String) :
    ∃ target, targetFingerprint P (unitsById value.semanticAnalysis)
        (contextsById value.boundedContextItems) referentId = .ok target ∧
      ValidValue P.unicode none target := by
  refine Target.exists_fingerprint (fun unit hunit => ?_) fun item hitem => ?_
  · have hmem := resolveTarget_mem.1 unit hunit
    have hend := h.unitEnd unit hmem
    exact ⟨h.offset_le ((h.lt unit hmem).le.trans hend), h.offset_le hend⟩
  · obtain ⟨hlt, hend⟩ := h.context item (resolveTarget_mem.2 item hitem)
    exact ⟨(Int.ofNat_le.mpr hlt.le).trans hend, hend⟩

/-- A reference of the answer has a hashed form. -/
lemma Plannable.exists_hashedReference (h : Plannable P value) {reference : SemanticReference}
    (hmem : reference ∈ value.semanticAnalysis.references) :
    ∃ material, hashedReference P value reference = .ok material ∧
      ValidValue P.unicode none material := by
  obtain ⟨target, htarget, hvalid⟩ := h.exists_targetFingerprint reference.selectedReferentId
  obtain ⟨hlt, hend⟩ := h.marker reference hmem
  simp only [hashedReference, referenceMaterial, Checks.bind_eq_ok, Checks.pure_eq_ok]
  refine ⟨_, ⟨target, htarget, rfl⟩, ?_⟩
  rw [validValue_fields ["marker_start", "marker_end", "marker_hash", "status", "selected_target"]
    (by decide) rfl]
  simp [field, h.offset_le (hlt.le.trans hend), h.offset_le hend, hvalid]

/-- A relation of the answer has a hashed form. -/
lemma Plannable.exists_hashedRelation (h : Plannable P value) {relation : SemanticRelation}
    (hmem : relation ∈ value.semanticAnalysis.relations) :
    ∃ material, hashedRelation P value relation = .ok material ∧
      ValidValue P.unicode none material := by
  obtain ⟨target, htarget, hvalid⟩ := h.exists_targetFingerprint (some relation.targetReferentId)
  obtain ⟨hlt, hend⟩ := h.relation relation hmem
  simp only [hashedRelation, relationMaterial, Checks.bind_eq_ok, Checks.pure_eq_ok]
  refine ⟨_, ⟨target, htarget, rfl⟩, ?_⟩
  rw [validValue_fields ["relation_type", "evidence_start", "evidence_end", "evidence_hash",
    "target"] (by decide) rfl]
  simp [field, h.offset_le (hlt.le.trans hend), h.offset_le hend, hvalid]

/-- Valid forms of records can be sorted by their hashes. -/
lemma exists_sortedMaterials {α : Type} {records : List α} {hashed : α → Except String IJson}
    (h : ∀ record ∈ records, ∃ material, hashed record = .ok material ∧
      ValidValue P.unicode none material) :
    ∃ materials sorted, List.Forall₂ (fun record material => hashed record = .ok material) records
        materials ∧
      sortByHash P materials = .ok sorted ∧ ∀ v ∈ sorted, ValidValue P.unicode none v := by
  obtain ⟨materials, hmaterials⟩ := Checks.exists_forall₂ h
  have hvalid : ∀ v ∈ materials, ValidValue P.unicode none v := by
    intro v hv
    obtain ⟨_, -, -, hv⟩ := Checks.exists_of_mem_right hmaterials hv
    exact hv
  have hsorted := sortByHash_eq_ok.mpr ⟨hvalid, rfl⟩
  exact ⟨materials, _, hmaterials.imp fun _ _ h => h.1, hsorted,
    fun v hv => hvalid v ((sortByHash_perm hsorted).mem_iff.mp hv)⟩

/-- A unit of the answer has a fingerprint. -/
theorem Plannable.exists_unitFingerprint (h : Plannable P value) {unit : SemanticUnit}
    (hunit : unit ∈ value.semanticAnalysis.semanticUnits) :
    ∃ fingerprint, unitFingerprint P value unit = .ok fingerprint := by
  have hreferences : ∀ r ∈ unitReferences value unit, ∃ material,
      hashedReference P value r = .ok material ∧ ValidValue P.unicode none material :=
    fun r hr => h.exists_hashedReference (List.mem_filter.mp hr).1
  have hrelations : ∀ r ∈ unitRelations value unit, ∃ material,
      hashedRelation P value r = .ok material ∧ ValidValue P.unicode none material :=
    fun r hr => h.exists_hashedRelation (List.mem_filter.mp hr).1
  obtain ⟨references, sortedReferences, href, hsortRef, hvalidRef⟩ :=
    exists_sortedMaterials hreferences
  obtain ⟨relations, sortedRelations, hrel, hsortRel, hvalidRel⟩ :=
    exists_sortedMaterials hrelations
  have hend := h.unitEnd unit hunit
  have hvalid : ValidValue P.unicode none
      (unitMaterial P unit sortedReferences sortedRelations) := by
    rw [unitMaterial, validValue_fields ["raw_start", "raw_end", "evidence_hash", "proposition",
      "unit_type", "durability", "polarity", "epistemic_status", "references", "relations"]
      (by decide) rfl]
    simpa [unitMembers, field, validValue_arr, h.offset_le ((h.lt unit hunit).le.trans hend),
      h.offset_le hend] using And.intro hvalidRef hvalidRel
  exact ⟨_, (unitFingerprint_eq_ok h.accepts).mpr ⟨references, relations, href, hrel,
    sortedReferences, sortedRelations, hsortRef, hsortRel,
    canonicalHashIjson_eq_ok.mpr ⟨hvalid, rfl⟩⟩⟩

/-! ### The units of a plan -/

/-- The authority of a basis is one of the input's. -/
lemma DurableBasis.authority_mem {U : UnicodeData} {unit : SemanticUnit} {basis : CandidateBasis}
    (h : DurableBasis U value unit (unitContaining value unit) basis)
    (hlt : unit.rawStart < unit.rawEnd) : basis.authority ∈ value.authorities := by
  have hcontaining := h.containing_eq
  rw [unitContaining, containing_eq_singleton hlt] at hcontaining
  exact (List.mem_filter.mp (hcontaining ▸ List.mem_singleton_self basis.authority)).1

/-- A unit with a basis has a proposal. -/
lemma Plannable.exists_buildProposal (h : Plannable P value)
    (hnamed : ∀ space name, P.uuid5 space name ≠ "") {unit : SemanticUnit}
    (hunit : unit ∈ value.semanticAnalysis.semanticUnits) {basis : CandidateBasis}
    (hbasis : DurableBasis P.unicode value unit (unitContaining value unit) basis)
    (fingerprint : String) (reasons : List String) :
    ∃ p, buildProposal P value unit fingerprint reasons basis = .ok p := by
  have hend := h.unitEnd unit hunit
  have hlt := h.lt unit hunit
  obtain ⟨name, hidentity⟩ := @exists_proposalIdentity P
    (proposalMaterial P value unit fingerprint basis) (h.offset_le (hlt.le.trans hend))
    (h.offset_le hend)
  have hauthority := h.authorities _ (hbasis.authority_mem hlt)
  have hexecution : pyStr value.semanticPromptExecutionUuid ≠ "" := by
    cases hexec : value.semanticPromptExecutionUuid with
    | none => exact absurd hbasis.notOverridden (by simp [authorityOverridden, hexec])
    | some execution =>
        have := h.execution
        rw [hexec] at this
        exact fun hempty => this (congrArg some hempty)
  have hvalid : (proposalRecord value unit fingerprint reasons basis
      (P.uuid5 proposalNamespace name)).modelValidate = .ok () := by
    have hoption {o : Option String} (ho : o ≠ some "") : ∀ uuid ∈ o.toList, uuid ≠ "" := by
      rintro uuid huuid rfl
      exact ho (Option.mem_toList.mp huuid)
    simp only [CandidateProposal.modelValidate, Checks.check_bind_eq_ok, nonEmpty_eq_ok,
      Checks.forM_eq_ok, proposalRecord, ne_eq, String.toList_eq_nil_iff]
    exact ⟨hnamed _ _, h.unitId unit hunit, h.messageUuid, hauthority.textUnitUuid,
      by simpa [positive] using (Nat.zero_le _).trans_lt hlt, h.evidence unit hunit,
      hoption hauthority.gateDecisionUuid, hoption hauthority.routeUuid,
      hoption hauthority.annotationUuid, hexecution⟩
  simp only [buildProposal, Checks.bind_eq_ok, Checks.pure_eq_ok]
  exact ⟨_, _, hidentity, (), hvalid, rfl⟩

/-- A unit of the answer has an item, and a proposal if it has a basis. -/
theorem Plannable.exists_planUnit (h : Plannable P value)
    (hnamed : ∀ space name, P.uuid5 space name ≠ "") {unit : SemanticUnit}
    (hunit : unit ∈ value.semanticAnalysis.semanticUnits) :
    ∃ result, planUnit P value (AuthorityIndex.ofAuthorities value.authorities) unit =
      .ok result := by
  obtain ⟨fingerprint, hfingerprint⟩ := h.exists_unitFingerprint hunit
  have hproposal : ∃ proposal, (decideUnit P.unicode value unit
      (unitContaining value unit)).basis.mapM (buildProposal P value unit fingerprint
        (decideUnit P.unicode value unit (unitContaining value unit)).reasons) = .ok proposal := by
    cases hbasis : (decideUnit P.unicode value unit (unitContaining value unit)).basis with
    | none => exact ⟨none, rfl⟩
    | some basis =>
        obtain ⟨p, hp⟩ := h.exists_buildProposal hnamed hunit (decideUnit_basis.mp hbasis)
          fingerprint (decideUnit P.unicode value unit (unitContaining value unit)).reasons
        exact ⟨some p, by rw [Option.mapM_some, hp]; rfl⟩
  obtain ⟨proposal, hproposal⟩ := hproposal
  have hend := h.unitEnd unit hunit
  have hlt := h.lt unit hunit
  obtain ⟨item, hitem⟩ := @exists_coverageItem P value hnamed (some unit.id) (some fingerprint)
    unit.span (decideUnit P.unicode value unit (unitContaining value unit)).disposition
    (decideUnit P.unicode value unit (unitContaining value unit)).reasons.eraseDups
    (decideUnit P.unicode value unit (unitContaining value unit)).authority
    (proposal.map CandidateProposal.proposalId) ((Nat.zero_le _).trans_lt hlt)
    (h.offset_le (hlt.le.trans hend)) (h.offset_le hend)
  exact ⟨(item, proposal), planUnit_eq_ok.mpr ⟨fingerprint, hfingerprint, hitem, hproposal⟩⟩

/-! ### The uncovered text of a plan -/

/-- The range of a run lies in the text. -/
lemma Plannable.groupSpan_bounds (h : Plannable P value) {group : List Span}
    (hgroup : group ∈ uncoveredGroups P value value.semanticAnalysis.semanticUnits
      (authorityIndex value)) :
    (groupSpan group).start < (groupSpan group).stop ∧
      (groupSpan group).stop ≤ value.currentRawText.length := by
  have hrun := uncoveredRun_of_mem h.tokens hgroup
  have hlt : ∀ t ∈ group, t.start < t.stop := fun t ht => h.tokens.lt t (hrun.sublist.subset ht)
  have hne : group ≠ [] := by
    rw [uncoveredGroups_eq h.tokens] at hgroup
    exact (groupTokens_chain hgroup).1
  obtain ⟨t, ht, hstop⟩ := exists_mem_groupSpan_stop hne
  have hcontains := groupSpan_contains (h.tokens.separated.sublist hrun.sublist) hlt t ht
  refine ⟨hcontains.1.trans_lt ((hlt t ht).trans_le hcontains.2), ?_⟩
  rw [← hstop]
  exact h.tokens.le_length t (hrun.sublist.subset ht)

/-- The uncovered text has items. -/
lemma Plannable.exists_uncoveredItems (h : Plannable P value)
    (hnamed : ∀ space name, P.uuid5 space name ≠ "") :
    ∃ uncovered, uncoveredItems P value value.semanticAnalysis.semanticUnits
      (authorityIndex value) = .ok uncovered := by
  simp only [uncoveredItems, Checks.mapM_eq_ok]
  refine Checks.exists_forall₂ fun group hgroup => ?_
  obtain ⟨hlt, hstop⟩ := h.groupSpan_bounds hgroup
  exact exists_coverageItem hnamed none none .unsupported _ _ none
    ((Nat.zero_le _).trans_lt hlt) (h.offset_le (hlt.le.trans hstop)) (h.offset_le hstop)

/-! ### Identities -/

/-- Where digests and name-based identifiers tell their inputs apart, items of one identity are over
one range and of one fingerprint. -/
theorem coverageItem_inj (hsha : Function.Injective P.sha256)
    (huuid : ∀ space, Function.Injective (P.uuid5 space))
    {unitId unitId' fingerprint fingerprint' : Option String} {span span' : Span}
    {disposition disposition' : CoverageDisposition} {reasonCodes reasonCodes' : List String}
    {authority authority' : Option PersistedUnitAuthority} {proposalId proposalId' : Option String}
    {item item' : CoverageItem}
    (h : coverageItem P value unitId fingerprint span disposition reasonCodes authority
      proposalId = .ok item)
    (h' : coverageItem P value unitId' fingerprint' span' disposition' reasonCodes' authority'
      proposalId' = .ok item')
    (hid : item.coverageItemId = item'.coverageItemId) :
    fingerprint = fingerprint' ∧ span = span' := by
  simp only [coverageItem, coverageItemIdentity, Checks.bind_eq_ok, Checks.pure_eq_ok] at h h'
  obtain ⟨_, ⟨digest, hdigest, rfl⟩, _, -, _, -, rfl⟩ := h
  obtain ⟨_, ⟨digest', hdigest', rfl⟩, _, -, _, -, rfl⟩ := h'
  obtain rfl := huuid _ hid
  have hcanon := canonicalHashIjson_inj hsha hdigest hdigest'
  rw [canon_fields_inj ["identity_version", "planner_version", "message_uuid", "raw_text_hash",
    "semantic_contract_hash", "semantic_unit_fingerprint", "raw_start", "raw_end", "disposition",
    "reason_codes", "proposal_id"] (by simp) rfl rfl] at hcanon
  simp only [field, List.map_cons, List.map_nil, canon_jsonNat, canon_jsonOption, List.cons.injEq,
    jsonNat_inj, jsonOption_inj] at hcanon
  obtain ⟨-, -, -, -, -, hfingerprint, hstart, hstop, -⟩ := hcanon
  refine ⟨hfingerprint, ?_⟩
  cases span
  cases span'
  exact Span.mk.injEq .. ▸ ⟨hstart, hstop⟩

/-- A proposal of a unit is under the identity of a basis. -/
lemma UnitResult.identity {unit : SemanticUnit} {item : CoverageItem}
    {proposal : Option CandidateProposal} {fingerprint : String}
    (h : UnitResult P value unit item proposal fingerprint) {p : CandidateProposal}
    (hp : proposal = some p) :
    ∃ basis, proposalIdentity P (proposalMaterial P value unit fingerprint basis) =
      .ok p.proposalId := by
  have hproposal := h.proposal_eq
  cases hbasis : (decideUnit P.unicode value unit (unitContaining value unit)).basis with
  | none =>
      rw [hbasis, hp] at hproposal
      exact absurd hproposal (by simp [Option.mapM, pure, Except.pure])
  | some basis =>
      rw [hbasis, hp] at hproposal
      simp only [Option.mapM_some, Checks.map_eq_ok, Option.some.injEq, exists_eq_right,
        buildProposal, Checks.bind_eq_ok, Checks.pure_eq_ok] at hproposal
      obtain ⟨proposalId, hid, _, -, rfl⟩ := hproposal
      exact ⟨basis, hid⟩

/-- Units of an answer are over distinct ranges. -/
lemma Plannable.spans_ne (h : Plannable P value) :
    value.semanticAnalysis.semanticUnits.Pairwise fun u v => u.span ≠ v.span := by
  refine h.disjoint.imp_of_mem fun {u v} hu _ hapart heq => hapart ?_
  rw [← heq]
  exact ⟨h.lt u hu, h.lt u hu⟩

/-- Runs of uncovered tokens are over distinct ranges. -/
lemma Plannable.groupSpans_ne (h : Plannable P value) :
    (uncoveredGroups P value value.semanticAnalysis.semanticUnits (authorityIndex value)).Pairwise
      fun g g' => groupSpan g ≠ groupSpan g' := by
  have hseparated : Span.Separated ((uncoveredGroups P value value.semanticAnalysis.semanticUnits
      (authorityIndex value)).map groupSpan) := by
    rw [uncoveredGroups_eq h.tokens]
    exact groupTokens_separated (h.tokens.separated.sublist List.filter_sublist)
  refine (List.pairwise_map.mp hseparated).imp_of_mem fun {g g'} hg _ hle heq => ?_
  have hlt := (h.groupSpan_bounds hg).1
  rw [← heq] at hle
  omega

section

variable {planned : List (CoverageItem × Option CandidateProposal)} {uncovered : List CoverageItem}

/-- The items of a plan have distinct identities. -/
theorem Plannable.nodup_coverageItemIds (h : Plannable P value)
    (hsha : Function.Injective P.sha256) (huuid : ∀ space, Function.Injective (P.uuid5 space))
    (hunits : List.Forall₂ (fun unit result =>
      planUnit P value (AuthorityIndex.ofAuthorities value.authorities) unit = .ok result)
      value.semanticAnalysis.semanticUnits planned)
    (huncovered : uncoveredItems P value value.semanticAnalysis.semanticUnits
      (authorityIndex value) = .ok uncovered) :
    ((planned.map Prod.fst ++ uncovered).map CoverageItem.coverageItemId).Nodup := by
  have hgroups := Checks.mapM_eq_ok.mp huncovered
  refine List.pairwise_map.mpr (List.pairwise_append.mpr ⟨List.pairwise_map.mpr ?_, ?_, ?_⟩)
  · refine Correspond.pairwise_right hunits h.spans_ne fun u v result result' hu hv hne hid => ?_
    obtain ⟨_, hr⟩ := planUnit_eq_ok.mp hu
    obtain ⟨_, hr'⟩ := planUnit_eq_ok.mp hv
    exact hne (coverageItem_inj hsha huuid hr.item_eq hr'.item_eq hid).2
  · refine Correspond.pairwise_right hgroups h.groupSpans_ne fun g g' item item' hg hg' hne hid => ?_
    exact hne (coverageItem_inj hsha huuid hg hg' hid).2
  · -- the item of a unit has a fingerprint, that of a run has none
    intro item hitem item' hitem' hid
    obtain ⟨result, hresult, rfl⟩ := List.mem_map.mp hitem
    obtain ⟨unit, -, hunit⟩ := Checks.exists_of_mem_right hunits hresult
    obtain ⟨_, hr⟩ := planUnit_eq_ok.mp hunit
    obtain ⟨_, -, hgroup⟩ := Checks.exists_of_mem_right hgroups hitem'
    exact absurd (coverageItem_inj hsha huuid hr.item_eq hgroup hid).1 (by simp)

/-- Proposals have distinct identities. -/
theorem Plannable.nodup_proposalIds (h : Plannable P value)
    (hsha : Function.Injective P.sha256) (huuid : ∀ space, Function.Injective (P.uuid5 space))
    (hunits : List.Forall₂ (fun unit result =>
      planUnit P value (AuthorityIndex.ofAuthorities value.authorities) unit = .ok result)
      value.semanticAnalysis.semanticUnits planned) :
    ((planned.filterMap Prod.snd).map CandidateProposal.proposalId).Nodup := by
  rw [List.Nodup, List.pairwise_map, List.pairwise_filterMap]
  refine Correspond.pairwise_right hunits h.spans_ne
    fun u v result result' hu hv hne p hp q hq hid => ?_
  obtain ⟨fingerprint, hr⟩ := planUnit_eq_ok.mp hu
  obtain ⟨fingerprint', hr'⟩ := planUnit_eq_ok.mp hv
  obtain ⟨basis, hidentity⟩ := hr.identity hp
  obtain ⟨basis', hidentity'⟩ := hr'.identity hq
  rw [hid] at hidentity
  have hmaterial := proposalIdentity_inj hsha huuid hidentity hidentity'
  refine hne ?_
  rw [SemanticUnit.span, SemanticUnit.span]
  exact congrArg₂ Span.mk (congrArg ProposalMaterial.rawStart hmaterial)
    (congrArg ProposalMaterial.rawEnd hmaterial)

end

/-! ### Durable items and proposals -/

/-- A unit is a durable candidate exactly when it has a basis: a disposition that was decided again
is a review. -/
lemma decideUnit_durable_iff {U : UnicodeData} {unit : SemanticUnit}
    {containing : List PersistedUnitAuthority} :
    (decideUnit U value unit containing).disposition = .durableCandidate ↔
      (decideUnit U value unit containing).basis.isSome = true := by
  constructor
  · intro h
    simp only [decideUnit] at h ⊢
    split at h
    case h_1 a m hdisposition hauthority hmapping =>
      split_ifs at h ⊢ with hrefused
      · exact absurd h (by simp [dispositionForUnit_conflicting])
      · rfl
    case h_2 hother =>
      obtain ⟨hreview, -, -, hmapped⟩ := dispositionForUnit_durable.mp h
      obtain ⟨a, ha, -⟩ := authorityNeedsReview_eq_false.mp hreview
      obtain ⟨m, hm⟩ := Option.isSome_iff_exists.mp hmapped
      exact absurd hm (hother a m h ha)
  · intro h
    obtain ⟨basis, hbasis⟩ := Option.isSome_iff_exists.mp h
    exact (decideUnit_of_basis hbasis).1

/-- An item names its proposal, and is durable exactly when it has one. -/
def NamesProposal (result : CoverageItem × Option CandidateProposal) : Prop :=
  result.1.proposalId = result.2.map CandidateProposal.proposalId ∧
    (result.1.disposition = .durableCandidate ↔ result.2.isSome = true)

lemma UnitResult.namesProposal {unit : SemanticUnit} {item : CoverageItem}
    {proposal : Option CandidateProposal} {fingerprint : String}
    (h : UnitResult P value unit item proposal fingerprint) : NamesProposal (item, proposal) := by
  obtain ⟨-, -, hdisposition, hproposalId⟩ := coverageItem_eq h.item_eq
  refine ⟨hproposalId, ?_⟩
  rw [hdisposition, decideUnit_durable_iff]
  have hproposal := h.proposal_eq
  cases hbasis : (decideUnit P.unicode value unit (unitContaining value unit)).basis with
  | none =>
      rw [hbasis] at hproposal
      obtain rfl := Checks.pure_eq_ok.mp hproposal
      rfl
  | some basis =>
      rw [hbasis] at hproposal
      simp only [Option.mapM_some, Checks.map_eq_ok] at hproposal
      obtain ⟨p, -, rfl⟩ := hproposal
      rfl

/-- The results of a plan: those of its units, and the items of uncovered text without a
proposal. -/
def planResults (planned : List (CoverageItem × Option CandidateProposal))
    (uncovered : List CoverageItem) : List (CoverageItem × Option CandidateProposal) :=
  planned ++ uncovered.map fun item => (item, none)

section

variable {planned : List (CoverageItem × Option CandidateProposal)} {uncovered : List CoverageItem}

lemma planResults_items : (planResults planned uncovered).map Prod.fst =
    planned.map Prod.fst ++ uncovered := by
  simp [planResults, Function.comp_def]

lemma planResults_proposals : (planResults planned uncovered).filterMap Prod.snd =
    planned.filterMap Prod.snd := by
  simp [planResults, List.filterMap_append, List.filterMap_map]

/-- Every result of a plan names its proposal. -/
lemma planResults_namesProposal
    (hunits : List.Forall₂ (fun unit result =>
      planUnit P value (AuthorityIndex.ofAuthorities value.authorities) unit = .ok result)
      value.semanticAnalysis.semanticUnits planned)
    (huncovered : uncoveredItems P value value.semanticAnalysis.semanticUnits
      (authorityIndex value) = .ok uncovered) :
    ∀ result ∈ planResults planned uncovered, NamesProposal result := by
  intro result hresult
  rcases List.mem_append.mp hresult with hresult | hresult
  · obtain ⟨unit, -, hunit⟩ := Checks.exists_of_mem_right hunits hresult
    obtain ⟨_, hr⟩ := planUnit_eq_ok.mp hunit
    exact hr.namesProposal
  · obtain ⟨item, hitem, rfl⟩ := List.mem_map.mp hresult
    obtain ⟨_, -, hgroup⟩ := Checks.exists_of_mem_right (Checks.mapM_eq_ok.mp huncovered) hitem
    obtain ⟨-, -, hdisposition, hproposalId⟩ := coverageItem_eq hgroup
    exact ⟨hproposalId, by simp [hdisposition]⟩

end

/-- The durable items of results that name their proposals name them one by one. -/
lemma durable_proposalIds {results : List (CoverageItem × Option CandidateProposal)}
    (h : ∀ result ∈ results, NamesProposal result) :
    ((results.map Prod.fst).filter fun item => item.disposition = .durableCandidate).map
      CoverageItem.proposalId =
        (results.filterMap Prod.snd).map fun p => some p.proposalId := by
  induction results with
  | nil => rfl
  | cons result results ih =>
      obtain ⟨⟨hname, hdurable⟩, hrest⟩ := List.forall_mem_cons.mp h
      obtain ⟨item, proposal⟩ := result
      cases proposal with
      | none =>
          have hnot : ¬item.disposition = .durableCandidate := by simp [hdurable]
          rw [List.map_cons, List.filter_cons_of_neg (by simpa using hnot), ih hrest]
          rfl
      | some p =>
          have hyes : item.disposition = .durableCandidate := by simp [hdurable]
          rw [List.map_cons, List.filter_cons_of_pos (by simpa using hyes), List.map_cons,
            ih hrest, hname]
          rfl

/-! ### The plan -/

/-- An input that can be planned has a plan, whose items have distinct identities and whose durable
items name its proposals, one each. -/
theorem Plannable.exists_plan (h : Plannable P value) (hsha : Function.Injective P.sha256)
    (huuid : ∀ space, Function.Injective (P.uuid5 space))
    (hnamed : ∀ space name, P.uuid5 space name ≠ "") :
    ∃ plan proposals, planCandidateCoverage P value = .ok (plan, proposals) ∧
      (plan.items.map CoverageItem.coverageItemId).Nodup ∧
      ((plan.items.filter fun item => item.disposition = .durableCandidate).map
        CoverageItem.proposalId).Perm (proposals.map fun p => some p.proposalId) ∧
      (proposals.map CandidateProposal.proposalId).Nodup := by
  obtain ⟨planned, hunits⟩ := Checks.exists_forall₂
    fun unit (hunit : unit ∈ value.semanticAnalysis.semanticUnits) => h.exists_planUnit hnamed hunit
  obtain ⟨uncovered, huncovered⟩ := h.exists_uncoveredItems hnamed
  let items := KeySort.sortBy itemKey (planned.map Prod.fst ++ uncovered)
  let proposals := planned.filterMap Prod.snd
  have hperm : items.Perm (planned.map Prod.fst ++ uncovered) := KeySort.sortBy_perm itemKey _
  have hnames := planResults_namesProposal hunits huncovered
  have hitemIds : (items.map CoverageItem.coverageItemId).Nodup :=
    (hperm.map _).nodup_iff.mpr (h.nodup_coverageItemIds hsha huuid hunits huncovered)
  have hdurable : ((items.filter fun item => item.disposition = .durableCandidate).map
      CoverageItem.proposalId).Perm (proposals.map fun p => some p.proposalId) := by
    have hresults := durable_proposalIds hnames
    rw [planResults_items, planResults_proposals] at hresults
    rw [← hresults]
    exact (hperm.filter _).map _
  have hmem {item : CoverageItem} (hitem : item ∈ items) :
      ∃ proposal, (item, proposal) ∈ planResults planned uncovered := by
    have hitem := hperm.mem_iff.mp hitem
    rw [← planResults_items] at hitem
    obtain ⟨⟨_, proposal⟩, hresult, rfl⟩ := List.mem_map.mp hitem
    exact ⟨proposal, hresult⟩
  have hcomplete : CompletePlan value items (proposals.map CandidateProposal.proposalId) :=
    { count := by
        rw [(unitIds_perm hunits huncovered).length_eq, h.accepts.unitIds]
      unitIds := (unitIds_perm hunits huncovered).nodup_iff.mpr h.accepts.nodup
      itemIds := hitemIds
      proposed := fun item hitem hd => by
        have hname : item.proposalId ∈ proposals.map fun p => some p.proposalId :=
          hdurable.mem_iff.mp (List.mem_map_of_mem (List.mem_filter.mpr ⟨hitem, by simpa using hd⟩))
        obtain ⟨p, hp, hid⟩ := List.mem_map.mp hname
        exact ⟨p.proposalId, List.mem_map_of_mem hp, hid.symm⟩
      durable := fun id hid => by
        obtain ⟨p, hp, rfl⟩ := List.mem_map.mp hid
        obtain ⟨item, hitem, hname⟩ := List.mem_map.mp
          (hdurable.mem_iff.mpr (List.mem_map_of_mem (f := fun p => some p.proposalId) hp))
        obtain ⟨hitem, hd⟩ := List.mem_filter.mp hitem
        exact ⟨item, hitem, by simpa using hd, hname⟩
      named := fun item hitem hsome => by
        obtain ⟨proposal, hresult⟩ := hmem hitem
        obtain ⟨hname, hd⟩ := hnames _ hresult
        rw [hname, Option.isSome_map] at hsome
        exact hd.mpr hsome }
  have hvalid : ValidValue P.unicode none (planMaterial P value items) := by
    refine validValue_planMaterial.mpr fun item hitem => CoverageItem.validValue_json.mpr ?_
    have hspan : item.span.start < item.span.stop ∧
        item.span.stop ≤ value.currentRawText.length := by
      rcases List.mem_append.mp (hperm.mem_iff.mp hitem) with hitem | hitem
      · obtain ⟨⟨item, proposal⟩, hresult, rfl⟩ := List.mem_map.mp hitem
        obtain ⟨unit, hunit, hplan⟩ := Checks.exists_of_mem_right hunits hresult
        obtain ⟨_, hr⟩ := planUnit_eq_ok.mp hplan
        rw [(coverageItem_eq hr.item_eq).1]
        exact ⟨h.lt unit hunit, h.unitEnd unit hunit⟩
      · obtain ⟨group, hgroup, hplan⟩ :=
          Checks.exists_of_mem_right (Checks.mapM_eq_ok.mp huncovered) hitem
        rw [(coverageItem_eq hplan).1]
        exact h.groupSpan_bounds hgroup
    exact ⟨h.offset_le (hspan.1.le.trans hspan.2), h.offset_le hspan.2⟩
  have hparts : PlanParts P value
      (planRecord P value items (P.sha256 (planMaterial P value items).dump)) proposals planned
      uncovered :=
    { accepts := h.accepts
      units := hunits
      proposals_eq := rfl
      uncovered_eq := huncovered
      items_eq := rfl
      complete := assertComplete_eq_ok.mpr hcomplete
      hash_eq := canonicalHashIjson_eq_ok.mpr ⟨hvalid, rfl⟩
      record_eq := rfl }
  exact ⟨_, proposals, planCandidateCoverage_eq_ok.mpr ⟨_, _, hparts⟩, hitemIds, hdurable,
    h.nodup_proposalIds hsha huuid hunits⟩

/-- Where digests and name-based identifiers tell their inputs apart, the planner returns a plan for
what the service prepares from every accepted answer. -/
theorem accepted_is_planable (hsha : Function.Injective P.sha256)
    (huuid : ∀ space, Function.Injective (P.uuid5 space))
    (hnamed : ∀ space name, P.uuid5 space name ≠ "")
    (hbinding : validateSemanticBinding P semanticInput value.semanticAnalysis = .ok report)
    (hprepared : value.PreparedFrom P semanticInput report) :
    checkAccepted P value = .ok () ∧
      ∃ plan proposals, planCandidateCoverage P value = .ok (plan, proposals) ∧
        (plan.items.map CoverageItem.coverageItemId).Nodup ∧
        ((plan.items.filter fun item => item.disposition = .durableCandidate).map
          CoverageItem.proposalId).Perm (proposals.map fun p => some p.proposalId) ∧
        (proposals.map CandidateProposal.proposalId).Nodup := by
  have hplannable := hprepared.plannable hbinding
  exact ⟨checkAccepted_eq_ok.mpr hplannable.accepts, hplannable.exists_plan hsha huuid hnamed⟩

end

/-- The manifest of the preference. -/
def teaManifest : SemanticAnalysisV1Input where
  currentMessageUuid := "m1"
  currentMessageVersionUuid := none
  currentRawText := "tea".toList
  textEnvelope := (buildEnvelope exactPlatform "tea".toList).asDict
  boundedContextItems := []
  boundary :=
    { userUuid := "u", sessionUuid := "s", workspaceUuid := none, projectUuid := none
      effectiveLimit := 2, dependencyExpansion := false }

lemma tea_accepted : ∃ report, validateSemanticBinding exactPlatform teaManifest
    (teaInput "u1" (some .preference) none none).semanticAnalysis = .ok report :=
  exists_accepted (by decide) (by decide) (by decide) (by decide)

/-- The service prepares the preference from its report. -/
lemma tea_prepared {report : ValidationReport} (h : validateSemanticBinding exactPlatform
    teaManifest (teaInput "u1" (some .preference) none none).semanticAnalysis = .ok report) :
    (teaInput "u1" (some .preference) none none).PreparedFrom exactPlatform teaManifest report where
  bound := ⟨rfl, rfl, rfl, rfl⟩
  envelope := rfl
  unitIds := (validateSemanticBinding_facts h).evidence.unitIds.symm
  referenceIndexes := (validateSemanticBinding_facts h).evidence.referenceIndexes.symm
  relationIndexes := (validateSemanticBinding_facts h).evidence.relationIndexes.symm
  authorities := fun a ha => by
    rw [List.mem_singleton.mp ha]
    exact ⟨by decide, by decide, by decide, by decide⟩
  execution := by decide
  rawText := by decide
  context := fun item hitem => absurd hitem List.not_mem_nil

theorem accepted_is_planable_tea : ∃ plan proposals,
    planCandidateCoverage exactPlatform (teaInput "u1" (some .preference) none none) =
        .ok (plan, proposals) ∧
      ((plan.items.filter fun item => item.disposition = .durableCandidate).map
        CoverageItem.proposalId).Perm (proposals.map fun p => some p.proposalId) := by
  obtain ⟨report, hreport⟩ := tea_accepted
  obtain ⟨-, plan, proposals, hplan, -, hdurable, -⟩ :=
    accepted_is_planable exactPlatform_sha256 exactPlatform_uuid5 exactPlatform_uuid5_ne hreport
      (tea_prepared hreport)
  exact ⟨plan, proposals, hplan, hdurable⟩

end Memorist
