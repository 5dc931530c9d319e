import Memorist.Coverage.Fragments

/-!
Privacy ceilings of proposals over stored text units.

* `OtherwiseDurable`: a unit whose authority fails no check but perhaps the ceiling
  (`durableBasis_iff`);
* `proposals_respect_ceilings_iff`: no proposal overlaps a sensitive or secret text unit of
  the segmenter, unless a unit crosses out of one and its own slice looks normal.
-/

namespace Memorist

open Correspond (Corresponds)

/-- A unit that becomes a proposal unless the ceiling of its authority forbids it. -/
structure OtherwiseDurable (U : UnicodeData) (value : CoveragePlannerInput) (unit : SemanticUnit)
    (authority : PersistedUnitAuthority) : Prop where
  notOverridden : authorityOverridden U value unit = false
  notConflicting : authority.conflictingAuthority = false
  resolved : unitUnresolved value unit = false
  assertable : unit.Assertable
  allows : ∃ mapping, unitMapping U value unit (some authority) = some mapping ∧
    (decideCandidateProvenance value.messageRole mapping.routeType mapping.status
      value.importedRecord).allowsAutomaticMemoryCreation = true

section

variable {P : Platform} {scope : CurrentContextScope} {base units units' : List TextUnitRow}
  {store : Store} {signals : String → List SignalRow} {value : CoveragePlannerInput}

/-- A unit of one text unit has a durable basis when that unit's text is normal and nothing else
stands against it. -/
lemma durableBasis_iff {U : UnicodeData} {unit : SemanticUnit} {row : TextUnitRow}
    {a : PersistedUnitAuthority} (ha : OfTextUnit U row a) :
    (∃ basis, DurableBasis U value unit [a] basis ∧ basis.authority = a) ↔
      OtherwiseDurable U value unit a ∧ classifySensitivity U row.text = .normal := by
  constructor
  · rintro ⟨basis, h, rfl⟩
    have hallows := h.allows
    rw [h.provenance] at hallows
    exact ⟨⟨h.notOverridden, h.notConflicting, h.resolved, h.assertable, _, h.mapping, hallows⟩,
      ha.ceiling ▸ h.ceiling⟩
  · rintro ⟨⟨hover, hconflict, hresolved, hassertable, mapping, hmapping, hallows⟩, hnormal⟩
    refine ⟨⟨a, mapping, _⟩, ⟨rfl, hover, hconflict, ?_, ?_, hresolved, hassertable, hmapping, rfl,
      hallows⟩, rfl⟩
    · rw [ha.storageAllowed, hnormal]
      rfl
    · rw [ha.ceiling, hnormal]

/-- The one authority of a unit is that of the one text unit that holds it. -/
lemma corresponds_holders {authorities : List PersistedUnitAuthority}
    (hloaded : Corresponds (fun unit a => authorityOfUnit P.unicode signals unit = .ok a) units
      authorities) (unit : SemanticUnit) :
    Corresponds (fun row a => authorityOfUnit P.unicode signals row = .ok a) (holders units unit)
      (authorities.filter fun a => a.span.Contains ⟨unit.rawStart, unit.rawEnd⟩) :=
  hloaded.filter fun row _ a ha => by
    rw [(authorityOfUnit_facts ha).span]
    rfl

/-- No proposal of a plan over loaded authorities overlaps a sensitive or secret text unit of the
segmenter, exactly when no unit that crosses out of one lies in a fragment of normal text with
nothing else against it. -/
theorem proposals_respect_ceilings_iff (hbase : Segmented scope base)
    (hnames : FragmentNames P scope base) {earlier : List SemanticAnalysisV1Output}
    (hruns : Runs (SemanticStep P scope) base earlier units)
    {semanticInput : SemanticAnalysisV1Input} {report : ValidationReport}
    (hbinding : validateSemanticBinding P semanticInput value.semanticAnalysis = .ok report)
    (hbound : value.BoundTo semanticInput)
    (hscope : scope = ⟨value.messageUuid, value.currentRawText⟩)
    (hrun : semanticRun P store scope signals value.semanticAnalysis units =
      .ok (units', value.authorities))
    {plan : CoveragePlan} {proposals : List CandidateProposal}
    (hplan : planCandidateCoverage P value = .ok (plan, proposals)) :
    (∀ p ∈ proposals, ∀ r ∈ base, p.span.Overlaps r.span →
        classifySensitivity P.unicode r.text = .normal) ↔
      ∀ u ∈ value.semanticAnalysis.semanticUnits, ∀ r ∈ base, u.span.Overlaps r.span →
        classifySensitivity P.unicode r.text ≠ .normal →
        ∀ fragment, holders (units ++ newFragments P scope units value.semanticAnalysis) u =
            [fragment] → fragment ∉ base →
          classifySensitivity P.unicode
            (slice value.currentRawText fragment.startChar fragment.endChar) = .normal →
          ∀ a, authorityOfUnit P.unicode signals fragment = .ok a →
            ¬OtherwiseDurable P.unicode value u a := by
  have haccepted : AcceptedFor P scope value.semanticAnalysis :=
    ⟨semanticInput, report, hbinding, by rw [hscope]; exact hbound.messageUuid,
      by rw [hscope]; exact hbound.rawText⟩
  obtain ⟨_, facts⟩ := haccepted.facts
  have htable := textUnitTable_of_runs hbase hnames hruns
  obtain ⟨htable', authorities, hrun', hloaded⟩ :=
    semanticRun_eq hbase hnames htable haccepted store signals
  rw [hrun', Except.ok.injEq, Prod.mk.injEq] at hrun
  obtain ⟨-, rfl⟩ := hrun
  obtain ⟨planned, uncovered, hparts⟩ := planCandidateCoverage_eq_ok.mp hplan
  constructor
  · intro hrespect u hu r hr hover hceiling fragment hfragment hnot hnormal a ha hdurable
    have hcontaining : unitContaining value u = [a] := by
      have hholders := corresponds_holders hloaded u
      rw [hfragment] at hholders
      obtain ⟨a', ha', hauthority⟩ := hholders.singleton_left
      rw [ha, Except.ok.injEq] at hauthority
      subst hauthority
      exact (containing_eq_singleton (facts.lt u hu)).mpr ha'
    have hmem : fragment ∈ units ++ newFragments P scope units value.semanticAnalysis :=
      (mem_holders.mp (hfragment ▸ List.mem_singleton_self fragment)).1
    have htext : classifySensitivity P.unicode fragment.text = .normal := by
      rw [htable'.text hbase fragment hmem, hscope]
      exact hnormal
    obtain ⟨basis, hbasis, -⟩ :=
      (durableBasis_iff (authorityOfUnit_facts ha)).mpr ⟨hdurable, htext⟩
    rw [← hcontaining] at hbasis
    obtain ⟨p, hp, hspan⟩ := hparts.exists_proposal hu hbasis
    exact hceiling (hrespect p hp r hr (hspan ▸ hover))
  · intro hcross p hp r hr hover
    obtain ⟨u, fingerprint, basis, horigin⟩ := hparts.origin hp
    have hu := horigin.mem
    have hspan : p.span = u.span := by rw [horigin.record_eq]; rfl
    rw [hspan] at hover
    have hholders := corresponds_holders hloaded u
    rw [(containing_eq_singleton (facts.lt u hu)).mp horigin.basis_eq.containing_eq] at hholders
    obtain ⟨row, hrow, hauthority⟩ := hholders.singleton_right
    obtain ⟨hmem, hcontains⟩ := mem_holders.mp (hrow ▸ List.mem_singleton_self row)
    have hbasis := horigin.basis_eq
    rw [hbasis.containing_eq] at hbasis
    obtain ⟨hdurable, hnormal⟩ :=
      (durableBasis_iff (authorityOfUnit_facts hauthority)).mp ⟨basis, hbasis, rfl⟩
    by_cases hbaseRow : row ∈ base
    · -- the text unit of the segmenter that holds the unit is the only one it meets
      have hsame : r = row := by
        by_contra hne
        have : Std.Symm fun r s : TextUnitRow => ¬r.span.Overlaps s.span :=
          ⟨fun _ _ hab hba => hab hba.symm⟩
        exact hbase.disjoint.forall hr hbaseRow hne (hcontains.overlaps_of_overlaps hover).symm
      rw [hsame]
      exact hnormal
    · by_contra hceiling
      refine hcross u hu r hr hover hceiling row hrow hbaseRow ?_ _ hauthority hdurable
      rw [htable'.text hbase row hmem, hscope] at hnormal
      exact hnormal

end

/-! ### A quote that begins in a secret -/

/-- The ranges that are proposed of a quote, over freshly stored text units. -/
def proposedOf (scope : CurrentContextScope) (base : List TextUnitRow) (span : Span) :
    Except String (List Span) := do
  let (_, authorities) ← semanticRun namingPlatform .sqlite scope (fun _ => [])
    (quoteAnalysis scope.rawText span) base
  let (_, proposals) ← planCandidateCoverage namingPlatform
    (quoteInput scope.rawText span authorities)
  pure (proposals.map CandidateProposal.span)

lemma proposedOf_eq_ok {scope : CurrentContextScope} {base : List TextUnitRow} {span : Span}
    {spans : List Span} (h : (proposedOf scope base span).toOption = some spans) :
    ∃ units authorities plan proposals,
      semanticRun namingPlatform .sqlite scope (fun _ => []) (quoteAnalysis scope.rawText span) base
        = .ok (units, authorities) ∧
      planCandidateCoverage namingPlatform (quoteInput scope.rawText span authorities) =
        .ok (plan, proposals) ∧
      proposals.map CandidateProposal.span = spans := by
  have hok : proposedOf scope base span = .ok spans := by
    cases hp : proposedOf scope base span with
    | error e => rw [hp] at h; exact absurd h (by simp [Except.toOption])
    | ok result => rw [hp] at h; simpa [Except.toOption] using h
  simp only [proposedOf, Checks.bind_eq_ok, Checks.pure_eq_ok] at hok
  obtain ⟨⟨units, authorities⟩, hrun, ⟨plan, proposals⟩, hplan, hspans⟩ := hok
  exact ⟨units, authorities, plan, proposals, hrun, hplan, hspans⟩

/-- A sentence that names a token, and another. -/
def tokenScope : CurrentContextScope := ⟨"m1", "token a. b c".toList⟩

/-- Their text units. -/
def tokenSentences : List TextUnitRow :=
  [⟨"t1", 0, .sentence, "token a.".toList, 0, 8⟩, ⟨"t2", 1, .sentence, "b c".toList, 9, 12⟩]

lemma tokenSentences_segmented : Segmented tokenScope tokenSentences :=
  ⟨by decide, by decide, by decide, by decide, by decide⟩

/-- The quote "a. b". -/
def tokenQuote : SemanticAnalysisV1Output := quoteAnalysis tokenScope.rawText ⟨6, 10⟩

lemma token_accepted : ∃ report, validateSemanticBinding namingPlatform
    (quoteManifest tokenScope.rawText) tokenQuote = .ok report :=
  exists_accepted (by decide +kernel) (by decide +kernel) (by decide +kernel) (by decide +kernel)

lemma token_proposed : ∃ units authorities plan proposals,
    semanticRun namingPlatform .sqlite tokenScope (fun _ => []) tokenQuote tokenSentences =
        .ok (units, authorities) ∧
      planCandidateCoverage namingPlatform (quoteInput tokenScope.rawText ⟨6, 10⟩ authorities) =
        .ok (plan, proposals) ∧
      proposals.map CandidateProposal.span = [⟨6, 10⟩] :=
  proposedOf_eq_ok (by decide +kernel)

lemma token_secret : ∃ r ∈ tokenSentences, Span.Overlaps ⟨6, 10⟩ r.span ∧
    classifySensitivity basicLatin r.text = .secret :=
  ⟨_, List.mem_cons_self, by decide, by decide +kernel⟩

/-- The quote is proposed although it begins in a secret text unit. -/
theorem proposal_overlaps_secret : ∃ report units authorities plan proposals,
    Segmented tokenScope tokenSentences ∧
      FragmentNames namingPlatform tokenScope tokenSentences ∧
      validateSemanticBinding namingPlatform (quoteManifest tokenScope.rawText) tokenQuote =
        .ok report ∧
      semanticRun namingPlatform .sqlite tokenScope (fun _ => []) tokenQuote tokenSentences =
        .ok (units, authorities) ∧
      planCandidateCoverage namingPlatform (quoteInput tokenScope.rawText ⟨6, 10⟩ authorities) =
        .ok (plan, proposals) ∧
      ∃ p ∈ proposals, ∃ r ∈ tokenSentences, p.span.Overlaps r.span ∧
        classifySensitivity basicLatin r.text = .secret := by
  obtain ⟨report, hreport⟩ := token_accepted
  obtain ⟨units, authorities, plan, proposals, hrun, hplan, hspans⟩ := token_proposed
  obtain ⟨p, hp, hspan⟩ : ∃ p ∈ proposals, p.span = ⟨6, 10⟩ :=
    List.mem_map.mp (hspans ▸ List.mem_singleton_self _)
  obtain ⟨r, hr, hover, hsecret⟩ := token_secret
  exact ⟨report, units, authorities, plan, proposals, tokenSentences_segmented,
    namingPlatform_names (by decide), hreport, hrun, hplan, p, hp, r, hr, hspan ▸ hover, hsecret⟩

/-- The quote lies in a fragment of normal text with nothing else against it. -/
theorem proposals_respect_ceilings_token : ∃ authorities, ∃ u ∈ tokenQuote.semanticUnits,
    ∃ fragment a, fragment ∉ tokenSentences ∧
      authorityOfUnit basicLatin (fun _ => []) fragment = .ok a ∧
      OtherwiseDurable basicLatin (quoteInput tokenScope.rawText ⟨6, 10⟩ authorities) u a := by
  obtain ⟨report, hreport⟩ := token_accepted
  obtain ⟨units, authorities, plan, proposals, hrun, hplan, hspans⟩ := token_proposed
  obtain ⟨p, hp, hspan⟩ : ∃ p ∈ proposals, p.span = ⟨6, 10⟩ :=
    List.mem_map.mp (hspans ▸ List.mem_singleton_self _)
  obtain ⟨r, hr, hover, hsecret⟩ := token_secret
  by_contra hnone
  have hrespect := (proposals_respect_ceilings_iff tokenSentences_segmented
    (namingPlatform_names (by decide)) .refl hreport (quote_boundTo _ _ _) rfl hrun hplan).mpr
      fun u hu _ _ _ _ fragment _ hnot _ a ha hdurable =>
        hnone ⟨authorities, u, hu, fragment, a, hnot, ha, hdurable⟩
  have hnormal := hrespect p hp r hr (hspan ▸ hover)
  change classifySensitivity basicLatin r.text = .normal at hnormal
  rw [hsecret] at hnormal
  exact absurd hnormal (by decide)

end Memorist
