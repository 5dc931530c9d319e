import Memorist.Coverage.Run
import Memorist.Library.Correspond

/-!
How a plan covers the text of its message.

* `PlanParts.spans_perm`: the ranges of a plan are those of its units and of the runs of
  uncovered tokens;
* `uncoveredTokens_eq`: a token is uncovered when no unit overlaps it;
* `plan_covers_iff`: the plan covers every token exactly when no unit cuts one;
* `plan_disjoint_iff`: its ranges are disjoint exactly when no unit stands in the gap of a
  run.
-/

namespace Memorist

section

variable {P : Platform} {value : CoveragePlannerInput}

/-! ### The ranges of a plan -/

/-- The index of the input's authorities. -/
abbrev authorityIndex (value : CoveragePlannerInput) : AuthorityIndex :=
  AuthorityIndex.ofAuthorities value.authorities

/-- The ranges of a plan: those of its units, and those of the runs of uncovered tokens. -/
lemma PlanParts.spans_perm {plan : CoveragePlan} {proposals : List CandidateProposal}
    {planned : List (CoverageItem × Option CandidateProposal)} {uncovered : List CoverageItem}
    (h : PlanParts P value plan proposals planned uncovered) :
    (plan.items.map CoverageItem.span).Perm
      (value.semanticAnalysis.semanticUnits.map SemanticUnit.span ++
        (uncoveredGroups P value value.semanticAnalysis.semanticUnits (authorityIndex value)).map
          groupSpan) := by
  have hunits : (planned.map Prod.fst).map CoverageItem.span =
      value.semanticAnalysis.semanticUnits.map SemanticUnit.span := by
    rw [List.map_map]
    refine (Correspond.map_eq_of_forall₂ (h.units.imp fun unit result hresult => ?_)).symm
    obtain ⟨_, hr⟩ := planUnit_eq_ok.mp hresult
    exact (coverageItem_eq hr.item_eq).1.symm
  have hgroups : uncovered.map CoverageItem.span =
      (uncoveredGroups P value value.semanticAnalysis.semanticUnits (authorityIndex value)).map
        groupSpan := by
    refine (Correspond.map_eq_of_forall₂ ((Checks.mapM_eq_ok.mp h.uncovered_eq).imp
      fun group item hitem => ?_)).symm
    exact (coverageItem_eq hitem).1.symm
  rw [h.items_eq]
  refine ((KeySort.sortBy_perm itemKey _).map _).trans ?_
  rw [List.map_append, hunits, hgroups]

/-! ### Uncovered tokens -/

/-- A unit overlaps a token. -/
def MeetsUnit (units : List SemanticUnit) (token : Span) : Prop :=
  ∃ unit ∈ units, unit.span.Overlaps token

instance (units : List SemanticUnit) : DecidablePred (MeetsUnit units) := fun token =>
  inferInstanceAs (Decidable (∃ unit ∈ units, unit.span.Overlaps token))

/-- The tokens of an envelope come in the order of their starts. -/
lemma TokenRangesOf.starts {U : UnicodeData} {raw : Text} {tokens : List Span}
    (h : TokenRangesOf U raw tokens) : tokens.Pairwise fun s t => s.start ≤ t.start :=
  h.separated.imp_of_mem fun hs _ hst => (h.lt _ hs).le.trans hst

/-- Tokens that overlap are one token. -/
lemma TokenRangesOf.eq_of_overlaps {U : UnicodeData} {raw : Text} {tokens : List Span}
    (h : TokenRangesOf U raw tokens) {s t : Span} (hs : s ∈ tokens) (ht : t ∈ tokens)
    (hover : s.Overlaps t) : s = t := by
  by_contra hne
  have : Std.Symm fun a b : Span => ¬a.Overlaps b := ⟨fun _ _ hab hba => hab hba.symm⟩
  have hpair : tokens.Pairwise fun a b => ¬a.Overlaps b :=
    h.separated.imp fun hab => Span.not_overlaps.mpr (.inr hab)
  exact hpair.forall hs ht hne hover

lemma uncoveredTokens_eq {U : UnicodeData} {raw : Text} {tokens : List Span}
    (h : TokenRangesOf U raw tokens) (units : List SemanticUnit) :
    tokensOutsideIntervals tokens (mergeIntervals (units.map SemanticUnit.span)) =
      tokens.filter fun t => ¬MeetsUnit units t := by
  rw [tokensOutsideIntervals_eq_filter h.starts (mergeIntervals_starts _)]
  refine List.filter_congr fun t ht => ?_
  rw [decide_eq_decide, not_iff_not, mergeIntervals_overlaps (h.lt t ht)]
  simp [MeetsUnit]

/-! ### Runs of uncovered tokens -/

/-- What a run of uncovered tokens is: tokens that meet no unit, apart, with nothing alphanumeric
between neighbours. -/
structure UncoveredRun (P : Platform) (value : CoveragePlannerInput) (group : List Span) :
    Prop where
  sublist : group.Sublist value.textEnvelope.tokens
  unmet : ∀ t ∈ group, ¬MeetsUnit value.semanticAnalysis.semanticUnits t
  chain : group.IsChain fun s t =>
    tokensJoin P.unicode value.currentRawText (authorityIndex value) s t = true

variable {tokens : List Span}

lemma uncoveredGroups_eq
    (h : TokenRangesOf P.unicode value.currentRawText value.textEnvelope.tokens) :
    uncoveredGroups P value value.semanticAnalysis.semanticUnits (authorityIndex value) =
      groupTokens (tokensJoin P.unicode value.currentRawText (authorityIndex value))
        (value.textEnvelope.tokens.filter fun t =>
          ¬MeetsUnit value.semanticAnalysis.semanticUnits t) := by
  rw [uncoveredGroups, uncoveredTokens_eq h]

/-- The runs of a plan are runs of uncovered tokens. -/
lemma uncoveredRun_of_mem
    (h : TokenRangesOf P.unicode value.currentRawText value.textEnvelope.tokens)
    {group : List Span} (hgroup : group ∈ uncoveredGroups P value
      value.semanticAnalysis.semanticUnits (authorityIndex value)) :
    UncoveredRun P value group := by
  rw [uncoveredGroups_eq h] at hgroup
  have hsub : group.Sublist (value.textEnvelope.tokens.filter fun t =>
      ¬MeetsUnit value.semanticAnalysis.semanticUnits t) := by
    have := List.sublist_flatten_of_mem hgroup
    rwa [groupTokens_flatten] at this
  exact
    { sublist := hsub.trans List.filter_sublist
      unmet := fun t ht => by simpa using (List.mem_filter.mp (hsub.subset ht)).2
      chain := (groupTokens_chain hgroup).2 }

/-- Every token that meets no unit lies in a run. -/
lemma exists_uncoveredGroup
    (h : TokenRangesOf P.unicode value.currentRawText value.textEnvelope.tokens) {t : Span}
    (ht : t ∈ value.textEnvelope.tokens)
    (hunmet : ¬MeetsUnit value.semanticAnalysis.semanticUnits t) :
    ∃ group ∈ uncoveredGroups P value value.semanticAnalysis.semanticUnits
      (authorityIndex value), t ∈ group := by
  rw [uncoveredGroups_eq h]
  have hmem : t ∈ (groupTokens (tokensJoin P.unicode value.currentRawText (authorityIndex value))
      (value.textEnvelope.tokens.filter fun t =>
        ¬MeetsUnit value.semanticAnalysis.semanticUnits t)).flatten := by
    rw [groupTokens_flatten]
    exact List.mem_filter.mpr ⟨ht, by simpa using hunmet⟩
  obtain ⟨group, hgroup, ht⟩ := List.mem_flatten.mp hmem
  exact ⟨group, hgroup, ht⟩

/-- Nothing alphanumeric stands between tokens that are joined, so no token does. -/
lemma no_token_between
    (h : TokenRangesOf P.unicode value.currentRawText value.textEnvelope.tokens) {s t w : Span}
    (hjoin : tokensJoin P.unicode value.currentRawText (authorityIndex value) s t = true)
    (hw : w ∈ value.textEnvelope.tokens) (hs : s.stop ≤ w.start) : ¬w.stop ≤ t.start := by
  intro ht
  obtain ⟨c, hc, hal⟩ := h.alnum w hw
  have hlt := h.lt w hw
  have hmem : c ∈ slice value.currentRawText s.stop t.start :=
    mem_slice_of_getElem? hc hs (by omega)
  rw [tokensJoin, Bool.and_eq_true, Bool.not_eq_true'] at hjoin
  exact absurd hal (by simpa using List.any_eq_false.mp hjoin.2 c hmem)

/-- Neighbours of a run are joined. -/
lemma UncoveredRun.join {group : List Span} (h : UncoveredRun P value group) {s t : Span}
    (hst : [s, t] <:+: group) :
    tokensJoin P.unicode value.currentRawText (authorityIndex value) s t = true :=
  ( List.IsChain.infix h.chain hst).rel

/-! ### Complete coverage -/

/-- The plan covers every token exactly when the units cover every token they overlap. -/
theorem plan_covers_iff
    (henvelope : value.textEnvelope = (buildEnvelope P value.currentRawText).asDict)
    {plan : CoveragePlan} {proposals : List CandidateProposal}
    (hplan : planCandidateCoverage P value = .ok (plan, proposals)) :
    (∀ t ∈ value.textEnvelope.tokens, ∀ i, t.Has i → ∃ item ∈ plan.items, item.span.Has i) ↔
      ∀ t ∈ value.textEnvelope.tokens,
        (∃ u ∈ value.semanticAnalysis.semanticUnits, u.span.Overlaps t) →
          ∀ i, t.Has i → ∃ u ∈ value.semanticAnalysis.semanticUnits, u.span.Has i := by
  have htokens : TokenRangesOf P.unicode value.currentRawText value.textEnvelope.tokens := by
    rw [henvelope]
    exact buildEnvelope_tokenRangesOf P value.currentRawText
  obtain ⟨planned, uncovered, hparts⟩ := planCandidateCoverage_eq_ok.mp hplan
  have hitems (i : ℕ) : (∃ item ∈ plan.items, item.span.Has i) ↔
      (∃ u ∈ value.semanticAnalysis.semanticUnits, u.span.Has i) ∨
        ∃ group ∈ uncoveredGroups P value value.semanticAnalysis.semanticUnits
          (authorityIndex value), (groupSpan group).Has i := by
    have hmem (s : Span) := hparts.spans_perm.mem_iff (a := s)
    simp only [List.mem_append, List.mem_map] at hmem
    constructor
    · rintro ⟨item, hitem, hi⟩
      rcases (hmem item.span).mp ⟨item, hitem, rfl⟩ with ⟨u, hu, hspan⟩ | ⟨group, hgroup, hspan⟩
      · exact .inl ⟨u, hu, by rwa [hspan]⟩
      · exact .inr ⟨group, hgroup, by rwa [hspan]⟩
    · rintro (⟨u, hu, hi⟩ | ⟨group, hgroup, hi⟩)
      · obtain ⟨item, hitem, hspan⟩ := (hmem u.span).mpr (.inl ⟨u, hu, rfl⟩)
        exact ⟨item, hitem, by rwa [hspan]⟩
      · obtain ⟨item, hitem, hspan⟩ := (hmem (groupSpan group)).mpr (.inr ⟨group, hgroup, rfl⟩)
        exact ⟨item, hitem, by rwa [hspan]⟩
  constructor
  · intro hcover t ht hmeets i hi
    refine ((hitems i).mp (hcover t ht i hi)).resolve_right ?_
    rintro ⟨group, hgroup, hgi⟩
    have hrun := uncoveredRun_of_mem htokens hgroup
    -- the token meets a unit, so it is none of the run and lies in one of its gaps
    have hnone : ∀ s ∈ group, ¬s.Overlaps t := by
      intro s hs hover
      have heq := htokens.eq_of_overlaps (hrun.sublist.subset hs) ht hover
      exact hrun.unmet s hs (heq ▸ hmeets)
    obtain ⟨s, r, hsr, hleft, hright⟩ := exists_gap
      ⟨hgi.1.trans_lt hi.2, hi.1.trans_lt hgi.2⟩ hnone
    exact no_token_between htokens (hrun.join hsr) ht hleft hright
  · intro hunits t ht i hi
    rw [hitems]
    by_cases hmeets : MeetsUnit value.semanticAnalysis.semanticUnits t
    · exact .inl (hunits t ht hmeets i hi)
    · obtain ⟨group, hgroup, htg⟩ := exists_uncoveredGroup htokens ht hmeets
      have hrun := uncoveredRun_of_mem htokens hgroup
      have hcontains := groupSpan_contains (htokens.separated.sublist hrun.sublist)
        (fun s hs => htokens.lt s (hrun.sublist.subset hs)) t htg
      exact .inr ⟨group, hgroup, hcontains.1.trans hi.1, hi.2.trans_le hcontains.2⟩

/-! ### Disjoint coverage -/

/-- Tokens that meet no unit and may be joined share a run. -/
lemma exists_common_group
    (h : TokenRangesOf P.unicode value.currentRawText value.textEnvelope.tokens) {s t : Span}
    (hs : s ∈ value.textEnvelope.tokens) (ht : t ∈ value.textEnvelope.tokens)
    (hst : s.stop ≤ t.start) (hs' : ¬MeetsUnit value.semanticAnalysis.semanticUnits s)
    (ht' : ¬MeetsUnit value.semanticAnalysis.semanticUnits t)
    (hjoin : tokensJoin P.unicode value.currentRawText (authorityIndex value) s t = true) :
    ∃ group ∈ uncoveredGroups P value value.semanticAnalysis.semanticUnits
      (authorityIndex value), s ∈ group ∧ t ∈ group := by
  rw [uncoveredGroups_eq h]
  refine groupTokens_adjacent hjoin (Span.Separated.neighbours (h.separated.sublist List.filter_sublist)
    (fun r hr => h.lt r (List.mem_filter.mp hr).1)
    (List.mem_filter.mpr ⟨hs, by simpa using hs'⟩) (List.mem_filter.mpr ⟨ht, by simpa using ht'⟩)
    hst fun r hr => no_token_between h hjoin (List.mem_filter.mp hr).1)

/-- The items of a plan are disjoint exactly when no unit stands between two tokens that are
joined over it. -/
theorem plan_disjoint_iff {semanticInput : SemanticAnalysisV1Input} {report : ValidationReport}
    (hbinding : validateSemanticBinding P semanticInput value.semanticAnalysis = .ok report)
    (henvelope : value.textEnvelope = (buildEnvelope P value.currentRawText).asDict)
    {plan : CoveragePlan} {proposals : List CandidateProposal}
    (hplan : planCandidateCoverage P value = .ok (plan, proposals)) :
    (plan.items.Pairwise fun a b => ¬a.span.Overlaps b.span) ↔
      ∀ s ∈ value.textEnvelope.tokens, ∀ t ∈ value.textEnvelope.tokens,
        ¬MeetsUnit value.semanticAnalysis.semanticUnits s →
        ¬MeetsUnit value.semanticAnalysis.semanticUnits t →
        tokensJoin P.unicode value.currentRawText (authorityIndex value) s t = true →
        ∀ u ∈ value.semanticAnalysis.semanticUnits,
          s.stop ≤ u.rawStart → ¬u.rawEnd ≤ t.start := by
  have facts := (validateSemanticBinding_facts hbinding).evidence
  have htokens : TokenRangesOf P.unicode value.currentRawText value.textEnvelope.tokens := by
    rw [henvelope]
    exact buildEnvelope_tokenRangesOf P value.currentRawText
  obtain ⟨planned, uncovered, hparts⟩ := planCandidateCoverage_eq_ok.mp hplan
  have hgroups : Span.Separated ((uncoveredGroups P value value.semanticAnalysis.semanticUnits
      (authorityIndex value)).map groupSpan) := by
    rw [uncoveredGroups_eq htokens]
    exact groupTokens_separated (htokens.separated.sublist List.filter_sublist)
  have hitems : (plan.items.Pairwise fun a b => ¬a.span.Overlaps b.span) ↔
      ∀ u ∈ value.semanticAnalysis.semanticUnits,
        ∀ group ∈ uncoveredGroups P value value.semanticAnalysis.semanticUnits
          (authorityIndex value), ¬u.span.Overlaps (groupSpan group) := by
    have hsymm : ∀ {a b : Span}, ¬a.Overlaps b → ¬b.Overlaps a := fun h h' => h h'.symm
    rw [← List.pairwise_map (f := CoverageItem.span) (R := fun a b => ¬Span.Overlaps a b),
      hparts.spans_perm.pairwise_iff hsymm, List.pairwise_append, List.pairwise_map]
    simp only [List.mem_map, forall_exists_index, and_imp, forall_apply_eq_imp_iff₂]
    constructor
    · exact fun h => h.2.2
    · exact fun h => ⟨facts.disjoint.imp fun h => hsymm h,
        hgroups.imp fun h => Span.not_overlaps.mpr (.inr h), h⟩
  rw [hitems]
  constructor
  · intro hapart s hs t ht hs' ht' hjoin u hu hsu hut
    have hult := facts.lt u hu
    obtain ⟨group, hgroup, hsg, htg⟩ :=
      exists_common_group htokens hs ht (hsu.trans (hult.le.trans hut)) hs' ht' hjoin
    have hrun := uncoveredRun_of_mem htokens hgroup
    have hcontains := groupSpan_contains (htokens.separated.sublist hrun.sublist)
      fun r hr => htokens.lt r (hrun.sublist.subset hr)
    have hstart := (hcontains s hsg).1
    have hstop := (hcontains t htg).2
    have hslt := htokens.lt s hs
    have htlt := htokens.lt t ht
    exact hapart u hu group hgroup ⟨by simp only [SemanticUnit.span]; omega,
      by simp only [SemanticUnit.span]; omega⟩
  · intro hgap u hu group hgroup hover
    have hrun := uncoveredRun_of_mem htokens hgroup
    obtain ⟨s, t, hst, hsu, hut⟩ := exists_gap hover.symm fun r hr hover' =>
      hrun.unmet r hr ⟨u, hu, hover'.symm⟩
    have hmem : s ∈ group ∧ t ∈ group := by
      have := hst.subset
      simpa using this
    exact hgap s (hrun.sublist.subset hmem.1) t (hrun.sublist.subset hmem.2) (hrun.unmet s hmem.1)
      (hrun.unmet t hmem.2) (hrun.join hst) u hu hsu hut

end

/-! ### Answers that quote one range -/

section

variable (raw : Text) (span : Span)

/-- An answer of one statement, which quotes a range of the message. -/
def quoteAnalysis : SemanticAnalysisV1Output where
  status := .ok
  semanticUnits :=
    [{ id := "u1", rawStart := span.start, rawEnd := span.stop
       evidence := slice raw span.start span.stop
       proposition := slice raw span.start span.stop
       unitType := .statement, durability := .durable, polarity := .affirmed
       epistemicStatus := .asserted, memoryKind := none }]
  references := []
  relations := []

/-- The manifest of a message without context. -/
def quoteManifest : SemanticAnalysisV1Input where
  currentMessageUuid := "m1"
  currentMessageVersionUuid := none
  currentRawText := raw
  textEnvelope := (buildEnvelope latinPlatform raw).asDict
  boundedContextItems := []
  boundary :=
    { userUuid := "u", sessionUuid := "s", workspaceUuid := none, projectUuid := none
      effectiveLimit := 2, dependencyExpansion := false }

/-- The planner's input for a quote under the given authorities. -/
def quoteInput (authorities : List PersistedUnitAuthority) : CoveragePlannerInput where
  messageUuid := "m1"
  messageRole := .user
  processingRunUuid := "p1"
  currentRawText := raw
  textEnvelope := (buildEnvelope latinPlatform raw).asDict
  semanticAnalysis := quoteAnalysis raw span
  acceptedUnitIds := ["u1"]
  acceptedReferenceIndexes := []
  acceptedRelationIndexes := []
  authorities
  semanticPromptExecutionUuid := some "e1"
  semanticContractHash := "h"
  boundedContextItems := []

end

/-- The authority of a message of one text unit. -/
def wholeAuthority (length : ℕ) (h : 0 < length) : PersistedUnitAuthority where
  textUnitUuid := "t1"
  rawStart := 0
  rawEnd := length
  annotationUuid := none
  gateDecisionUuid := none
  gateDecision := none
  routeUuid := none
  routeType := none
  routeStatus := none
  privacyCeiling := .normal
  privacyStorageAllowed := true
  orderedSpan := h

lemma quote_boundTo (raw : Text) (span : Span) (authorities : List PersistedUnitAuthority) :
    (quoteInput raw span authorities).BoundTo (quoteManifest raw) := ⟨rfl, rfl, rfl, rfl⟩

/-- An answer of quotes is accepted when the checks that compare no privacy classes succeed. -/
lemma exists_accepted {P : Platform} {manifest : SemanticAnalysisV1Input}
    {answer : SemanticAnalysisV1Output}
    (hrecords : manifest.modelValidate P = .ok () ∧ answer.modelValidate = .ok () ∧
      answer.status = .ok ∧ answer.references = [] ∧ answer.relations = [])
    (hunits : answer.semanticUnits ≠ [] ∧ (answer.semanticUnits.map SemanticUnit.id).Nodup ∧
      answer.semanticUnits.map SemanticUnit.rawSpanKey =
        KeySort.sortBy id (answer.semanticUnits.map SemanticUnit.rawSpanKey) ∧
      ∀ unit ∈ answer.semanticUnits, unit.proposition = unit.evidence ∧
        unit.rawStart < unit.rawEnd ∧ unit.rawEnd ≤ manifest.currentRawText.length)
    (htags : checkTagSpans "concept" manifest.currentRawText.length answer.conceptTags = .ok () ∧
      checkTagSpans "entity" manifest.currentRawText.length answer.entities = .ok () ∧
      checkTagSpans "process" manifest.currentRawText.length answer.processReferences = .ok ())
    (hevidence : (validateSemanticEvidence manifest.currentRawText answer
      (allowedReferents answer.semanticUnits manifest.boundedContextItems)).rejections = []) :
    ∃ report, validateSemanticBinding P manifest answer = .ok report := by
  obtain ⟨hinput, houtput, hstatus, hreferences, hrelations⟩ := hrecords
  obtain ⟨hsome, hnodup, hsorted, hquotes⟩ := hunits
  refine ⟨validateSemanticEvidence manifest.currentRawText answer
    (allowedReferents answer.semanticUnits manifest.boundedContextItems), ?_⟩
  simp only [validateSemanticBinding, Checks.bind_eq_ok, Checks.require_eq_ok, Checks.forM_eq_ok,
    Checks.forDistinct_eq_ok]
  refine ⟨(), hinput, (), houtput, (), fun _ => hsome, (), by simp [hstatus], (), hnodup, (), hsorted,
    (), fun unit hunit => (hquotes unit hunit).2, (), htags.1, (), htags.2.1, (), htags.2.2, (),
    fun unit hunit => by rw [(hquotes unit hunit).1], (), ?_, (), ?_, ?_⟩
  · simp [hreferences]
  · simp [hrelations]
  · rw [hevidence]
    rfl

/-! ### A quote that cuts a word -/

/-- The first letters of a word. -/
def cutInput : CoveragePlannerInput :=
  quoteInput "hello".toList ⟨0, 2⟩ [wholeAuthority 5 (by decide)]

lemma cut_accepted : ∃ report, validateSemanticBinding latinPlatform
    (quoteManifest "hello".toList) cutInput.semanticAnalysis = .ok report :=
  exists_accepted (by decide) (by decide) (by decide) (by decide)

lemma cut_planned : ∃ plan proposals, planCandidateCoverage latinPlatform cutInput =
    .ok (plan, proposals) ∧ plan.items.map CoverageItem.span = [⟨0, 2⟩] := by
  have h : (planCandidateCoverage latinPlatform cutInput).toOption.map
      (fun r => r.1.items.map CoverageItem.span) = some [⟨0, 2⟩] := by decide +kernel
  obtain ⟨⟨plan, proposals⟩, hplan, hspans⟩ := Checks.ok_of_toOption_map h
  exact ⟨plan, proposals, hplan, hspans⟩

lemma cut_tokens : cutInput.textEnvelope.tokens = [⟨0, 5⟩] := by decide

/-- The rest of the word is in no item of the plan. -/
theorem plan_misses_rest_of_word : ∃ report plan proposals,
    validateSemanticBinding latinPlatform (quoteManifest "hello".toList)
        cutInput.semanticAnalysis = .ok report ∧
      cutInput.BoundTo (quoteManifest "hello".toList) ∧
      cutInput.textEnvelope = (buildEnvelope latinPlatform cutInput.currentRawText).asDict ∧
      planCandidateCoverage latinPlatform cutInput = .ok (plan, proposals) ∧
      ¬∀ t ∈ cutInput.textEnvelope.tokens, ∀ i, t.Has i → ∃ item ∈ plan.items, item.span.Has i := by
  obtain ⟨report, hreport⟩ := cut_accepted
  obtain ⟨plan, proposals, hplan, hspans⟩ := cut_planned
  refine ⟨report, plan, proposals, hreport, quote_boundTo _ _ _, rfl, hplan, fun hcover => ?_⟩
  obtain ⟨item, hitem, hhas⟩ := hcover ⟨0, 5⟩ (by simp [cut_tokens]) 3 (by decide)
  have hspan : item.span = ⟨0, 2⟩ := by
    rw [← List.mem_singleton, ← hspans]
    exact List.mem_map_of_mem hitem
  rw [hspan] at hhas
  exact absurd hhas (by decide)

theorem plan_disjoint_cut : ∃ plan proposals,
    planCandidateCoverage latinPlatform cutInput = .ok (plan, proposals) ∧
      plan.items.Pairwise fun a b => ¬a.span.Overlaps b.span := by
  obtain ⟨report, hreport⟩ := cut_accepted
  obtain ⟨plan, proposals, hplan, -⟩ := cut_planned
  refine ⟨plan, proposals, hplan, (plan_disjoint_iff hreport rfl hplan).mpr ?_⟩
  intro s hs t ht hmeets
  rw [cut_tokens, List.mem_singleton] at hs
  subst hs
  exact absurd (by decide) hmeets

/-! ### A quote in a gap -/

/-- The mark between two words. -/
def markInput : CoveragePlannerInput :=
  quoteInput "a ! b".toList ⟨2, 3⟩ [wholeAuthority 5 (by decide)]

lemma mark_accepted : ∃ report, validateSemanticBinding latinPlatform
    (quoteManifest "a ! b".toList) markInput.semanticAnalysis = .ok report :=
  exists_accepted (by decide) (by decide) (by decide) (by decide)

lemma mark_planned : ∃ plan proposals, planCandidateCoverage latinPlatform markInput =
    .ok (plan, proposals) ∧ plan.items.map CoverageItem.span = [⟨0, 5⟩, ⟨2, 3⟩] := by
  have h : (planCandidateCoverage latinPlatform markInput).toOption.map
      (fun r => r.1.items.map CoverageItem.span) = some [⟨0, 5⟩, ⟨2, 3⟩] := by decide +kernel
  obtain ⟨⟨plan, proposals⟩, hplan, hspans⟩ := Checks.ok_of_toOption_map h
  exact ⟨plan, proposals, hplan, hspans⟩

/-- The item of the words overlaps that of the mark between them. -/
theorem plan_overlaps_at_mark : ∃ report plan proposals,
    validateSemanticBinding latinPlatform (quoteManifest "a ! b".toList)
        markInput.semanticAnalysis = .ok report ∧
      markInput.BoundTo (quoteManifest "a ! b".toList) ∧
      markInput.textEnvelope = (buildEnvelope latinPlatform markInput.currentRawText).asDict ∧
      planCandidateCoverage latinPlatform markInput = .ok (plan, proposals) ∧
      ¬plan.items.Pairwise fun a b => ¬a.span.Overlaps b.span := by
  obtain ⟨report, hreport⟩ := mark_accepted
  obtain ⟨plan, proposals, hplan, hspans⟩ := mark_planned
  refine ⟨report, plan, proposals, hreport, quote_boundTo _ _ _, rfl, hplan, fun hdisjoint => ?_⟩
  rw [← List.pairwise_map (f := CoverageItem.span) (R := fun a b => ¬Span.Overlaps a b),
    hspans] at hdisjoint
  exact absurd hdisjoint (by decide)

theorem plan_covers_mark : ∃ plan proposals,
    planCandidateCoverage latinPlatform markInput = .ok (plan, proposals) ∧
      ∀ t ∈ markInput.textEnvelope.tokens, ∀ i, t.Has i →
        ∃ item ∈ plan.items, item.span.Has i := by
  obtain ⟨plan, proposals, hplan, -⟩ := mark_planned
  refine ⟨plan, proposals, hplan, (plan_covers_iff rfl hplan).mpr fun t ht hmeets => ?_⟩
  have hunmet : ∀ t ∈ markInput.textEnvelope.tokens,
      ¬MeetsUnit markInput.semanticAnalysis.semanticUnits t := by decide
  exact absurd hmeets (hunmet t ht)

end Memorist
