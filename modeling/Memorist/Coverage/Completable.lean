import Memorist.Coverage.Adaptation
import Memorist.Coverage.Storable

/-!
When the candidates of a plan can be created.

* `CoverageStore.Awaits`: the item of a proposal is stored, and its candidate is neither reserved
  nor created;
* `createCandidate_cases`: a candidate is created unless a row has its claim, which the unique index
  of candidates refuses;
* `createCandidates_cases`: the candidates of a list are created unless two share a claim;
* `PlanStored.awaits`: the proposals of a plan that was just stored wait for their candidates;
* `plan_is_completable_iff`: **the candidates of a plan are created exactly when no two proposals
  share text unit, type and text.**
-/

namespace Memorist

open Checks (require)

variable {P : Platform} {s s' : CoverageStore}

/-! ### One candidate -/

/-- The item of a proposal is stored, and its candidate is neither reserved nor created. -/
structure CoverageStore.Awaits (s : CoverageStore) (item : CoverageItem) (p : CandidateProposal) :
    Prop where
  stored : ∃ row ∈ s.items.rows, row.coverageItemUuid = item.coverageItemId ∧
    row.disposition = .durableCandidate ∧ row.proposalUuid = some p.proposalId
  unlinked : s.links.get? p.proposalId = none
  uncreated : s.candidates.get? p.proposalId = none

/-- A proposal that can be made a candidate, with its item and an authority that still holds. -/
structure CoverageStore.Ready (P : Platform) (authorities : List PersistedUnitAuthority)
    (plan : CoveragePlan) (run : String) (s : CoverageStore) (p : CandidateProposal) : Prop where
  adaptable : p.Adaptable P
  awaits : ∃ item, (itemsByProposal plan).get? p.proposalId = some item ∧ s.Awaits item p
  authorized : ∃ a, (authoritiesByUnit authorities).get? p.textUnitUuid = some a ∧
    ∀ b, candidateAuthorityBinding run p.textUnitUuid a = some b →
      s.assertCandidateAuthority b = .ok ()

/-- What creating the candidate of a proposal does. -/
structure CandidateCreated (P : Platform) (run : String) (p : CandidateProposal)
    (s s' : CoverageStore) : Prop where
  sound : s'.Sound P
  items : s'.items = s.items
  gateDecisions : s'.gateDecisions = s.gateDecisions
  routes : s'.routes = s.routes
  links : ∀ id, id ≠ p.proposalId → s'.links.get? id = s.links.get? id
  candidates : ∃ candidate, candidate.candidateUuid = p.proposalId ∧ candidate.Claims run p ∧
    s'.candidates.rows = s.candidates.rows ++ [candidate]

section

variable {p : CandidateProposal} {item : CoverageItem}

/-- An item that waits for its candidate can be reserved. -/
lemma CoverageStore.Awaits.reserve (h : s.Awaits item p) (hsound : s.Sound P)
    (payloadHash : String) :
    ∃ links, reserveCandidate p.proposalId item.coverageItemId payloadHash s =
        .ok ({ s with links }, .created) ∧
      links = s.links.insert
        ⟨p.proposalId, item.coverageItemId, payloadHash, .candidateCreationAttempted⟩ := by
  obtain ⟨row, hrow, hid, hdurable, hproposal⟩ := h.stored
  have hget : s.items.get? item.coverageItemId = some row := Table.get?_eq_some.mpr ⟨hrow, hid⟩
  have hinsert : insertLink s.links
      ⟨p.proposalId, item.coverageItemId, payloadHash, .candidateCreationAttempted⟩ =
        .ok (s.links.insert
          ⟨p.proposalId, item.coverageItemId, payloadHash, .candidateCreationAttempted⟩) := by
    refine Table.insertUnique_eq_ok.mpr ⟨h.unlinked, ?_, rfl⟩
    intro index hindex link hlink
    rw [List.mem_singleton.mp hindex]
    refine decide_eq_false fun hsame => ?_
    -- a link for the item is a link of its proposal
    obtain ⟨other, hother, hotherId, hotherProposal⟩ := hsound.linkItem link hlink
    obtain rfl := Table.eq_of_key_eq hother hrow (hotherId.trans (hsame.symm.trans hid.symm))
    have hname : p.proposalId = link.proposalUuid :=
      Option.some_inj.mp (hproposal.symm.trans hotherProposal)
    have hnone := h.unlinked
    rw [hname, Table.get?_of_mem hlink] at hnone
    exact absurd hnone (by simp)
  refine ⟨_, ?_, rfl⟩
  simp only [reserveCandidate, h.unlinked, Checks.bind_eq_ok, Checks.require_eq_ok,
    Checks.pure_eq_ok]
  exact ⟨(), ⟨row, Option.mem_toList.mpr hget, hdurable, hproposal⟩, _, hinsert, rfl⟩

/-- The evidence of a proposal is that of its candidate. -/
lemma AdaptedFrom.validateCandidateBinding {run digest : String} {candidate : MemoryCandidate}
    {evidence : CandidateEvidence} (h : AdaptedFrom run p candidate evidence)
    (hdigest : canonicalHashIjson P (evidenceIdentity p.proposalId evidence) = .ok digest) :
    Memorist.validateCandidateBinding P p candidate [evidence] =
      .ok [{ evidence with
        evidenceUuid := P.uuid5 evidenceNamespace digest
        candidateUuid := p.proposalId }] := by
  simp only [Memorist.validateCandidateBinding, Checks.bind_eq_ok, Checks.require_eq_ok,
    Checks.mapM_eq_ok, Checks.forM_eq_ok, Checks.pure_eq_ok]
  refine ⟨(), h.candidateUuid, (), List.cons_ne_nil _ _, _, .cons ?_ .nil, (), ?_, rfl⟩
  · simp only [deterministicEvidence, Checks.bind_eq_ok, Checks.pure_eq_ok]
    exact ⟨digest, hdigest, rfl⟩
  · intro e he
    rw [List.mem_singleton.mp he]
    exact ⟨h.messageUuid, h.textUnitUuid, h.startChar, h.endChar, h.evidenceText⟩

/-- The links of other proposals stay. -/
lemma get?_linked {proposalId id : String} (hid : id ≠ proposalId) :
    (s.linked proposalId).links.get? id = s.links.get? id := by
  rw [CoverageStore.linked, Table.get?_updateWhere]
  cases hlink : s.links.get? id with
  | none => rfl
  | some link =>
      have hname : link.proposalUuid = id := Table.key_of_get? hlink
      rw [Option.map_some, if_neg (by simpa [hname] using hid)]

/-- A reserved candidate that was not created is inserted with its evidence. -/
lemma createAndLinkCandidate_reserved {candidate : MemoryCandidate}
    {evidence stored : CandidateEvidence} {authority : Option CandidateAuthorityBinding}
    {link : CandidateLinkRow} (hlink : s.links.get? p.proposalId = some link)
    (hattempted : link.state = .candidateCreationAttempted)
    (huncreated : s.candidates.get? p.proposalId = none)
    (hvalid : validateCandidateBinding P p candidate [evidence] = .ok [stored])
    (hhash : candidatePayloadHash P candidate [stored] = .ok link.payloadHash)
    (hauthority : ∀ b, authority = some b → s.assertCandidateAuthority b = .ok ()) :
    createAndLinkCandidate P p candidate [evidence] authority s =
      (insertCandidate s.candidates candidate >>= fun candidates =>
        insertEvidence s.evidence stored >>= fun evidence =>
          pure (({ s with candidates, evidence }).linked p.proposalId, .created)) := by
  have hrow : assertLinkRow link link.coverageItemUuid link.payloadHash = .ok () :=
    Checks.require_eq_ok.mpr ⟨rfl, rfl⟩
  have hholds : forM authority.toList s.assertCandidateAuthority = .ok () :=
    Checks.forM_eq_ok.mpr fun b hb => hauthority b (Option.mem_toList.mp hb)
  rw [createAndLinkCandidate, hvalid, Checks.ok_bind, hhash, Checks.ok_bind]
  simp only [hlink, hrow, hholds, hattempted, huncreated, Checks.ok_bind, List.foldlM_cons,
    List.foldlM_nil, bind_pure]

/-- Evidence of a candidate that was not created has a new identity. -/
lemma CoverageStore.Sound.insertEvidence (hsound : s.Sound P)
    (hsha : Function.Injective P.sha256) (huuid : ∀ space, Function.Injective (P.uuid5 space))
    (huncreated : s.candidates.get? p.proposalId = none) {evidence : CandidateEvidence}
    {digest : String}
    (hdigest : canonicalHashIjson P (evidenceIdentity p.proposalId evidence) = .ok digest) :
    ∃ rows, Memorist.insertEvidence s.evidence { evidence with
      evidenceUuid := P.uuid5 evidenceNamespace digest
      candidateUuid := p.proposalId } = .ok rows := by
  refine ⟨_, Table.insertUnique_eq_ok.mpr ⟨?_, by simp, rfl⟩⟩
  by_contra hsome
  obtain ⟨e, he⟩ := Option.ne_none_iff_exists'.mp hsome
  obtain ⟨hmem, hname⟩ := Table.get?_eq_some.mp he
  obtain ⟨original, digest', hdigest', hname'⟩ := hsound.evidenceIdentified e hmem digest hname
  obtain rfl : digest' = digest := huuid _ (hname'.symm.trans hname)
  -- evidence of one identity is of one candidate
  have hcanon := canonicalHashIjson_inj hsha hdigest' hdigest
  rw [evidenceIdentity, evidenceIdentity, canon_fields_inj ["proposal_id", "message_uuid",
    "text_unit_uuid", "annotation_uuid", "route_uuid", "start_char", "end_char", "evidence_role",
    "support_type"] (by simp) rfl rfl] at hcanon
  simp only [field, List.map_cons, List.map_nil, canon_jsonString, List.cons.injEq,
    jsonString_inj] at hcanon
  obtain ⟨c, hc, hcandidate⟩ := hsound.evidenceCandidate e hmem
  rw [Table.get?_eq_none] at huncreated
  exact huncreated (List.mem_map.mpr ⟨c, hc, hcandidate.trans hcanon.1⟩)

/-- A candidate is inserted unless a row has its claim. -/
lemma AdaptedFrom.insertCandidate_cases {run : String} {candidate : MemoryCandidate}
    {evidence : CandidateEvidence} (h : AdaptedFrom run p candidate evidence)
    (huncreated : s.candidates.get? p.proposalId = none) :
    ((∀ c ∈ s.candidates.rows, ¬c.Claims run p) ∧
        insertCandidate s.candidates candidate = .ok (s.candidates.insert candidate)) ∨
      (∃ c ∈ s.candidates.rows, c.Claims run p) ∧
        insertCandidate s.candidates candidate = .error candidateIndexFailed := by
  have hnone : s.candidates.get? candidate.candidateUuid = none := h.candidateUuid ▸ huncreated
  by_cases hclaim : ∃ c ∈ s.candidates.rows, c.Claims run p
  · refine .inr ⟨hclaim, ?_⟩
    obtain ⟨c, hc, hclaims⟩ := hclaim
    have hany : s.candidates.rows.any candidate.sameIndex = true :=
      List.any_eq_true.mpr ⟨c, hc, h.claims.sameIndex_iff.mpr hclaims⟩
    simp [insertCandidate, Table.insertUnique, hnone, hany]
  · have hfree : ∀ c ∈ s.candidates.rows, ¬c.Claims run p :=
      fun c hc hclaims => hclaim ⟨c, hc, hclaims⟩
    refine .inl ⟨hfree, Table.insertUnique_eq_ok.mpr ⟨hnone, fun index hindex c hc => ?_, rfl⟩⟩
    rw [List.mem_singleton.mp hindex]
    exact Bool.eq_false_iff.mpr fun hsame => hfree c hc (h.claims.sameIndex_iff.mp hsame)

/-- The candidate of a proposal that is ready is created, unless a row has its claim. -/
theorem createCandidate_cases {newUuid : String → String}
    {authorities : List PersistedUnitAuthority} {plan : CoveragePlan} {run : String}
    (hsha : Function.Injective P.sha256) (huuid : ∀ space, Function.Injective (P.uuid5 space))
    (hsound : s.Sound P) (hready : s.Ready P authorities plan run p) :
    ((∀ c ∈ s.candidates.rows, ¬c.Claims run p) ∧ ∃ s',
        createCandidate P newUuid authorities plan run p s = .ok s' ∧
          CandidateCreated P run p s s') ∨
      (∃ c ∈ s.candidates.rows, c.Claims run p) ∧
        createCandidate P newUuid authorities plan run p s = .error candidateIndexFailed := by
  obtain ⟨item, hitem, hawaits⟩ := hready.awaits
  obtain ⟨a, ha, hauthorized⟩ := hready.authorized
  obtain ⟨candidate, evidence, hbuild⟩ :=
    hready.adaptable.exists_candidate (newUuid p.proposalId) run
  have hadapted := buildCandidateFromProposal_eq_ok hbuild
  have hend : (evidence.endChar : ℤ) ≤ maxSafeInteger :=
    hadapted.endChar ▸ hready.adaptable.rawEnd
  have hstart : (evidence.startChar : ℤ) ≤ maxSafeInteger := by
    rw [hadapted.startChar]
    exact (Int.ofNat_le.mpr hready.adaptable.lt.le).trans hready.adaptable.rawEnd
  obtain ⟨payloadHash, hpayload⟩ := @exists_candidatePayloadHash P candidate _ hstart hend
  obtain ⟨digest, hdigest⟩ := @exists_deterministicEvidence P p.proposalId _ hstart hend
  obtain ⟨links, hreserve, hlinks⟩ := hawaits.reserve hsound payloadHash
  have hreserved : Memorist.CoverageStore.Sound P { s with links } :=
    (CoverageStep.reserveCandidate hreserve).sound hsound
  have hlink : links.get? p.proposalId = some
      ⟨p.proposalId, item.coverageItemId, payloadHash, .candidateCreationAttempted⟩ := by
    rw [hlinks]
    exact Table.get?_insert_self hawaits.unlinked
  -- the names of evidence are not hashed
  have hcreate := @createAndLinkCandidate_reserved P { s with links } p candidate evidence _
    (candidateAuthorityBinding run p.textUnitUuid a) _ hlink rfl hawaits.uncreated
    (hadapted.validateCandidateBinding hdigest) hpayload hauthorized
  have heval : createCandidate P newUuid authorities plan run p s =
      (createAndLinkCandidate P p candidate [evidence]
        (candidateAuthorityBinding run p.textUnitUuid a) { s with links } >>= fun r =>
          pure r.1) := by
    simp only [createCandidate, hitem, ha, hbuild, hpayload, hreserve, Checks.ok_bind]
  obtain ⟨rows, hrows⟩ := hreserved.insertEvidence hsha huuid hawaits.uncreated hdigest
  rcases hadapted.insertCandidate_cases hawaits.uncreated with
    ⟨hfree, hinsert⟩ | ⟨hclaimed, hinsert⟩
  · refine .inl ⟨hfree, ?_⟩
    have hdone : createAndLinkCandidate P p candidate [evidence]
        (candidateAuthorityBinding run p.textUnitUuid a) { s with links } =
          .ok (CoverageStore.linked { s with
            links
            candidates := s.candidates.insert candidate
            evidence := rows } p.proposalId, .created) := by
      rw [hcreate]
      simp only [hinsert, hrows, Checks.ok_bind]
      rfl
    refine ⟨_, by rw [heval, hdone]; rfl, ?_⟩
    exact
      { sound := (CoverageStep.createAndLinkCandidate hdone).sound hreserved
        items := rfl
        gateDecisions := rfl
        routes := rfl
        links := fun id hid => by
          rw [get?_linked hid, hlinks]
          exact (Table.get?_insert _ id).resolve_right fun h => hid h.2.1.symm
        candidates := ⟨candidate, hadapted.candidateUuid, hadapted.claims,
          Table.rows_insertUnique hinsert⟩ }
  · refine .inr ⟨hclaimed, ?_⟩
    rw [heval, hcreate]
    simp only [hinsert, Checks.error_bind]

end

/-! ### The candidates of a list -/

section

variable {p q : CandidateProposal} {item : CoverageItem} {run : String}

/-- A proposal waits on while the candidate of another one is created. -/
lemma CoverageStore.Awaits.after (h : s.Awaits item q) (hcreated : CandidateCreated P run p s s')
    (hne : q.proposalId ≠ p.proposalId) : s'.Awaits item q where
  stored := hcreated.items ▸ h.stored
  unlinked := (hcreated.links _ hne).trans h.unlinked
  uncreated := by
    obtain ⟨candidate, hname, -, hrows⟩ := hcreated.candidates
    have hnone := Table.get?_eq_none.mp h.uncreated
    rw [Table.get?_eq_none, hrows, List.map_append, List.mem_append, List.map_singleton,
      List.mem_singleton, not_or]
    exact ⟨hnone, fun heq => hne (heq.trans hname)⟩

/-- A proposal stays ready while the candidate of another one is created. -/
lemma CoverageStore.Ready.after {authorities : List PersistedUnitAuthority} {plan : CoveragePlan}
    (h : s.Ready P authorities plan run q) (hcreated : CandidateCreated P run p s s')
    (hne : q.proposalId ≠ p.proposalId) : s'.Ready P authorities plan run q where
  adaptable := h.adaptable
  awaits := by
    obtain ⟨item, hitem, hawaits⟩ := h.awaits
    exact ⟨item, hitem, hawaits.after hcreated hne⟩
  authorized := by
    obtain ⟨a, ha, hauthorized⟩ := h.authorized
    refine ⟨a, ha, fun b hb => ?_⟩
    have hholds := hauthorized b hb
    rwa [assertCandidateAuthority, ← hcreated.gateDecisions, ← hcreated.routes] at hholds

/-- The claims that proposals make are free: no row has one, and no two of them share one. -/
def ClaimsFree (run : String) (s : CoverageStore) (proposals : List CandidateProposal) : Prop :=
  (∀ p ∈ proposals, ∀ c ∈ s.candidates.rows, ¬c.Claims run p) ∧
    proposals.Pairwise fun p q => ¬p.SameClaim q

/-- After the candidate of the first proposal the claims of the others are free when those of all
were. -/
lemma CandidateCreated.claimsFree_iff {proposals : List CandidateProposal}
    (hcreated : CandidateCreated P run p s s') (hfree : ∀ c ∈ s.candidates.rows, ¬c.Claims run p) :
    ClaimsFree run s' proposals ↔ ClaimsFree run s (p :: proposals) := by
  obtain ⟨candidate, -, hclaims, hrows⟩ := hcreated.candidates
  have hothers : (∀ q ∈ proposals, ∀ c ∈ s'.candidates.rows, ¬c.Claims run q) ↔
      (∀ q ∈ proposals, ∀ c ∈ s.candidates.rows, ¬c.Claims run q) ∧
        ∀ q ∈ proposals, ¬p.SameClaim q := by
    rw [← forall₂_and, hrows]
    refine forall₂_congr fun q _ => ?_
    rw [List.forall_mem_append, List.forall_mem_singleton, hclaims.sameClaim_iff]
  rw [ClaimsFree, ClaimsFree, hothers, List.forall_mem_cons, List.pairwise_cons]
  constructor
  · rintro ⟨⟨hrest, hhead⟩, hpairs⟩
    exact ⟨⟨hfree, hrest⟩, hhead, hpairs⟩
  · rintro ⟨⟨-, hrest⟩, hhead, hpairs⟩
    exact ⟨⟨hrest, hhead⟩, hpairs⟩

/-- The candidates of a list are created when their claims are free, and else the unique index of
candidates refuses one. -/
theorem createCandidates_cases {newUuid : String → String}
    {authorities : List PersistedUnitAuthority} {plan : CoveragePlan}
    {proposals : List CandidateProposal} (hsha : Function.Injective P.sha256)
    (huuid : ∀ space, Function.Injective (P.uuid5 space)) (hsound : s.Sound P)
    (hnodup : (proposals.map CandidateProposal.proposalId).Nodup)
    (hready : ∀ p ∈ proposals, s.Ready P authorities plan run p) :
    (ClaimsFree run s proposals ∧
        ∃ s', createCandidates P newUuid authorities plan run proposals s = .ok s') ∨
      ¬ClaimsFree run s proposals ∧
        createCandidates P newUuid authorities plan run proposals s =
          .error candidateIndexFailed := by
  induction proposals generalizing s with
  | nil => exact .inl ⟨⟨by simp, .nil⟩, s, rfl⟩
  | cons p proposals ih =>
      obtain ⟨hhead, hrest⟩ := List.forall_mem_cons.mp hready
      rw [List.map_cons, List.nodup_cons] at hnodup
      rcases createCandidate_cases hsha huuid hsound hhead with
        ⟨hfree, s', hcreate, hcreated⟩ | ⟨⟨c, hc, hclaims⟩, hcreate⟩
      · have hnext : ∀ q ∈ proposals, s'.Ready P authorities plan run q := fun q hq =>
          (hrest q hq).after hcreated fun heq => hnodup.1 (heq ▸ List.mem_map_of_mem hq)
        rw [← hcreated.claimsFree_iff hfree, createCandidates, List.foldlM_cons, hcreate,
          Checks.ok_bind]
        exact ih hcreated.sound hnodup.2 hnext
      · refine .inr ⟨fun hfree => hfree.1 p List.mem_cons_self c hc hclaims, ?_⟩
        rw [createCandidates, List.foldlM_cons, hcreate, Checks.error_bind]

end

/-! ### The candidates of a plan -/

section

variable {value : CoveragePlannerInput} {plan : CoveragePlan} {proposals : List CandidateProposal}
  {bindings : CoveragePersistenceBindings} {rows : List CoverageItemRow}

lemma itemValues_eq_ok {runUuid : String} {item : CoverageItem} {row : CoverageItemRow}
    (h : itemValues bindings runUuid item = .ok row) :
    row.coverageItemUuid = item.coverageItemId ∧ row.disposition = item.disposition ∧
      row.proposalUuid = item.proposalId := by
  simp only [itemValues, Checks.check_bind_eq_ok, Checks.pure_eq_ok] at h
  obtain ⟨-, rfl⟩ := h
  exact ⟨rfl, rfl, rfl⟩

/-- A proposal that a durable item names has an item in the dictionary. -/
lemma CompletePlan.itemOf {proposalIds : List String}
    (h : CompletePlan value plan.items proposalIds) {id : String} (hid : id ∈ proposalIds) :
    ∃ item ∈ plan.items, (itemsByProposal plan).get? id = some item ∧
      item.disposition = .durableCandidate ∧ item.proposalId = some id := by
  obtain ⟨named, hnamed, -, hname⟩ := h.durable id hid
  have hmem : (id, named) ∈ (plan.items.filterMap fun item =>
      item.proposalId.map fun id => (id, item)).reverse :=
    List.mem_reverse.mpr (List.mem_filterMap.mpr ⟨named, hnamed, by rw [hname]; rfl⟩)
  have hsome : (itemsByProposal plan).get? id ≠ none := by
    rw [itemsByProposal, Dict.get?_ofPairs]
    exact Dict.get?_ne_none (List.mem_map_of_mem (f := Prod.fst) hmem)
  obtain ⟨item, hitem⟩ := Option.ne_none_iff_exists'.mp hsome
  have hpair := hitem
  rw [itemsByProposal, Dict.get?_ofPairs] at hpair
  obtain ⟨found, hfound, hpair⟩ :=
    List.mem_filterMap.mp (List.mem_reverse.mp (Dict.mem_of_get? hpair))
  obtain ⟨name, hfoundName, hpair⟩ := Option.map_eq_some_iff.mp hpair
  obtain ⟨rfl, rfl⟩ := Prod.mk.inj hpair
  exact ⟨_, hfound, hitem, h.named _ hfound (by rw [hfoundName]; rfl), hfoundName⟩

/-- A text unit of an authority has one in the dictionary. -/
lemma exists_authorityOf {authorities : List PersistedUnitAuthority} {a : PersistedUnitAuthority}
    (ha : a ∈ authorities) : ∃ b ∈ authorities,
      (authoritiesByUnit authorities).get? a.textUnitUuid = some b ∧
        b.textUnitUuid = a.textUnitUuid := by
  have hmem : (a.textUnitUuid, a) ∈
      (authorities.map fun a => (a.textUnitUuid, a)).reverse :=
    List.mem_reverse.mpr (List.mem_map.mpr ⟨a, ha, rfl⟩)
  have hsome : (authoritiesByUnit authorities).get? a.textUnitUuid ≠ none := by
    rw [authoritiesByUnit, Dict.get?_ofPairs]
    exact Dict.get?_ne_none (List.mem_map_of_mem (f := Prod.fst) hmem)
  obtain ⟨b, hb⟩ := Option.ne_none_iff_exists'.mp hsome
  have hpair := hb
  rw [authoritiesByUnit, Dict.get?_ofPairs] at hpair
  obtain ⟨found, hfound, hpair⟩ :=
    List.mem_map.mp (List.mem_reverse.mp (Dict.mem_of_get? hpair))
  obtain ⟨hname, rfl⟩ := Prod.mk.inj hpair
  exact ⟨_, hfound, hb, hname⟩

/-- No link and no candidate has the name of a proposal that no item had. -/
lemma PlanStored.awaits (h : PlanStored P plan bindings s s' rows) (hsound : s.Sound P)
    {item : CoverageItem} (hitem : item ∈ plan.items)
    (hdurable : item.disposition = .durableCandidate) {p : CandidateProposal}
    (hproposal : item.proposalId = some p.proposalId)
    (hnamed : ∃ name, p.proposalId = P.uuid5 proposalNamespace name) : s'.Awaits item p := by
  obtain ⟨row, hrow, hvalues⟩ := Checks.exists_of_mem_left h.values hitem
  obtain ⟨hid, hdisposition, hname⟩ := itemValues_eq_ok hvalues
  rw [hproposal] at hname
  have hnew : ∀ other ∈ s.items.rows, other.proposalUuid ≠ some p.proposalId := by
    rw [← hname]
    exact fun other hother => h.fresh row hrow other hother (by rw [hname]; rfl)
  refine ⟨⟨row, ?_, hid, hdisposition.trans hdurable, hname⟩, ?_, ?_⟩
  · rw [h.items]
    exact List.mem_append_right _ hrow
  · rw [h.frame]
    by_contra hsome
    obtain ⟨link, hlink⟩ := Option.ne_none_iff_exists'.mp hsome
    obtain ⟨hmem, hlinkName⟩ := Table.get?_eq_some.mp hlink
    obtain ⟨other, hother, -, hotherName⟩ := hsound.linkItem link hmem
    exact hnew other hother (hotherName.trans (congrArg some hlinkName))
  · rw [h.frame]
    by_contra hsome
    obtain ⟨c, hc⟩ := Option.ne_none_iff_exists'.mp hsome
    obtain ⟨hmem, hcandidate⟩ := Table.get?_eq_some.mp hc
    obtain ⟨name, hid⟩ := hnamed
    obtain ⟨other, hother, hotherName⟩ :=
      hsound.candidateItem c hmem name (hcandidate.trans hid)
    exact hnew other hother (hotherName.trans (congrArg some hcandidate))

/-- The authorities of a plan are those of the tables. -/
def AuthoritiesHold (value : CoveragePlannerInput) (s : CoverageStore) : Prop :=
  ∀ a ∈ value.authorities, ∀ b,
    candidateAuthorityBinding value.processingRunUuid a.textUnitUuid a = some b →
      s.assertCandidateAuthority b = .ok ()

/-- The proposals of a plan that was just stored are ready. -/
theorem PlanStored.ready (h : PlanStored P plan bindings s s' rows) (hsound : s.Sound P)
    (hplannable : Plannable P value)
    (hexact : ∀ u ∈ value.semanticAnalysis.semanticUnits,
      u.evidence = slice value.currentRawText u.rawStart u.rawEnd)
    (hplan : planCandidateCoverage P value = .ok (plan, proposals))
    (hhold : AuthoritiesHold value s) :
    ∀ p ∈ proposals, s'.Ready P value.authorities plan value.processingRunUuid p := by
  intro p hp
  obtain ⟨planned, uncovered, hparts⟩ := planCandidateCoverage_eq_ok.mp hplan
  obtain ⟨unit, fingerprint, basis, horigin⟩ := hparts.origin hp
  have hadaptable := hplannable.adaptable hexact horigin
  obtain ⟨item, hitem, hget, hdurable, hname⟩ :=
    (assertComplete_eq_ok.mp hparts.complete).itemOf (List.mem_map_of_mem hp)
  have hunit : basis.authority.textUnitUuid = p.textUnitUuid := by rw [horigin.record_eq]; rfl
  obtain ⟨a, ha, hauthority, hname'⟩ := exists_authorityOf
    (horigin.basis_eq.authority_mem (hplannable.lt unit horigin.mem))
  rw [hunit] at hauthority hname'
  refine ⟨hadaptable, ⟨item, hget, h.awaits hsound hitem hdurable hname hadaptable.named⟩,
    a, hauthority, fun b hb => ?_⟩
  have hholds := hhold a ha b (hname' ▸ hb)
  rw [h.frame]
  exact hholds

section

variable {semanticInput : SemanticAnalysisV1Input} {report : ValidationReport}
  {newUuid : String → String}

/-- The candidates of a plan that was just stored in a run without candidates are created when no
two proposals share a claim, and else the unique index of candidates refuses one. -/
theorem createCandidates_of_stored (hsha : Function.Injective P.sha256)
    (huuid : ∀ space, Function.Injective (P.uuid5 space))
    (hbinding : validateSemanticBinding P semanticInput value.semanticAnalysis = .ok report)
    (hprepared : value.PreparedFrom P semanticInput report)
    (hplan : planCandidateCoverage P value = .ok (plan, proposals))
    (hsound : s.Sound P) (hhold : AuthoritiesHold value s)
    (hempty : ∀ c ∈ s.candidates.rows, c.processingRunUuid ≠ value.processingRunUuid)
    (hpersist : persistPlan P plan bindings s = .ok (s', .created)) :
    ((proposals.Pairwise fun p q => ¬p.SameClaim q) ∧ ∃ done,
        createCandidates P newUuid value.authorities plan value.processingRunUuid proposals s' =
          .ok done) ∨
      ¬(proposals.Pairwise fun p q => ¬p.SameClaim q) ∧
        createCandidates P newUuid value.authorities plan value.processingRunUuid proposals s' =
          .error candidateIndexFailed := by
  have hplannable := hprepared.plannable hbinding
  have hexact : ∀ u ∈ value.semanticAnalysis.semanticUnits,
      u.evidence = slice value.currentRawText u.rawStart u.rawEnd := by
    rw [← hprepared.bound.rawText]
    exact (validateSemanticBinding_facts hbinding).evidence.exact
  obtain ⟨planned, uncovered, hparts⟩ := planCandidateCoverage_eq_ok.mp hplan
  have hnodup : (proposals.map CandidateProposal.proposalId).Nodup := by
    rw [hparts.proposals_eq]
    exact hplannable.nodup_proposalIds hsha huuid hparts.units
  obtain ⟨rows, hstored⟩ : ∃ rows, PlanStored P plan bindings s s' rows := by
    rcases persistPlan_cases hpersist with ⟨hstate, -⟩ | ⟨-, hstored⟩
    · exact absurd hstate (by simp)
    · exact hstored
  have hfree : ClaimsFree value.processingRunUuid s' proposals ↔
      proposals.Pairwise fun p q => ¬p.SameClaim q := by
    refine ⟨fun h => h.2, fun h => ⟨fun p _ c hc hclaims => ?_, h⟩⟩
    rw [hstored.frame] at hc
    exact hempty c hc hclaims.processingRunUuid
  rw [← hfree]
  exact createCandidates_cases hsha huuid ((CoverageStep.persistPlan hpersist).sound hsound) hnodup
    (hstored.ready hsound hplannable hexact hplan hhold)

/-- Where digests and name-based identifiers tell their inputs apart, the candidates of a plan that
was just stored in a run without candidates are created exactly when no two proposals share text
unit, type and text. -/
theorem plan_is_completable_iff (hsha : Function.Injective P.sha256)
    (huuid : ∀ space, Function.Injective (P.uuid5 space))
    (hbinding : validateSemanticBinding P semanticInput value.semanticAnalysis = .ok report)
    (hprepared : value.PreparedFrom P semanticInput report)
    (hplan : planCandidateCoverage P value = .ok (plan, proposals))
    (hreachable : s.Reachable P) (hhold : AuthoritiesHold value s)
    (hempty : ∀ c ∈ s.candidates.rows, c.processingRunUuid ≠ value.processingRunUuid)
    (hpersist : persistPlan P plan bindings s = .ok (s', .created)) :
    (∃ done,
        createCandidates P newUuid value.authorities plan value.processingRunUuid proposals s' =
          .ok done) ↔
      proposals.Pairwise fun p q => ¬p.SameClaim q := by
  rcases createCandidates_of_stored hsha huuid hbinding hprepared hplan hreachable.sound hhold
    hempty hpersist with ⟨hfree, hdone⟩ | ⟨hshared, hfailed⟩
  · exact iff_of_true hdone hfree
  · refine iff_of_false ?_ hshared
    rintro ⟨done, hdone⟩
    exact absurd (hfailed.symm.trans hdone) (by simp)

end

end

/-! ### One claim said twice -/

/-- What the plans of the preferences are stored with. -/
def teaBindings : CoveragePersistenceBindings where
  messageVersionUuid := none
  textEnvelopeContractVersion := textSemanticsContractVersion
  semanticUnitFingerprints := [("u1", "f1"), ("u2", "f2")]
  annotationUuids := []

/-- An authority without a gate binds no candidate. -/
lemma authoritiesHold_of_no_gate {value : CoveragePlannerInput}
    (h : ∀ a ∈ value.authorities, a.gateDecisionUuid = none) : AuthoritiesHold value s := by
  intro a ha b hb
  rw [candidateAuthorityBinding, h a ha] at hb
  exact absurd hb (by simp)

theorem plan_is_completable_iff_tea : ∃ plan proposals stored,
    planCandidateCoverage exactPlatform (teaInput "u1" (some .preference) none none) =
        .ok (plan, proposals) ∧
      persistPlan exactPlatform plan teaBindings .empty = .ok (stored, .created) ∧
      ((∃ done, createCandidates exactPlatform id [teaAuthority none none] plan "p1" proposals
          stored = .ok done) ↔
        proposals.Pairwise fun p q => ¬p.SameClaim q) := by
  obtain ⟨report, hreport⟩ := tea_accepted
  have hprepared := tea_prepared hreport
  have hplannable := hprepared.plannable hreport
  obtain ⟨plan, proposals, hplan, -⟩ := hplannable.exists_plan exactPlatform_sha256
    exactPlatform_uuid5 exactPlatform_uuid5_ne
  obtain ⟨stored, hstored⟩ := hplannable.exists_stored exactPlatform_sha256 exactPlatform_uuid5
    exactPlatform_uuid5_ne hplan teaBindings (by decide)
  refine ⟨plan, proposals, stored, hplan, hstored, ?_⟩
  exact plan_is_completable_iff exactPlatform_sha256 exactPlatform_uuid5 hreport hprepared hplan
    .refl (authoritiesHold_of_no_gate (by simp [teaInput, teaAuthority]))
    (fun _ hc => absurd hc List.not_mem_nil) hstored

/-- The word at an offset of the message. -/
def wordUnit (id : String) (start : ℕ) : SemanticUnit :=
  { teaUnit id (some .preference) with rawStart := start, rawEnd := start + 3 }

/-- The authority of the whole message. -/
def wordsAuthority : PersistedUnitAuthority :=
  { teaAuthority none none with rawEnd := 7, orderedSpan := by decide }

/-- The planner's input for a preference that is said twice. -/
def wordsInput : CoveragePlannerInput :=
  { teaInput "" none none none with
    currentRawText := "tea tea".toList
    textEnvelope := (buildEnvelope exactPlatform "tea tea".toList).asDict
    semanticAnalysis :=
      { status := .ok
        semanticUnits := [wordUnit "u1" 0, wordUnit "u2" 4]
        references := []
        relations := [] }
    acceptedUnitIds := ["u1", "u2"]
    authorities := [wordsAuthority] }

/-- The manifest of a preference that is said twice. -/
def wordsManifest : SemanticAnalysisV1Input :=
  { teaManifest with
    currentRawText := "tea tea".toList
    textEnvelope := (buildEnvelope exactPlatform "tea tea".toList).asDict }

lemma words_accepted : ∃ report, validateSemanticBinding exactPlatform wordsManifest
    wordsInput.semanticAnalysis = .ok report :=
  exists_accepted (by decide +kernel) (by decide +kernel) (by decide +kernel) (by decide +kernel)

/-- The service prepares a preference that is said twice from its report. -/
lemma words_prepared {report : ValidationReport} (h : validateSemanticBinding exactPlatform
    wordsManifest wordsInput.semanticAnalysis = .ok report) :
    wordsInput.PreparedFrom exactPlatform wordsManifest report where
  bound := ⟨rfl, rfl, rfl, rfl⟩
  envelope := rfl
  unitIds := (validateSemanticBinding_facts h).evidence.unitIds.symm
  referenceIndexes := (validateSemanticBinding_facts h).evidence.referenceIndexes.symm
  relationIndexes := (validateSemanticBinding_facts h).evidence.relationIndexes.symm
  authorities := fun a ha => by
    rw [List.mem_singleton.mp ha]
    exact ⟨by decide, by decide, by decide, by decide⟩
  execution := by decide
  rawText := by decide
  context := fun item hitem => absurd hitem List.not_mem_nil

/-- Both words rest on one text unit, type and text. -/
lemma words_bases : ∀ unit ∈ wordsInput.semanticAnalysis.semanticUnits,
    (decideUnit exactPlatform.unicode wordsInput unit (unitContaining wordsInput unit)).basis.map
      (fun b => (b.authority.textUnitUuid, b.mapping.candidateType, b.mapping.normalizedText)) =
        some ("t1", .preference, "preference:user:preference:tea".toList) := by
  decide +kernel

/-- The proposals of the words share their claim. -/
lemma words_sameClaim {plan : CoveragePlan} {proposals : List CandidateProposal}
    (hplan : planCandidateCoverage exactPlatform wordsInput = .ok (plan, proposals)) :
    ∀ p ∈ proposals, ∀ q ∈ proposals, p.SameClaim q := by
  obtain ⟨planned, uncovered, hparts⟩ := planCandidateCoverage_eq_ok.mp hplan
  have hclaim : ∀ p ∈ proposals, p.textUnitUuid = "t1" ∧
      p.candidateType = CandidateType.preference.value ∧
      p.normalizedText = "preference:user:preference:tea".toList := by
    intro p hp
    obtain ⟨unit, fingerprint, basis, horigin⟩ := hparts.origin hp
    have hbasis := words_bases unit horigin.mem
    rw [decideUnit_basis.mpr horigin.basis_eq, Option.map_some, Option.some_inj] at hbasis
    obtain ⟨hunit, htype, htext⟩ := Prod.mk.inj hbasis |>.imp id Prod.mk.inj
    rw [horigin.record_eq]
    exact ⟨hunit, congrArg CandidateType.value htype, htext⟩
  intro p hp q hq
  obtain ⟨hunit, htype, htext⟩ := hclaim p hp
  obtain ⟨hunit', htype', htext'⟩ := hclaim q hq
  exact ⟨hunit.trans hunit'.symm, htype.trans htype'.symm, htext.trans htext'.symm⟩

/-- A preference that is said twice is accepted, planned and stored, and the unique index refuses
its second candidate. -/
theorem repeated_claim_stops_plan : ∃ report plan proposals stored,
    validateSemanticBinding exactPlatform wordsManifest wordsInput.semanticAnalysis =
        .ok report ∧
      wordsInput.PreparedFrom exactPlatform wordsManifest report ∧
      planCandidateCoverage exactPlatform wordsInput = .ok (plan, proposals) ∧
      persistPlan exactPlatform plan teaBindings .empty = .ok (stored, .created) ∧
      createCandidates exactPlatform id wordsInput.authorities plan
        wordsInput.processingRunUuid proposals stored = .error candidateIndexFailed := by
  obtain ⟨report, hreport⟩ := words_accepted
  have hprepared := words_prepared hreport
  have hplannable := hprepared.plannable hreport
  obtain ⟨plan, proposals, hplan, -⟩ := hplannable.exists_plan exactPlatform_sha256
    exactPlatform_uuid5 exactPlatform_uuid5_ne
  obtain ⟨stored, hstored⟩ := hplannable.exists_stored exactPlatform_sha256 exactPlatform_uuid5
    exactPlatform_uuid5_ne hplan teaBindings (by decide)
  refine ⟨report, plan, proposals, stored, hreport, hprepared, hplan, hstored, ?_⟩
  -- a proposal for each word
  obtain ⟨planned, uncovered, hparts⟩ := planCandidateCoverage_eq_ok.mp hplan
  have hproposal : ∀ unit ∈ wordsInput.semanticAnalysis.semanticUnits,
      ∃ p ∈ proposals, p.span = unit.span := by
    intro unit hunit
    obtain ⟨basis, hbasis, -⟩ := Option.map_eq_some_iff.mp (words_bases unit hunit)
    exact hparts.exists_proposal hunit (decideUnit_basis.mp hbasis)
  obtain ⟨p, hp, hspan⟩ := hproposal (wordUnit "u1" 0) (by decide)
  obtain ⟨q, hq, hspan'⟩ := hproposal (wordUnit "u2" 4) (by decide)
  have hne : p ≠ q := by
    rintro rfl
    exact absurd (hspan.symm.trans hspan') (by decide)
  have hsame := words_sameClaim hplan
  rcases createCandidates_of_stored exactPlatform_sha256 exactPlatform_uuid5 hreport hprepared
    hplan CoverageStore.sound_empty (authoritiesHold_of_no_gate (by decide))
    (fun _ hc => absurd hc List.not_mem_nil) hstored with ⟨hfree, -⟩ | ⟨-, hfailed⟩
  · have : Std.Symm fun p q : CandidateProposal => ¬p.SameClaim q :=
      ⟨fun _ _ h h' => h ⟨h'.1.symm, h'.2.1.symm, h'.2.2.symm⟩⟩
    exact absurd (hsame p hp q hq) (hfree.forall hp hq hne)
  · exact hfailed

end Memorist
