import Memorist.Coverage.Store

/-!
What holds in every state of the coverage store.

* `persistPlan_cases`, `reserveCandidate_cases`, `createAndLinkCandidate_cases`: what a command that
  succeeds does to the tables;
* `CoverageStep`, `CoverageStore.Reachable`: the writers of the tables, and the states they lead to
  from empty ones;
* `CoverageStore.Sound`: links and candidates of proposals have an item, and evidence has a
  candidate;
* `CoverageStep.sound`, `CoverageStore.Reachable.sound`: **every writer keeps it, so it holds in
  every state reached.**
-/

namespace Memorist

open Checks (require)

variable {P : Platform} {s s' : CoverageStore}

/-! ### Inserts -/

/-- An item that is inserted has a range, is durable exactly when it has a proposal, and shares it
with no other item. -/
lemma insertItem_eq_ok
    {items items' : Table CoverageItemRow String CoverageItemRow.coverageItemUuid}
    {row : CoverageItemRow} (h : insertItem items row = .ok items') :
    (row.disposition = .durableCandidate ↔ row.proposalUuid.isSome = true) ∧
      (∀ other ∈ items.rows, row.proposalUuid.isSome = true →
        other.proposalUuid ≠ row.proposalUuid) ∧
      items'.rows = items.rows ++ [row] := by
  simp only [insertItem, Checks.check_bind_eq_ok, Checks.require_eq_ok] at h
  obtain ⟨-, hdurable, hinsert⟩ := h
  obtain ⟨-, hindexes, -⟩ := Table.insertUnique_eq_ok.mp hinsert
  refine ⟨hdurable, fun other hother hsome heq => ?_, Table.rows_insertUnique hinsert⟩
  have hfree := hindexes _ List.mem_cons_self other hother
  simp only [heq, hsome, decide_true, Bool.and_true] at hfree
  exact absurd hfree (by simp)

/-- Evidence that is inserted comes after the other rows. -/
lemma foldlM_insertEvidence {rows : List CandidateEvidence}
    {evidence evidence' : Table CandidateEvidence String CandidateEvidence.evidenceUuid}
    (h : rows.foldlM insertEvidence evidence = .ok evidence') :
    evidence'.rows = evidence.rows ++ rows := by
  induction rows generalizing evidence with
  | nil =>
      obtain rfl := Checks.pure_eq_ok.mp h
      rw [List.append_nil]
  | cons row rows ih =>
      rw [List.foldlM_cons, Checks.bind_eq_ok] at h
      obtain ⟨next, hrow, hrest⟩ := h
      rw [ih hrest, Table.rows_insertUnique hrow, List.append_assoc, List.singleton_append]

/-- Items that are inserted are the rows of the plan's items, after the other rows and with other
proposals than those. -/
lemma foldlM_insertItem {bindings : CoveragePersistenceBindings} {runUuid : String}
    {planned : List CoverageItem}
    {items items' : Table CoverageItemRow String CoverageItemRow.coverageItemUuid}
    (h : planned.foldlM (fun items item => do
      let row ← itemValues bindings runUuid item
      insertItem items row) items = .ok items') :
    ∃ rows, List.Forall₂ (fun item row => itemValues bindings runUuid item = .ok row) planned
        rows ∧
      items'.rows = items.rows ++ rows ∧
      ∀ row ∈ rows, ∀ other ∈ items.rows, row.proposalUuid.isSome = true →
        other.proposalUuid ≠ row.proposalUuid := by
  induction planned generalizing items with
  | nil =>
      obtain rfl := Checks.pure_eq_ok.mp h
      exact ⟨[], .nil, (List.append_nil _).symm, by simp⟩
  | cons item planned ih =>
      simp only [List.foldlM_cons, Checks.bind_eq_ok] at h
      obtain ⟨next, ⟨row, hvalues, hinsert⟩, hrest⟩ := h
      obtain ⟨-, hfresh, hnext⟩ := insertItem_eq_ok hinsert
      obtain ⟨rows, hrows, hitems, hfreshRows⟩ := ih hrest
      refine ⟨row :: rows, .cons hvalues hrows, ?_, ?_⟩
      · rw [hitems, hnext, List.append_assoc, List.singleton_append]
      · intro r hr other hother
        rcases List.mem_cons.mp hr with rfl | hr
        · exact hfresh other hother
        · exact hfreshRows r hr other (hnext ▸ List.mem_append_left _ hother)

/-! ### Commands -/

/-- What storing a plan does: its items come after the others, with proposals that no item had. -/
structure PlanStored (P : Platform) (plan : CoveragePlan) (bindings : CoveragePersistenceBindings)
    (s s' : CoverageStore) (rows : List CoverageItemRow) : Prop where
  values : List.Forall₂
    (fun item row => itemValues bindings (coverageRunUuid P plan.coverageHash) item = .ok row)
    plan.items rows
  items : s'.items.rows = s.items.rows ++ rows
  fresh : ∀ row ∈ rows, ∀ other ∈ s.items.rows, row.proposalUuid.isSome = true →
    other.proposalUuid ≠ row.proposalUuid
  frame : s' = { s with runs := s'.runs, items := s'.items }

/-- A plan is stored, or it was before. -/
theorem persistPlan_cases {plan : CoveragePlan} {bindings : CoveragePersistenceBindings}
    {state : CommandState} (h : persistPlan P plan bindings s = .ok (s', state)) :
    (state = .existing ∧ s' = s) ∨
      state = .created ∧ ∃ rows, PlanStored P plan bindings s s' rows := by
  simp only [persistPlan] at h
  split at h
  case h_1 =>
    simp only [Checks.check_bind_eq_ok, Checks.pure_eq_ok, Prod.mk.injEq] at h
    exact .inl ⟨h.2.2.symm, h.2.1.symm⟩
  case h_2 =>
    simp only [Checks.bind_eq_ok, Checks.pure_eq_ok, Prod.mk.injEq] at h
    obtain ⟨_, -, runs, -, items, hitems, rfl, rfl⟩ := h
    obtain ⟨rows, hrows, happend, hfresh⟩ :=
      foldlM_insertItem (by simpa only [Checks.bind_eq_ok] using hitems)
    exact .inr ⟨rfl, rows, hrows, happend, hfresh, rfl⟩

/-- A candidate is reserved for the durable item of its proposal, or it was before. -/
theorem reserveCandidate_cases {proposalId coverageItemId payloadHash : String}
    {state : CommandState}
    (h : reserveCandidate proposalId coverageItemId payloadHash s = .ok (s', state)) :
    s' = s ∨ ∃ links item, item ∈ s.items.rows ∧ item.coverageItemUuid = coverageItemId ∧
      item.proposalUuid = some proposalId ∧
      insertLink s.links ⟨proposalId, coverageItemId, payloadHash, .candidateCreationAttempted⟩ =
        .ok links ∧
      s' = { s with links } := by
  unfold reserveCandidate at h
  split at h
  case h_1 =>
    simp only [Checks.check_bind_eq_ok, Checks.pure_eq_ok, Prod.mk.injEq] at h
    exact .inl h.2.1.symm
  case h_2 =>
    simp only [Checks.require_eq_ok, Checks.bind_eq_ok, Checks.pure_eq_ok, Prod.mk.injEq] at h
    obtain ⟨_, ⟨item, hitem, -, hproposal⟩, links, hlinks, rfl, -⟩ := h
    obtain ⟨hmem, hid⟩ := Table.get?_eq_some.mp (Option.mem_toList.mp hitem)
    exact .inr ⟨links, item, hmem, hid, hproposal, hlinks, rfl⟩

/-- A candidate is created with its evidence and linked, or only linked, or it was before. -/
theorem createAndLinkCandidate_cases {proposal : CandidateProposal} {candidate : MemoryCandidate}
    {evidenceItems : List CandidateEvidence} {authority : Option CandidateAuthorityBinding}
    {state : CommandState}
    (h : createAndLinkCandidate P proposal candidate evidenceItems authority s = .ok (s', state)) :
    s' = s ∨ s' = s.linked proposal.proposalId ∨
      ∃ link evidence candidates evidenceRows, link ∈ s.links.rows ∧
        link.proposalUuid = proposal.proposalId ∧
        validateCandidateBinding P proposal candidate evidenceItems = .ok evidence ∧
        insertCandidate s.candidates candidate = .ok candidates ∧
        evidence.foldlM insertEvidence s.evidence = .ok evidenceRows ∧
        s' = ({ s with candidates, evidence := evidenceRows }).linked proposal.proposalId := by
  simp only [createAndLinkCandidate, Checks.bind_eq_ok] at h
  obtain ⟨evidence, hevidence, payloadHash, -, h⟩ := h
  split at h
  case h_1 => exact absurd h (by simp)
  case h_2 link hlink =>
    obtain ⟨hmem, hid⟩ := Table.get?_eq_some.mp hlink
    simp only [Checks.check_bind_eq_ok] at h
    obtain ⟨-, -, h⟩ := h
    split at h
    case h_1 => exact absurd h (by simp)
    case h_2 =>
      simp only [Checks.check_bind_eq_ok, Checks.pure_eq_ok, Prod.mk.injEq] at h
      exact .inl h.2.1.symm
    case h_3 =>
      simp only [Checks.bind_eq_ok, Checks.pure_eq_ok, Prod.mk.injEq] at h
      obtain ⟨candidates, hcandidates, evidenceRows, hrows, rfl, -⟩ := h
      exact .inr (.inr ⟨link, evidence, candidates, evidenceRows, hmem, hid, hevidence,
        hcandidates, hrows, rfl⟩)
    case h_4 =>
      simp only [Checks.check_bind_eq_ok, Checks.pure_eq_ok, Prod.mk.injEq] at h
      exact .inr (.inl h.2.1.symm)

/-! ### Writers -/

/-- What the writers of the tables do: the commands, the writers of candidates under random names,
changes of other columns, and the gates and routes of another stage. No row is ever deleted. -/
inductive CoverageStep (P : Platform) (s : CoverageStore) : CoverageStore → Prop
  | persistPlan {plan : CoveragePlan} {bindings : CoveragePersistenceBindings}
      {state : CommandState} {s' : CoverageStore}
      (h : persistPlan P plan bindings s = .ok (s', state)) : CoverageStep P s s'
  | reserveCandidate {proposalId coverageItemId payloadHash : String} {state : CommandState}
      {s' : CoverageStore}
      (h : reserveCandidate proposalId coverageItemId payloadHash s = .ok (s', state)) :
      CoverageStep P s s'
  | createAndLinkCandidate {proposal : CandidateProposal} {candidate : MemoryCandidate}
      {evidenceItems : List CandidateEvidence} {authority : Option CandidateAuthorityBinding}
      {state : CommandState} {s' : CoverageStore}
      (h : createAndLinkCandidate P proposal candidate evidenceItems authority s =
        .ok (s', state)) : CoverageStep P s s'
  | insertCandidate {candidate : MemoryCandidate} {rows : List CandidateEvidence}
      {candidates : Table MemoryCandidate String MemoryCandidate.candidateUuid}
      {evidence : Table CandidateEvidence String CandidateEvidence.evidenceUuid}
      (hcandidate : insertCandidate s.candidates candidate = .ok candidates)
      (hrows : rows.foldlM insertEvidence s.evidence = .ok evidence)
      (hrandom : ∀ name, candidate.candidateUuid ≠ P.uuid5 proposalNamespace name)
      (hevidence : ∀ e ∈ rows, e.candidateUuid = candidate.candidateUuid ∧
        ∀ name, e.evidenceUuid ≠ P.uuid5 evidenceNamespace name) :
      CoverageStep P s { s with candidates, evidence }
  | updateCandidates (p : MemoryCandidate → Bool) (f : MemoryCandidate → MemoryCandidate)
      (hf : ∀ c, (f c).candidateUuid = c.candidateUuid) :
      CoverageStep P s { s with candidates := s.candidates.updateWhere p f hf }
  | updateEvidence (p : CandidateEvidence → Bool) (f : CandidateEvidence → CandidateEvidence)
      (hf : ∀ e, (f e).evidenceUuid = e.evidenceUuid)
      (howner : ∀ e, (f e).candidateUuid = e.candidateUuid) :
      CoverageStep P s { s with evidence := s.evidence.updateWhere p f hf }
  | writeSignals (gateDecisions : Table GateDecisionRow String GateDecisionRow.gateDecisionUuid)
      (routes : Table SignalRouteRow String SignalRouteRow.routeUuid) :
      CoverageStep P s { s with gateDecisions, routes }

/-- The states that the writers lead to. -/
def CoverageStore.Reachable (P : Platform) (s : CoverageStore) : Prop :=
  Relation.ReflTransGen (CoverageStep P) .empty s

/-! ### The invariant -/

/-- The name of evidence is the identity of some evidence of its candidate. -/
def CandidateEvidence.Identified (P : Platform) (e : CandidateEvidence) : Prop :=
  ∃ original digest, canonicalHashIjson P (evidenceIdentity e.candidateUuid original) = .ok digest ∧
    e.evidenceUuid = P.uuid5 evidenceNamespace digest

/-- What the tables are like. -/
structure CoverageStore.Sound (P : Platform) (s : CoverageStore) : Prop where
  linkItem : ∀ link ∈ s.links.rows, ∃ item ∈ s.items.rows,
    item.coverageItemUuid = link.coverageItemUuid ∧ item.proposalUuid = some link.proposalUuid
  candidateItem : ∀ c ∈ s.candidates.rows, ∀ name,
    c.candidateUuid = P.uuid5 proposalNamespace name →
    ∃ item ∈ s.items.rows, item.proposalUuid = some c.candidateUuid
  evidenceCandidate : ∀ e ∈ s.evidence.rows, ∃ c ∈ s.candidates.rows,
    c.candidateUuid = e.candidateUuid
  evidenceIdentified : ∀ e ∈ s.evidence.rows, ∀ name,
    e.evidenceUuid = P.uuid5 evidenceNamespace name → e.Identified P

namespace CoverageStore

lemma sound_empty : Sound P .empty where
  linkItem := fun _ h => absurd h List.not_mem_nil
  candidateItem := fun _ h => absurd h List.not_mem_nil
  evidenceCandidate := fun _ h => absurd h List.not_mem_nil
  evidenceIdentified := fun _ h => absurd h List.not_mem_nil

/-- More items keep it. -/
lemma Sound.withItems (h : s.Sound P) (hlinks : s'.links = s.links)
    (hcandidates : s'.candidates = s.candidates) (hevidence : s'.evidence = s.evidence)
    (hitems : ∀ item ∈ s.items.rows, item ∈ s'.items.rows) : s'.Sound P where
  linkItem := fun link hlink => by
    obtain ⟨item, hitem, hid⟩ := h.linkItem link (hlinks ▸ hlink)
    exact ⟨item, hitems item hitem, hid⟩
  candidateItem := fun c hc name hname => by
    obtain ⟨item, hitem, hid⟩ := h.candidateItem c (hcandidates ▸ hc) name hname
    exact ⟨item, hitems item hitem, hid⟩
  evidenceCandidate := by
    rw [hcandidates, hevidence]
    exact h.evidenceCandidate
  evidenceIdentified := by
    rw [hevidence]
    exact h.evidenceIdentified

/-- A link for the item of its proposal keeps it. -/
lemma Sound.withLink (h : s.Sound P) {link : CandidateLinkRow} {item : CoverageItemRow}
    (hitem : item ∈ s.items.rows) (hid : item.coverageItemUuid = link.coverageItemUuid)
    (hproposal : item.proposalUuid = some link.proposalUuid)
    {links : Table CandidateLinkRow String CandidateLinkRow.proposalUuid}
    (hlinks : links.rows = s.links.rows ++ [link]) : Sound P { s with links } where
  linkItem := fun other hother => by
    rcases List.mem_append.mp (hlinks ▸ hother) with hother | hother
    · exact h.linkItem other hother
    · obtain rfl := List.mem_singleton.mp hother
      exact ⟨item, hitem, hid, hproposal⟩
  candidateItem := h.candidateItem
  evidenceCandidate := h.evidenceCandidate
  evidenceIdentified := h.evidenceIdentified

/-- A change of a link's state keeps it. -/
lemma Sound.linked (h : s.Sound P) (proposalId : String) : (s.linked proposalId).Sound P where
  linkItem := fun link hlink => by
    obtain ⟨row, hrow, rfl⟩ := List.mem_map.mp hlink
    obtain ⟨item, hitem, hid, hproposal⟩ := h.linkItem row hrow
    refine ⟨item, hitem, ?_⟩
    split_ifs <;> exact ⟨hid, hproposal⟩
  candidateItem := h.candidateItem
  evidenceCandidate := h.evidenceCandidate
  evidenceIdentified := h.evidenceIdentified

/-- A candidate keeps it that has an item if it is named like a proposal, with evidence of its
own. -/
lemma Sound.withCandidate (h : s.Sound P) {candidate : MemoryCandidate}
    {rows : List CandidateEvidence}
    (hitem : ∀ name, candidate.candidateUuid = P.uuid5 proposalNamespace name →
      ∃ item ∈ s.items.rows, item.proposalUuid = some candidate.candidateUuid)
    (hrows : ∀ e ∈ rows, e.candidateUuid = candidate.candidateUuid ∧
      ∀ name, e.evidenceUuid = P.uuid5 evidenceNamespace name → e.Identified P)
    {candidates : Table MemoryCandidate String MemoryCandidate.candidateUuid}
    (hcandidates : candidates.rows = s.candidates.rows ++ [candidate])
    {evidence : Table CandidateEvidence String CandidateEvidence.evidenceUuid}
    (hevidence : evidence.rows = s.evidence.rows ++ rows) :
    Sound P { s with candidates, evidence } where
  linkItem := h.linkItem
  candidateItem := fun c hc => by
    rcases List.mem_append.mp (hcandidates ▸ hc) with hc | hc
    · exact h.candidateItem c hc
    · exact List.mem_singleton.mp hc ▸ hitem
  evidenceCandidate := fun e he => by
    rcases List.mem_append.mp (hevidence ▸ he) with he | he
    · obtain ⟨c, hc, hid⟩ := h.evidenceCandidate e he
      exact ⟨c, hcandidates ▸ List.mem_append_left _ hc, hid⟩
    · exact ⟨candidate, hcandidates ▸ List.mem_append_right _ (List.mem_singleton_self _),
        (hrows e he).1.symm⟩
  evidenceIdentified := fun e he => by
    rcases List.mem_append.mp (hevidence ▸ he) with he | he
    · exact h.evidenceIdentified e he
    · exact (hrows e he).2

end CoverageStore

/-- The evidence of a proposal is that of its candidate, under its identity. -/
lemma validateCandidateBinding_facts {proposal : CandidateProposal} {candidate : MemoryCandidate}
    {evidenceItems evidence : List CandidateEvidence}
    (h : validateCandidateBinding P proposal candidate evidenceItems = .ok evidence) :
    candidate.candidateUuid = proposal.proposalId ∧
      ∀ e ∈ evidence, e.candidateUuid = candidate.candidateUuid ∧ e.Identified P := by
  simp only [validateCandidateBinding, Checks.require_eq_ok, Checks.bind_eq_ok,
    Checks.mapM_eq_ok, Checks.pure_eq_ok] at h
  obtain ⟨_, hname, _, -, deterministic, hdeterministic, _, -, rfl⟩ := h
  refine ⟨hname, fun e he => ?_⟩
  obtain ⟨original, -, he⟩ := Checks.exists_of_mem_right hdeterministic he
  simp only [deterministicEvidence, Checks.bind_eq_ok, Checks.pure_eq_ok] at he
  obtain ⟨digest, hdigest, rfl⟩ := he
  exact ⟨hname.symm, original, digest, hdigest, rfl⟩

/-- Every writer keeps the invariant. -/
theorem CoverageStep.sound (h : CoverageStep P s s') (hs : s.Sound P) : s'.Sound P := by
  cases h with
  | persistPlan h =>
      rcases persistPlan_cases h with ⟨-, rfl⟩ | ⟨-, rows, hstored⟩
      · exact hs
      · refine hs.withItems ?_ ?_ ?_ fun item hitem => ?_
        · rw [hstored.frame]
        · rw [hstored.frame]
        · rw [hstored.frame]
        · rw [hstored.items]
          exact List.mem_append_left _ hitem
  | reserveCandidate h =>
      rcases reserveCandidate_cases h with rfl | ⟨links, item, hitem, hid, hproposal, hlinks, rfl⟩
      · exact hs
      · exact hs.withLink hitem hid hproposal (Table.rows_insertUnique hlinks)
  | createAndLinkCandidate h =>
      rcases createAndLinkCandidate_cases h with rfl | rfl | ⟨link, evidence, candidates,
        evidenceRows, hlink, hname, hevidence, hcandidates, hrows, rfl⟩
      · exact hs
      · exact hs.linked _
      · obtain ⟨hcandidate, hidentified⟩ := validateCandidateBinding_facts hevidence
        refine (hs.withCandidate (fun _ _ => ?_) (fun e he => ?_)
          (Table.rows_insertUnique hcandidates) (foldlM_insertEvidence hrows)).linked _
        · -- the item of the reservation
          obtain ⟨item, hitem, -, hproposal⟩ := hs.linkItem link hlink
          exact ⟨item, hitem, by rw [hproposal, hname, hcandidate]⟩
        · exact ⟨(hidentified e he).1, fun _ _ => (hidentified e he).2⟩
  | insertCandidate hcandidate hrows hrandom hevidence =>
      exact hs.withCandidate (fun name hname => absurd hname (hrandom name))
        (fun e he => ⟨(hevidence e he).1, fun name hname => absurd hname ((hevidence e he).2 name)⟩)
        (Table.rows_insertUnique hcandidate) (foldlM_insertEvidence hrows)
  | updateCandidates p f hf =>
      refine ⟨hs.linkItem, fun c hc => ?_, fun e he => ?_, hs.evidenceIdentified⟩
      · obtain ⟨row, hrow, hname, -⟩ := Table.exists_of_mem_updateWhere hf hc
        exact hname ▸ hs.candidateItem row hrow
      · obtain ⟨c, hc, hid⟩ := hs.evidenceCandidate e he
        obtain ⟨row, hrow, hname⟩ := Table.exists_mem_updateWhere (p := p) hf hc
        exact ⟨row, hrow, hname.trans hid⟩
  | updateEvidence p f hf howner =>
      have hkept : ∀ e ∈ (s.evidence.updateWhere p f hf).rows, ∃ row ∈ s.evidence.rows,
          row.evidenceUuid = e.evidenceUuid ∧ row.candidateUuid = e.candidateUuid := by
        intro e he
        obtain ⟨row, hrow, hname, rfl | rfl⟩ := Table.exists_of_mem_updateWhere hf he
        · exact ⟨e, hrow, rfl, rfl⟩
        · exact ⟨row, hrow, hname, (howner row).symm⟩
      refine ⟨hs.linkItem, hs.candidateItem, fun e he => ?_, fun e he name hname => ?_⟩
      · obtain ⟨row, hrow, -, howned⟩ := hkept e he
        exact howned ▸ hs.evidenceCandidate row hrow
      · obtain ⟨row, hrow, hid, howned⟩ := hkept e he
        have hidentified := hs.evidenceIdentified row hrow name (hid.trans hname)
        rwa [CandidateEvidence.Identified, hid, howned] at hidentified
  | writeSignals => exact ⟨hs.linkItem, hs.candidateItem, hs.evidenceCandidate,
      hs.evidenceIdentified⟩

/-- The invariant holds in every state that the writers lead to. -/
theorem CoverageStore.Reachable.sound (h : s.Reachable P) : s.Sound P := by
  induction h with
  | refl => exact CoverageStore.sound_empty
  | tail _ hstep ih => exact hstep.sound ih

end Memorist
