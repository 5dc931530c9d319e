import Memorist.Memory.Projection

/-!
The polarity of the evidence that is linked to a version (`memory_worker/consolidation/resolver.py`,
`memory_worker/consolidation/conflicts.py`).

* `LinksAgree`: what a decision links to a version does not contradict its polarity;
* `Crosses`: a candidate meets a current version with its text and the opposite polarity;
* `linksAgree_iff`: a decision on one candidate;
* `links_agree_iff`: **evidence agrees with its versions exactly when no candidate crosses the
  polarity of a text it repeats.**
-/

namespace Memorist

namespace MemoryStore

variable {store t : MemoryStore} {U : UnicodeData} {candidateUuid : String}
  {source : CandidateSource candidateUuid}

/-- A candidate that is to be consolidated repeats the text of the current version of its memory with
a polarity that contradicts that of the version. -/
structure Crosses (store : MemoryStore) (U : UnicodeData) (source : CandidateSource candidateUuid)
    (candidate : MemoryCandidate) (current : MemoryVersionRow) : Prop where
  undecided : store.decisions.get? candidateUuid = none
  stored : source.candidate = some candidate
  hasEvidence : source.evidence ≠ []
  consolidated : candidate.status ≠ .rejected ∧ candidate.status ≠ .needsReview ∧
    candidate.predicate ≠ some "forget_request"
  meets : (store.decidedMemory U source).bind store.currentVersion = some current
  repeats : current.normalizedText = candidate.normalizedText
  contradicts : polaritiesContradict current.polarity candidate.polarity

/-! ### The operation -/

/-- A polarity does not contradict itself. -/
@[simp] lemma polaritiesContradict_self (polarity : SemanticPolarity) :
    polaritiesContradict polarity polarity = false := by
  cases polarity <;> decide

/-- A candidate reinforces what says the same. -/
lemma resolve_eq_reinforce {candidate : MemoryCandidate} {current : Option MemoryVersionRow} :
    (DeterministicResolver.resolve candidate current).1 = .reinforce ↔
      (candidate.status ≠ .rejected ∧ candidate.status ≠ .needsReview ∧
        candidate.predicate ≠ some "forget_request") ∧
      ∃ version, current = some version ∧ version.normalizedText = candidate.normalizedText := by
  unfold DeterministicResolver.resolve
  split_ifs with hrejected hreview hforget
  · simp [hrejected]
  · simp [hreview]
  · simp [hforget]
  · cases current with
    | none => simp
    | some version =>
        dsimp only
        split_ifs with htext hpolarity
        · simp [hrejected, hreview, hforget, htext]
        · simp [htext]
        · simp [htext]

lemma decidedOperation_eq_reinforce {candidate : MemoryCandidate}
    (hcandidate : source.candidate = some candidate) :
    store.decidedOperation U source = .reinforce ↔ source.evidence ≠ [] ∧
      (candidate.status ≠ .rejected ∧ candidate.status ≠ .needsReview ∧
        candidate.predicate ≠ some "forget_request") ∧
      ∃ version, (store.decidedMemory U source).bind store.currentVersion = some version ∧
        version.normalizedText = candidate.normalizedText := by
  rw [decidedOperation, hcandidate]
  dsimp only
  split_ifs with hevidence
  · simp [hevidence]
  · rw [resolve_eq_reinforce]
    simp [hevidence]

/-- A version of a candidate has its polarity. -/
lemma versionFor_polarity {candidate : MemoryCandidate} {memoryUuid : String} {versionNumber : ℕ}
    {operation : ConsolidationOperation} {stamp : Stamp} {version : MemoryVersionRow}
    (h : versionFor U candidate memoryUuid versionNumber operation stamp = .ok version) :
    version.polarity = candidate.polarity := by
  obtain ⟨reason, -, h⟩ := Checks.bind_eq_ok.mp h
  rw [Checks.pure_eq_ok] at h
  rw [← h]

/-- A version that is inserted and made current is stored under its name. -/
lemma get?_of_setCurrent {base : MemoryStore} {version : MemoryVersionRow}
    (hinsert : base.insertVersion version = .ok t) (memoryUuid : String) :
    (t.setCurrent memoryUuid version.memoryVersionUuid).versions.get? version.memoryVersionUuid =
      some version := by
  obtain ⟨hfresh, rfl⟩ := insertVersion_eq_ok hinsert
  exact Table.get?_insert_self hfresh

/-- The version that a new decision names has the candidate's polarity, or it is the current one,
which the candidate reinforces. -/
lemma Consolidated.target {stamp : Stamp} {decision : MemoryConsolidationDecision}
    (h : Consolidated store U source stamp decision t)
    (hnew : store.decisions.get? candidateUuid = none) {memoryVersionUuid : String}
    (htarget : decision.targetMemoryVersionUuid = some memoryVersionUuid) :
    ∃ candidate version, source.candidate = some candidate ∧
      (∃ memoryUuid, decision.targetMemoryUuid = some memoryUuid) ∧
      t.versions.get? memoryVersionUuid = some version ∧
      (decision.operation ≠ .reinforce ∧ version.polarity = candidate.polarity ∨
        decision.operation = .reinforce ∧
          (store.decidedMemory U source).bind store.currentVersion = some version) := by
  cases h with
  | decided hold => exact absurd (hold.symm.trans hnew) (by simp)
  | noted _ _ hnone => exact absurd (htarget.symm.trans hnone) (by simp)
  | created _ hcandidate _ _ hversion _ hinsert =>
      obtain rfl := Option.some_inj.mp htarget
      exact ⟨_, _, hcandidate, ⟨_, rfl⟩, get?_of_setCurrent hinsert stamp.memoryUuid,
        .inl ⟨by simp [decisionOn], versionFor_polarity hversion⟩⟩
  | @reinforced _ _ _ _ current _ hcandidate hsession hmemory hcurrent =>
      obtain rfl := Option.some_inj.mp htarget
      obtain ⟨name, -, hrow⟩ := Option.bind_eq_some_iff.mp hcurrent
      refine ⟨_, current, hcandidate, ⟨_, rfl⟩, ?_, .inr ⟨rfl, ?_⟩⟩
      · rwa [Table.key_of_get? hrow]
      · rw [decidedMemory, hcandidate, hsession]
        simp only [hmemory, Option.bind_some, hcurrent]
  | @added _ _ _ memory _ _ _ hcandidate _ _ _ hversion hinsert =>
      obtain rfl := Option.some_inj.mp htarget
      exact ⟨_, _, hcandidate, ⟨_, rfl⟩, get?_of_setCurrent hinsert memory.memoryUuid,
        .inl ⟨by simp [decisionOn], versionFor_polarity hversion⟩⟩
  | @superseded _ _ _ memory _ _ _ _ hcandidate _ _ _ hversion hinsert =>
      obtain rfl := Option.some_inj.mp htarget
      exact ⟨_, _, hcandidate, ⟨_, rfl⟩, get?_of_setCurrent hinsert memory.memoryUuid,
        .inl ⟨by simp [decisionOn], versionFor_polarity hversion⟩⟩

/-- A decision that reinforces names a version. -/
lemma Consolidated.target_of_reinforce {stamp : Stamp} {decision : MemoryConsolidationDecision}
    (h : Consolidated store U source stamp decision t)
    (hnew : store.decisions.get? candidateUuid = none) (hop : decision.operation = .reinforce) :
    decision.targetMemoryVersionUuid ≠ none := by
  cases h with
  | decided hold => exact absurd (hold.symm.trans hnew) (by simp)
  | noted _ hnot => exact absurd hop fun hop => hnot (by simp [hop])
  | _ => simp [decisionOn]

end MemoryStore

/-! ### Links -/

/-- Each item of evidence is linked to the version. -/
lemma linkEvidence_eq_ok {memoryUuid memoryVersionUuid candidateUuid : String}
    {links links' : List MemoryEvidenceLink} {evidence : List CandidateEvidence}
    (h : linkEvidence memoryUuid memoryVersionUuid candidateUuid links evidence = .ok links') :
    links' = links ++ evidence.map (fun item =>
        ⟨memoryUuid, memoryVersionUuid, candidateUuid, item.evidenceUuid⟩) ∧
      ∀ item ∈ evidence, ∀ link ∈ links, ¬(link.memoryVersionUuid = memoryVersionUuid ∧
        link.evidenceUuid = item.evidenceUuid) := by
  unfold linkEvidence at h
  induction evidence generalizing links with
  | nil =>
      obtain rfl := Checks.pure_eq_ok.mp h
      simp
  | cons item evidence ih =>
      rw [List.foldlM_cons] at h
      obtain ⟨next, hnext, h⟩ := Checks.bind_eq_ok.mp h
      split_ifs at hnext with hlinked
      obtain rfl := Checks.pure_eq_ok.mp hnext
      obtain ⟨rfl, hfree⟩ := ih h
      refine ⟨by simp, fun other hother link hlink => ?_⟩
      rcases List.mem_cons.mp hother with rfl | hother
      · simpa using (List.any_eq_false.mp (Bool.eq_false_iff.mpr hlinked)) link hlink
      · exact hfree other hother link (List.mem_append_left _ hlink)

namespace ProjectedStore

variable {U : UnicodeData} {s t : ProjectedStore}

/-- What a decision links to a version does not contradict the polarity of the version. -/
def LinksAgree (s : ProjectedStore) (command : ProjectionCommand) (t : ProjectedStore) : Prop :=
  ∀ candidateUuid source stamp outboxUuid,
    command = .consolidate candidateUuid source stamp outboxUuid →
      ∀ candidate, source.candidate = some candidate → ∀ link ∈ t.links, link ∉ s.links →
        ∃ version, t.store.versions.get? link.memoryVersionUuid = some version ∧
          ¬polaritiesContradict version.polarity candidate.polarity

/-- A candidate of a command that returns does not cross the polarity of a text it repeats. -/
def NotCrossing (U : UnicodeData) (s : ProjectedStore) (command : ProjectionCommand) : Prop :=
  ∀ candidateUuid source stamp outboxUuid,
    command = .consolidate candidateUuid source stamp outboxUuid →
      (∃ t, s.perform U command = .ok t) →
        ∀ candidate current, ¬s.store.Crosses U source candidate current

/-- What a decision that returns links. -/
lemma consolidateCandidate_links {candidateUuid : String} {source : CandidateSource candidateUuid}
    {stamp : Stamp} {outboxUuid : String}
    (h : s.consolidateCandidate U source stamp outboxUuid = .ok t) :
    ∃ decision, s.store.consolidateCandidate U source stamp = .ok (decision, t.store) ∧
      (t.links = s.links ∧ (s.store.decisions.get? candidateUuid ≠ none ∨
          decision.targetMemoryVersionUuid = none) ∨
        s.store.decisions.get? candidateUuid = none ∧
          ∃ memoryUuid memoryVersionUuid,
            decision.targetMemoryVersionUuid = some memoryVersionUuid ∧
            linkEvidence memoryUuid memoryVersionUuid candidateUuid s.links source.evidence =
              .ok t.links) := by
  obtain ⟨⟨decision, store⟩, hstore, h⟩ := Checks.bind_eq_ok.mp h
  dsimp only at h
  split at h
  case h_1 memoryUuid memoryVersionUuid hnew _ hversion =>
    obtain ⟨links, hlinks, h⟩ := Checks.bind_eq_ok.mp h
    obtain ⟨rfl, rfl, -⟩ := enqueueVersion_eq_ok.mp h
    exact ⟨decision, hstore, .inr ⟨hnew, memoryUuid, memoryVersionUuid, hversion, hlinks⟩⟩
  case h_2 hnot =>
    obtain rfl := Checks.pure_eq_ok.mp h
    refine ⟨decision, hstore, .inl ⟨rfl, ?_⟩⟩
    by_contra! hboth
    obtain ⟨hnew, hversion⟩ := hboth
    obtain ⟨memoryVersionUuid, hversion⟩ := Option.ne_none_iff_exists'.mp hversion
    obtain ⟨_, _, -, ⟨memoryUuid, hmemory⟩, -⟩ :=
      (MemoryStore.consolidateCandidate_cases hstore).target hnew hversion
    exact hnot memoryUuid memoryVersionUuid hnew hmemory hversion

lemma linksAgree_consolidate {candidateUuid : String} {source : CandidateSource candidateUuid}
    {stamp : Stamp} {outboxUuid : String}
    (h : s.consolidateCandidate U source stamp outboxUuid = .ok t) :
    s.LinksAgree (.consolidate candidateUuid source stamp outboxUuid) t ↔
      s.NotCrossing U (.consolidate candidateUuid source stamp outboxUuid) := by
  obtain ⟨decision, hstore, hlinks⟩ := consolidateCandidate_links h
  have hcases := MemoryStore.consolidateCandidate_cases hstore
  have hop := MemoryStore.consolidateCandidate_operation hstore
  rcases hlinks with ⟨hsame, hnone⟩ | ⟨hnew, memoryUuid, memoryVersionUuid, htarget, hlinks⟩
  · -- nothing is linked
    constructor
    · rintro - _ _ _ _ hcommand - candidate current hcross
      cases hcommand
      have hreinforce := (MemoryStore.decidedOperation_eq_reinforce hcross.stored).mpr
        ⟨hcross.hasEvidence, hcross.consolidated, current, hcross.meets, hcross.repeats⟩
      refine hcases.target_of_reinforce hcross.undecided ?_ (hnone.resolve_left ?_)
      · rw [hop hcross.undecided, hreinforce]
      · exact not_not.mpr hcross.undecided
    · rintro - _ _ _ _ - candidate - link hlink hnot
      rw [hsame] at hlink
      exact absurd hlink hnot
  · obtain ⟨candidate, version, hcandidate, -, hstored, htype⟩ := hcases.target hnew htarget
    obtain ⟨happended, hfree⟩ := linkEvidence_eq_ok hlinks
    rw [hop hnew] at htype
    constructor
    · rintro hagree _ _ _ _ hcommand - candidate' current hcross
      cases hcommand
      obtain rfl := Option.some_inj.mp (hcandidate.symm.trans hcross.stored)
      have hreinforce := (MemoryStore.decidedOperation_eq_reinforce hcandidate).mpr
        ⟨hcross.hasEvidence, hcross.consolidated, current, hcross.meets, hcross.repeats⟩
      rcases htype with ⟨hother, -⟩ | ⟨-, hversion⟩
      · exact hother hreinforce
      -- the first item of evidence is linked to the current version
      obtain ⟨item, hitem⟩ := List.exists_mem_of_ne_nil _ hcross.hasEvidence
      have hlink : (⟨memoryUuid, memoryVersionUuid, candidateUuid, item.evidenceUuid⟩ :
          MemoryEvidenceLink) ∈ t.links := by
        rw [happended]
        exact List.mem_append_right _ (List.mem_map_of_mem hitem)
      obtain ⟨linked, hlinked, hagrees⟩ := hagree _ _ _ _ rfl candidate hcandidate _ hlink
        fun hold => hfree item hitem _ hold ⟨rfl, rfl⟩
      obtain rfl := Option.some_inj.mp (hstored.symm.trans hlinked)
      obtain rfl := Option.some_inj.mp (hversion.symm.trans hcross.meets)
      exact hagrees hcross.contradicts
    · rintro hfits _ _ _ _ hcommand candidate' hcandidate' link hlink hnot
      cases hcommand
      obtain rfl := Option.some_inj.mp (hcandidate.symm.trans hcandidate')
      rw [happended] at hlink
      obtain ⟨item, hitem, rfl⟩ := List.mem_map.mp ((List.mem_append.mp hlink).resolve_left hnot)
      refine ⟨version, hstored, fun hcontradicts => ?_⟩
      rcases htype with ⟨-, hpolarity⟩ | ⟨hreinforce, hversion⟩
      · rw [hpolarity] at hcontradicts
        simp at hcontradicts
      · obtain ⟨hevidence, hconsolidated, current, hcurrent, htext⟩ :=
          (MemoryStore.decidedOperation_eq_reinforce hcandidate).mp hreinforce
        obtain rfl := Option.some_inj.mp (hversion.symm.trans hcurrent)
        exact hfits _ _ _ _ rfl ⟨t, h⟩ candidate version
          ⟨hnew, hcandidate, hevidence, hconsolidated, hversion, htext, hcontradicts⟩

/-- **One command.** The evidence that it links agrees with the versions exactly when its candidate
does not cross the polarity of a text it repeats. -/
theorem linksAgree_iff {command : ProjectionCommand} (hstep : Step U s command t) :
    s.LinksAgree command t ↔ s.NotCrossing U command := by
  unfold Step after at hstep
  split at hstep
  case h_2 error hfails =>
    subst hstep
    constructor
    · rintro - candidateUuid source stamp outboxUuid - ⟨t, hok⟩
      exact absurd (hfails.symm.trans hok) (by simp)
    · exact fun _ candidateUuid source stamp outboxUuid _ candidate _ link hlink hnot =>
        absurd hlink hnot
  case h_1 result hok =>
    subst hstep
    cases command with
    | consolidate candidateUuid source stamp outboxUuid => exact linksAgree_consolidate hok
    | _ =>
        constructor
        · rintro - candidateUuid source stamp outboxUuid hcommand
          exact absurd hcommand (by simp)
        · rintro - candidateUuid source stamp outboxUuid hcommand
          exact absurd hcommand (by simp)

/-! ### Runs -/

/-- **Reinforcement and polarity.** In every run, the evidence that decisions link to versions never
contradicts their polarity exactly when no candidate of a decision that returns crosses the polarity
of a text it repeats. -/
theorem links_agree_iff (U : UnicodeData) (commands : List ProjectionCommand)
    (t : ProjectedStore) :
    Runs (fun a command b => Step U a command b ∧ a.LinksAgree command b) .empty commands t ↔
      Runs (fun a command b => Step U a command b ∧ a.NotCrossing U command) .empty commands t := by
  constructor
  · exact fun h => h.imp fun ⟨hstep, hagree⟩ => ⟨hstep, (linksAgree_iff hstep).mp hagree⟩
  · exact fun h => h.imp fun ⟨hstep, hfits⟩ => ⟨hstep, (linksAgree_iff hstep).mpr hfits⟩

/-- The user says, or denies, that they drink something. -/
def polarSource (candidateUuid text evidenceUuid : String) (polarity : SemanticPolarity) :
    CandidateSource candidateUuid where
  candidate := some { MemoryStore.drinkCandidate candidateUuid text with polarity := polarity }
  evidence := [⟨evidenceUuid, candidateUuid, "message", "unit", none, none, text.toList, 0,
    text.length⟩]
  session := some { sessionUuid := "session" }
  named := fun _ h => Option.some_inj.mp h ▸ rfl

/-- **A denial that reinforces.** What the user affirms is a memory; when they deny it in the same
words, the denial is linked to the affirmed version. -/
theorem denial_reinforces :
    ¬∀ (commands : List ProjectionCommand) (s : ProjectedStore),
      Runs (Step basicLatin) .empty commands s →
        ∀ command t, Step basicLatin s command t → s.LinksAgree command t := by
  intro hclaim
  set affirm : ProjectionCommand :=
    .consolidate "c1" (polarSource "c1" "tea" "e1" .affirmed) ⟨"m1", "v1", 1⟩ "o1"
  set deny : ProjectionCommand :=
    .consolidate "c2" (polarSource "c2" "tea" "e2" .negated) ⟨"m2", "v2", 2⟩ "o2" with hdeny
  set s := empty.after basicLatin affirm with hs
  set t := s.after basicLatin deny with ht
  have hrun : Runs (Step basicLatin) .empty [affirm] s := Runs.refl.tail rfl
  have hlink : (⟨"m1", "v1", "c2", "e2"⟩ : MemoryEvidenceLink) ∈ t.links := by decide +kernel
  have hnew : (⟨"m1", "v1", "c2", "e2"⟩ : MemoryEvidenceLink) ∉ s.links := by decide +kernel
  have hversion : (t.store.versions.get? "v1").map MemoryVersionRow.polarity = some .affirmed := by
    decide +kernel
  obtain ⟨version, hstored, hagrees⟩ :=
    hclaim _ s hrun deny t ht _ _ _ _ hdeny _ rfl _ hlink hnew
  rw [hstored, Option.map_some, Option.some_inj] at hversion
  rw [hversion] at hagrees
  exact hagrees (by decide)

end ProjectedStore

end Memorist
