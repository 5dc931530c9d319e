import Memorist.Worker.JobLease

/-!
Workers side by side on the memory-extraction jobs.

* `jobDiscipline`, `JobWorker`: workers in any order of statements, each under the claims it was
  granted (`processOnce_worker`: an iteration of the service is one);
* `JobsKept`, `JobsKept.step`: what the workers keep between them;
* `job_leases_safe`: one claim passes the fence, a superseded claim changes nothing, generations
  grow by claims, attempts stay within their bound, and finished jobs rest.
-/

namespace Memorist

/-! ### Workers in any order of statements -/

/-- The claim that an effect granted. -/
def granted (x : Performed JobEffect.Response) : Option ClaimedJob :=
  match x with
  | ⟨.claim workerId _, some job⟩ => some ⟨workerId, job⟩
  | _ => none

/-- A worker acts under the claims it was granted. -/
def jobDiscipline : Discipline JobEffect.Response (List ClaimedJob) where
  requires held e := ∀ claim ∈ e.claim?, claim ∈ held
  after held e answer := (granted ⟨e, answer⟩).toList ++ held

/-- A program of a worker: any order of statements. -/
def JobWorker {α : Type} (p : JobProg α) : Prop :=
  Prog.Keeps jobDiscipline (fun _ _ => True) [] p

/-- A step of the workers. -/
abbrev JobStep (store : Store) {α : Type} :=
  PoolStep (jobEffect store) (JobWorker (α := α))

/-- The job was enqueued with no attempts and room for one. -/
def EnqueuedFresh (performed : List (Performed JobEffect.Response)) (j : String) : Prop :=
  ∀ row : JobRow, (⟨.enqueue row, true⟩ : Performed JobEffect.Response) ∈ performed →
    row.jobUuid = j → row.attempts = 0 ∧ 1 ≤ row.maxAttempts

/-- What the workers keep: each acts under granted claims, a granted claim knows its row, and the
attempts of a job stay within their bound. -/
structure JobsKept (tables : JobTables) (held : Multiset (List ClaimedJob))
    (performed : List (Performed JobEffect.Response)) : Prop where
  granted : ∀ claims ∈ held, ∀ claim ∈ claims, claim ∈ performed.filterMap granted
  known : ∀ claim ∈ performed.filterMap Memorist.granted, ∃ row,
    tables.jobs.get? claim.job.jobUuid = some row ∧ RowKnows claim row
  within : ∀ j row, tables.jobs.get? j = some row → EnqueuedFresh performed j →
    row.WithinAttempts

section

variable {store : Store} {tables tables' : JobTables} {j : String} {row row' : JobRow}

/-- A claim is granted with the row that it leaves, one generation later. -/
lemma claimNextExtractionJob_granted {workerId leaseToken : String} {leaseSeconds : ℕ}
    {now : Timestamp} {locked : List String} {jobs jobs' : Jobs} {job : JobRow}
    (h : (some job, jobs') =
      claimNextExtractionJob store workerId leaseToken leaseSeconds now locked jobs) :
    jobs'.get? job.jobUuid = some job ∧
      RowKnows ⟨workerId, job⟩ job ∧
      ∃ row, jobs.get? job.jobUuid = some row ∧ job.leaseGeneration = row.leaseGeneration + 1 := by
  have hpending : ∀ {store} {jobs : Jobs} {locked : List String},
      (some job, jobs') = claimPending store workerId leaseToken leaseSeconds now locked jobs →
      jobs'.get? job.jobUuid = some job ∧ RowKnows ⟨workerId, job⟩ job ∧
        ∃ row, jobs.get? job.jobUuid = some row ∧
          job.leaseGeneration = row.leaseGeneration + 1 := by
    intro store jobs locked h
    rcases claimPending_cases workerId leaseToken leaseSeconds now locked jobs with
      heq | ⟨row, hrow, hstatus, htype, heq⟩
    · rw [heq] at h
      exact absurd (Prod.ext_iff.mp h).1 (by simp)
    · rw [heq] at h
      obtain ⟨hjob, rfl⟩ := Prod.ext_iff.mp h
      obtain rfl := Option.some_inj.mp hjob
      refine ⟨by simp [hrow, hstatus], ⟨htype, .inl ⟨?_, rfl⟩, fun _ => rfl, rfl⟩, row, hrow, rfl⟩
      simp [JobRow.lease, claimedRow, ClaimedJob.credential]
  cases store with
  | postgres => exact hpending h
  | sqlite =>
      obtain ⟨hjob, hknows, row, hrow, hgen⟩ := hpending h
      refine ⟨hjob, hknows, ?_⟩
      rw [recoverStale, Table.get?_updateWhere, Option.map_eq_some_iff] at hrow
      obtain ⟨row₀, hrow₀, rfl⟩ := hrow
      refine ⟨row₀, hrow₀, hgen.trans ?_⟩
      split_ifs <;> rfl

/-- A claim effect that grants a job leaves the job's row, one generation later. -/
lemma jobEffect_granted {e : JobEffect} {answer : e.Response} {claim : ClaimedJob}
    (h : jobEffect store tables e answer tables') (hgranted : granted ⟨e, answer⟩ = some claim) :
    tables'.jobs.get? claim.job.jobUuid = some claim.job ∧ RowKnows claim claim.job ∧
      ∃ row, tables.jobs.get? claim.job.jobUuid = some row ∧
        claim.job.leaseGeneration = row.leaseGeneration + 1 := by
  cases e with
  | claim workerId leaseSeconds =>
      cases answer with
      | none => exact absurd hgranted (by simp [granted])
      | some job =>
          obtain ⟨leaseToken, now, locked, heq, -⟩ := h
          obtain rfl := Option.some_inj.mp hgranted
          exact claimNextExtractionJob_granted heq
  | _ => exact absurd hgranted (by simp [granted])

lemma claimPending_get?_none {workerId leaseToken : String} {leaseSeconds : ℕ} {now : Timestamp}
    {locked : List String} {jobs : Jobs} (h : jobs.get? j = none) :
    (claimPending store workerId leaseToken leaseSeconds now locked jobs).2.get? j = none := by
  rcases claimPending_cases workerId leaseToken leaseSeconds now locked jobs with
    heq | ⟨next, -, -, -, heq⟩ <;> rw [heq]
  · exact h
  · rw [Table.get?_updateWhere, h, Option.map_none]

/-- Rows are added by enqueuing them. -/
lemma jobEffect_new {e : JobEffect} {answer : e.Response}
    (h : jobEffect store tables e answer tables') (hnone : tables.jobs.get? j = none)
    (hrow : tables'.jobs.get? j = some row) :
    row.jobUuid = j ∧
      (⟨e, answer⟩ : Performed JobEffect.Response) = ⟨.enqueue row, true⟩ := by
  have hsame : tables'.jobs.get? j = none →
      row.jobUuid = j ∧ (⟨e, answer⟩ : Performed JobEffect.Response) = ⟨.enqueue row, true⟩ :=
    fun hnone' => absurd (hrow.symm.trans hnone') (by simp)
  cases e with
  | enqueue new =>
      obtain ⟨rfl, rfl⟩ := Prod.ext_iff.mp h
      rcases Table.get?_insert (t := tables.jobs) new j with heq | ⟨-, hkey, heq⟩
      · exact hsame (heq.trans hnone)
      · obtain rfl := Option.some_inj.mp (heq.symm.trans hrow)
        refine ⟨hkey, ?_⟩
        rw [show (enqueueJob new tables).1 = true by rw [enqueueJob, hkey, hnone]; rfl]
  | utcNow => exact hsame (by rw [show tables' = tables from h, hnone])
  | recoverStale now =>
      obtain rfl := h
      exact hsame (by simp [recoverStale, hnone])
  | claim workerId leaseSeconds =>
      obtain ⟨leaseToken, now, locked, heq, -⟩ := h
      refine hsame ?_
      rw [show tables'.jobs = _ from (Prod.ext_iff.mp heq).2]
      cases store with
      | postgres => exact claimPending_get?_none hnone
      | sqlite => exact claimPending_get?_none (by simp [recoverStale, hnone])
  | recordAttempt claim =>
      obtain ⟨now, rfl⟩ := h
      exact hsame hnone
  | executionSnapshot messageUuid => exact hsame (by rw [show tables' = tables from h, hnone])
  | selectLease claim now lock => exact hsame (by rw [h.2, hnone])
  | renewLease claim leaseSeconds now =>
      refine hsame ?_
      rw [show tables'.jobs = _ from (Prod.ext_iff.mp h.1).2]
      simp [renewLease, hnone]
  | recordSuccess claim attemptUuid messageUuid =>
      obtain ⟨finished, heq⟩ := h
      obtain rfl := (Prod.ext_iff.mp heq).2
      refine hsame ?_
      rw [recordSuccess]
      split_ifs <;> simp [hnone]
  | recordFailure claim attemptUuid error =>
      obtain ⟨finished, storeNow, heq⟩ := h
      obtain rfl := (Prod.ext_iff.mp heq).2
      refine hsame ?_
      rw [recordFailure]
      split_ifs <;> simp [hnone]

lemma RowKnows.evolves {claim : ClaimedJob} (h : RowKnows claim row)
    (hevolves : JobRowEvolves store row row') : RowKnows claim row' := by
  induction hevolves with
  | refl => exact h
  | tail _ hstep ih => exact ih.step hstep.choose_spec

lemma JobRowSteps.jobUuid {claim? : Option ClaimedJob} (hsteps : JobRowSteps store claim? row row') :
    row'.jobUuid = row.jobUuid := by
  induction hsteps with
  | refl => rfl
  | tail _ hstep ih =>
      rw [← ih]
      cases hstep <;> rfl

/-- Statements keep the attempts within their bound, if their claim knows the row. -/
lemma JobRow.WithinAttempts.steps {claim? : Option ClaimedJob} (h : row.WithinAttempts)
    (hknows : ∀ claim ∈ claim?, row.jobUuid = claim.job.jobUuid → RowKnows claim row)
    (hsteps : JobRowSteps store claim? row row') : row'.WithinAttempts := by
  induction hsteps with
  | refl => exact h
  | tail hsteps hstep ih =>
      refine ih.step (fun claim hclaim hjob => ?_) hstep
      exact (hknows claim hclaim ((JobRowSteps.jobUuid hsteps).symm.trans hjob)).evolves
        (JobRowSteps.evolves hsteps)

variable {g : List ClaimedJob} {held : Multiset (List ClaimedJob)}
  {performed : List (Performed JobEffect.Response)} {e : JobEffect} {answer : e.Response}

/-- Every effect of a worker keeps what the workers keep. -/
lemma JobsKept.step (h : JobsKept tables (g ::ₘ held) performed)
    (hallowed : jobDiscipline.requires g e) (heffect : jobEffect store tables e answer tables') :
    JobsKept tables' (jobDiscipline.after g e answer ::ₘ held) (performed ++ [⟨e, answer⟩]) := by
  have hclaims : ∀ (x : Performed JobEffect.Response) claim,
      claim ∈ (performed ++ [x]).filterMap Memorist.granted ↔
        claim ∈ performed.filterMap Memorist.granted ∨ Memorist.granted x = some claim := by
    intro x claim
    rw [List.filterMap_append, List.mem_append]
    refine or_congr_right ?_
    cases hx : Memorist.granted x <;> simp [hx, eq_comm]
  refine ⟨fun claims hmem claim hclaim => ?_, fun claim hclaim => ?_, fun j row' hrow' hfresh => ?_⟩
  · rw [hclaims]
    rcases Multiset.mem_cons.mp hmem with rfl | hmem
    · rcases List.mem_append.mp hclaim with hnew | hold
      · exact .inr (Option.mem_toList.mp hnew)
      · exact .inl (h.granted g (Multiset.mem_cons_self g held) claim hold)
    · exact .inl (h.granted claims (Multiset.mem_cons_of_mem hmem) claim hclaim)
  · rcases (hclaims _ claim).mp hclaim with hold | hnew
    · obtain ⟨row, hrow, hknows⟩ := h.known claim hold
      obtain ⟨row', hrow', hsteps⟩ := jobEffect_rowSteps heffect hrow
      exact ⟨row', hrow', hknows.evolves (JobRowSteps.evolves hsteps)⟩
    · obtain ⟨hjob, hknows, -⟩ := jobEffect_granted heffect hnew
      exact ⟨claim.job, hjob, hknows⟩
  · rcases hrow : tables.jobs.get? j with _ | row
    · -- a row that was not there is enqueued now
      obtain ⟨hjob, hx⟩ := jobEffect_new heffect hrow hrow'
      obtain ⟨hzero, hone⟩ := hfresh row' (List.mem_append_right _ (hx ▸ List.mem_singleton_self _)) hjob
      exact ⟨hone, by omega, fun _ => by omega⟩
    · obtain ⟨row'', hrow'', hsteps⟩ := jobEffect_rowSteps heffect hrow
      obtain rfl := Option.some_inj.mp (hrow''.symm.trans hrow')
      refine (h.within j row hrow fun row₀ hmem => hfresh row₀ (List.mem_append_left _ hmem)).steps
        (fun claim hclaim hjob => ?_) hsteps
      obtain ⟨row₁, hrow₁, hknows⟩ := h.known claim
        (h.granted g (Multiset.mem_cons_self g held) claim (hallowed claim hclaim))
      rw [← hjob, Table.key_of_get? hrow, hrow] at hrow₁
      exact Option.some_inj.mp hrow₁ ▸ hknows

/-- A recovery or a claim that changes the row of a job passes every claim on it. -/
lemma RowKnows.superseded {claim : ClaimedJob} (h : RowKnows claim row)
    (hsteps : JobRowSteps store none row row') (hne : row' ≠ row) :
    row'.lease.Past claim.credential := by
  cases hsteps with
  | refl => exact absurd rfl hne
  | @tail row₁ _ hsteps hstep =>
      have hknows := h.evolves (JobRowSteps.evolves hsteps)
      have hlease := hknows.lease.elim hstep.lease.admits_or_past fun hpast =>
        .inr (hstep.lease.past hpast)
      refine hlease.resolve_left fun hadmits => ?_
      -- neither statement leaves the lease with its holder
      cases hstep with
      | recovered now hstale =>
          have hfree : (recoveredRow store now row₁).status ≠ .running := by
            simp only [recoveredRow]
            split_ifs <;> simp
          rw [lease_of_not_running hfree] at hadmits
          exact absurd hadmits.1 (by simp)
      | claimed workerId leaseToken leaseSeconds now hpending =>
          have hle := hknows.generation_le
          have hgen : row₁.leaseGeneration + 1 = claim.job.leaseGeneration := hadmits.2
          omega

end

/-! ### Workers of the service -/

section

variable {store : Store} {workerId : String} {leaseSeconds : ℕ} {claim : ClaimedJob}
  {held : List ClaimedJob}

lemma requires_of_claim {e : JobEffect} (hclaim : claim ∈ held) (he : e.claim? = some claim) :
    jobDiscipline.requires held e := by
  rintro claim' hclaim'
  rw [he] at hclaim'
  exact Option.some_inj.mp hclaim' ▸ hclaim

lemma requires_of_none {e : JobEffect} (he : e.claim? = none) : jobDiscipline.requires held e := by
  rintro claim hclaim
  rw [he] at hclaim
  exact absurd hclaim (by simp)

/-- A fence acts under its claim, and keeps what the worker holds. -/
lemma jobLeaseFence_actsUnder {fence : JobLeaseFence} {lock beforeProvider : Bool}
    (hclaim : fence.claim ∈ held) :
    Prog.Keeps jobDiscipline (fun held' _ => held' = held) held (fence.call lock beforeProvider) := by
  refine ⟨requires_of_none rfl, fun now => ⟨requires_of_claim hclaim rfl, fun owned => ?_⟩⟩
  cases owned with
  | false => exact rfl
  | true =>
      refine ⟨requires_of_none rfl, fun current => ?_⟩
      cases current with
      | error error => exact rfl
      | ok current =>
          dsimp only
          split_ifs
          · exact rfl
          · refine ⟨requires_of_claim hclaim rfl, fun renewed => ?_⟩
            cases renewed <;> exact rfl
          · exact rfl

/-- A pipeline acts under the claim of its fence. -/
lemma pipelineRun_actsUnder {fence : JobLeaseFence} {result : Except JobError Unit}
    (hclaim : fence.claim ∈ held) (calls : List (Bool × Bool)) :
    Prog.Keeps jobDiscipline (fun held' _ => held' = held) held
      (PipelineRun.run fence result calls) := by
  induction calls with
  | nil => exact rfl
  | cons call calls ih =>
      refine Prog.Keeps.bind ((jobLeaseFence_actsUnder hclaim).imp ?_)
      rintro _ (_ | _) rfl
      · exact rfl
      · exact ih

/-- An iteration of the service is the program of a worker. -/
theorem processOnce_worker (payload : JobRow → Except JobError String) (pipeline : PipelineRun) :
    JobWorker (processOnce store workerId leaseSeconds payload pipeline) := by
  have hnext : Prog.Keeps jobDiscipline (fun held job => ∀ row, job = some row →
      ⟨workerId, row⟩ ∈ held) [] (claimNext store workerId leaseSeconds) := by
    have hclaim : Prog.Keeps jobDiscipline (fun held job => ∀ row, job = some row →
        ⟨workerId, row⟩ ∈ held) [] (.call (.claim workerId leaseSeconds) .done) := by
      refine ⟨requires_of_none rfl, ?_⟩
      rintro (_ | job) row hrow
      · exact absurd hrow (by simp)
      · obtain rfl := Option.some_inj.mp hrow
        exact List.mem_cons_self
    cases store with
    | sqlite => exact hclaim
    | postgres =>
        exact ⟨requires_of_none rfl, fun _ => ⟨requires_of_none rfl, fun _ => hclaim⟩⟩
  refine Prog.Keeps.bind (hnext.imp ?_)
  rintro held (_ | job) hjob
  · exact trivial
  have hmem : (⟨workerId, job⟩ : ClaimedJob) ∈ held := hjob job rfl
  have hattempt : Prog.Keeps jobDiscipline (fun held' _ => held' = held) held
      (recordAttempt store ⟨workerId, job⟩) := by
    cases store with
    | sqlite => exact rfl
    | postgres => exact ⟨requires_of_claim hmem rfl, fun _ => rfl⟩
  refine Prog.Keeps.bind (hattempt.imp ?_)
  rintro held attemptUuid rfl
  have hprocess : Prog.Keeps jobDiscipline (fun held' _ => held' = held) held
      (processClaim leaseSeconds payload pipeline ⟨workerId, job⟩ attemptUuid) := by
    rw [processClaim]
    split
    · exact rfl
    · refine ⟨requires_of_none rfl, fun expected => ?_⟩
      cases expected with
      | error error => exact rfl
      | ok expected =>
          refine Prog.Keeps.bind ((pipelineRun_actsUnder hmem _).imp ?_)
          rintro _ (_ | _) rfl
          · exact rfl
          · refine ⟨requires_of_claim hmem rfl, fun updated => ?_⟩
            cases updated <;> exact rfl
  refine Prog.Keeps.bind (hprocess.imp ?_)
  rintro _ (error | _) rfl
  · exact ⟨requires_of_claim hmem rfl, fun _ => trivial⟩
  · exact trivial

end

/-! ### Safety -/

/-- A recovery or a claim. -/
def JobEffect.Supersedes : JobEffect → Prop
  | recoverStale _ => True
  | claim _ _ => True
  | _ => False

/-- A fence passes only if it finds its lease owned. -/
lemma jobLeaseFence_passes {fence : JobLeaseFence} {lock beforeProvider : Bool}
    {es : List (Performed JobEffect.Response)}
    (ht : Prog.Trace (fence.call lock beforeProvider) es (.done (.ok ()))) :
    ∃ now, (⟨.selectLease fence.claim now lock, true⟩ : Performed JobEffect.Response) ∈ es := by
  cases ht with
  | call now ht =>
      cases ht with
      | call owned ht =>
          cases owned with
          | false => cases ht
          | true => exact ⟨now, by simp⟩

section

variable {store : Store} {α : Type} {labels : List (Option (Performed JobEffect.Response))}
  {pool : Pool JobTables JobEffect JobEffect.Response α}

lemma jobsKept_of_runs (hruns : Runs (JobStep store) ⟨{}, 0⟩ labels pool) :
    ∃ held, JobsKept pool.shared held labels.reduceOption := by
  have hstart : ∀ {tables held performed}, JobsKept tables held performed →
      JobsKept tables ([] ::ₘ held) performed := by
    intro tables held performed h
    refine ⟨fun claims hmem claim hclaim => ?_, h.known, h.within⟩
    rcases Multiset.mem_cons.mp hmem with rfl | hmem
    · exact absurd hclaim (by simp)
    · exact h.granted claims hmem claim hclaim
  obtain ⟨held, -, hkept⟩ := PoolStep.invariant jobDiscipline [] (fun _ hp => hp) (I := JobsKept)
    hstart
    (fun h => ⟨fun claims hmem => h.granted claims (Multiset.mem_cons_of_mem hmem), h.known,
      h.within⟩)
    JobsKept.step ⟨by simp, by simp, by simp⟩ hruns
  exact ⟨held, hkept⟩

lemma jobsEvolve_of_runs {pool' : Pool JobTables JobEffect JobEffect.Response α}
    (hruns : Runs (JobStep store) pool labels pool') :
    JobsEvolve store pool.shared pool'.shared :=
  PoolStep.shared_rel (r := JobsEvolve store) .refl .trans jobEffect_evolve hruns

lemma JobRowEvolves.generation_le {row row' : JobRow} (h : JobRowEvolves store row row') :
    row.leaseGeneration ≤ row'.leaseGeneration := by
  induction h with
  | refl => exact le_rfl
  | tail _ hstep ih => exact ih.trans hstep.choose_spec.lease.generation_le

lemma JobRowEvolves.past {row row' : JobRow} {claim : ClaimedJob}
    (h : JobRowEvolves store row row') (hpast : row.lease.Past claim.credential) :
    row'.lease.Past claim.credential := by
  induction h with
  | refl => exact hpast
  | tail _ hstep ih => exact hstep.choose_spec.lease.past ih

lemma JobRowEvolves.finished {row row' : JobRow} (h : JobRowEvolves store row row')
    (hfinished : row.status = .succeeded ∨ row.status = .dead) : row' = row := by
  induction h with
  | refl => rfl
  | tail _ hstep ih =>
      subst ih
      rcases hstep.choose_spec.unfinished with hopen | hopen <;> rw [hopen] at hfinished <;>
        exact absurd hfinished (by simp)

/-- A claim that was superseded changes its row no more. -/
lemma superseded_rests (hruns : Runs (JobStep store) ⟨{}, 0⟩ labels pool) {claim : ClaimedJob}
    (hclaim : claim ∈ labels.reduceOption.filterMap granted)
    {x y : Performed JobEffect.Response} {labels' : List (Option (Performed JobEffect.Response))}
    {pool₁ pool₂ pool₃ : Pool JobTables JobEffect JobEffect.Response α}
    (hstep : JobStep store pool (some x) pool₁) (hx : x.1.Supersedes)
    (hchanged : pool₁.shared.jobs.get? claim.job.jobUuid ≠
      pool.shared.jobs.get? claim.job.jobUuid)
    (hruns' : Runs (JobStep store) pool₁ labels' pool₂)
    (hstep' : JobStep store pool₂ (some y) pool₃) (hy : y.1.claim? = some claim) :
    pool₃.shared.jobs.get? claim.job.jobUuid = pool₂.shared.jobs.get? claim.job.jobUuid := by
  obtain ⟨held, hkept⟩ := jobsKept_of_runs hruns
  obtain ⟨row, hrow, hknows⟩ := hkept.known claim hclaim
  obtain ⟨row₁, hrow₁, hsteps⟩ := jobEffect_rowSteps hstep.effect_of_some hrow
  have hnone : x.1.claim? = none := by
    cases hx' : x.1 <;> rw [hx'] at hx <;> first | rfl | exact absurd hx (by simp [JobEffect.Supersedes])
  rw [hnone] at hsteps
  have hpast₁ := hknows.superseded hsteps fun heq => hchanged (by rw [hrow₁, hrow, heq])
  obtain ⟨row₂, hrow₂, hevolves⟩ := jobsEvolve_of_runs hruns' _ row₁ hrow₁
  have hpast₂ := JobRowEvolves.past hevolves hpast₁
  have hknows₂ := (hknows.evolves (JobRowSteps.evolves hsteps)).evolves hevolves
  obtain ⟨row₃, hrow₃, hsteps₃⟩ := jobEffect_rowSteps hstep'.effect_of_some hrow₂
  rw [hy] at hsteps₃
  rcases Relation.ReflTransGen.cases_head hsteps₃ with rfl | ⟨_, hfirst, -⟩
  · rw [hrow₃, hrow₂]
  · exact absurd hfirst (hknows₂.past_step hpast₂)

/-- A finished job is not claimed. -/
lemma finished_rests {pool' : Pool JobTables JobEffect JobEffect.Response α}
    (hruns : Runs (JobStep store) pool labels pool') {j : String} {row : JobRow}
    (hrow : pool.shared.jobs.get? j = some row)
    (hfinished : row.status = .succeeded ∨ row.status = .dead) :
    pool'.shared.jobs.get? j = some row ∧
      ∀ claim ∈ labels.reduceOption.filterMap granted, claim.job.jobUuid ≠ j := by
  induction hruns with
  | refl => exact ⟨hrow, by simp⟩
  | @tail pool₁ pool₂ labels label _ hstep ih =>
      obtain ⟨hrow₁, hnone⟩ := ih
      obtain ⟨row₂, hrow₂, hevolves⟩ := jobsEvolve_of_runs (Runs.refl.tail hstep) j row hrow₁
      obtain rfl := JobRowEvolves.finished hevolves hfinished
      refine ⟨hrow₂, fun claim hclaim => ?_⟩
      rw [List.reduceOption_append, List.filterMap_append, List.mem_append] at hclaim
      rcases hclaim with hold | hnew
      · exact hnone claim hold
      · rintro rfl
        cases label with
        | none => simp at hnew
        | some x =>
            have hgranted : granted x = some claim := by
              rw [List.reduceOption_singleton, Option.toList_some, List.mem_filterMap] at hnew
              obtain ⟨y, hy, hgranted⟩ := hnew
              rwa [List.mem_singleton.mp hy] at hgranted
            obtain ⟨hjob, -, row', hrow', hgen⟩ := jobEffect_granted hstep.effect_of_some hgranted
            rw [hrow₁, Option.some_inj] at hrow'
            rw [hrow₂, Option.some_inj] at hjob
            rw [← hjob, ← hrow'] at hgen
            omega

/-- However workers interleave their statements on the jobs: one claim passes the fence of a job; a
claim that was recovered or reclaimed changes nothing; generations do not decrease and grow by one
at each claim; attempts stay within their bound; and a job that succeeded or is dead is not claimed
again. -/
theorem job_leases_safe (hruns : Runs (JobStep store) ⟨{}, 0⟩ labels pool) :
    (∀ (fence : JobLeaseFence) lock beforeProvider es,
        Prog.Trace (fence.call lock beforeProvider) es (.done (.ok ())) →
          ∃ now, (⟨.selectLease fence.claim now lock, true⟩ : Performed JobEffect.Response) ∈ es) ∧
      (∀ (claim claim' : ClaimedJob) now now', claim.job.jobUuid = claim'.job.jobUuid →
        selectLease claim now pool.shared.jobs → selectLease claim' now' pool.shared.jobs →
          claim.credential = claim'.credential) ∧
      (∀ claim ∈ labels.reduceOption.filterMap granted, ∀ x pool₁,
        JobStep store pool (some x) pool₁ → x.1.Supersedes →
          pool₁.shared.jobs.get? claim.job.jobUuid ≠ pool.shared.jobs.get? claim.job.jobUuid →
            ∀ labels' pool₂ y pool₃, Runs (JobStep store) pool₁ labels' pool₂ →
              JobStep store pool₂ (some y) pool₃ → y.1.claim? = some claim →
                pool₃.shared.jobs.get? claim.job.jobUuid =
                  pool₂.shared.jobs.get? claim.job.jobUuid) ∧
      (∀ labels' pool', Runs (JobStep store) pool labels' pool' → ∀ j row,
        pool.shared.jobs.get? j = some row → ∃ row', pool'.shared.jobs.get? j = some row' ∧
          row.leaseGeneration ≤ row'.leaseGeneration) ∧
      (∀ x pool', JobStep store pool (some x) pool' → ∀ claim, granted x = some claim →
        ∃ row, pool.shared.jobs.get? claim.job.jobUuid = some row ∧
          pool'.shared.jobs.get? claim.job.jobUuid = some claim.job ∧
            claim.job.leaseGeneration = row.leaseGeneration + 1) ∧
      (∀ j row, pool.shared.jobs.get? j = some row → EnqueuedFresh labels.reduceOption j →
        row.attempts ≤ row.maxAttempts) ∧
      ∀ j row, pool.shared.jobs.get? j = some row →
        row.status = .succeeded ∨ row.status = .dead →
          ∀ labels' pool', Runs (JobStep store) pool labels' pool' →
            ∀ claim ∈ labels'.reduceOption.filterMap granted, claim.job.jobUuid ≠ j := by
  obtain ⟨held, hkept⟩ := jobsKept_of_runs hruns
  refine ⟨fun _ _ _ _ ht => jobLeaseFence_passes ht, ?_, ?_, ?_, ?_, ?_, ?_⟩
  · intro claim claim' now now' hjob hselect hselect'
    obtain ⟨row, hmem, hrow⟩ := List.any_eq_true.mp hselect
    obtain ⟨row', hmem', hrow'⟩ := List.any_eq_true.mp hselect'
    obtain ⟨hjob₁, hadmits⟩ := ownsLease_admits (Bool.and_eq_true_iff.mp hrow).1
    obtain ⟨hjob₂, hadmits'⟩ := ownsLease_admits (Bool.and_eq_true_iff.mp hrow').1
    have hsame := Table.get?_of_mem hmem
    rw [hjob₁, hjob, ← hjob₂, Table.get?_of_mem hmem', Option.some_inj] at hsame
    exact hadmits.unique (hsame ▸ hadmits')
  · intro claim hclaim x pool₁ hstep hx hchanged labels' pool₂ y pool₃ hruns' hstep' hy
    exact superseded_rests hruns hclaim hstep hx hchanged hruns' hstep' hy
  · intro labels' pool' hruns' j row hrow
    obtain ⟨row', hrow', hevolves⟩ := jobsEvolve_of_runs hruns' j row hrow
    exact ⟨row', hrow', JobRowEvolves.generation_le hevolves⟩
  · intro x pool' hstep claim hgranted
    obtain ⟨hjob, -, row, hrow, hgen⟩ := jobEffect_granted hstep.effect_of_some hgranted
    exact ⟨row, hrow, hjob, hgen⟩
  · intro j row hrow hfresh
    exact (hkept.within j row hrow hfresh).le
  · intro j row hrow hfinished labels' pool' hruns' claim hclaim
    exact (finished_rests hruns' hrow hfinished).2 claim hclaim

end

/-- A job as it is enqueued. -/
def sampleJob : JobRow where
  jobUuid := "job"
  jobType := .memoryExtraction
  priority := 60
  payloadIjson := "\x7b\"message_uuid\":\"message\"\x7d".toList
  maxAttempts := 3
  createdAt := 0

/-- The table of the job. -/
def sampleJobs : JobTables := { jobs := Table.empty.insert sampleJob }

/-- The claimed job. -/
def sampleClaim : ClaimedJob where
  workerId := "worker"
  job := claimedRow .sqlite "worker" "token" 60 0 sampleJob

lemma sampleJobs_claim :
    jobEffect .sqlite sampleJobs (.claim "worker" 60) (some sampleClaim.job)
      { sampleJobs with jobs :=
        (claimNextExtractionJob .sqlite "worker" "token" 60 0 [] sampleJobs.jobs).2 } := by
  refine ⟨"token", 0, [], Prod.ext ?_ rfl, rfl⟩
  have hrows : (recoverStale .sqlite 0 sampleJobs.jobs).rows = [sampleJob] := rfl
  have hnext : nextClaimable .sqlite 0 [] (recoverStale .sqlite 0 sampleJobs.jobs) =
      some sampleJob := by
    rw [nextClaimable, hrows]
    simp [isClaimable, sampleJob]
  rw [claimNextExtractionJob, claimPending, hnext]
  rfl

/-- A job is enqueued and claimed, its attempts counted and its generation raised. -/
theorem job_leases_safe_claimed : ∃ labels,
    ∃ pool : Pool JobTables JobEffect JobEffect.Response Bool,
      Runs (JobStep .sqlite) ⟨{}, 0⟩ labels pool ∧
        pool.shared.jobs.get? "job" = some sampleClaim.job ∧
        sampleClaim ∈ labels.reduceOption.filterMap granted ∧
        sampleClaim.job.leaseGeneration = 1 ∧ sampleClaim.job.attempts ≤ 3 := by
  have hworker : JobWorker (α := Bool) (.call (.enqueue sampleJob) fun _ => .done true) :=
    ⟨requires_of_none rfl, fun _ => trivial⟩
  have henqueue : jobEffect .sqlite {} (.enqueue sampleJob) true sampleJobs := rfl
  have hprocess : JobWorker
      (processOnce .sqlite "worker" 60 (fun _ => .ok "message") ⟨[], .ok ()⟩) :=
    processOnce_worker _ _
  have hruns : Runs (JobStep .sqlite) (⟨{}, 0⟩ : Pool JobTables JobEffect JobEffect.Response Bool)
      _ _ :=
    (((Runs.refl.tail (PoolStep.start hworker)).tail
      (PoolStep.act henqueue)).tail
      (PoolStep.start hprocess)).tail
      (PoolStep.act sampleJobs_claim)
  have hgranted : granted ⟨.claim "worker" 60, some sampleClaim.job⟩ = some sampleClaim := rfl
  have hjob := (jobEffect_granted sampleJobs_claim hgranted).1
  refine ⟨_, _, hruns, hjob, ?_, rfl, ?_⟩
  · simp [List.reduceOption, granted, sampleClaim]
  · refine (job_leases_safe hruns).2.2.2.2.2.1 "job" _ hjob fun row hmem _ => ?_
    rcases List.mem_cons.mp hmem with heq | hmem
    · obtain rfl : row = sampleJob := by injection heq with he; injection he
      exact ⟨rfl, by decide⟩
    · obtain heq := List.mem_singleton.mp hmem
      injection heq with he
      exact absurd he (by simp)

end Memorist
