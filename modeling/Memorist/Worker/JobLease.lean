import Memorist.Library.Lease
import Memorist.Library.Prog
import Memorist.Worker.Jobs

/-!
The leases of the memory-extraction jobs (`memory_worker/service.py`).

* `JobLeaseFence.call`, `processOnce`: the fence and an iteration of a worker, statement by
  statement;
* `JobRowStep`, `jobEffect_rowSteps`: all that a statement does to the row of a job;
* `JobRow.lease`, `JobRowStep.lease`: a job is a fenced lease;
* `RowKnows`, `JobRow.WithinAttempts`: what a claim knows of its row, and the bound on attempts,
  with what a statement keeps of them.
-/

namespace Memorist

/-! ### Workers -/

/-- What a worker asks of the store and its pipeline. -/
inductive JobEffect where
  | enqueue (row : JobRow)
  | utcNow
  | recoverStale (now : Timestamp)
  | claim (workerId : String) (leaseSeconds : ℕ)
  | recordAttempt (claim : ClaimedJob)
  | executionSnapshot (messageUuid : String)
  | selectLease (claim : ClaimedJob) (now : Timestamp) (lock : Bool)
  | renewLease (claim : ClaimedJob) (leaseSeconds : ℕ) (now : Timestamp)
  | recordSuccess (claim : ClaimedJob) (attemptUuid messageUuid : String)
  | recordFailure (claim : ClaimedJob) (attemptUuid : String) (error : JobError)

/-- What a run must find unchanged: the identities of its source and its profile. -/
structure ExecutionSnapshot where
  inputContentHash : Option String
  processingIdentityHash : Option String
  profileFingerprint : Option String
  contractHash : Option String
  deriving DecidableEq, Repr

/-- What an effect answers. -/
def JobEffect.Response : JobEffect → Type
  | enqueue _ => Bool
  | utcNow => Timestamp
  | recoverStale _ => Unit
  | claim _ _ => Option JobRow
  | recordAttempt _ => String
  | executionSnapshot _ => Except JobError ExecutionSnapshot
  | selectLease _ _ _ => Bool
  | renewLease _ _ _ => Bool
  | recordSuccess _ _ _ => Bool
  | recordFailure _ _ _ => Bool

/-- A program of effects on the jobs. -/
abbrev JobProg (α : Type) : Type := Prog JobEffect JobEffect.Response α

/-- The rejection of a fence. -/
def leaseFenceRejected (message : String) : JobError := ⟨"LeaseFenceRejected", some message, false⟩

/-- The fence of a claim: its lease, and its source and profile as they were. -/
structure JobLeaseFence where
  claim : ClaimedJob
  messageUuid : String
  leaseSeconds : ℕ
  expectedSnapshot : ExecutionSnapshot

/-- Prove the lease and the snapshot current, and renew the lease before a provider call. -/
def JobLeaseFence.call (fence : JobLeaseFence) (lock beforeProvider : Bool) :
    JobProg (Except JobError Unit) :=
  .call .utcNow fun now =>
  .call (.selectLease fence.claim now lock) fun
    | false => .done (.error (leaseFenceRejected "memory processing lease is no longer owned"))
    | true =>
        .call (.executionSnapshot fence.messageUuid) fun
          | .error _ =>
              .done (.error (leaseFenceRejected "memory processing source no longer exists"))
          | .ok current =>
              if current ≠ fence.expectedSnapshot then
                .done (.error (leaseFenceRejected
                  "memory processing input or effective profile changed during execution"))
              else if beforeProvider then
                .call (.renewLease fence.claim fence.leaseSeconds now) fun
                  | false => .done (.error
                      (leaseFenceRejected "memory processing lease renewal was rejected"))
                  | true => .done (.ok ())
              else .done (.ok ())

/-- How a pipeline uses its fence, and how it ends. -/
structure PipelineRun where
  /-- The calls of the fence: with a lock, before a provider call. -/
  fences : List (Bool × Bool)
  result : Except JobError Unit

/-- Run a pipeline under a fence; a rejection ends it. -/
def PipelineRun.run (fence : JobLeaseFence) (result : Except JobError Unit) :
    List (Bool × Bool) → JobProg (Except JobError Unit)
  | [] => .done result
  | (lock, beforeProvider) :: calls =>
      (fence.call lock beforeProvider).bind fun
        | .error error => .done (.error error)
        | .ok () => PipelineRun.run fence result calls

section

variable (store : Store) (workerId : String) (leaseSeconds : ℕ)

/-- Claim the next job; PostgreSQL recovers the stale jobs first. -/
def claimNext : JobProg (Option JobRow) :=
  match store with
  | .sqlite => .call (.claim workerId leaseSeconds) .done
  | .postgres =>
      .call .utcNow fun now => .call (.recoverStale now) fun () =>
        .call (.claim workerId leaseSeconds) .done

/-- Record the start of an attempt, in PostgreSQL. -/
def recordAttempt (claim : ClaimedJob) : JobProg String :=
  match store with
  | .sqlite => .done ""
  | .postgres => .call (.recordAttempt claim) .done

/-- Process a claimed job up to its success. -/
def processClaim (payload : JobRow → Except JobError String) (pipeline : PipelineRun)
    (claim : ClaimedJob) (attemptUuid : String) : JobProg (Except JobError Unit) :=
  match payload claim.job with
  | .error error => .done (.error error)
  | .ok messageUuid =>
      .call (.executionSnapshot messageUuid) fun
        | .error error => .done (.error error)
        | .ok expected =>
            let fence : JobLeaseFence := ⟨claim, messageUuid, leaseSeconds, expected⟩
            (PipelineRun.run fence pipeline.result ((false, true) :: pipeline.fences)).bind fun
              | .error error => .done (.error error)
              | .ok () =>
                  .call (.recordSuccess claim attemptUuid messageUuid) fun
                    | false =>
                        .done (.error (leaseFenceRejected "memory job success write was fenced"))
                    | true => .done (.ok ())

/-- An iteration of a worker: claim a job, process it, and record its success or its failure. -/
def processOnce (payload : JobRow → Except JobError String) (pipeline : PipelineRun) :
    JobProg Bool :=
  (claimNext store workerId leaseSeconds).bind fun
    | none => .done false
    | some job =>
        (recordAttempt store ⟨workerId, job⟩).bind fun attemptUuid =>
          (processClaim leaseSeconds payload pipeline ⟨workerId, job⟩ attemptUuid).bind fun
            | .ok () => .done true
            | .error error =>
                .call (.recordFailure ⟨workerId, job⟩ attemptUuid error) fun _ => .done true

end

/-- What the effects do to the jobs. The clocks, the snapshots and the names of attempts are
arbitrary; PostgreSQL passes over locked rows in a claim. -/
def jobEffect (store : Store) (tables : JobTables) :
    (e : JobEffect) → e.Response → JobTables → Prop
  | .enqueue row, answer, tables' => (answer, tables') = enqueueJob row tables
  | .recoverStale now, _, tables' =>
      tables' = { tables with jobs := recoverStale store now tables.jobs }
  | .claim workerId leaseSeconds, answer, tables' => ∃ leaseToken now locked,
      (answer, tables'.jobs) =
          claimNextExtractionJob store workerId leaseToken leaseSeconds now locked tables.jobs ∧
        tables'.jobAttempts = tables.jobAttempts
  | .recordAttempt claim, answer, tables' => ∃ now,
      tables' = { tables with jobAttempts := tables.jobAttempts ++
        [⟨answer, claim.job.jobUuid, claim.workerId, .running, now, none, none⟩] }
  | .selectLease claim now _, answer, tables' =>
      answer = selectLease claim now tables.jobs ∧ tables' = tables
  | .renewLease claim leaseSeconds now, answer, tables' =>
      (answer, tables'.jobs) = renewLease claim leaseSeconds now tables.jobs ∧
        tables'.jobAttempts = tables.jobAttempts
  | .recordSuccess claim attemptUuid messageUuid, answer, tables' => ∃ finished,
      (answer, tables') = recordSuccess store claim attemptUuid messageUuid finished tables
  | .recordFailure claim attemptUuid error, answer, tables' => ∃ finished storeNow,
      (answer, tables') = recordFailure store claim attemptUuid error finished storeNow tables
  | _, _, tables' => tables' = tables

/-! ### What a statement does to a row -/

/-- The claim that an effect is made under. -/
def JobEffect.claim? : JobEffect → Option ClaimedJob
  | selectLease held _ _ => some held
  | renewLease held _ _ => some held
  | recordAttempt held => some held
  | recordSuccess held _ _ => some held
  | recordFailure held _ _ => some held
  | _ => none

/-- All that a statement does to a row, without a claim or under one. -/
inductive JobRowStep (store : Store) : Option ClaimedJob → JobRow → JobRow → Prop
  | recovered (now : Timestamp) {row : JobRow} (h : isStale now row) :
      JobRowStep store none row (recoveredRow store now row)
  | claimed (workerId leaseToken : String) (leaseSeconds : ℕ) (now : Timestamp) {row : JobRow}
      (hpending : row.status = .pending) :
      JobRowStep store none row (claimedRow store workerId leaseToken leaseSeconds now row)
  | renewed (claim : ClaimedJob) (leaseSeconds : ℕ) (now : Timestamp) {row : JobRow}
      (h : ownsLease claim now row) :
      JobRowStep store (some claim) row (renewedRow leaseSeconds now row)
  | finished (claim : ClaimedJob) (now : Timestamp) {row : JobRow} (h : ownsLease claim now row) :
      JobRowStep store (some claim) row (finishedRow store now row)
  | unitized (claim : ClaimedJob) (messageUuid : String) (now : Timestamp) {row : JobRow}
      (h : isOpenUnitization store messageUuid row) :
      JobRowStep store (some claim) row (succeededRow store now row)
  | failed (claim : ClaimedJob) (error : JobError) (now storeNow : Timestamp) {row : JobRow}
      (h : ownsLease claim now row) :
      JobRowStep store (some claim) row (failedRow store claim error now storeNow row)

/-- What an effect does to a row. -/
abbrev JobRowSteps (store : Store) (claim? : Option ClaimedJob) : JobRow → JobRow → Prop :=
  Relation.ReflTransGen (JobRowStep store claim?)

/-- What any effects do to a row. -/
abbrev JobRowEvolves (store : Store) : JobRow → JobRow → Prop :=
  Relation.ReflTransGen fun row row' => ∃ claim?, JobRowStep store claim? row row'

/-- What any effects do to the rows. -/
def JobsEvolve (store : Store) (tables tables' : JobTables) : Prop :=
  ∀ j row, tables.jobs.get? j = some row →
    ∃ row', tables'.jobs.get? j = some row' ∧ JobRowEvolves store row row'

section

variable {store : Store} {tables tables' : JobTables} {jobs : Jobs} {j : String}
  {row row' : JobRow} {claim? : Option ClaimedJob} {claim : ClaimedJob}

/-- A statement that changes some rows does it to the row of a job, or nothing. -/
lemma updateWhere_rowSteps {p : JobRow → Bool} {f : JobRow → JobRow}
    (hf : ∀ r, (f r).jobUuid = r.jobUuid) (hstep : ∀ row, p row → JobRowStep store claim? row (f row)) (hrow : jobs.get? j = some row) :
    ∃ row', (jobs.updateWhere p f hf).get? j = some row' ∧ JobRowSteps store claim? row row' := by
  refine ⟨_, by rw [Table.get?_updateWhere, hrow, Option.map_some], ?_⟩
  split_ifs with hp
  · exact .single (hstep row hp)
  · exact .refl

/-- The claimed row was pending and free for a claim. -/
lemma nextClaimable_spec {now : Timestamp} {locked : List String}
    (h : nextClaimable store now locked jobs = some row) :
    jobs.get? row.jobUuid = some row ∧ row.status = .pending ∧ row.jobType = .memoryExtraction := by
  have hmem := List.mem_mergeSort.mp (List.mem_of_mem_head? h)
  obtain ⟨hmem, hclaimable⟩ := List.mem_filter.mp hmem
  simp only [isClaimable, Bool.and_eq_true, decide_eq_true_eq] at hclaimable
  exact ⟨Table.get?_of_mem hmem, hclaimable.1.1.1, hclaimable.1.1.2⟩

/-- A claim that is granted takes a pending row of the table. -/
lemma claimPending_cases (workerId leaseToken : String) (leaseSeconds : ℕ) (now : Timestamp)
    (locked : List String) (jobs : Jobs) :
    claimPending store workerId leaseToken leaseSeconds now locked jobs = (none, jobs) ∨
    ∃ row, jobs.get? row.jobUuid = some row ∧ row.status = .pending ∧
      row.jobType = .memoryExtraction ∧
      claimPending store workerId leaseToken leaseSeconds now locked jobs =
        (some (claimedRow store workerId leaseToken leaseSeconds now row),
          jobs.updateWhere (fun r => r.jobUuid = row.jobUuid && r.status = .pending)
            (claimedRow store workerId leaseToken leaseSeconds now)
            (claimedRow_jobUuid store workerId leaseToken leaseSeconds now)) := by
  rw [claimPending]
  split
  · exact .inl rfl
  · rename_i row hnext
    obtain ⟨hrow, hpending, htype⟩ := nextClaimable_spec hnext
    refine .inr ⟨row, hrow, hpending, htype, Prod.ext ?_ rfl⟩
    simp [hrow, hpending]

lemma claimPending_rowSteps {workerId leaseToken : String} {leaseSeconds : ℕ} {now : Timestamp}
    {locked : List String} (hrow : jobs.get? j = some row) :
    ∃ row', (claimPending store workerId leaseToken leaseSeconds now locked jobs).2.get? j =
      some row' ∧ JobRowSteps store none row row' := by
  rcases claimPending_cases workerId leaseToken leaseSeconds now locked jobs with
    heq | ⟨next, -, -, -, heq⟩
  · exact ⟨row, by rw [heq, hrow], .refl⟩
  · rw [heq]
    refine updateWhere_rowSteps (claimedRow_jobUuid _ _ _ _ _) (fun row hp => ?_) hrow
    simp only [Bool.and_eq_true, decide_eq_true_eq] at hp
    exact .claimed workerId leaseToken leaseSeconds now hp.2

/-- What an effect does to the row of a job: nothing, or statements under its claim. -/
theorem jobEffect_rowSteps {e : JobEffect} {answer : e.Response}
    (h : jobEffect store tables e answer tables') (hrow : tables.jobs.get? j = some row) :
    ∃ row', tables'.jobs.get? j = some row' ∧ JobRowSteps store e.claim? row row' := by
  have hsame : tables'.jobs = tables.jobs → ∃ row', tables'.jobs.get? j = some row' ∧
      JobRowSteps store e.claim? row row' := fun heq => ⟨row, by rw [heq, hrow], .refl⟩
  cases e with
  | enqueue new =>
      obtain rfl : tables' = _ := (Prod.ext_iff.mp h).2
      refine ⟨row, ?_, .refl⟩
      exact Table.get?_insert_of_some hrow new
  | utcNow => exact hsame (by rw [show tables' = tables from h])
  | recoverStale now =>
      obtain rfl := h
      exact updateWhere_rowSteps (recoveredRow_jobUuid store now)
        (fun _ hstale => .recovered now hstale) hrow
  | claim workerId leaseSeconds =>
      obtain ⟨leaseToken, now, locked, heq, -⟩ := h
      rw [show tables'.jobs = _ from (Prod.ext_iff.mp heq).2]
      cases store with
      | postgres => exact claimPending_rowSteps hrow
      | sqlite =>
          obtain ⟨row₁, hrow₁, hsteps₁⟩ := updateWhere_rowSteps (recoveredRow_jobUuid .sqlite now)
            (fun _ hstale => .recovered now hstale) hrow
          obtain ⟨row₂, hrow₂, hsteps₂⟩ := claimPending_rowSteps hrow₁
          exact ⟨row₂, hrow₂, hsteps₁.trans hsteps₂⟩
  | recordAttempt claim =>
      obtain ⟨now, rfl⟩ := h
      exact hsame rfl
  | executionSnapshot messageUuid => exact hsame (by rw [show tables' = tables from h])
  | selectLease claim now lock => exact hsame (by rw [h.2])
  | renewLease claim leaseSeconds now =>
      rw [show tables'.jobs = _ from (Prod.ext_iff.mp h.1).2]
      exact updateWhere_rowSteps (renewedRow_jobUuid leaseSeconds now)
        (fun _ howns => .renewed claim leaseSeconds now howns) hrow
  | recordSuccess claim attemptUuid messageUuid =>
      obtain ⟨finished, heq⟩ := h
      obtain rfl := (Prod.ext_iff.mp heq).2
      rw [recordSuccess]
      split_ifs
      · obtain ⟨row₁, hrow₁, hsteps₁⟩ := updateWhere_rowSteps (finishedRow_jobUuid store finished)
          (fun _ howns => .finished claim finished howns) hrow
        obtain ⟨row₂, hrow₂, hsteps₂⟩ := updateWhere_rowSteps (succeededRow_jobUuid store finished)
          (fun _ hopen => .unitized claim messageUuid finished hopen) hrow₁
        exact ⟨row₂, hrow₂, hsteps₁.trans hsteps₂⟩
      · exact ⟨row, hrow, .refl⟩
  | recordFailure claim attemptUuid error =>
      obtain ⟨finished, storeNow, heq⟩ := h
      obtain rfl := (Prod.ext_iff.mp heq).2
      rw [recordFailure]
      split_ifs
      · exact updateWhere_rowSteps (failedRow_jobUuid store claim error finished storeNow)
          (fun _ howns => .failed claim error finished storeNow howns) hrow
      · exact ⟨row, hrow, .refl⟩

lemma JobRowSteps.evolves (h : JobRowSteps store claim? row row') : JobRowEvolves store row row' :=
  Relation.ReflTransGen.mono (fun _ _ hstep => ⟨claim?, hstep⟩) _ _ h

lemma JobsEvolve.refl (tables : JobTables) : JobsEvolve store tables tables :=
  fun _ row hrow => ⟨row, hrow, .refl⟩

lemma JobsEvolve.trans {tables₁ tables₂ tables₃ : JobTables} (h : JobsEvolve store tables₁ tables₂)
    (h' : JobsEvolve store tables₂ tables₃) : JobsEvolve store tables₁ tables₃ := by
  intro j row hrow
  obtain ⟨row₁, hrow₁, hevolves₁⟩ := h j row hrow
  obtain ⟨row₂, hrow₂, hevolves₂⟩ := h' j row₁ hrow₁
  exact ⟨row₂, hrow₂, hevolves₁.trans hevolves₂⟩

lemma jobEffect_evolve {e : JobEffect} {answer : e.Response}
    (h : jobEffect store tables e answer tables') : JobsEvolve store tables tables' := by
  intro j row hrow
  obtain ⟨row', hrow', hsteps⟩ := jobEffect_rowSteps h hrow
  exact ⟨row', hrow', JobRowSteps.evolves hsteps⟩

/-! ### A job is a fenced lease -/

/-- The lease of a job: held while the job runs. -/
def JobRow.lease (row : JobRow) : Lease (String × Option String) where
  holder := if row.status = .running then row.lockedBy.map fun worker => (worker, row.leaseToken)
    else none
  generation := row.leaseGeneration

/-- What a claim shows to the fence: its worker, token and generation. -/
def ClaimedJob.credential (claim : ClaimedJob) : (String × Option String) × ℕ :=
  ((claim.workerId, claim.job.leaseToken), claim.job.leaseGeneration)

/-- A lease is owned by the claim that it admits. -/
lemma ownsLease_admits {now : Timestamp} (h : ownsLease claim now row) :
    row.jobUuid = claim.job.jobUuid ∧ row.lease.Admits claim.credential := by
  simp only [ownsLease, Bool.and_eq_true, decide_eq_true_eq] at h
  obtain ⟨⟨⟨⟨⟨⟨hjob, hrunning⟩, hworker⟩, -⟩, htoken⟩, hgen⟩, -⟩ := h
  exact ⟨hjob, by simp [JobRow.lease, ClaimedJob.credential, hrunning, hworker, htoken], hgen⟩

lemma lease_of_not_running (h : row.status ≠ .running) :
    row.lease = ⟨none, row.leaseGeneration⟩ := by
  rw [JobRow.lease, if_neg h]

/-- A statement keeps the lease of a row, releases it, or acquires it while it is free. -/
theorem JobRowStep.lease (h : JobRowStep store claim? row row') :
    Lease.Step row.lease row'.lease := by
  have hrelease : row'.status ≠ .running → row'.leaseGeneration = row.leaseGeneration →
      Lease.Step row.lease row'.lease := by
    intro hstatus hgen
    rw [lease_of_not_running hstatus, hgen]
    exact .release _
  cases h with
  | recovered now hstale =>
      refine hrelease ?_ rfl
      simp only [recoveredRow]
      split_ifs <;> simp
  | claimed workerId leaseToken leaseSeconds now hpending =>
      have hfree : row.lease.holder = none := by simp [JobRow.lease, hpending]
      exact .acquire (workerId, some leaseToken) hfree
  | renewed claim leaseSeconds now howns => exact .keep _
  | finished claim now howns => exact hrelease (by simp [finishedRow, succeededRow]) rfl
  | unitized claim messageUuid now hopen => exact hrelease (by simp [succeededRow]) rfl
  | failed claim error now storeNow howns =>
      refine hrelease ?_ rfl
      simp only [failedRow]
      split_ifs <;> simp

/-- A finished row meets no statement. -/
lemma JobRowStep.unfinished (h : JobRowStep store claim? row row') :
    row.status = .pending ∨ row.status = .running := by
  cases h with
  | recovered now hstale =>
      simp only [isStale, Bool.and_eq_true, decide_eq_true_eq] at hstale
      exact .inr hstale.1.2
  | claimed workerId leaseToken leaseSeconds now hpending => exact .inl hpending
  | unitized claim messageUuid now hopen =>
      simp only [isOpenUnitization, Bool.and_eq_true, Bool.or_eq_true, decide_eq_true_eq] at hopen
      exact hopen.1.2
  | renewed claim _ now howns | finished claim now howns | failed claim _ now _ howns =>
      simp only [ownsLease, Bool.and_eq_true, decide_eq_true_eq] at howns
      exact .inr howns.1.1.1.1.1.2

/-! ### What a claim knows of its row -/

/-- What a claim knows of the row of its job: the lease is the claim's or has passed it, and as long
as no other claim is granted the attempts are those it saw. -/
structure RowKnows (claim : ClaimedJob) (row : JobRow) : Prop where
  jobType : row.jobType = .memoryExtraction
  lease : row.lease.Admits claim.credential ∨ row.lease.Past claim.credential
  attempts : row.leaseGeneration = claim.job.leaseGeneration → row.attempts = claim.job.attempts
  maxAttempts : row.maxAttempts = claim.job.maxAttempts

lemma RowKnows.generation_le (h : RowKnows claim row) :
    claim.job.leaseGeneration ≤ row.leaseGeneration := by
  rcases h.lease with hadmits | hlt | heq
  · exact hadmits.2.symm.le
  · exact hlt.le
  · exact heq.1.le

/-- A statement leaves a claim's knowledge true. -/
lemma RowKnows.step (h : RowKnows claim row) (hstep : JobRowStep store claim? row row') :
    RowKnows claim row' := by
  have hlease := h.lease.elim hstep.lease.admits_or_past fun hpast =>
    .inr (hstep.lease.past hpast)
  cases hstep with
  | claimed workerId leaseToken leaseSeconds now hpending =>
      refine ⟨h.jobType, hlease, fun hgen => ?_, h.maxAttempts⟩
      have hle := h.generation_le
      change row.leaseGeneration + 1 = _ at hgen
      omega
  | recovered => exact ⟨h.jobType, hlease, h.attempts, h.maxAttempts⟩
  | renewed => exact ⟨h.jobType, hlease, h.attempts, h.maxAttempts⟩
  | finished => exact ⟨h.jobType, hlease, h.attempts, h.maxAttempts⟩
  | unitized => exact ⟨h.jobType, hlease, h.attempts, h.maxAttempts⟩
  | failed => exact ⟨h.jobType, hlease, h.attempts, h.maxAttempts⟩

/-- Nothing is done to a row under a claim that has passed. -/
lemma RowKnows.past_step (h : RowKnows claim row) (hpast : row.lease.Past claim.credential) :
    ¬ JobRowStep store (some claim) row row' := by
  intro hstep
  cases hstep with
  | unitized _ messageUuid now hopen =>
      simp only [isOpenUnitization, h.jobType, Bool.and_eq_true, decide_eq_true_eq] at hopen
      exact absurd hopen.1.1 (by simp)
  | renewed _ leaseSeconds now howns => exact hpast.not_admits (ownsLease_admits howns).2
  | finished _ now howns => exact hpast.not_admits (ownsLease_admits howns).2
  | failed _ error now storeNow howns => exact hpast.not_admits (ownsLease_admits howns).2

/-- The attempts of a row are within their bound, and a pending row has one left. -/
structure JobRow.WithinAttempts (row : JobRow) : Prop where
  one_le : 1 ≤ row.maxAttempts
  le : row.attempts ≤ row.maxAttempts
  lt_of_pending : row.status = .pending → row.attempts < row.maxAttempts

/-- A statement keeps the attempts within their bound, if its claim knows the row. -/
lemma JobRow.WithinAttempts.step (h : row.WithinAttempts)
    (hknows : ∀ claim ∈ claim?, row.jobUuid = claim.job.jobUuid → RowKnows claim row)
    (hstep : JobRowStep store claim? row row') : row'.WithinAttempts := by
  cases hstep with
  | recovered now hstale =>
      refine ⟨h.one_le, h.le, fun hpending => ?_⟩
      simp only [recoveredRow] at hpending ⊢
      split_ifs at hpending with hused
      exact Nat.lt_of_not_le hused
  | claimed workerId leaseToken leaseSeconds now hpending =>
      exact ⟨h.one_le, h.lt_of_pending hpending, fun hrunning => absurd hrunning (by simp [claimedRow])⟩
  | renewed claim leaseSeconds now howns => exact ⟨h.one_le, h.le, h.lt_of_pending⟩
  | finished claim now howns =>
      exact ⟨h.one_le, h.le, fun hstatus => absurd hstatus (by simp [finishedRow, succeededRow])⟩
  | unitized claim messageUuid now hopen =>
      exact ⟨h.one_le, h.le, fun hstatus => absurd hstatus (by simp [succeededRow])⟩
  | failed claim error now storeNow howns =>
      obtain ⟨hjob, hadmits⟩ := ownsLease_admits howns
      have hclaim := hknows claim rfl hjob
      refine ⟨h.one_le, h.le, fun hpending => ?_⟩
      simp only [failedRow] at hpending ⊢
      split_ifs at hpending with hterminal
      -- the claim saw the attempts that the row still has
      unfold isTerminal at hterminal
      rw [Bool.or_eq_true, not_or, ← hclaim.maxAttempts,
        ← hclaim.attempts hadmits.2, if_neg (by have := h.one_le; omega)] at hterminal
      simpa using hterminal.2

end

end Memorist
