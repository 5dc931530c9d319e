import Memorist.Library.Runs
import Memorist.Scheduler.HotScheduler

/-!
What the scheduler promises over any sequence of calls.

* `HotScheduler.Call`, `Step`: a call, and the entry it takes out of the queue;
* `submittedEntries`, `takenEntries`: what the calls of a run put in, and what they took out;
* `run_lossless`: each entry submitted is taken once or queued still;
* `run_fair`: how many low priority jobs are taken while a hot one waits;
* `backpressure_eq`: the state reported is the one the queue calls for;
* `Kept`, `runs_kept`: what holds after any sequence of calls.
-/

namespace Memorist.HotScheduler

open scoped List

/-- A call of the scheduler. -/
inductive Call where
  | submit (job : HotSchedulerJob)
  | claimNext (workerId : String)
  | complete (workerId : String)
  | pauseLane (lane : SchedulerLane)
  | resumeLane (lane : SchedulerLane)
  deriving DecidableEq, Repr

/-- The entry a call takes out of the queue, and the scheduler after it. -/
def call (s : HotScheduler) : Call → Option QueuedJob × HotScheduler
  | .submit job => (none, s.submit job)
  | .claimNext workerId => s.claimEntry workerId
  | .complete workerId => (none, s.complete workerId)
  | .pauseLane lane => (none, s.pauseLane lane)
  | .resumeLane lane => (none, s.resumeLane lane)

/-- A call, and the entry it takes. -/
abbrev Event := Call × Option QueuedJob

/-- One call. -/
def Step (s : HotScheduler) (e : Event) (t : HotScheduler) : Prop := s.call e.1 = (e.2, t)

/-- One call, which is no claim unless a job of a hot lane that is not paused is queued. -/
def WaitingStep (s : HotScheduler) (e : Event) (t : HotScheduler) : Prop :=
  s.Step e t ∧ ∀ workerId, e.1 = .claimNext workerId → s.HotWaiting

/-- The job a call submits. -/
def Call.submitted? : Call → Option HotSchedulerJob
  | .submit job => some job
  | _ => none

/-- The entries the calls of a run submit, numbered as they come. -/
def submittedEntries (es : List Event) : List QueuedJob :=
  ((es.filterMap fun e => e.1.submitted?).zipIdx 1).map fun item =>
    ⟨-item.1.queuedPriority, item.2, item.1⟩

/-- The entries the claims of a run take. -/
def takenEntries (es : List Event) : List QueuedJob := es.filterMap Prod.snd

/-- The low priority jobs taken in a run. -/
def lowTaken (es : List Event) : ℕ := depthIn lowPriorityLanes (takenEntries es)

/-- The jobs taken in a run whose lane is neither hot nor of low priority. -/
def otherTaken (es : List Event) : ℕ := depthIn [.memoryExtraction] (takenEntries es)

variable {s t : HotScheduler} {e : Event} {es : List Event}

/-! ### One call -/

/-- A claim that takes an entry. -/
structure Takes (s : HotScheduler) (queued : QueuedJob) (t : HotScheduler) : Prop where
  chosen : s.Chosen queued
  queue : s.queue ~ queued :: t.queue
  sequence : t.sequence = s.sequence
  backpressure : t.backpressure = refreshBackpressure t.queue
  consecutive : t.consecutiveLowPriority =
    if queued.job.lane ∈ lowPriorityLanes then s.consecutiveLowPriority + 1 else 0

/-- The queue and the counters are as they were. -/
structure Unmoved (s t : HotScheduler) : Prop where
  queue : t.queue = s.queue
  sequence : t.sequence = s.sequence
  backpressure : t.backpressure = s.backpressure
  consecutive : t.consecutiveLowPriority = s.consecutiveLowPriority

/-- What a call does to the queue and the counters. -/
lemma Step.cases (h : s.Step e t) :
    (∃ job, e = (.submit job, none) ∧ t = s.submit job) ∨
      (∃ workerId queued, e = (.claimNext workerId, some queued) ∧ s.Takes queued t) ∨
      (e.2 = none ∧ e.1.submitted? = none ∧ s.Unmoved t) := by
  obtain ⟨c, entry⟩ := e
  have hcall : s.call c = (entry, t) := h
  cases c with
  | submit job =>
      obtain ⟨rfl, rfl⟩ := Prod.mk.inj hcall
      exact .inl ⟨job, rfl, rfl⟩
  | claimNext workerId =>
      rcases s.claimEntry_cases workerId with ⟨-, hnone⟩ | ⟨queued, queue, hchosen, hperm, hsome⟩
      · obtain ⟨rfl, rfl⟩ := Prod.mk.inj (hnone.symm.trans hcall)
        exact .inr (.inr ⟨rfl, rfl, rfl, rfl, rfl, rfl⟩)
      · obtain ⟨rfl, rfl⟩ := Prod.mk.inj (hsome.symm.trans hcall)
        exact .inr (.inl ⟨workerId, queued, rfl, hchosen, hperm, rfl, rfl, rfl⟩)
  | complete workerId =>
      obtain ⟨rfl, rfl⟩ := Prod.mk.inj hcall
      exact .inr (.inr ⟨rfl, rfl, rfl, rfl, rfl, rfl⟩)
  | pauseLane lane =>
      obtain ⟨rfl, rfl⟩ := Prod.mk.inj hcall
      exact .inr (.inr ⟨rfl, rfl, rfl, rfl, rfl, rfl⟩)
  | resumeLane lane =>
      obtain ⟨rfl, rfl⟩ := Prod.mk.inj hcall
      exact .inr (.inr ⟨rfl, rfl, rfl, rfl, rfl, rfl⟩)

/-- No call changes the limit. -/
lemma Step.limit (h : s.Step e t) :
    t.maxConsecutiveLowPriority = s.maxConsecutiveLowPriority := by
  have hlimit : t = (s.call e.1).2 := congrArg Prod.snd h.symm
  rw [hlimit]
  cases e.1 with
  | claimNext workerId =>
      rcases s.claimEntry_cases workerId with ⟨-, hnone⟩ | ⟨queued, queue, -, -, hsome⟩
      · rw [call, hnone]
      · rw [call, hsome]
  | _ => rfl

/-! ### Nothing is lost -/

/-- The sequence numbers are `1, 2, …`. -/
lemma map_sequence_submittedEntries (es : List Event) :
    (submittedEntries es).map QueuedJob.sequence =
      List.range' 1 (es.filterMap fun e => e.1.submitted?).length := by
  rw [submittedEntries, List.map_map]
  exact List.zipIdx_map_snd 1 _

lemma submittedEntries_concat_submit (es : List Event) (job : HotSchedulerJob) :
    submittedEntries (es ++ [(.submit job, none)]) = submittedEntries es ++
      [⟨-job.queuedPriority, (es.filterMap fun e => e.1.submitted?).length + 1, job⟩] := by
  simp [submittedEntries, Call.submitted?, List.zipIdx_append, Nat.add_comm]

lemma submittedEntries_concat_none (h : e.1.submitted? = none) :
    submittedEntries (es ++ [e]) = submittedEntries es := by
  simp [submittedEntries, h]

lemma takenEntries_concat (es : List Event) (e : Event) :
    takenEntries (es ++ [e]) = takenEntries es ++ e.2.toList := by
  rw [takenEntries, List.filterMap_append]
  cases h : e.2 <;> simp [h, takenEntries]

/-- Each entry submitted is taken once or queued still. -/
theorem run_lossless (hqueue : s.queue = []) (hsequence : s.sequence = 0) (h : Runs Step s es t) :
    submittedEntries es ~ takenEntries es ++ t.queue ∧
      t.sequence = (es.filterMap fun e => e.1.submitted?).length := by
  induction h with
  | refl => exact ⟨by rw [hqueue]; exact .refl _, hsequence⟩
  | @tail t u es e _ hstep ih =>
      obtain ⟨hperm, hcount⟩ := ih
      rcases hstep.cases with ⟨job, rfl, rfl⟩ | ⟨workerId, queued, rfl, htakes⟩ | ⟨hnone, hno, hsame⟩
      · rw [submittedEntries_concat_submit, takenEntries_concat, ← hcount, List.filterMap_append,
          List.length_append, ← hcount]
        refine ⟨?_, rfl⟩
        calc submittedEntries es ++ [_]
            ~ (takenEntries es ++ t.queue) ++ [⟨-job.queuedPriority, t.sequence + 1, job⟩] :=
              hperm.append_right _
          _ ~ takenEntries es ++ (t.submit job).queue := by
              rw [List.append_assoc]
              exact ((List.perm_append_singleton _ _).trans (t.submit_queue_perm job).symm).append_left _
          _ = takenEntries es ++ [] ++ (t.submit job).queue := by rw [List.append_nil]
      · rw [submittedEntries_concat_none rfl, takenEntries_concat, List.append_assoc,
          List.filterMap_append, htakes.sequence, hcount]
        exact ⟨hperm.trans (htakes.queue.append_left _), by simp [Call.submitted?]⟩
      · rw [submittedEntries_concat_none hno, takenEntries_concat, hnone, hsame.queue, hsame.sequence,
          List.filterMap_append, hcount]
        exact ⟨by rwa [Option.toList_none, List.append_nil], by simp [hno]⟩

/-! ### Whose turn it is -/

lemma depthIn_singleton (lanes : List SchedulerLane) (queued : QueuedJob) :
    depthIn lanes [queued] = if queued.job.lane ∈ lanes then 1 else 0 := by
  simp [depthIn, List.countP_singleton]

lemma lowTaken_concat (es : List Event) (e : Event) :
    lowTaken (es ++ [e]) = lowTaken es + depthIn lowPriorityLanes e.2.toList := by
  rw [lowTaken, takenEntries_concat, depthIn, List.countP_append]
  rfl

lemma otherTaken_concat (es : List Event) (e : Event) :
    otherTaken (es ++ [e]) = otherTaken es + depthIn [.memoryExtraction] e.2.toList := by
  rw [otherTaken, takenEntries_concat, depthIn, List.countP_append]
  rfl

/-- A claim that takes no hot job while one waits is within the limit. -/
lemma Takes.lt_limit {queued : QueuedJob} (h : s.Takes queued t) (hwaiting : s.HotWaiting)
    (hhot : queued.job.lane ∉ hotLanes) :
    s.consecutiveLowPriority < s.maxConsecutiveLowPriority.toNat := by
  by_contra hle
  exact hhot (h.chosen.hot hwaiting (by omega))

/-- While a hot job waits and none is taken, the low priority jobs taken are those that count now
and those before each job that reset the count. -/
lemma run_turns (h : Runs WaitingStep s es t)
    (hhot : ∀ queued ∈ takenEntries es, queued.job.lane ∉ hotLanes) :
    t.maxConsecutiveLowPriority = s.maxConsecutiveLowPriority ∧
      lowTaken es ≤
        otherTaken es * (s.maxConsecutiveLowPriority.toNat - 1) + t.consecutiveLowPriority ∧
      (lowTaken es = 0 ∨ t.consecutiveLowPriority ≤ s.maxConsecutiveLowPriority.toNat) := by
  induction h with
  | refl => exact ⟨rfl, Nat.zero_le _, .inl rfl⟩
  | @tail t u es e _ hstep ih =>
      obtain ⟨hlimit, hsum, hlast⟩ := ih fun queued hmem =>
        hhot queued (by rw [takenEntries_concat]; exact List.mem_append_left _ hmem)
      refine ⟨hstep.1.limit.trans hlimit, ?_⟩
      rw [lowTaken_concat, otherTaken_concat]
      rcases hstep.1.cases with ⟨job, rfl, rfl⟩ | ⟨workerId, queued, rfl, htakes⟩ | ⟨hnone, -, hsame⟩
      · exact ⟨hsum, hlast⟩
      · have hcold : queued.job.lane ∉ hotLanes := hhot queued (by simp [takenEntries_concat])
        have hlt := htakes.lt_limit (hstep.2 workerId rfl) hcold
        rw [hlimit] at hlt
        rw [htakes.consecutive]
        by_cases hlow : queued.job.lane ∈ lowPriorityLanes
        · have hother : queued.job.lane ∉ [SchedulerLane.memoryExtraction] := fun hmem =>
            (eq_memoryExtraction_iff.mp (List.mem_singleton.mp hmem)).2 hlow
          rw [Option.toList_some, depthIn_singleton, depthIn_singleton, if_pos hlow, if_neg hother,
            if_pos hlow, Nat.add_zero (otherTaken es)]
          omega
        · have hother : queued.job.lane ∈ [SchedulerLane.memoryExtraction] :=
            List.mem_singleton.mpr (eq_memoryExtraction_iff.mpr ⟨hcold, hlow⟩)
          rw [Option.toList_some, depthIn_singleton, depthIn_singleton, if_neg hlow, if_pos hother,
            if_neg hlow, Nat.add_mul, Nat.one_mul]
          omega
      · rw [hnone, hsame.consecutive]
        exact ⟨hsum, hlast⟩

/-- While a hot job waits, low priority jobs are taken up to the limit, and after each job that is
neither up to the limit again, as the count starts anew. -/
theorem run_fair (h : Runs WaitingStep s es t)
    (hhot : ∀ queued ∈ takenEntries es, queued.job.lane ∉ hotLanes) :
    lowTaken es ≤ s.maxConsecutiveLowPriority.toNat +
      otherTaken es * (s.maxConsecutiveLowPriority.toNat - 1) := by
  obtain ⟨-, hsum, hnone | hlast⟩ := run_turns h hhot <;> omega

/-! ### The state reported -/

/-- The state reported is the one the queue calls for. -/
theorem backpressure_eq (hs : s.backpressure = refreshBackpressure s.queue)
    (h : Runs Step s es t) : t.backpressure = refreshBackpressure t.queue := by
  refine h.invariant (I := fun a => a.backpressure = refreshBackpressure a.queue) ?_ hs
  intro a e b ha hstep
  rcases hstep.cases with ⟨job, rfl, rfl⟩ | ⟨workerId, queued, rfl, htakes⟩ | ⟨-, -, hsame⟩
  · rfl
  · exact htakes.backpressure
  · rw [hsame.backpressure, hsame.queue, ha]

/-- Hot work is reported only where the queue holds some. -/
lemma exists_hot_of_refreshBackpressure {queue : List QueuedJob}
    (h : (refreshBackpressure queue).state = "hot_lane_pending") :
    ∃ queued ∈ queue, queued.job.lane ∈ hotLanes := by
  unfold refreshBackpressure at h
  split_ifs at h with hdepth
  · obtain ⟨queued, hmem, hlane⟩ := List.countP_pos_iff.mp (Nat.pos_of_ne_zero hdepth)
    exact ⟨queued, hmem, of_decide_eq_true hlane⟩
  · exact absurd h (by decide)
  · exact absurd h (by decide)

/-! ### Runs from the start -/

/-- What holds after a run: every job submitted has been taken once or is queued; of one lane and
priority the one submitted first is taken first; while a hot job waits, low priority jobs are taken
within the limit; and hot work is reported only while some is queued. -/
structure Kept (es : List Event) (s : HotScheduler) : Prop where
  numbered : ((submittedEntries es).map QueuedJob.sequence).Nodup
  lossless : submittedEntries es ~ takenEntries es ++ s.queue
  fifo : ∀ {workerId queued t}, s.claimEntry workerId = (some queued, t) →
    s.Claimable queued ∧ ∀ other, s.Claimable other → other.job.lane = queued.job.lane →
      other.job.queuedPriority = queued.job.queuedPriority → queued.sequence ≤ other.sequence
  inARow : ∀ {window t}, Runs WaitingStep s window t →
    (∀ queued ∈ takenEntries window, queued.job.lane ∈ lowPriorityLanes) →
      lowTaken window ≤ s.maxConsecutiveLowPriority.toNat
  inTotal : ∀ {window t}, Runs WaitingStep s window t →
    (∀ queued ∈ takenEntries window, queued.job.lane ∉ hotLanes) →
      lowTaken window ≤ s.maxConsecutiveLowPriority.toNat +
        otherTaken window * (s.maxConsecutiveLowPriority.toNat - 1)
  reported : s.status.backpressure.state = "hot_lane_pending" →
    ∃ queued ∈ s.queue, queued.job.lane ∈ hotLanes

/-- Every entry submitted carries the priority of its job. -/
lemma sortPriority_eq {queued : QueuedJob} (h : queued ∈ submittedEntries es) :
    queued.sortPriority = -queued.job.queuedPriority := by
  obtain ⟨item, -, rfl⟩ := List.mem_map.mp h
  rfl

/-- The entry a claim takes. -/
lemma chosen_of_claimEntry {workerId : String} {queued : QueuedJob}
    (h : s.claimEntry workerId = (some queued, t)) : s.Chosen queued := by
  rcases s.claimEntry_cases workerId with ⟨-, hnone⟩ | ⟨chosen, queue, hchosen, -, hsome⟩
  · exact absurd (hnone.symm.trans h) (by simp)
  · obtain ⟨hqueued, -⟩ := Prod.mk.inj (hsome.symm.trans h)
    exact Option.some.inj hqueued ▸ hchosen

/-- After any sequence of calls nothing is lost, the order of submission is kept, low priority jobs
keep within their turns and hot work is reported only where there is some. -/
theorem runs_kept {limit : ℤ} (h : Runs Step { maxConsecutiveLowPriority := limit } es s) :
    s.maxConsecutiveLowPriority = limit ∧ s.Kept es := by
  have hlimit : s.maxConsecutiveLowPriority = limit :=
    h.invariant (I := fun a => a.maxConsecutiveLowPriority = limit)
      (fun ha hstep => hstep.limit.trans ha) rfl
  obtain ⟨hperm, -⟩ := run_lossless rfl rfl h
  have hpriority : ∀ queued ∈ s.queue, queued.sortPriority = -queued.job.queuedPriority :=
    fun queued hmem => sortPriority_eq (hperm.mem_iff.mpr (List.mem_append_right _ hmem))
  refine ⟨hlimit, ?_, hperm, ?_, ?_, fun hwindow hhot => run_fair hwindow hhot, ?_⟩
  · rw [map_sequence_submittedEntries]
    exact List.nodup_range'
  · intro workerId queued t hclaim
    have hchosen := chosen_of_claimEntry hclaim
    refine ⟨hchosen.claimable, fun other hother hlane hsame => hchosen.sequence_le hother hlane ?_⟩
    rw [hpriority other hother.1, hpriority queued hchosen.claimable.1, hsame]
  · intro window t hwindow hlow
    have hother : otherTaken window = 0 := List.countP_eq_zero.mpr fun queued hmem hlane =>
      (eq_memoryExtraction_iff.mp (List.mem_singleton.mp (of_decide_eq_true hlane))).2 (hlow queued hmem)
    have hfair := run_fair hwindow fun queued hmem => not_mem_hotLanes (hlow queued hmem)
    rwa [hother, Nat.zero_mul, Nat.add_zero] at hfair
  · rw [show s.status.backpressure = refreshBackpressure s.queue from backpressure_eq rfl h]
    exact exists_hot_of_refreshBackpressure

/-! ### The calls of a run -/

/-- The scheduler after some calls. -/
def after (s : HotScheduler) (calls : List Call) : HotScheduler :=
  calls.foldl (fun t c => (t.call c).2) s

/-- The calls with the entries they take. -/
def eventsOf : HotScheduler → List Call → List Event
  | _, [] => []
  | s, c :: calls => (c, (s.call c).1) :: eventsOf (s.call c).2 calls

/-- Any calls can be made, one after the other. -/
lemma runs_eventsOf (s : HotScheduler) (calls : List Call) :
    Runs Step s (eventsOf s calls) (s.after calls) := by
  induction calls generalizing s with
  | nil => exact .refl
  | cons c calls ih =>
      have hfirst : Runs Step s [(c, (s.call c).1)] (s.call c).2 := Runs.refl.tail rfl
      exact hfirst.trans (ih _)

/-- Calls made while a job of a hot lane is queued. -/
lemma runs_waiting {s : HotScheduler} {calls : List Call}
    (h : ∀ n < calls.length, (s.after (calls.take n)).HotWaiting) :
    Runs WaitingStep s (eventsOf s calls) (s.after calls) := by
  induction calls generalizing s with
  | nil => exact .refl
  | cons c calls ih =>
      have hfirst : Runs WaitingStep s [(c, (s.call c).1)] (s.call c).2 :=
        Runs.refl.tail ⟨rfl, fun _ _ => h 0 (Nat.zero_lt_succ _)⟩
      exact hfirst.trans (ih fun n hn => h (n + 1) (Nat.succ_lt_succ hn))

instance (s : HotScheduler) : Decidable s.HotWaiting :=
  decidable_of_iff (∃ queued ∈ s.queue, queued.job.lane ∉ s.pausedLanes ∧ queued.job.lane ∈ hotLanes)
    ⟨fun ⟨queued, hmem, hlane, hhot⟩ => ⟨queued, ⟨hmem, hlane⟩, hhot⟩,
      fun ⟨queued, hclaimable, hhot⟩ => ⟨queued, hclaimable.1, hclaimable.2, hhot⟩⟩

/-- A hot job of the lowest priority, three jobs of low priority and one that is neither. -/
def mixedCalls : List Call :=
  [.submit ⟨"capture", .liveChatCapture, some 0⟩, .submit ⟨"import", .importCommit, some 30⟩,
    .submit ⟨"extraction", .memoryExtraction, some 20⟩,
    .submit ⟨"rebuild", .blockRebuild, some 10⟩, .submit ⟨"sweep", .maintenance, some 5⟩]

/-- The run of these calls, with two claims after them. -/
theorem runs_kept_mixed :
    (after {} (mixedCalls ++ [.claimNext "worker", .claimNext "worker"])).maxConsecutiveLowPriority =
        1 ∧
      (after {} (mixedCalls ++ [.claimNext "worker", .claimNext "worker"])).Kept
        (eventsOf {} (mixedCalls ++ [.claimNext "worker", .claimNext "worker"])) :=
  runs_kept (runs_eventsOf {} (mixedCalls ++ [.claimNext "worker", .claimNext "worker"]))

/-- With a limit of two, three low priority jobs are taken while a hot job waits: the job taken after
the first of them resets the count. -/
theorem lowTaken_exceeds_limit :
    ¬∀ (limit : ℤ) (es window : List Event) (s t : HotScheduler),
      Runs Step { maxConsecutiveLowPriority := limit } es s → Runs WaitingStep s window t →
        (∀ queued ∈ takenEntries window, queued.job.lane ∉ hotLanes) →
          lowTaken window ≤ limit.toNat := by
  intro h
  have hstart := runs_eventsOf { maxConsecutiveLowPriority := 2 } mixedCalls
  have hwindow := @runs_waiting (after { maxConsecutiveLowPriority := 2 } mixedCalls)
    (List.replicate 4 (.claimNext "worker")) (by decide +kernel)
  have hle := h 2 _ _ _ _ hstart hwindow (by decide +kernel)
  revert hle
  decide +kernel

end Memorist.HotScheduler
