import Mathlib.Data.List.MinMax
import Mathlib.Data.Prod.Lex
import Memorist.Library.Dict
import Memorist.Library.Heap

/-!
The in-memory scheduler of the full profile (`scheduler/hot_scheduler.py`, `scheduler/lanes.py`).

* `SchedulerLane`, `lanePriorities`, `lowPriorityLanes`, `hotLanes`: the lanes and their classes;
* `HotSchedulerJob`, `QueuedJob`, `HotScheduler`: a job, its entry in the queue, the scheduler;
* `submit`, `claimNext`, `complete`, `pauseLane`, `resumeLane`, `status`: the operations, each under
  the scheduler's lock;
* `claimEntry_cases`: all that a claim can do.

What a job refers to and how long it waited, which no operation decides on, are left out.
-/

namespace Memorist

/-! ### Lanes -/

/-- `SchedulerLane`. -/
inductive SchedulerLane where
  | criticalPrivacy
  | liveChatCapture
  | preflightPersist
  | assistantCapture
  | memoryExtraction
  | importCommit
  | importReconstruction
  | graphProjection
  | embeddingIndex
  | blockRebuild
  | maintenance
  deriving DecidableEq, Repr

/-- `LANE_PRIORITIES`. -/
def lanePriorities : SchedulerLane → ℤ
  | .criticalPrivacy => 110
  | .liveChatCapture => 100
  | .preflightPersist => 95
  | .assistantCapture => 90
  | .memoryExtraction => 60
  | .importCommit => 40
  | .importReconstruction => 30
  | .graphProjection => 25
  | .embeddingIndex => 25
  | .blockRebuild => 20
  | .maintenance => 10

/-- `LOW_PRIORITY_LANES`. -/
def lowPriorityLanes : List SchedulerLane :=
  [.importCommit, .importReconstruction, .graphProjection, .embeddingIndex, .blockRebuild,
    .maintenance]

/-- `HOT_LANES`. -/
def hotLanes : List SchedulerLane :=
  [.criticalPrivacy, .liveChatCapture, .preflightPersist, .assistantCapture]

/-- One lane is neither hot nor of low priority. -/
lemma eq_memoryExtraction_iff {lane : SchedulerLane} :
    lane = .memoryExtraction ↔ lane ∉ hotLanes ∧ lane ∉ lowPriorityLanes := by
  cases lane <;> decide

lemma not_mem_hotLanes {lane : SchedulerLane} (h : lane ∈ lowPriorityLanes) :
    lane ∉ hotLanes := by
  revert h
  cases lane <;> decide

/-! ### The scheduler -/

/-- A job of the scheduler. -/
structure HotSchedulerJob where
  durableJobUuid : String
  lane : SchedulerLane
  priority : Option ℤ := none
  deriving DecidableEq, Repr

/-- The priority a job is queued with: its own, or that of its lane. -/
def HotSchedulerJob.queuedPriority (job : HotSchedulerJob) : ℤ :=
  job.priority.getD (lanePriorities job.lane)

/-- An entry of the queue, ordered by its priority and its sequence number. -/
structure QueuedJob where
  sortPriority : ℤ
  sequence : ℕ
  job : HotSchedulerJob
  deriving DecidableEq, Repr

-- the order of keys as one that computes: the default instance goes through the infima of `ℤ`
local instance keyPreorder : Preorder (ℤ ×ₗ ℕ) :=
  (@Prod.Lex.instLinearOrder ℤ ℕ Int.instLinearOrder inferInstance).toPreorder

/-- What the entries are compared by. -/
def QueuedJob.key (queued : QueuedJob) : ℤ ×ₗ ℕ := toLex (queued.sortPriority, queued.sequence)

/-- `BackpressureState`. -/
structure BackpressureState where
  state : String := "idle"
  reason : Option String := none
  deriving DecidableEq, Repr

/-- The scheduler. -/
structure HotScheduler where
  maxConsecutiveLowPriority : ℤ := 1
  queue : List QueuedJob := []
  sequence : ℕ := 0
  activeWorkers : Dict String String := []
  pausedLanes : List SchedulerLane := []
  backpressure : BackpressureState := {}
  consecutiveLowPriority : ℕ := 0
  deriving DecidableEq, Repr

/-- The number of entries whose lane is among the given ones. -/
def depthIn (lanes : List SchedulerLane) (queue : List QueuedJob) : ℕ :=
  queue.countP fun queued => queued.job.lane ∈ lanes

/-- `_refresh_backpressure_locked`: the state the queue calls for. -/
def refreshBackpressure (queue : List QueuedJob) : BackpressureState :=
  if depthIn hotLanes queue ≠ 0 then
    { state := "hot_lane_pending", reason := some "hot lanes have runnable work" }
  else if 100 < depthIn lowPriorityLanes queue then
    { state := "low_priority_backlog", reason := some "background backlog high" }
  else {}

namespace HotScheduler

/-- `submit`. -/
def submit (s : HotScheduler) (job : HotSchedulerJob) : HotScheduler :=
  let entry : QueuedJob := ⟨-job.queuedPriority, s.sequence + 1, job⟩
  let queue := Heap.heappush (fun a b => a.key < b.key) s.queue entry
  { s with sequence := s.sequence + 1, queue, backpressure := refreshBackpressure queue }

/-- `_select_next_index_locked`. -/
def selectNextIndex (s : HotScheduler) : Option ℕ :=
  let candidates := s.queue.zipIdx.filter fun item => item.1.job.lane ∉ s.pausedLanes
  let hotCandidates := candidates.filter fun item => item.1.job.lane ∈ hotLanes
  if hotCandidates ≠ [] ∧ s.maxConsecutiveLowPriority ≤ s.consecutiveLowPriority then
    (hotCandidates.argmin fun item => item.1.key).map Prod.snd
  else (candidates.argmin fun item => item.1.key).map Prod.snd

/-- The entry that `claim_next` takes, and the scheduler without it. -/
def claimEntry (s : HotScheduler) (workerId : String) : Option QueuedJob × HotScheduler :=
  match s.selectNextIndex.bind fun index => s.queue[index]?.map fun queued => (index, queued) with
  | none => (none, s)
  | some (index, queued) =>
    let queue := Heap.heapify (fun a b => a.key < b.key) (s.queue.eraseIdx index)
    (some queued,
      { s with
        queue
        activeWorkers := s.activeWorkers.set workerId queued.job.durableJobUuid
        consecutiveLowPriority :=
          if queued.job.lane ∈ lowPriorityLanes then s.consecutiveLowPriority + 1 else 0
        backpressure := refreshBackpressure queue })

/-- `claim_next`. -/
def claimNext (s : HotScheduler) (workerId : String) : Option HotSchedulerJob × HotScheduler :=
  ((s.claimEntry workerId).1.map QueuedJob.job, (s.claimEntry workerId).2)

/-- `complete`. -/
def complete (s : HotScheduler) (workerId : String) : HotScheduler :=
  { s with activeWorkers := s.activeWorkers.filter fun worker => worker.1 ≠ workerId }

/-- `pause_lane`. -/
def pauseLane (s : HotScheduler) (lane : SchedulerLane) : HotScheduler :=
  { s with pausedLanes := s.pausedLanes.insert lane }

/-- `resume_lane`. -/
def resumeLane (s : HotScheduler) (lane : SchedulerLane) : HotScheduler :=
  { s with pausedLanes := s.pausedLanes.filter fun paused => paused ≠ lane }

/-- What `status` reports of the queue, the lanes and the workers. -/
structure Status where
  laneDepths : SchedulerLane → ℕ
  backpressure : BackpressureState
  pausedLanes : List SchedulerLane
  activeWorkers : Dict String String

/-- `status`. -/
def status (s : HotScheduler) : Status where
  laneDepths lane := depthIn [lane] s.queue
  backpressure := s.backpressure
  pausedLanes := s.pausedLanes
  activeWorkers := s.activeWorkers

/-! ### What a claim can do -/

variable {s : HotScheduler} {queued other : QueuedJob} {index : ℕ}

/-- An entry that a claim may take: one whose lane is not paused. -/
def Claimable (s : HotScheduler) (queued : QueuedJob) : Prop :=
  queued ∈ s.queue ∧ queued.job.lane ∉ s.pausedLanes

/-- A job of a hot lane that is not paused is queued. -/
def HotWaiting (s : HotScheduler) : Prop :=
  ∃ queued, s.Claimable queued ∧ queued.job.lane ∈ hotLanes

/-- The entry a claim takes: the first claimable one of its lane, and one of a hot lane when the
low priority jobs have had their turns. -/
structure Chosen (s : HotScheduler) (queued : QueuedJob) : Prop where
  claimable : s.Claimable queued
  hot : s.HotWaiting → s.maxConsecutiveLowPriority ≤ s.consecutiveLowPriority →
    queued.job.lane ∈ hotLanes
  first : ∀ other, s.Claimable other → other.job.lane = queued.job.lane → ¬other.key < queued.key

lemma mem_candidates {item : QueuedJob × ℕ} :
    item ∈ s.queue.zipIdx.filter (fun item => item.1.job.lane ∉ s.pausedLanes) ↔
      s.queue[item.2]? = some item.1 ∧ item.1.job.lane ∉ s.pausedLanes := by
  rw [List.mem_filter, List.mem_zipIdx_iff_getElem?, decide_eq_true_eq]

/-- A claimable entry stands at a position of the queue. -/
lemma Claimable.exists_candidate (h : s.Claimable queued) :
    ∃ index, (queued, index) ∈
      s.queue.zipIdx.filter (fun item => item.1.job.lane ∉ s.pausedLanes) := by
  obtain ⟨index, hindex⟩ := List.mem_iff_getElem?.mp h.1
  exact ⟨index, mem_candidates.mpr ⟨hindex, h.2⟩⟩

lemma claimable_of_candidate
    (h : (queued, index) ∈ s.queue.zipIdx.filter (fun item => item.1.job.lane ∉ s.pausedLanes)) :
    s.Claimable queued :=
  ⟨List.mem_of_getElem? (mem_candidates.mp h).1, (mem_candidates.mp h).2⟩

/-- The least of some candidates precedes them all. -/
lemma not_key_lt_of_argmin {items : List (QueuedJob × ℕ)} {item least : QueuedJob × ℕ}
    (h : items.argmin (fun item => item.1.key) = some least) (hitem : item ∈ items) :
    ¬item.1.key < least.1.key :=
  List.not_lt_of_mem_argmin (f := fun item : QueuedJob × ℕ => item.1.key) hitem h

/-- No position is selected where no entry is claimable. -/
lemma selectNextIndex_eq_none (h : s.selectNextIndex = none) : ∀ queued, ¬s.Claimable queued := by
  intro queued hclaimable
  obtain ⟨index, hindex⟩ := hclaimable.exists_candidate
  simp only [selectNextIndex] at h
  split_ifs at h with hhot
  · exact hhot.1 (List.argmin_eq_none.mp (Option.map_eq_none_iff.mp h))
  · rw [List.argmin_eq_none.mp (Option.map_eq_none_iff.mp h)] at hindex
    exact List.not_mem_nil hindex

/-- The position selected holds the chosen entry. -/
lemma chosen_of_selectNextIndex (h : s.selectNextIndex = some index) :
    ∃ queued, s.queue[index]? = some queued ∧ s.Chosen queued := by
  simp only [selectNextIndex] at h
  split_ifs at h with hturns
  · obtain ⟨⟨queued, i⟩, hmin, rfl⟩ := Option.map_eq_some_iff.mp h
    have hmem := List.mem_filter.mp (List.argmin_mem hmin)
    have hhot : queued.job.lane ∈ hotLanes := of_decide_eq_true hmem.2
    refine ⟨queued, (mem_candidates.mp hmem.1).1, claimable_of_candidate hmem.1, fun _ _ => hhot, ?_⟩
    intro other hother hlane
    obtain ⟨j, hj⟩ := hother.exists_candidate
    have hcandidate : ((other, j) : QueuedJob × ℕ) ∈ (s.queue.zipIdx.filter fun item =>
        item.1.job.lane ∉ s.pausedLanes).filter fun item => item.1.job.lane ∈ hotLanes :=
      List.mem_filter.mpr ⟨hj, decide_eq_true (hlane ▸ hhot)⟩
    exact not_key_lt_of_argmin hmin hcandidate
  · obtain ⟨⟨queued, i⟩, hmin, rfl⟩ := Option.map_eq_some_iff.mp h
    have hmem := List.argmin_mem hmin
    refine ⟨queued, (mem_candidates.mp hmem).1, claimable_of_candidate hmem, ?_, ?_⟩
    · rintro ⟨hot, hclaimable, hlane⟩ hcount
      obtain ⟨j, hj⟩ := hclaimable.exists_candidate
      exact absurd ⟨List.ne_nil_of_mem (List.mem_filter.mpr ⟨hj, decide_eq_true hlane⟩), hcount⟩
        hturns
    · intro other hother _
      obtain ⟨j, hj⟩ := hother.exists_candidate
      exact not_key_lt_of_argmin hmin hj

/-- A submission adds its entry. -/
lemma submit_queue_perm (s : HotScheduler) (job : HotSchedulerJob) :
    (s.submit job).queue.Perm (⟨-job.queuedPriority, s.sequence + 1, job⟩ :: s.queue) :=
  Heap.heappush_perm _ _ _

/-- A claim finds nothing claimable and changes nothing, or takes the chosen entry out of the queue
and counts it. -/
theorem claimEntry_cases (s : HotScheduler) (workerId : String) :
    ((∀ queued, ¬s.Claimable queued) ∧ s.claimEntry workerId = (none, s)) ∨
      ∃ queued queue, s.Chosen queued ∧ s.queue.Perm (queued :: queue) ∧
        s.claimEntry workerId = (some queued,
          { s with
            queue
            activeWorkers := s.activeWorkers.set workerId queued.job.durableJobUuid
            consecutiveLowPriority :=
              if queued.job.lane ∈ lowPriorityLanes then s.consecutiveLowPriority + 1 else 0
            backpressure := refreshBackpressure queue }) := by
  cases hselect : s.selectNextIndex with
  | none =>
      refine .inl ⟨selectNextIndex_eq_none hselect, ?_⟩
      rw [claimEntry, hselect, Option.bind_none]
  | some index =>
      obtain ⟨queued, hqueued, hchosen⟩ := chosen_of_selectNextIndex hselect
      obtain ⟨hindex, rfl⟩ := List.getElem?_eq_some_iff.mp hqueued
      refine .inr ⟨_, _, hchosen, ?_, by rw [claimEntry, hselect, Option.bind_some, hqueued,
        Option.map_some]⟩
      exact (List.getElem_cons_eraseIdx_perm hindex).symm.trans ((Heap.heapify_perm _ _).symm.cons _)

/-- Of one lane and priority, the entry chosen is the one submitted first. -/
lemma Chosen.sequence_le (h : s.Chosen queued) (hother : s.Claimable other)
    (hlane : other.job.lane = queued.job.lane) (hpriority : other.sortPriority = queued.sortPriority) :
    queued.sequence ≤ other.sequence := by
  by_contra hlt
  refine h.first other hother hlane (Prod.Lex.toLex_lt_toLex.mpr (.inr ⟨hpriority, ?_⟩))
  exact Nat.lt_of_not_le hlt

end HotScheduler

end Memorist
