import Memorist.Library.Dict
import Memorist.Library.KeySort
import Memorist.Library.Runs
import Memorist.Storage.WriteActor

/-!
The queue of the single writer and its accounts (`storage/write_actor.py`).

* `WriteQueue.Actor`, `WriteQueue.act`: callers that number, put and register their commands, and one
  consumer that takes, deregisters and executes them, each step after any other;
* `refreshQueueMetrics`: what the actor reports about its queue;
* `Moves`, `moves_of_act`: all that a step does to the accounts;
* `Sound`, `Accounts`, `Lost`: what every step keeps, what the steps in order keep, and a command that
  the accounts never lose again;
* `idle_iff_ordered`: the accounts of a quiet actor are empty exactly after runs whose steps are in order.
-/

namespace Memorist.WriteQueue

/-! ### The actor -/

/-- A command that was submitted. -/
structure Envelope where
  command : WriteCommand
  submittedAt : ℕ
  priority : ℤ
  sequence : ℕ
  deriving DecidableEq, Repr

/-- An item of the queue; one without a command ends the consumer. -/
structure QueuedEnvelope where
  sortPriority : ℤ
  sequence : ℕ
  envelope : Option Envelope
  deriving DecidableEq, Repr

/-- The order of the queue. -/
def QueuedEnvelope.key (item : QueuedEnvelope) : ℤ ×ₗ ℕ := toLex (item.sortPriority, item.sequence)

/-- Where the consumer stands. -/
inductive Consumer where
  | stopped
  | waiting
  | took (envelope : Envelope)
  | executing (envelope : Envelope)
  deriving DecidableEq, Repr

/-- What imports have to know about the queue. -/
inductive BackpressureState where
  | importQueued
  | queuePressure
  | idle
  deriving DecidableEq, Repr

/-- What the actor reports about its queue. -/
structure QueueMetrics where
  queueDepth : ℕ := 0
  submittedCount : ℕ := 0
  maxQueueDepthSeen : ℕ := 0
  queueDepthByPriority : Dict String ℤ := []
  oldestQueuedCommandAgeMs : ℕ := 0
  importBackpressureState : BackpressureState := .idle
  deriving DecidableEq, Repr

/-- The actor, with the submissions in progress: those that have a number, those that are in the queue
and not registered yet, and those that wait for an answer. -/
structure Actor where
  sequence : ℕ := 0
  numbered : List Envelope := []
  unregistered : List Envelope := []
  awaiting : List Envelope := []
  queue : List QueuedEnvelope := []
  consumer : Consumer := .stopped
  queuedPriorities : Dict ℤ ℤ := []
  queuedSubmittedAt : Dict ℕ ℕ := []
  metrics : QueueMetrics := {}
  deriving DecidableEq, Repr

/-- The priority of a command that names none. -/
def defaultCommandPriority : ℤ := 50

/-- `_refresh_queue_metrics_locked`, for the metrics of the queue. -/
def refreshQueueMetrics (now : ℕ) (s : Actor) : Actor :=
  let queueDepth := s.queue.length
  { s with metrics := { s.metrics with
      queueDepth := queueDepth
      maxQueueDepthSeen := max s.metrics.maxQueueDepthSeen queueDepth
      queueDepthByPriority := (KeySort.sortBy (fun p : ℤ × ℤ => toLex p) s.queuedPriorities).map
        fun p => (toString p.1, p.2)
      oldestQueuedCommandAgeMs := match (s.queuedSubmittedAt.map Prod.snd).min? with
        | some oldest => elapsedMs oldest now
        | none => 0
      importBackpressureState :=
        if s.queuedPriorities.any fun p => p.1 ≤ 40 then .importQueued
        else if 100 ≤ queueDepth then .queuePressure
        else .idle } }

/-- `counter[key] += 1`. -/
def increment (counter : Dict ℤ ℤ) (key : ℤ) : Dict ℤ ℤ :=
  Dict.set counter key ((Dict.get? counter key).getD 0 + 1)

/-- `counter[key] -= 1`, and the key is deleted when nothing is left of it. -/
def decrement (counter : Dict ℤ ℤ) (key : ℤ) : Dict ℤ ℤ :=
  let less := Dict.set counter key ((Dict.get? counter key).getD 0 - 1)
  if (Dict.get? less key).getD 0 ≤ 0 then Dict.erase less key else less

/-- A step of a caller, or of the consumer. -/
inductive ActorEvent where
  /-- `start_sync`: a consumer, unless there is one. -/
  | start
  /-- A caller numbers its command. -/
  | number (command : WriteCommand) (priority : Option ℤ) (now : ℕ)
  /-- The caller puts it into the queue, where the consumer sees it. -/
  | put (envelope : Envelope)
  /-- The caller registers it under the lock. -/
  | register (envelope : Envelope) (now : ℕ)
  /-- The caller has its answer, or waits no longer. -/
  | answer (envelope : Envelope)
  /-- The consumer takes the first item of the queue. -/
  | take
  /-- The consumer takes it off the accounts under the lock. -/
  | deregister (now : ℕ)
  /-- The consumer has executed it and put its answer. -/
  | execute (now : ℕ)
  /-- `stop_sync`: an item that ends the consumer. -/
  | stop
  /-- Somebody asks for the metrics. -/
  | diagnostics (now : ℕ)
  deriving DecidableEq, Repr

/-- A step, where it is one. -/
def act (s : Actor) : ActorEvent → Option Actor
  | .start => some (if s.consumer = .stopped then { s with consumer := .waiting } else s)
  | .number command priority now =>
      let sequence := s.sequence + 1
      some { s with
        sequence := sequence
        numbered := s.numbered ++
          [⟨command, now, priority.getD defaultCommandPriority, sequence⟩] }
  | .put envelope =>
      if envelope ∈ s.numbered then some { s with
        numbered := s.numbered.erase envelope
        unregistered := s.unregistered ++ [envelope]
        queue := s.queue ++ [⟨-envelope.priority, envelope.sequence, some envelope⟩] }
      else none
  | .register envelope now =>
      if envelope ∈ s.unregistered then some (refreshQueueMetrics now { s with
        unregistered := s.unregistered.erase envelope
        awaiting := s.awaiting ++ [envelope]
        queuedPriorities := increment s.queuedPriorities envelope.priority
        queuedSubmittedAt := Dict.set s.queuedSubmittedAt envelope.sequence envelope.submittedAt
        metrics := { s.metrics with submittedCount := s.metrics.submittedCount + 1 } })
      else none
  | .answer envelope =>
      if envelope ∈ s.awaiting then some { s with awaiting := s.awaiting.erase envelope } else none
  | .take =>
      if s.consumer = .waiting then
        match KeySort.sortBy QueuedEnvelope.key s.queue with
        | [] => none
        | item :: queue => match item.envelope with
          | none => some { s with queue := queue, consumer := .stopped }
          | some envelope => some { s with queue := queue, consumer := .took envelope }
      else none
  | .deregister now => match s.consumer with
      | .took envelope => some (refreshQueueMetrics now { s with
          consumer := .executing envelope
          queuedPriorities := decrement s.queuedPriorities envelope.priority
          queuedSubmittedAt := Dict.erase s.queuedSubmittedAt envelope.sequence })
      | _ => none
  | .execute now => match s.consumer with
      | .executing _ => some (refreshQueueMetrics now { s with consumer := .waiting })
      | _ => none
  | .stop =>
      let sequence := s.sequence + 1
      some { s with
        sequence := sequence
        queue := s.queue ++ [⟨10000, sequence, none⟩] }
  | .diagnostics now => some (refreshQueueMetrics now s)

/-- A step of the actor. -/
def Step (s : Actor) (e : ActorEvent) (t : Actor) : Prop := act s e = some t

instance (s : Actor) (e : ActorEvent) (t : Actor) : Decidable (Step s e t) :=
  inferInstanceAs (Decidable (act s e = some t))

/-- The queue is empty, and no submission and no command is in progress. -/
structure Quiet (s : Actor) : Prop where
  numbered : s.numbered = []
  unregistered : s.unregistered = []
  awaiting : s.awaiting = []
  queue : s.queue = []
  consumer : s.consumer = .waiting ∨ s.consumer = .stopped

/-- The accounts are empty, and the actor reports an idle queue whenever it is asked. -/
structure Idle (s : Actor) : Prop where
  queuedPriorities : s.queuedPriorities = []
  queuedSubmittedAt : s.queuedSubmittedAt = []
  depth : ∀ now, (refreshQueueMetrics now s).metrics.queueDepthByPriority = []
  age : ∀ now, (refreshQueueMetrics now s).metrics.oldestQueuedCommandAgeMs = 0
  state : ∀ now, (refreshQueueMetrics now s).metrics.importBackpressureState = .idle

/-- A number is registered. -/
def Registered (s : Actor) (sequence : ℕ) : Prop := Dict.get? s.queuedSubmittedAt sequence ≠ none

/-- What makes a step one in order: the consumer takes a command off the accounts after its caller
has registered it. -/
def InOrder (s : Actor) (e : ActorEvent) : Prop :=
  ∀ now envelope, e = .deregister now → s.consumer = .took envelope → Registered s envelope.sequence

/-- A step in order. -/
def OrderedStep (s : Actor) (e : ActorEvent) (t : Actor) : Prop := Step s e t ∧ InOrder s e

/-! ### What a step does -/

/-- The commands in the queue, and the one that the consumer took and did not deregister yet. -/
def pending (s : Actor) : List Envelope :=
  s.queue.filterMap QueuedEnvelope.envelope ++
    match s.consumer with
    | .took envelope => [envelope]
    | _ => []

/-- What a step does to the accounts and to the commands they are about. -/
inductive Moves (s : Actor) (e : ActorEvent) (t : Actor) : Prop
  | keeps (hother : ∀ now, e ≠ .deregister now) (hsequence : s.sequence ≤ t.sequence)
      (hnumbered : t.numbered = s.numbered) (hunregistered : t.unregistered = s.unregistered)
      (hpending : (pending t).Perm (pending s))
      (hpriorities : t.queuedPriorities = s.queuedPriorities)
      (htimes : t.queuedSubmittedAt = s.queuedSubmittedAt)
  | numbers (envelope : Envelope) (hother : ∀ now, e ≠ .deregister now)
      (hnew : envelope.sequence = s.sequence + 1) (hsequence : t.sequence = s.sequence + 1)
      (hnumbered : t.numbered = s.numbered ++ [envelope])
      (hunregistered : t.unregistered = s.unregistered) (hpending : pending t = pending s)
      (hpriorities : t.queuedPriorities = s.queuedPriorities)
      (htimes : t.queuedSubmittedAt = s.queuedSubmittedAt)
  | puts (envelope : Envelope) (hother : ∀ now, e ≠ .deregister now)
      (hsequence : t.sequence = s.sequence)
      (hnumbered : s.numbered.Perm (envelope :: t.numbered))
      (hunregistered : t.unregistered = s.unregistered ++ [envelope])
      (hpending : (pending t).Perm (envelope :: pending s))
      (hpriorities : t.queuedPriorities = s.queuedPriorities)
      (htimes : t.queuedSubmittedAt = s.queuedSubmittedAt)
  | registers (envelope : Envelope) (hother : ∀ now, e ≠ .deregister now)
      (hsequence : t.sequence = s.sequence)
      (hnumbered : t.numbered = s.numbered)
      (hunregistered : s.unregistered.Perm (envelope :: t.unregistered))
      (hpending : pending t = pending s)
      (hpriorities : t.queuedPriorities = increment s.queuedPriorities envelope.priority)
      (htimes : t.queuedSubmittedAt =
        Dict.set s.queuedSubmittedAt envelope.sequence envelope.submittedAt)
  | deregisters (envelope : Envelope) (now : ℕ) (hevent : e = .deregister now)
      (hconsumer : s.consumer = .took envelope) (hsequence : t.sequence = s.sequence)
      (hnumbered : t.numbered = s.numbered) (hunregistered : t.unregistered = s.unregistered)
      (hpending : (pending s).Perm (envelope :: pending t))
      (hpriorities : t.queuedPriorities = decrement s.queuedPriorities envelope.priority)
      (htimes : t.queuedSubmittedAt = Dict.erase s.queuedSubmittedAt envelope.sequence)

lemma moves_of_act {s t : Actor} {e : ActorEvent} (h : Step s e t) : Moves s e t := by
  rw [Step] at h
  cases e with
  | start =>
      obtain rfl := Option.some.inj h
      split_ifs with hstopped
      · refine .keeps (by simp) le_rfl rfl rfl ?_ rfl rfl
        rw [pending, pending, hstopped]
      · exact .keeps (by simp) le_rfl rfl rfl (.refl _) rfl rfl
  | number command priority now =>
      obtain rfl := Option.some.inj h
      exact .numbers _ (by simp) rfl rfl rfl rfl rfl rfl rfl
  | put envelope =>
      simp only [act] at h
      split_ifs at h with hmem
      obtain rfl := Option.some.inj h
      refine .puts envelope (by simp) rfl (List.perm_cons_erase hmem) rfl ?_ rfl rfl
      simp only [pending, List.filterMap_append, List.append_assoc]
      exact List.perm_middle
  | register envelope now =>
      simp only [act] at h
      split_ifs at h with hmem
      obtain rfl := Option.some.inj h
      exact .registers envelope (by simp) rfl rfl (List.perm_cons_erase hmem) rfl rfl rfl
  | answer envelope =>
      simp only [act] at h
      split_ifs at h with hmem
      obtain rfl := Option.some.inj h
      exact .keeps (by simp) le_rfl rfl rfl (.refl _) rfl rfl
  | take =>
      simp only [act] at h
      split_ifs at h with hwaiting
      have hperm := KeySort.sortBy_perm QueuedEnvelope.key s.queue
      cases hsorted : KeySort.sortBy QueuedEnvelope.key s.queue with
      | nil => rw [hsorted] at h; cases h
      | cons item queue =>
          rw [hsorted] at h hperm
          have hcommands := hperm.symm.filterMap QueuedEnvelope.envelope
          cases hitem : item.envelope with
          | none =>
              simp only [hitem] at h
              obtain rfl := Option.some.inj h
              refine .keeps (by simp) le_rfl rfl rfl ?_ rfl rfl
              rw [List.filterMap_cons_none hitem] at hcommands
              simp only [pending, hwaiting, List.append_nil]
              exact hcommands.symm
          | some envelope =>
              simp only [hitem] at h
              obtain rfl := Option.some.inj h
              refine .keeps (by simp) le_rfl rfl rfl ?_ rfl rfl
              rw [List.filterMap_cons_some hitem] at hcommands
              simp only [pending, hwaiting, List.append_nil]
              exact (List.perm_append_singleton _ _).trans hcommands.symm
  | deregister now =>
      simp only [act] at h
      cases hconsumer : s.consumer with
      | stopped | waiting | executing => rw [hconsumer] at h; cases h
      | took envelope =>
          rw [hconsumer] at h
          obtain rfl := Option.some.inj h
          refine .deregisters envelope now rfl hconsumer rfl rfl rfl ?_ rfl rfl
          simp only [pending, hconsumer, refreshQueueMetrics, List.append_nil]
          exact List.perm_append_singleton _ _
  | execute now =>
      simp only [act] at h
      cases hconsumer : s.consumer with
      | stopped | waiting | took => rw [hconsumer] at h; cases h
      | executing envelope =>
          rw [hconsumer] at h
          obtain rfl := Option.some.inj h
          refine .keeps (by simp) le_rfl rfl rfl ?_ rfl rfl
          simp only [pending, hconsumer, refreshQueueMetrics]
          exact .refl _
  | stop =>
      obtain rfl := Option.some.inj h
      refine .keeps (by simp) (Nat.le_succ _) rfl rfl ?_ rfl rfl
      simp only [pending, List.filterMap_append, List.append_assoc]
      exact .refl _
  | diagnostics now =>
      obtain rfl := Option.some.inj h
      exact .keeps (by simp) le_rfl rfl rfl (.refl _) rfl rfl

/-! ### What every step keeps -/

/-- Numbers are given once, and a pending command is registered or will be. -/
structure Sound (s : Actor) : Prop where
  distinct : ((s.numbered ++ pending s).map Envelope.sequence).Nodup
  distinctUnregistered : ((s.numbered ++ s.unregistered).map Envelope.sequence).Nodup
  numbered_le : ∀ e ∈ s.numbered, e.sequence ≤ s.sequence
  pending_le : ∀ e ∈ pending s, e.sequence ≤ s.sequence
  unregistered_le : ∀ e ∈ s.unregistered, e.sequence ≤ s.sequence
  tracked : ∀ e ∈ pending s, e ∈ s.unregistered ∨ Registered s e.sequence

variable {s t : Actor} {e : ActorEvent} {n : ℕ}

lemma sound_initial : Sound {} where
  distinct := List.nodup_nil
  distinctUnregistered := List.nodup_nil
  numbered_le := by simp
  pending_le := by simp [pending]
  unregistered_le := by simp
  tracked := by simp [pending]

/-- Pending commands of one number are one command. -/
lemma Sound.eq_of_sequence_eq (hs : Sound s) {a b : Envelope} (ha : a ∈ pending s)
    (hb : b ∈ pending s) (h : a.sequence = b.sequence) : a = b := by
  have hnodup : ((pending s).map Envelope.sequence).Nodup := by
    have hall := hs.distinct
    rw [List.map_append] at hall
    exact (List.nodup_append.mp hall).2.1
  exact List.inj_on_of_nodup_map hnodup ha hb h

lemma nodup_sequences {as bs : List Envelope} (h : as.Perm bs)
    (hbs : (bs.map Envelope.sequence).Nodup) : (as.map Envelope.sequence).Nodup :=
  (h.map Envelope.sequence).nodup_iff.mpr hbs

lemma Sound.step (hs : Sound s) (h : Step s e t) : Sound t := by
  cases moves_of_act h with
  | keeps hother hsequence hnumbered hunregistered hpending hpriorities htimes =>
      refine ⟨?_, ?_, ?_, fun a ha => ?_, ?_, fun a ha => ?_⟩
      · exact nodup_sequences (hnumbered ▸ hpending.append_left _) hs.distinct
      · rw [hnumbered, hunregistered]
        exact hs.distinctUnregistered
      · rw [hnumbered]
        exact fun a ha => (hs.numbered_le a ha).trans hsequence
      · exact (hs.pending_le a (hpending.mem_iff.mp ha)).trans hsequence
      · rw [hunregistered]
        exact fun a ha => (hs.unregistered_le a ha).trans hsequence
      · rw [hunregistered, Registered, htimes]
        exact hs.tracked a (hpending.mem_iff.mp ha)
  | numbers envelope hother hnew hsequence hnumbered hunregistered hpending hpriorities htimes =>
      have hfresh : ∀ as : List Envelope, (∀ a ∈ as, a.sequence ≤ s.sequence) →
          (as.map Envelope.sequence).Nodup → ((envelope :: as).map Envelope.sequence).Nodup := by
        intro as has hnodup
        refine List.nodup_cons.mpr ⟨fun hmem => ?_, hnodup⟩
        obtain ⟨a, ha, heq⟩ := List.mem_map.mp hmem
        have := has a ha
        omega
      have hperm : ∀ as, (t.numbered ++ as).Perm (envelope :: (s.numbered ++ as)) := fun as => by
        rw [hnumbered, List.append_assoc, List.singleton_append]
        exact List.perm_middle
      refine ⟨?_, ?_, fun a ha => ?_, ?_, ?_, ?_⟩
      · rw [hpending]
        exact nodup_sequences (hperm _) (hfresh _ (List.forall_mem_append.mpr
          ⟨hs.numbered_le, hs.pending_le⟩) hs.distinct)
      · rw [hunregistered]
        exact nodup_sequences (hperm _) (hfresh _ (List.forall_mem_append.mpr
          ⟨hs.numbered_le, hs.unregistered_le⟩) hs.distinctUnregistered)
      · rw [hnumbered, List.mem_append, List.mem_singleton] at ha
        rcases ha with ha | rfl
        · have := hs.numbered_le a ha
          omega
        · omega
      · rw [hpending, hsequence]
        exact fun a ha => (hs.pending_le a ha).trans (Nat.le_succ _)
      · rw [hunregistered, hsequence]
        exact fun a ha => (hs.unregistered_le a ha).trans (Nat.le_succ _)
      · rw [hpending, hunregistered]
        intro a ha
        rw [Registered, htimes]
        exact hs.tracked a ha
  | puts envelope hother hsequence hnumbered hunregistered hpending hpriorities htimes =>
      have henvelope : envelope ∈ s.numbered := hnumbered.mem_iff.mpr List.mem_cons_self
      refine ⟨?_, ?_, fun a ha => ?_, fun a ha => ?_, fun a ha => ?_, fun a ha => ?_⟩
      · refine nodup_sequences ?_ hs.distinct
        exact (hpending.append_left _).trans (List.perm_middle.trans (hnumbered.symm.append_right _))
      · refine nodup_sequences ?_ hs.distinctUnregistered
        rw [hunregistered]
        exact ((List.perm_append_singleton _ _).append_left _).trans
          (List.perm_middle.trans (hnumbered.symm.append_right _))
      · rw [hsequence]
        exact hs.numbered_le a (hnumbered.mem_iff.mpr (List.mem_cons_of_mem _ ha))
      · rw [hsequence]
        rcases List.mem_cons.mp (hpending.mem_iff.mp ha) with rfl | ha
        · exact hs.numbered_le a henvelope
        · exact hs.pending_le a ha
      · rw [hsequence]
        rw [hunregistered, List.mem_append, List.mem_singleton] at ha
        rcases ha with ha | rfl
        · exact hs.unregistered_le a ha
        · exact hs.numbered_le a henvelope
      · rw [hunregistered, List.mem_append, List.mem_singleton, Registered, htimes]
        rcases List.mem_cons.mp (hpending.mem_iff.mp ha) with rfl | ha
        · exact .inl (.inr rfl)
        · exact (hs.tracked a ha).imp_left .inl
  | registers envelope hother hsequence hnumbered hunregistered hpending hpriorities htimes =>
      have hsub : ∀ a ∈ t.unregistered, a ∈ s.unregistered := fun a ha =>
        hunregistered.mem_iff.mpr (List.mem_cons_of_mem _ ha)
      refine ⟨?_, ?_, ?_, ?_, ?_, fun a ha => ?_⟩
      · rw [hnumbered, hpending]
        exact hs.distinct
      · have hall := nodup_sequences
          (List.perm_middle.symm.trans (hunregistered.symm.append_left s.numbered))
          hs.distinctUnregistered
        rw [hnumbered]
        exact (List.nodup_cons.mp hall).2
      · rw [hnumbered, hsequence]
        exact hs.numbered_le
      · rw [hpending, hsequence]
        exact hs.pending_le
      · rw [hsequence]
        exact fun a ha => hs.unregistered_le a (hsub a ha)
      · rw [hpending] at ha
        rw [Registered, htimes, Dict.get?_set]
        split_ifs with heq
        · exact .inr (by simp)
        · refine (hs.tracked a ha).imp_left fun hmem => ?_
          exact (List.mem_cons.mp (hunregistered.mem_iff.mp hmem)).resolve_left
            fun hself => heq (hself ▸ rfl)
  | deregisters envelope now hevent hconsumer hsequence hnumbered hunregistered hpending hpriorities
      htimes =>
      have hall := nodup_sequences
        (List.perm_middle.symm.trans (hpending.symm.append_left s.numbered)) hs.distinct
      obtain ⟨hout, hrest⟩ := List.nodup_cons.mp hall
      have hsub : ∀ a ∈ pending t, a ∈ pending s := fun a ha =>
        hpending.mem_iff.mpr (List.mem_cons_of_mem _ ha)
      refine ⟨?_, ?_, ?_, ?_, ?_, fun a ha => ?_⟩
      · rw [hnumbered]
        exact hrest
      · rw [hnumbered, hunregistered]
        exact hs.distinctUnregistered
      · rw [hnumbered, hsequence]
        exact hs.numbered_le
      · rw [hsequence]
        exact fun a ha => hs.pending_le a (hsub a ha)
      · rw [hunregistered, hsequence]
        exact hs.unregistered_le
      · have hother : envelope.sequence ≠ a.sequence := fun heq =>
          hout (heq ▸ List.mem_map_of_mem (List.mem_append_right _ ha))
        rw [hunregistered, Registered, htimes, Dict.get?_erase, if_neg hother]
        exact hs.tracked a (hsub a ha)

/-! ### Steps in order -/

/-- A count, unless it is zero. -/
def positive (count : ℕ) : Option ℤ := if count = 0 then none else some count

/-- The accounts are those of the pending commands that are registered. -/
structure Accounts (s : Actor) (registered : List Envelope) : Prop where
  distinct : (registered.map Envelope.sequence).Nodup
  waits : ∀ a ∈ registered, a ∈ pending s
  unregistered : ∀ a ∈ s.unregistered, a ∈ pending s ∧ a ∉ registered
  counts : ∀ p, Dict.get? s.queuedPriorities p =
    positive (registered.countP fun a => a.priority = p)
  times : ∀ n v, Dict.get? s.queuedSubmittedAt n = some v ↔
    ∃ a ∈ registered, a.sequence = n ∧ a.submittedAt = v

lemma accounts_initial : Accounts {} [] where
  distinct := List.nodup_nil
  waits := by simp
  unregistered := by simp
  counts := fun p => rfl
  times := by simp

lemma get?_increment (counter : Dict ℤ ℤ) (key p : ℤ) :
    Dict.get? (increment counter key) p =
      if key = p then some ((Dict.get? counter key).getD 0 + 1) else Dict.get? counter p :=
  Dict.get?_set _ _ _ _

lemma positive_getD (count : ℕ) : (positive count).getD 0 = count := by
  rw [positive]
  split_ifs with h
  · rw [h]
    rfl
  · rfl

/-- One taken off a count. -/
lemma get?_decrement {counter : Dict ℤ ℤ} {key : ℤ} {count : ℕ}
    (h : Dict.get? counter key = positive (count + 1)) (p : ℤ) :
    Dict.get? (decrement counter key) p =
      if key = p then positive count else Dict.get? counter p := by
  have hless : (Dict.get? counter key).getD 0 - 1 = (count : ℤ) := by
    rw [h, positive_getD]
    push_cast
    ring
  rw [decrement, hless]
  simp only [Dict.get?_set, if_true, Option.getD_some]
  by_cases hzero : count = 0
  · rw [if_pos (by omega), Dict.get?_erase, Dict.get?_set]
    split_ifs
    · rw [positive, if_pos hzero]
    · rfl
  · rw [if_neg (by omega), Dict.get?_set, positive, if_neg hzero]

lemma Accounts.step {registered : List Envelope} (hs : Sound s) (ha : Accounts s registered)
    (h : OrderedStep s e t) : ∃ registered, Accounts t registered := by
  obtain ⟨hstep, horder⟩ := h
  cases moves_of_act hstep with
  | keeps hother hsequence hnumbered hunregistered hpending hpriorities htimes =>
      refine ⟨registered, ha.distinct, fun a hmem => hpending.mem_iff.mpr (ha.waits a hmem),
        fun a hmem => ?_, hpriorities ▸ ha.counts, htimes ▸ ha.times⟩
      rw [hunregistered] at hmem
      exact (ha.unregistered a hmem).imp_left hpending.mem_iff.mpr
  | numbers envelope hother hnew hsequence hnumbered hunregistered hpending hpriorities htimes =>
      exact ⟨registered, ha.distinct, hpending ▸ ha.waits, hunregistered ▸ hpending ▸ ha.unregistered,
        hpriorities ▸ ha.counts, htimes ▸ ha.times⟩
  | puts envelope hother hsequence hnumbered hunregistered hpending hpriorities htimes =>
      have hout : envelope ∉ registered := fun hmem => by
        have hall := hs.distinct
        rw [List.map_append] at hall
        have hnumber := List.mem_map_of_mem (f := Envelope.sequence)
          (hnumbered.mem_iff.mpr (List.mem_cons_self (a := envelope)))
        have hwaits := List.mem_map_of_mem (f := Envelope.sequence) (ha.waits envelope hmem)
        exact (List.nodup_append.mp hall).2.2 _ hnumber _ hwaits rfl
      refine ⟨registered, ha.distinct, fun a hmem => ?_, fun a hmem => ?_, hpriorities ▸ ha.counts,
        htimes ▸ ha.times⟩
      · exact hpending.mem_iff.mpr (List.mem_cons_of_mem _ (ha.waits a hmem))
      · rw [hunregistered, List.mem_append, List.mem_singleton] at hmem
        rcases hmem with hmem | rfl
        · exact (ha.unregistered a hmem).imp_left fun hold =>
            hpending.mem_iff.mpr (List.mem_cons_of_mem _ hold)
        · exact ⟨hpending.mem_iff.mpr List.mem_cons_self, hout⟩
  | registers envelope hother hsequence hnumbered hunregistered hpending hpriorities htimes =>
      obtain ⟨hwaits, hout⟩ :=
        ha.unregistered envelope (hunregistered.mem_iff.mpr List.mem_cons_self)
      have hnumber : ∀ a ∈ registered, a.sequence ≠ envelope.sequence := fun a hmem heq =>
        hout (hs.eq_of_sequence_eq (ha.waits a hmem) hwaits heq ▸ hmem)
      have honce : envelope ∉ t.unregistered := fun hmem => by
        have hall := hs.distinctUnregistered
        rw [List.map_append] at hall
        have hnodup := ((hunregistered.map Envelope.sequence).nodup_iff.mp
          (List.nodup_append.mp hall).2.1)
        exact (List.nodup_cons.mp hnodup).1 (List.mem_map_of_mem hmem)
      refine ⟨envelope :: registered, ?_, ?_, fun a hmem => ⟨?_, ?_⟩, fun p => ?_, fun n v => ?_⟩
      · refine List.nodup_cons.mpr ⟨fun hmem => ?_, ha.distinct⟩
        obtain ⟨a, hmem, heq⟩ := List.mem_map.mp hmem
        exact hnumber a hmem heq
      · rw [hpending]
        exact List.forall_mem_cons.mpr ⟨hwaits, ha.waits⟩
      · rw [hpending]
        exact (ha.unregistered a (hunregistered.mem_iff.mpr (List.mem_cons_of_mem _ hmem))).1
      · rintro (_ | ⟨_, hold⟩)
        · exact honce hmem
        · exact (ha.unregistered a
            (hunregistered.mem_iff.mpr (List.mem_cons_of_mem _ hmem))).2 hold
      · rw [hpriorities, get?_increment, List.countP_cons]
        by_cases hp : envelope.priority = p
        · rw [if_pos hp, hp, ha.counts, positive_getD, positive, if_neg (by simp),
            if_pos (by simp)]
          push_cast
          rfl
        · rw [if_neg hp, if_neg (by simpa using hp), ha.counts, Nat.add_zero]
      · rw [htimes, Dict.get?_set, List.exists_mem_cons_iff]
        by_cases hn : envelope.sequence = n
        · rw [if_pos hn, Option.some.injEq]
          constructor
          · exact fun hv => .inl ⟨hn, hv⟩
          · rintro (⟨-, hv⟩ | ⟨a, hmem, heq, -⟩)
            · exact hv
            · exact absurd (heq.trans hn.symm) (hnumber a hmem)
        · rw [if_neg hn, ha.times]
          exact ⟨.inr, fun hor => hor.resolve_left fun hself => hn hself.1⟩
  | deregisters envelope now hevent hconsumer hsequence hnumbered hunregistered hpending hpriorities
      htimes =>
      -- the command is registered, so the accounts hold it
      have hregistered : envelope ∈ registered := by
        obtain ⟨v, hv⟩ := Option.ne_none_iff_exists'.mp (horder now envelope hevent hconsumer)
        obtain ⟨a, hmem, heq, -⟩ := (ha.times _ v).mp hv
        have hwaits : envelope ∈ pending s := hpending.mem_iff.mpr List.mem_cons_self
        exact hs.eq_of_sequence_eq (ha.waits a hmem) hwaits heq ▸ hmem
      have hperm := List.perm_cons_erase hregistered
      obtain ⟨hout, hdistinct⟩ :=
        List.nodup_cons.mp ((hperm.map Envelope.sequence).nodup_iff.mp ha.distinct)
      have hold : ∀ a ∈ registered.erase envelope, a ∈ registered ∧ a.sequence ≠ envelope.sequence :=
        fun a hmem => ⟨List.mem_of_mem_erase hmem, fun heq => hout (heq ▸ List.mem_map_of_mem hmem)⟩
      refine ⟨registered.erase envelope, hdistinct, fun a hmem => ?_, fun a hmem => ⟨?_, ?_⟩,
        fun p => ?_, fun n v => ?_⟩
      · refine (List.mem_cons.mp (hpending.mem_iff.mp (ha.waits a (hold a hmem).1))).resolve_left ?_
        exact fun hself => (hold a hmem).2 (hself ▸ rfl)
      · rw [hunregistered] at hmem
        refine (List.mem_cons.mp (hpending.mem_iff.mp (ha.unregistered a hmem).1)).resolve_left ?_
        exact fun hself => (ha.unregistered a hmem).2 (hself ▸ hregistered)
      · rw [hunregistered] at hmem
        exact fun hin => (ha.unregistered a hmem).2 (hold a hin).1
      · have hcount := hperm.countP_eq fun a => decide (a.priority = p)
        rw [List.countP_cons] at hcount
        have hself := hperm.countP_eq fun a => decide (a.priority = envelope.priority)
        rw [List.countP_cons, if_pos (by simp)] at hself
        rw [hpriorities, get?_decrement ((ha.counts _).trans (congrArg positive hself))]
        by_cases hp : envelope.priority = p
        · rw [if_pos hp, hp]
        · rw [if_neg hp, ha.counts, hcount, if_neg (by simpa using hp), Nat.add_zero]
      · rw [htimes, Dict.get?_erase]
        by_cases hn : envelope.sequence = n
        · rw [if_pos hn]
          refine iff_of_false (by simp) ?_
          rintro ⟨a, hmem, heq, -⟩
          exact (hold a hmem).2 (heq.trans hn.symm)
        · rw [if_neg hn, ha.times]
          constructor
          · rintro ⟨a, hmem, heq, hv⟩
            refine ⟨a, (List.mem_cons.mp (hperm.mem_iff.mp hmem)).resolve_left ?_, heq, hv⟩
            exact fun hself => hn (hself ▸ heq)
          · rintro ⟨a, hmem, h⟩
            exact ⟨a, (hold a hmem).1, h⟩

/-! ### Steps out of order -/

/-- A command that was taken off the accounts before it was registered. -/
structure Lost (s : Actor) (n : ℕ) : Prop where
  le : n ≤ s.sequence
  numbered : ∀ a ∈ s.numbered, a.sequence ≠ n
  waits : ∀ a ∈ pending s, a.sequence ≠ n
  late : (∃ a ∈ s.unregistered, a.sequence = n) ∨ Registered s n

lemma Lost.step (hl : Lost s n) (h : Step s e t) : Lost t n := by
  cases moves_of_act h with
  | keeps hother hsequence hnumbered hunregistered hpending hpriorities htimes =>
      refine ⟨hl.le.trans hsequence, hnumbered ▸ hl.numbered,
        fun a ha => hl.waits a (hpending.mem_iff.mp ha), ?_⟩
      rw [hunregistered, Registered, htimes]
      exact hl.late
  | numbers envelope hother hnew hsequence hnumbered hunregistered hpending hpriorities htimes =>
      have hle := hl.le
      refine ⟨by omega, fun a ha => ?_, hpending ▸ hl.waits, ?_⟩
      · rw [hnumbered, List.mem_append, List.mem_singleton] at ha
        rcases ha with ha | rfl
        · exact hl.numbered a ha
        · omega
      · rw [hunregistered, Registered, htimes]
        exact hl.late
  | puts envelope hother hsequence hnumbered hunregistered hpending hpriorities htimes =>
      refine ⟨hsequence ▸ hl.le,
        fun a ha => hl.numbered a (hnumbered.mem_iff.mpr (List.mem_cons_of_mem _ ha)),
        fun a ha => ?_, ?_⟩
      · rcases List.mem_cons.mp (hpending.mem_iff.mp ha) with rfl | ha
        · exact hl.numbered a (hnumbered.mem_iff.mpr List.mem_cons_self)
        · exact hl.waits a ha
      · rw [hunregistered, Registered, htimes]
        exact hl.late.imp_left fun ⟨a, ha, heq⟩ => ⟨a, List.mem_append_left _ ha, heq⟩
  | registers envelope hother hsequence hnumbered hunregistered hpending hpriorities htimes =>
      refine ⟨hsequence ▸ hl.le, hnumbered ▸ hl.numbered, hpending ▸ hl.waits, ?_⟩
      rw [Registered, htimes, Dict.get?_set]
      split_ifs with hself
      · exact .inr (by simp)
      · refine hl.late.imp_left fun ⟨a, ha, heq⟩ => ⟨a, ?_, heq⟩
        exact (List.mem_cons.mp (hunregistered.mem_iff.mp ha)).resolve_left
          fun hsame => hself (hsame ▸ heq)
  | deregisters envelope now hevent hconsumer hsequence hnumbered hunregistered hpending hpriorities
      htimes =>
      refine ⟨hsequence ▸ hl.le, hnumbered ▸ hl.numbered,
        fun a ha => hl.waits a (hpending.mem_iff.mpr (List.mem_cons_of_mem _ ha)), ?_⟩
      rw [hunregistered, Registered, htimes, Dict.get?_erase,
        if_neg (hl.waits envelope (hpending.mem_iff.mpr List.mem_cons_self))]
      exact hl.late

lemma inOrder_of_ne (h : ∀ now, e ≠ .deregister now) : InOrder s e := fun now _ hevent =>
  absurd hevent (h now)

/-- A step out of order loses a command. -/
lemma exists_lost (hs : Sound s) (h : Step s e t) (horder : ¬InOrder s e) : ∃ n, Lost t n := by
  cases moves_of_act h with
  | deregisters envelope now hevent hconsumer hsequence hnumbered hunregistered hpending hpriorities
      htimes =>
      have hall := nodup_sequences
        (List.perm_middle.symm.trans (hpending.symm.append_left s.numbered)) hs.distinct
      have hout := (List.nodup_cons.mp hall).1
      have hwaits : envelope ∈ pending s := hpending.mem_iff.mpr List.mem_cons_self
      have hunknown : ¬Registered s envelope.sequence := fun hregistered => by
        refine horder fun now' other hevent' hconsumer' => ?_
        obtain rfl := Consumer.took.inj (hconsumer.symm.trans hconsumer')
        exact hregistered
      have hlate := (hs.tracked envelope hwaits).resolve_right hunknown
      refine ⟨envelope.sequence, hsequence ▸ hs.pending_le envelope hwaits, fun a ha heq => ?_,
        fun a ha heq => ?_, .inl ⟨envelope, hunregistered ▸ hlate, rfl⟩⟩
      · exact hout (heq ▸ List.mem_map_of_mem (List.mem_append_left _ (hnumbered ▸ ha)))
      · exact hout (heq ▸ List.mem_map_of_mem (List.mem_append_right _ ha))
  | keeps hother | numbers _ hother | puts _ hother | registers _ hother =>
      exact absurd (inOrder_of_ne hother) horder

/-! ### The accounts of a quiet actor -/

variable {es : List ActorEvent}

/-- The steps of a run are in order and its accounts are those of the pending commands, or a command
is lost. -/
lemma ordered_or_lost (h : Runs Step {} es s) :
    Sound s ∧ ((Runs OrderedStep {} es s ∧ ∃ registered, Accounts s registered) ∨ ∃ n, Lost s n) := by
  induction h with
  | refl => exact ⟨sound_initial, .inl ⟨.refl, [], accounts_initial⟩⟩
  | @tail s t es e h hstep ih =>
      obtain ⟨hs, ⟨hordered, registered, haccounts⟩ | ⟨n, hlost⟩⟩ := ih
      · refine ⟨hs.step hstep, ?_⟩
        by_cases horder : InOrder s e
        · exact .inl ⟨hordered.tail ⟨hstep, horder⟩, haccounts.step hs ⟨hstep, horder⟩⟩
        · exact .inr (exists_lost hs hstep horder)
      · exact ⟨hs.step hstep, .inr ⟨n, hlost.step hstep⟩⟩

lemma accounts_of_ordered (h : Runs OrderedStep {} es s) : ∃ registered, Accounts s registered := by
  have hinvariant : Sound s ∧ ∃ registered, Accounts s registered := by
    refine h.invariant (I := fun s => Sound s ∧ ∃ registered, Accounts s registered) ?_
      ⟨sound_initial, [], accounts_initial⟩
    rintro a e b ⟨hs, registered, haccounts⟩ hstep
    exact ⟨hs.step hstep.1, haccounts.step hs hstep⟩
  exact hinvariant.2

lemma pending_of_quiet (hq : Quiet s) : pending s = [] := by
  rw [pending, hq.queue]
  rcases hq.consumer with h | h
  · rw [h]
    rfl
  · rw [h]
    rfl

/-- Empty accounts are reported as an idle queue. -/
lemma idle_of_empty (hq : Quiet s) (hpriorities : s.queuedPriorities = [])
    (htimes : s.queuedSubmittedAt = []) : Idle s where
  queuedPriorities := hpriorities
  queuedSubmittedAt := htimes
  depth := fun now => by rw [refreshQueueMetrics, hpriorities]; rfl
  age := fun now => by rw [refreshQueueMetrics, htimes]; rfl
  state := fun now => by rw [refreshQueueMetrics, hpriorities, hq.queue]; rfl

/-- The accounts of a quiet actor are empty, and it reports an idle queue, exactly after runs whose
steps are in order. -/
theorem idle_iff_ordered (h : Runs Step {} es s) (hq : Quiet s) : Idle s ↔ Runs OrderedStep {} es s := by
  constructor
  · intro hidle
    obtain ⟨-, ⟨hordered, -⟩ | ⟨n, hlost⟩⟩ := ordered_or_lost h
    · exact hordered
    · rcases hlost.late with ⟨a, ha, -⟩ | hregistered
      · exact absurd ha (hq.unregistered ▸ List.not_mem_nil)
      · rw [Registered, hidle.queuedSubmittedAt] at hregistered
        exact absurd rfl hregistered
  · intro hordered
    obtain ⟨registered, haccounts⟩ := accounts_of_ordered hordered
    have hnone : registered = [] := List.eq_nil_iff_forall_not_mem.mpr fun a ha => by
      have hmem := haccounts.waits a ha
      rw [pending_of_quiet hq] at hmem
      exact List.not_mem_nil hmem
    subst hnone
    refine idle_of_empty hq (Dict.eq_nil_of_get? fun p => haccounts.counts p)
      (Dict.eq_nil_of_get? fun n => ?_)
    by_contra hsome
    obtain ⟨v, hv⟩ := Option.ne_none_iff_exists'.mp hsome
    obtain ⟨a, ha, -⟩ := (haccounts.times n v).mp hv
    exact List.not_mem_nil ha

/-! ### Two interleavings -/

/-- The actor after steps, if they are steps. -/
def after (es : List ActorEvent) : Actor := (es.foldlM act {}).getD {}

lemma runs_of_foldlM {es : List ActorEvent} : ∀ {s t : Actor}, es.foldlM act s = some t →
    Runs Step s es t := by
  induction es with
  | nil =>
      intro s t h
      obtain rfl := Option.some.inj h
      exact .refl
  | cons e es ih =>
      intro s t h
      rw [List.foldlM_cons, Option.bind_eq_bind, Option.bind_eq_some_iff] at h
      obtain ⟨u, hfirst, hrest⟩ := h
      have hone : Runs Step s [e] u := Runs.tail .refl hfirst
      exact hone.trans (ih hrest)

/-- A command of an import. -/
def importCommand : Envelope := ⟨{ commandType := "import" }, 7, 40, 1⟩

/-- Its steps, registered before the consumer comes to it. -/
def registeredFirst : List ActorEvent :=
  [.start, .number { commandType := "import" } (some 40) 7, .put importCommand,
    .register importCommand 8, .take, .deregister 9, .execute 10, .answer importCommand]

/-- Its steps, registered after the consumer is done with it. -/
def registeredLast : List ActorEvent :=
  [.start, .number { commandType := "import" } (some 40) 7, .put importCommand, .take, .deregister 8,
    .execute 9, .register importCommand 10, .answer importCommand]

theorem idle_after_registeredFirst : Idle (after registeredFirst) ↔
    Runs OrderedStep {} registeredFirst (after registeredFirst) :=
  idle_iff_ordered (runs_of_foldlM rfl) ⟨rfl, rfl, rfl, rfl, .inl rfl⟩

/-- A caller that comes to the lock after the consumer leaves an import in the accounts for good. -/
theorem not_idle_registeredLast : ¬ ∀ es s, Runs Step {} es s → Quiet s → Idle s := by
  intro h
  have hidle := h registeredLast (after registeredLast) (runs_of_foldlM rfl)
    ⟨rfl, rfl, rfl, rfl, .inl rfl⟩
  exact absurd hidle.queuedPriorities (by decide)

end Memorist.WriteQueue
