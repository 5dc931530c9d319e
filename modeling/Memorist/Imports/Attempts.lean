import Memorist.Imports.LeaseSafety

/-!
The attempts at an imported message, over any run of the workers.

* `ImportRequest.IsAutomatic`: the requests that are no retry by hand;
* `importAttemptDiscipline`: a program puts a message back as the row that it has read says;
* `ReturnsUncounted`: a release or a recovery that puts a message back without a count;
* `AttemptsCounted`: the claims and the delays of a message, against the count of its row;
* `attempts_bounded`: where no return is uncounted, the claims are bounded and the delays grow;
* `crash_cycle`, `not_attempts_bounded`: a worker that crashes each time claims a message for ever.
-/

namespace Memorist

open Fallible

/-- A request that the workers make by themselves, or that controls a run. -/
def ImportRequest.IsAutomatic : ImportRequest → Prop
  | work _ _ _ _ | processBatch _ _ _ _ _ | processDirectly _ _ _ _ _ | heartbeat _ _ _ _ => True
  | pause _ | resume _ | cancel _ => True
  | commitBatch _ _ _ _ | retryFailed _ => False

/-! ### What a program has read of a message -/

/-- The attempts that a message is given before it fails. -/
def importMaxAttempts : ℕ := 5

/-- The seconds before a message is tried again that was put back so many times. -/
def retryDelay (retryCount : ℕ) : ℕ := min 900 (10 * 2 ^ retryCount)

/-- What a program must have read of a message for an effect. -/
def attemptRequires (known : List StatusRow) : ImportEffect → Prop
  | .publish statusUuid attempt (.requeued delay) => ∃ row ∈ known, row.statusUuid = statusUuid ∧
      row.processingAttemptUuid = some attempt.2 ∧ row.retryCount + 1 < importMaxAttempts ∧
        delay = retryDelay row.retryCount
  | .requeueFailed _ _ | .insertStatus _ => False
  | _ => True

/-- What a program has read after an effect. -/
def attemptAfter (known : List StatusRow) : (e : ImportEffect) → e.Response → List StatusRow
  | .getStatus _, .ok row => Option.toList row ++ known
  | _, _ => known

/-- A program puts a message back as the row that it has read says, and adds no message. -/
def importAttemptDiscipline : Discipline ImportEffect.Response (List StatusRow) where
  requires := attemptRequires
  after := attemptAfter

/-- The program keeps the discipline from whatever more it has read. -/
def KeepsImportAttempts (known : List StatusRow) {α : Type} (p : ImportProgram α) : Prop :=
  ∀ known', known ⊆ known' →
    Prog.Keeps importAttemptDiscipline (fun known'' _ => known' ⊆ known'') known' p

section

variable {known known' : List StatusRow} {α β : Type} {e : ImportEffect}
  {k : e.Answer → ImportProgram α} {p : ImportProgram α} {f : α → ImportProgram β}

/-- Nothing that was read is lost. -/
lemma subset_attemptAfter (known : List StatusRow) (e : ImportEffect) (response : e.Response) :
    known ⊆ attemptAfter known e response := by
  unfold attemptAfter
  split
  · exact List.subset_append_right _ _
  · exact List.Subset.refl _

lemma KeepsImportAttempts.mono (h : KeepsImportAttempts known p) (hsub : known ⊆ known') :
    KeepsImportAttempts known' p :=
  fun known'' hsub' => h known'' (List.Subset.trans hsub hsub')

lemma keepsAttempts_done (answer : Except ImportError α) :
    KeepsImportAttempts known (.done answer : ImportProgram α) := fun _ _ => List.Subset.refl _

lemma keepsAttempts_ask (hreq : ∀ known', known ⊆ known' → attemptRequires known' e)
    (hk : ∀ a, KeepsImportAttempts known (k a)) : KeepsImportAttempts known (ask e k) := by
  intro known' hsub
  refine keeps_ask.mpr ⟨hreq known' hsub, fun a => ?_, fun error => subset_attemptAfter known' e _⟩
  have hafter := subset_attemptAfter known' e (.ok a)
  exact (hk a _ (List.Subset.trans hsub hafter)).imp fun _ _ hsub' =>
    List.Subset.trans hafter hsub'

/-- An effect that needs nothing. -/
lemma keepsAttempts_read (hreq : ∀ known', attemptRequires known' e)
    (hk : ∀ a, KeepsImportAttempts known (k a)) : KeepsImportAttempts known (ask e k) :=
  keepsAttempts_ask (fun known' _ => hreq known') hk

lemma KeepsImportAttempts.andThen (h : KeepsImportAttempts known p) (hf : ∀ a, KeepsImportAttempts known (f a)) :
    KeepsImportAttempts known (andThen p f) := by
  intro known' hsub
  refine keeps_andThen ((h known' hsub).imp fun known'' answer hsub' =>
    ⟨fun a _ => ?_, fun _ _ => hsub'⟩)
  exact (hf a known'' (List.Subset.trans hsub hsub')).imp fun _ _ hsub'' =>
    List.Subset.trans hsub' hsub''

lemma KeepsImportAttempts.attempt {handle : Except ImportError α → ImportProgram β}
    (h : KeepsImportAttempts known p) (hf : ∀ answer, KeepsImportAttempts known (handle answer)) :
    KeepsImportAttempts known (attempt p handle) := by
  intro known' hsub
  refine Prog.Keeps.bind ((h known' hsub).imp fun known'' answer hsub' => ?_)
  exact (hf answer known'' (List.Subset.trans hsub hsub')).imp fun _ _ hsub'' =>
    List.Subset.trans hsub' hsub''

/-! ### Processing -/

lemma keepsAttempts_finalizeIfTerminal (run : String) :
    KeepsImportAttempts known (finalizeIfTerminal run) := by
  have hfinish : ∀ status, KeepsImportAttempts known
      (ask (.finishRun run status) fun () => pure true : ImportProgram Bool) := fun status =>
    keepsAttempts_read (fun _ => trivial) fun _ => keepsAttempts_done _
  refine keepsAttempts_read (fun _ => trivial) fun rows =>
    keepsAttempts_read (fun _ => trivial) fun control => ?_
  split_ifs
  · exact hfinish _
  · exact hfinish _
  · split
    · exact keepsAttempts_done _
    · exact hfinish _

lemma keepsAttempts_finalizeReadyRuns (run? : Option String) :
    KeepsImportAttempts known (finalizeReadyRuns run?) := by
  refine keepsAttempts_read (fun _ => trivial) fun runs => ?_
  induction runs with
  | nil => exact keepsAttempts_done _
  | cons run runs ih => exact (keepsAttempts_finalizeIfTerminal run).andThen fun _ => ih

/-- What follows a claim knows the row that was claimed. -/
lemma keepsAttempts_claimNextMessage (workerId : String) (leaseSeconds : ℕ) (run? : Option String)
    {f : Option StatusRow → ImportProgram α} (hnone : KeepsImportAttempts known (f none))
    (hsome : ∀ row, KeepsImportAttempts (row :: known) (f (some row))) :
    KeepsImportAttempts known (Fallible.andThen (claimNextMessage workerId leaseSeconds run?) f) := by
  intro known' hsub
  refine keeps_andThen (keeps_ask.mpr ⟨trivial, fun selected => ?_, fun error => ?_⟩)
  · rcases selected with _ | row
    · exact ⟨fun a ha => Except.ok.inj ha ▸ hnone known' hsub, fun _ h => nomatch h⟩
    · refine keeps_ask.mpr ⟨trivial, fun claimed => ?_, fun error => ?_⟩
      · rcases claimed with _ | _
        · exact ⟨fun a ha => Except.ok.inj ha ▸ hnone known' hsub, fun _ h => nomatch h⟩
        · refine keeps_ask.mpr ⟨trivial, fun read => ?_, fun error => ?_⟩
          · rcases read with _ | read
            · exact ⟨fun a ha => Except.ok.inj ha ▸ hnone known' hsub, fun _ h => nomatch h⟩
            · refine ⟨fun a ha => Except.ok.inj ha ▸ ?_, fun _ h => nomatch h⟩
              exact (hsome read _ (List.cons_subset_cons _ hsub)).imp fun _ _ hsub' =>
                List.Subset.trans (List.subset_cons_self _ _) hsub'
          · exact ⟨(fun _ h => nomatch h), fun _ _ => List.Subset.refl _⟩
      · exact ⟨(fun _ h => nomatch h), fun _ _ => List.Subset.refl _⟩
  · exact ⟨(fun _ h => nomatch h), fun _ _ => List.Subset.refl _⟩

section

variable (U : UnicodeData) (leaseSeconds : ℕ) (workerId statusUuid : String)
  (attempt : ImportAttempt)

lemma keepsAttempts_requireFence (beforeProvider : Bool) :
    KeepsImportAttempts known (requireFence leaseSeconds statusUuid attempt beforeProvider) := by
  refine keepsAttempts_read (fun _ => trivial) fun
    | false => keepsAttempts_done _
    | true => ?_
  dsimp only
  split_ifs
  · refine keepsAttempts_read (fun _ => trivial) fun
      | false => keepsAttempts_done _
      | true => keepsAttempts_done _
  · exact keepsAttempts_done _

lemma keepsAttempts_runPipeline (result : Except ImportError String) (fences : List Bool) :
    KeepsImportAttempts known (runPipeline leaseSeconds statusUuid attempt result fences) := by
  induction fences with
  | nil => exact keepsAttempts_done _
  | cons beforeProvider fences ih =>
      exact (keepsAttempts_requireFence leaseSeconds statusUuid attempt beforeProvider).andThen
        fun _ => ih

lemma keepsAttempts_attemptMessage (row : StatusRow) (pipeline : ImportPipeline) :
    KeepsImportAttempts known (attemptMessage leaseSeconds row attempt pipeline) := by
  have hfence : KeepsImportAttempts known
      (requireFence leaseSeconds row.statusUuid attempt false) :=
    keepsAttempts_requireFence leaseSeconds row.statusUuid attempt false
  have hjob : KeepsImportAttempts known (startJob row) := by
    unfold startJob
    split
    · exact keepsAttempts_done _
    · refine keepsAttempts_read (fun _ => trivial) fun
        | false => keepsAttempts_done _
        | true => keepsAttempts_done _
  refine hfence.andThen fun _ => hjob.andThen fun _ =>
    keepsAttempts_read (fun _ => trivial) fun _ => hfence.andThen fun _ => ?_
  refine (keepsAttempts_runPipeline _ _ _ _ _).andThen fun _ =>
    keepsAttempts_read (fun _ => trivial) fun
      | false => keepsAttempts_done _
      | true => keepsAttempts_done _

/-- A failure is published as the row says that was read. -/
lemma keepsAttempts_processOne {row : StatusRow} (hrow : row ∈ known) (pipeline : ImportPipeline) :
    KeepsImportAttempts known (processOne U leaseSeconds row workerId pipeline) := by
  unfold processOne
  split
  · exact keepsAttempts_done _
  rename_i attemptUuid hattempt
  refine (keepsAttempts_attemptMessage _ _ _ _).attempt fun
    | .ok () => keepsAttempts_done _
    | .error error => ?_
  dsimp only
  split_ifs
  · exact keepsAttempts_read (fun _ => trivial) fun _ => keepsAttempts_done _
  · refine keepsAttempts_ask (fun known' hsub => ?_) fun _ => keepsAttempts_done _
    rw [failureTransition]
    split_ifs with hretry
    · simp only [Bool.and_eq_true, decide_eq_true_eq] at hretry
      exact ⟨row, hsub hrow, rfl, hattempt, hretry.2, rfl⟩
    · trivial

lemma keepsAttempts_processOneClaimedItem (run? : Option String)
    (pipeline : StatusRow → ImportPipeline) :
    KeepsImportAttempts known (processOneClaimedItem U leaseSeconds workerId run? pipeline) := by
  refine keepsAttempts_read (fun _ => trivial) fun _ => keepsAttempts_claimNextMessage _ _ _
    ((keepsAttempts_finalizeReadyRuns _).andThen fun _ => keepsAttempts_done _) fun row =>
      keepsAttempts_read (fun _ => trivial) fun status =>
        keepsAttempts_read (fun _ => trivial) fun control => ?_
  split_ifs
  · split
    · exact keepsAttempts_done _
    · exact keepsAttempts_read (fun _ => trivial) fun _ => keepsAttempts_done _
  · exact (keepsAttempts_processOne _ _ _ List.mem_cons_self _).attempt fun _ =>
      (keepsAttempts_finalizeIfTerminal _).andThen fun _ => keepsAttempts_done _

end

/-- Every automatic request puts messages back as their rows say. -/
theorem ImportRequest.IsAutomatic.keeps (P : ImportPlatform) {request : ImportRequest}
    (h : request.IsAutomatic) : KeepsImportAttempts [] (request.program P) := by
  cases request with
  | commitBatch => exact h.elim
  | retryFailed => exact h.elim
  | work workerId leaseSeconds run? pipeline =>
      exact (keepsAttempts_processOneClaimedItem _ _ _ _ _).andThen fun _ => keepsAttempts_done _
  | processBatch workerId leaseSeconds run limit pipeline =>
      refine KeepsImportAttempts.andThen ?_ fun _ =>
        (keepsAttempts_finalizeIfTerminal run).andThen fun _ => keepsAttempts_done _
      induction max 1 limit with
      | zero => exact keepsAttempts_done _
      | succ n ih =>
          refine (keepsAttempts_processOneClaimedItem _ _ _ _ _).andThen fun
            | false => keepsAttempts_done _
            | true => ih
  | processDirectly workerId leaseSeconds run limit pipeline =>
      refine keepsAttempts_read (fun _ => trivial) fun
        | none => keepsAttempts_done _
        | some _ => keepsAttempts_read (fun _ => trivial) fun control => ?_
      split_ifs
      · exact keepsAttempts_done _
      refine KeepsImportAttempts.andThen ?_ fun _ =>
        (keepsAttempts_finalizeIfTerminal run).andThen fun _ => keepsAttempts_done _
      induction max 1 limit with
      | zero => exact keepsAttempts_done _
      | succ n ih =>
          refine keepsAttempts_read (fun _ => trivial) fun control => ?_
          split_ifs
          · exact keepsAttempts_done _
          · exact keepsAttempts_claimNextMessage _ _ _ (keepsAttempts_done _) fun row =>
              (keepsAttempts_processOne _ _ _ List.mem_cons_self _).andThen fun _ =>
                ih.mono (List.nil_subset _)
  | heartbeat leaseSeconds statusUuid attempt renewals =>
      clear h
      change KeepsImportAttempts [] (Memorist.heartbeat leaseSeconds statusUuid attempt renewals)
      induction renewals with
      | zero => exact keepsAttempts_done _
      | succ n ih =>
          refine keepsAttempts_read (fun _ => trivial) fun
            | false => keepsAttempts_done _
            | true => ih
  | pause run =>
      exact keepsAttempts_read (fun _ => trivial) fun _ =>
        keepsAttempts_read (fun _ => trivial) fun _ => keepsAttempts_done _
  | resume run =>
      exact keepsAttempts_read (fun _ => trivial) fun _ =>
        keepsAttempts_read (fun _ => trivial) fun _ =>
          keepsAttempts_read (fun _ => trivial) fun _ => keepsAttempts_done _
  | cancel run =>
      exact keepsAttempts_read (fun _ => trivial) fun _ =>
        keepsAttempts_read (fun _ => trivial) fun _ => keepsAttempts_done _

end

/-! ### Claims and delays -/

/-- Whether an effect has claimed a message. -/
def isClaimOf (statusUuid : String) : Performed ImportEffect.Response → Bool
  | ⟨.claimRow name _ _, .ok claimed⟩ => name = statusUuid && claimed
  | _ => false

/-- The delay with which an effect has put a message back, if it has. -/
def delayOf (statusUuid : String) : Performed ImportEffect.Response → Option ℕ
  | ⟨.publish name _ (.requeued delay), .ok published⟩ =>
      if name = statusUuid && published then some delay else none
  | _ => none

/-- How often a message was claimed. -/
def importClaimsOf (statusUuid : String) (es : List (Performed ImportEffect.Response)) : ℕ :=
  es.countP (isClaimOf statusUuid)

/-- The delays with which a message was put back. -/
def delaysOf (statusUuid : String) (es : List (Performed ImportEffect.Response)) : List ℕ :=
  es.filterMap (delayOf statusUuid)

/-- A release or a recovery puts a message back in the queue, and counts no attempt. -/
def ReturnsUncounted (statusUuid : String) (s : ImportStore) (e : ImportEffect) (t : ImportStore) :
    Prop :=
  (e = .recoverExpired ∨ ∃ name attempt, e = .releaseClaim name attempt) ∧
    (∃ row ∈ s.statuses.table.get? statusUuid, row.status = .running) ∧
      ∃ row ∈ t.statuses.table.get? statusUuid, row.status = .queued

/-- While the attempt of a row that was read owns the row, its count is as it was read. -/
def ImportStore.Remembers (s : ImportStore) (read : StatusRow) : Prop :=
  ∀ name ∈ read.processingAttemptUuid, name ∈ s.statuses.attempts ∧
    ∀ row ∈ s.statuses.table.get? read.statusUuid, row.status = .running →
      row.processingAttemptUuid = some name → row.retryCount = read.retryCount

/-- What an effect does to the attempts at a message. -/
inductive ImportAttemptStep (statusUuid : String) (x : Performed ImportEffect.Response)
    (row row' : StatusRow) : Prop
  | same (hclaim : isClaimOf statusUuid x = false) (hdelay : delayOf statusUuid x = none)
      (hcount : row'.retryCount = row.retryCount)
      (hqueued : row'.status = .queued → row.status = .queued)
  | claimed (hclaim : isClaimOf statusUuid x = true) (hdelay : delayOf statusUuid x = none)
      (hcount : row'.retryCount = row.retryCount) (hqueued : row.status = .queued)
      (hrunning : row'.status ≠ .queued)
  | putBack (hclaim : isClaimOf statusUuid x = false)
      (hdelay : delayOf statusUuid x = some (retryDelay row.retryCount))
      (hcount : row'.retryCount = row.retryCount + 1) (hbound : row.retryCount + 1 < importMaxAttempts)
      (hrunning : row.status ≠ .queued)

section

variable {U : UnicodeData} {s s₀ t : ImportStore} {e : ImportEffect} {response : e.Response}
  {statusUuid : String} {row row' : StatusRow} {known : List StatusRow}

/-- What was read of a row that an effect reads. -/
lemma remembers_of_get? (hrow : s.statuses.table.get? statusUuid = some row) : s.Remembers row := by
  intro name hname
  refine ⟨s.statuses.issued row (Table.get?_eq_some.mp hrow).1 name hname, fun other hother _ _ => ?_⟩
  rw [Table.key_of_get? hrow, hrow] at hother
  rw [Option.mem_some_iff.mp hother]

/-- A row keeps its count while it is owned. -/
lemma StatusStep.retryCount_eq (hstep : StatusStep s e row row') {name : String}
    (hissued : name ∈ s.statuses.attempts) (hrunning : row'.status = .running)
    (hname : row'.processingAttemptUuid = some name) :
    row'.retryCount = row.retryCount ∧ row.status = .running ∧
      row.processingAttemptUuid = some name := by
  cases hstep with
  | kept => exact ⟨rfl, hrunning, hname⟩
  | claimed _ _ _ attempt _ _ hnew =>
      have heq : attempt = name := Option.some_inj.mp hname
      exact absurd hissued (heq ▸ hnew)
  | renewed => exact ⟨rfl, hrunning, hname⟩
  | published name publication =>
      cases publication <;> exact absurd hrunning (by simp [StatusRow.published])
  | released => exact absurd hrunning (by simp [StatusRow.released])
  | recovered => exact absurd hrunning (by simp [StatusRow.released])
  | requeued => exact absurd hrunning (by simp [StatusRow.requeued])
  | cancelled => exact absurd hrunning (by simp [StatusRow.cancelled])

/-- What was read stays true of the row while its attempt owns it. -/
lemma ImportStore.Remembers.step {read : StatusRow} (h : s.Remembers read)
    (heffect : importEffect U s e response t) : t.Remembers read := by
  intro name hname
  obtain ⟨hissued, hcount⟩ := h name hname
  obtain ⟨hsub, hnew⟩ := importEffect_newStatus heffect read.statusUuid
  refine ⟨hsub hissued, fun row' hrow' hrunning hown => ?_⟩
  rcases hrow : s.statuses.table.get? read.statusUuid with _ | row
  · obtain ⟨-, -, -, -, hnone, -⟩ := hnew hrow row' hrow'
    rw [hown] at hnone
    cases hnone
  · obtain ⟨row'', hrow'', hstep⟩ := importEffect_statusStep heffect hrow
    obtain rfl := Option.mem_some_iff.mp (hrow'' ▸ hrow')
    obtain ⟨heq, hrunning₀, hown₀⟩ := hstep.retryCount_eq hissued hrunning hown
    rw [heq]
    exact hcount row hrow hrunning₀ hown₀

/-- An effect that neither claims nor publishes leaves the count, and puts nothing back that counts. -/
lemma StatusStep.attemptStep (hstep : StatusStep s e row row')
    (hrow : s.statuses.table.get? statusUuid = some row)
    (hrow' : t.statuses.table.get? statusUuid = some row')
    (hclaim : ∀ name workerId leaseSeconds, e ≠ .claimRow name workerId leaseSeconds)
    (hpublish : ∀ name attempt publication, e ≠ .publish name attempt publication)
    (hreq : attemptRequires known e) (hcounted : ¬ReturnsUncounted statusUuid s e t) :
    row'.retryCount = row.retryCount ∧ (row'.status = .queued → row.status = .queued) := by
  cases hstep with
  | kept => exact ⟨rfl, id⟩
  | claimed name workerId leaseSeconds => exact absurd rfl (hclaim name workerId leaseSeconds)
  | published name publication => exact absurd rfl (hpublish name _ publication)
  | renewed => exact ⟨rfl, id⟩
  | released name howned =>
      exact absurd ⟨.inr ⟨name, _, rfl⟩, ⟨row, hrow, (StatusRow.isOwned_iff.mp howned).1⟩,
        _, hrow', rfl⟩ hcounted
  | recovered hrunning => exact absurd ⟨.inl rfl, ⟨row, hrow, hrunning⟩, _, hrow', rfl⟩ hcounted
  | requeued => exact hreq.elim
  | cancelled => exact ⟨rfl, fun h => absurd h (by simp [StatusRow.cancelled])⟩

/-- An effect takes the attempts at a message by a step. -/
theorem importEffect_attemptStep (heffect : importEffect U s e response t)
    (hrow : s.statuses.table.get? statusUuid = some row) (hreq : attemptRequires known e)
    (hknown : ∀ read ∈ known, s.Remembers read) (hcounted : ¬ReturnsUncounted statusUuid s e t) :
    ∃ row', t.statuses.table.get? statusUuid = some row' ∧
      ImportAttemptStep statusUuid ⟨e, response⟩ row row' := by
  obtain ⟨row', hrow', hstep⟩ := importEffect_statusStep heffect hrow
  have hsame : ∀ {x : Performed ImportEffect.Response}, isClaimOf statusUuid x = false →
      delayOf statusUuid x = none → t = s → ∃ row', t.statuses.table.get? statusUuid = some row' ∧
        ImportAttemptStep statusUuid x row row' := by
    rintro x hclaim hdelay rfl
    exact ⟨row, hrow, .same hclaim hdelay rfl id⟩
  cases e with
  | claimRow name workerId leaseSeconds =>
      cases response with
      | error error => exact hsame rfl rfl heffect.1
      | ok claimed =>
          obtain ⟨attempt, now, -, hanswer, ht⟩ := heffect
          have hget : t.statuses.table.get? statusUuid =
              some (if decide (row.statusUuid = name) && decide (row.status = .queued) then
                row.claimedBy (workerId, attempt) now leaseSeconds else row) := by
            rw [ht]
            exact (@Table.get?_updateWhere _ _ _ _ s.statuses.table statusUuid _
              (StatusRow.claimedBy (workerId, attempt) now leaseSeconds) fun _ => rfl).trans
                (by rw [hrow, Option.map_some])
          rw [hget]
          refine ⟨_, rfl, ?_⟩
          rw [Table.key_of_get? hrow]
          by_cases hname : name = statusUuid
          · subst hname
            rw [hrow, Option.any_some] at hanswer
            by_cases hqueued : row.status = .queued
            · refine .claimed ?_ rfl ?_ hqueued ?_
              · simp [isClaimOf, hanswer, hqueued]
              · simp [hqueued, StatusRow.claimedBy]
              · simp [hqueued, StatusRow.claimedBy]
            · obtain rfl : claimed = false := by
                rw [hanswer]
                exact decide_eq_false hqueued
              refine .same ?_ rfl ?_ ?_
              · simp [isClaimOf]
              · simp [hqueued]
              · simp [hqueued]
          · have hne : ¬statusUuid = name := fun h => hname h.symm
            refine .same ?_ rfl ?_ ?_
            · change (decide (name = statusUuid) && claimed) = false
              rw [decide_eq_false hname]
              rfl
            · simp [hne]
            · simp [hne]
  | publish name attempt publication =>
      by_cases hok : response = .ok true
      swap
      · refine hsame rfl ?_ (publish_refused heffect hok)
        cases response with
        | error error => cases publication <;> rfl
        | ok published =>
            obtain rfl : published = false := by
              cases published with
              | false => rfl
              | true => exact absurd rfl hok
            cases publication <;> simp [delayOf]
      subst hok
      obtain ⟨owned, now, finished, howned, hisOwned, -, -, ht, hpublished⟩ := publish_applied heffect
      by_cases hname : name = statusUuid
      · subst hname
        obtain rfl := Option.some_inj.mp (hrow.symm.trans howned)
        obtain ⟨hrunning, -, hattempt⟩ := StatusRow.isOwned_iff.mp hisOwned
        refine ⟨_, hpublished, ?_⟩
        cases publication with
        | succeeded processingRunUuid =>
            exact .same rfl rfl rfl fun h => absurd h (by simp [StatusRow.published])
        | failed => exact .same rfl rfl rfl fun h => absurd h (by simp [StatusRow.published])
        | requeued delay =>
            obtain ⟨read, hread, hkey, hread', hbound, rfl⟩ := hreq
            have hcount := (hknown read hread attempt.2 hread').2 row (hkey ▸ hrow) hrunning hattempt
            refine .putBack rfl ?_ rfl (hcount ▸ hbound) (by simp [hrunning])
            simp [delayOf, hcount]
      · have hkept : t.statuses.table.get? statusUuid = some row := by
          simp only [ht, ImportStore.publish, StatusTable.updateWhere, Table.get?_updateWhere, hrow,
            Option.map_some]
          rw [if_neg]
          have hne : ¬row.statusUuid = name := fun h => hname (h.symm.trans (Table.key_of_get? hrow))
          simp [ImportStore.ownedRow, hne]
        refine ⟨row, hkept, .same rfl ?_ rfl id⟩
        cases publication <;> simp [delayOf, hname]
  | _ =>
      obtain ⟨hcount, hqueued⟩ := hstep.attemptStep hrow hrow' (by simp) (by simp) hreq hcounted
      exact ⟨row', hrow', .same rfl rfl hcount hqueued⟩

/-! ### Runs -/

/-- The claims of a message and its delays, against the count of its row: each claim but the last was
counted when it ended, and a message that was put back by hand more often than it is tried is not
put back again. -/
structure AttemptsCounted (statusUuid : String) (first row : StatusRow)
    (es : List (Performed ImportEffect.Response)) : Prop where
  grows : first.retryCount ≤ row.retryCount
  bounded : row.retryCount ≤ max first.retryCount (importMaxAttempts - 1)
  claims : importClaimsOf statusUuid es + first.retryCount ≤
    row.retryCount + if row.status = .queued then 0 else 1
  delays : ∀ delay ∈ delaysOf statusUuid es, delay ≤ retryDelay row.retryCount
  sorted : (delaysOf statusUuid es).Pairwise (· ≤ ·)

lemma retryDelay_mono {m n : ℕ} (h : m ≤ n) : retryDelay m ≤ retryDelay n :=
  min_le_min le_rfl (Nat.mul_le_mul_left 10 (Nat.pow_le_pow_right (by decide) h))

lemma claimsOf_append (es : List (Performed ImportEffect.Response))
    (x : Performed ImportEffect.Response) : importClaimsOf statusUuid (es ++ [x]) =
      importClaimsOf statusUuid es + if isClaimOf statusUuid x then 1 else 0 := by
  rw [importClaimsOf, List.countP_append, List.countP_singleton]
  rfl

lemma delaysOf_append (es : List (Performed ImportEffect.Response))
    (x : Performed ImportEffect.Response) : delaysOf statusUuid (es ++ [x]) =
      delaysOf statusUuid es ++ (delayOf statusUuid x).toList := by
  rw [delaysOf, List.filterMap_append]
  cases hdelay : delayOf statusUuid x <;> simp [delaysOf, hdelay]

/-- A step of the attempts keeps the count. -/
lemma AttemptsCounted.step {first : StatusRow} {es : List (Performed ImportEffect.Response)}
    {x : Performed ImportEffect.Response} (h : AttemptsCounted statusUuid first row es)
    (hstep : ImportAttemptStep statusUuid x row row') :
    AttemptsCounted statusUuid first row' (es ++ [x]) := by
  obtain ⟨hgrows, hbounded, hclaims, hdelays, hsorted⟩ := h
  cases hstep with
  | same hclaim hdelay hcount hqueued =>
      have hes : delaysOf statusUuid (es ++ [x]) = delaysOf statusUuid es := by
        rw [delaysOf_append, hdelay, Option.toList_none, List.append_nil]
      refine ⟨hcount ▸ hgrows, hcount ▸ hbounded, ?_, by rw [hes, hcount]; exact hdelays,
        by rw [hes]; exact hsorted⟩
      rw [claimsOf_append, hclaim, hcount, if_neg (by decide)]
      by_cases hqueued' : row'.status = .queued
      · rw [if_pos (hqueued hqueued')] at hclaims
        rw [if_pos hqueued']
        omega
      · rw [if_neg hqueued']
        split_ifs at hclaims <;> omega
  | claimed hclaim hdelay hcount hqueued hrunning =>
      have hes : delaysOf statusUuid (es ++ [x]) = delaysOf statusUuid es := by
        rw [delaysOf_append, hdelay, Option.toList_none, List.append_nil]
      refine ⟨hcount ▸ hgrows, hcount ▸ hbounded, ?_, by rw [hes, hcount]; exact hdelays,
        by rw [hes]; exact hsorted⟩
      rw [if_pos hqueued] at hclaims
      rw [claimsOf_append, hclaim, hcount, if_neg hrunning, if_pos rfl]
      omega
  | putBack hclaim hdelay hcount hbound hrunning =>
      have hes : delaysOf statusUuid (es ++ [x]) =
          delaysOf statusUuid es ++ [retryDelay row.retryCount] := by
        rw [delaysOf_append, hdelay, Option.toList_some]
      have hmono : retryDelay row.retryCount ≤ retryDelay row'.retryCount :=
        retryDelay_mono (by omega)
      refine ⟨by omega, ?_, ?_, ?_, ?_⟩
      · rw [hcount]
        exact le_max_of_le_right (by omega)
      · rw [if_neg hrunning] at hclaims
        rw [claimsOf_append, hclaim, hcount, if_neg (by decide)]
        omega
      · intro delay hmem
        rw [hes] at hmem
        rcases List.mem_append.mp hmem with hold | hnew
        · exact (hdelays delay hold).trans hmono
        · exact List.mem_singleton.mp hnew ▸ hmono
      · rw [hes]
        refine List.pairwise_append.mpr ⟨hsorted, List.pairwise_singleton _ _, ?_⟩
        intro delay hold last hlast
        exact List.mem_singleton.mp hlast ▸ hdelays delay hold

/-- What a program has read after an effect is remembered. -/
lemma remembers_after (heffect : importEffect U s e response t)
    (hknown : ∀ read ∈ known, s.Remembers read) :
    ∀ read ∈ attemptAfter known e response, t.Remembers read := by
  have hold : ∀ read ∈ known, t.Remembers read := fun read hread => (hknown read hread).step heffect
  unfold attemptAfter
  split
  · rename_i name row
    obtain ⟨rfl, rfl⟩ := heffect
    intro read hread
    rcases List.mem_append.mp hread with hnew | hread
    · exact remembers_of_get? (Table.key_of_get? (Option.mem_toList.mp hnew) ▸
        Option.mem_toList.mp hnew)
    · exact hold read hread
  · exact hold

/-- A message that is not there is neither claimed nor put back. -/
lemma not_counted_of_none (heffect : importEffect U s e response t)
    (hrow : s.statuses.table.get? statusUuid = none) :
    isClaimOf statusUuid ⟨e, response⟩ = false ∧ delayOf statusUuid ⟨e, response⟩ = none := by
  cases e with
  | claimRow name workerId leaseSeconds =>
      refine ⟨?_, rfl⟩
      cases response with
      | error error => rfl
      | ok claimed =>
          obtain ⟨attempt, now, -, hanswer, -⟩ := heffect
          by_cases hname : name = statusUuid
          · subst hname
            obtain rfl : claimed = false := by rw [hanswer, hrow, Option.any_none]
            simp [isClaimOf]
          · change (decide (name = statusUuid) && claimed) = false
            rw [decide_eq_false hname]
            rfl
  | publish name attempt publication =>
      refine ⟨rfl, ?_⟩
      by_cases hok : response = .ok true
      · subst hok
        obtain ⟨row, -, -, howned, -⟩ := publish_applied heffect
        have hname : ¬name = statusUuid := by
          rintro rfl
          rw [hrow] at howned
          cases howned
        cases publication <;> simp [delayOf, hname]
      · cases response with
        | error error => cases publication <;> rfl
        | ok published =>
            obtain rfl : published = false := by
              cases published with
              | false => rfl
              | true => exact absurd rfl hok
            cases publication <;> simp [delayOf]
  | _ => exact ⟨rfl, rfl⟩

/-- The message of a name against its row in the store that a run has started from. -/
def CountedFrom (statusUuid : String) (s₀ s : ImportStore)
    (es : List (Performed ImportEffect.Response)) : Prop :=
  match s₀.statuses.table.get? statusUuid with
  | none => s.statuses.table.get? statusUuid = none ∧ importClaimsOf statusUuid es = 0 ∧
      delaysOf statusUuid es = []
  | some first => ∃ row, s.statuses.table.get? statusUuid = some row ∧
      AttemptsCounted statusUuid first row es

/-- An effect that returns no message uncounted keeps the count. -/
lemma CountedFrom.step {es : List (Performed ImportEffect.Response)}
    (h : CountedFrom statusUuid s₀ s es) (heffect : importEffect U s e response t)
    (hreq : attemptRequires known e) (hknown : ∀ read ∈ known, s.Remembers read)
    (hcounted : ¬ReturnsUncounted statusUuid s e t) :
    CountedFrom statusUuid s₀ t (es ++ [⟨e, response⟩]) := by
  unfold CountedFrom at h ⊢
  split at h
  · obtain ⟨hnone, hclaims, hdelays⟩ := h
    obtain ⟨hclaim, hdelay⟩ := not_counted_of_none heffect hnone
    refine ⟨?_, by rw [claimsOf_append, hclaims, hclaim]; rfl,
      by rw [delaysOf_append, hdelays, hdelay]; rfl⟩
    rcases hrow : t.statuses.table.get? statusUuid with _ | row
    · rfl
    · obtain ⟨new, _, rfl, -⟩ := (importEffect_newStatus heffect statusUuid).2 hnone row hrow
      exact hreq.elim
  · obtain ⟨row, hrow, hcount⟩ := h
    obtain ⟨row', hrow', hstep⟩ := importEffect_attemptStep heffect hrow hreq hknown hcounted
    exact ⟨row', hrow', hcount.step hstep⟩

/-- The start of a run. -/
lemma countedFrom_start (statusUuid : String) (s₀ : ImportStore) :
    CountedFrom statusUuid s₀ s₀ [] := by
  unfold CountedFrom
  split
  · rename_i hnone
    exact ⟨hnone, rfl, rfl⟩
  · rename_i first hfirst
    refine ⟨first, hfirst, le_rfl, le_max_left _ _, ?_, fun _ h => absurd h List.not_mem_nil, .nil⟩
    rw [importClaimsOf, List.countP_nil]
    omega

end

section

variable {P : ImportPlatform} {s₀ : ImportStore} {statusUuid : String}
  {labels : List (Option (Performed ImportEffect.Response))} {pool : ImportPool}

/-- A step of automatic requests that returns a message only with its attempt counted. -/
def CountedStep (P : ImportPlatform) (statusUuid : String) (a : ImportPool)
    (label : Option (Performed ImportEffect.Response)) (b : ImportPool) : Prop :=
  ImportStep P ImportRequest.IsAutomatic a label b ∧
    ∀ x ∈ label, ¬ReturnsUncounted statusUuid a.shared x.1 b.shared

/-- A run of such steps keeps the count. -/
lemma counted_of_runs (hruns : Runs (CountedStep P statusUuid) ⟨s₀, 0⟩ labels pool) :
    CountedFrom statusUuid s₀ pool.shared labels.reduceOption := by
  let effect (s : ImportStore) (e : ImportEffect) (response : e.Response) (t : ImportStore) : Prop :=
    importEffect P.unicode s e response t ∧ ¬ReturnsUncounted statusUuid s e t
  have hruns' : Runs (PoolStep effect fun p =>
      ∃ request : ImportRequest, request.IsAutomatic ∧ p = request.program P) ⟨s₀, 0⟩ labels pool :=
    hruns.imp fun ⟨hstep, hcounted⟩ => by
      cases hstep with
      | start h => exact .start h
      | act h => exact .act ⟨h, hcounted _ rfl⟩
      | stop => exact .stop
  obtain ⟨held, -, -, hcount⟩ := PoolStep.invariant importAttemptDiscipline []
    (I := fun (s : ImportStore) (held : Multiset (List StatusRow)) es =>
      (∀ known ∈ held, ∀ read ∈ known, s.Remembers read) ∧ CountedFrom statusUuid s₀ s es)
    (fun p ⟨request, hrequest, hp⟩ => by
      rw [hp]
      exact (hrequest.keeps P [] (List.Subset.refl _)).imp fun _ _ _ => trivial)
    (fun ⟨hheld, hcount⟩ => by
      refine ⟨fun known hmem => ?_, hcount⟩
      rcases Multiset.mem_cons.mp hmem with rfl | hmem
      · exact fun _ hread => absurd hread List.not_mem_nil
      · exact hheld known hmem)
    (fun ⟨hheld, hcount⟩ => ⟨fun known hmem => hheld known (Multiset.mem_cons_of_mem hmem), hcount⟩)
    (fun ⟨hheld, hcount⟩ hreq ⟨heffect, hcounted⟩ => by
      obtain ⟨hknown, hheld⟩ := Multiset.forall_mem_cons.mp hheld
      refine ⟨Multiset.forall_mem_cons.mpr ⟨remembers_after heffect hknown, ?_⟩,
        hcount.step heffect hreq hknown hcounted⟩
      exact fun known hmem read hread => (hheld known hmem read hread).step heffect)
    ⟨by simp, countedFrom_start statusUuid s₀⟩ hruns'
  exact hcount

/-- **Attempts.** Where each return to the queue is counted, a message is claimed at most five times,
the delays between its attempts do not decrease, and after the fifth claim it is not queued again. -/
theorem attempts_bounded (P : ImportPlatform) (s₀ : ImportStore) (statusUuid : String)
    (labels : List (Option (Performed ImportEffect.Response))) (pool : ImportPool)
    (hruns : Runs (CountedStep P statusUuid) ⟨s₀, 0⟩ labels pool) :
    importClaimsOf statusUuid labels.reduceOption ≤ importMaxAttempts ∧
      (delaysOf statusUuid labels.reduceOption).Pairwise (· ≤ ·) ∧
      (importClaimsOf statusUuid labels.reduceOption = importMaxAttempts →
        ∀ row ∈ pool.shared.statuses.table.get? statusUuid, row.status ≠ .queued) := by
  have hcount := counted_of_runs hruns
  unfold CountedFrom at hcount
  split at hcount
  · obtain ⟨hnone, hclaims, hdelays⟩ := hcount
    rw [hclaims, hdelays, hnone]
    exact ⟨Nat.zero_le _, .nil, fun h => absurd h (by decide)⟩
  · obtain ⟨row, hrow, hgrows, hbounded, hclaims, -, hsorted⟩ := hcount
    rename_i first _
    have hmax : max first.retryCount (importMaxAttempts - 1) ≤ first.retryCount + (importMaxAttempts - 1) :=
      max_le (Nat.le_add_right _ _) (Nat.le_add_left _ _)
    refine ⟨?_, hsorted, fun hfive row' hrow' hqueued => ?_⟩
    · have hone : (if row.status = .queued then 0 else 1) ≤ 1 := by split_ifs <;> decide
      have hpos : 0 < importMaxAttempts := by decide
      omega
    · obtain rfl := Option.mem_some_iff.mp (hrow ▸ hrow')
      rw [if_pos hqueued] at hclaims
      have hpos : 0 < importMaxAttempts := by decide
      omega

end

/-! ### A worker that crashes -/

/-- A message that waits to be processed. -/
def waitingStatus : StatusRow where
  statusUuid := "s1"
  importRunUuid := "r1"
  sourcePlatform := "chatgpt"
  sourceConversationId := some "c1"
  sourceMessageId := "m1"
  targetSessionUuid := "t1"
  targetMessageUuid := "g1"
  processingMode := .fullMemoryReconstruction
  processingStage := "memory_extraction"
  status := .queued
  processingIdentityHash := "g1:tea"

/-- A run with this message, after some attempts. -/
def crashStore (names : List String) : ImportStore where
  runs := ⟨[⟨"r1", .processing⟩], nodup_processingRun⟩
  statuses :=
    { table := ⟨[waitingStatus], by decide⟩
      attempts := names
      unique := by decide
      issued := by
        intro row hrow name hname
        obtain rfl := List.mem_singleton.mp hrow
        cases hname }

/-- An iteration of a worker. -/
def crashingWorker : ImportRequest := .work "w1" 60 none fun _ => ⟨[], .ok "p1"⟩

/-- A worker claims the message. -/
def claimLabels : List (Option (Performed ImportEffect.Response)) :=
  [none, some ⟨.recoverExpired, .ok ()⟩, some ⟨.selectQueued none, .ok (some waitingStatus)⟩,
    some ⟨.claimRow "s1" "w1" 60, .ok true⟩]

/-- The worker crashes, and the next one recovers the lease. -/
def crashLabels : List (Option (Performed ImportEffect.Response)) :=
  claimLabels ++ [none, none, some ⟨.recoverExpired, .ok ()⟩, none]

section

variable {names : List String} {name : String}

/-- The store after the claim. -/
def claimedStore (names : List String) (name : String) : ImportStore :=
  { crashStore names with
    statuses := (crashStore names).statuses.claim "s1" ("w1", name) 0 60 }

/-- The run of a claim. -/
lemma claim_runs (hname : name ∉ names) :
    ∃ p, Runs (ImportStep plainImports ImportRequest.IsAutomatic) ⟨crashStore names, 0⟩ claimLabels
      ⟨claimedStore names name, p ::ₘ 0⟩ := by
  have hstart : ImportStep plainImports ImportRequest.IsAutomatic ⟨crashStore names, 0⟩ none
      ⟨crashStore names, crashingWorker.program plainImports ::ₘ 0⟩ :=
    .start ⟨crashingWorker, trivial, rfl⟩
  have hrecover : importEffect basicLatin (crashStore names) .recoverExpired (.ok ())
      (crashStore names) := ⟨0, rfl⟩
  have hselect : importEffect basicLatin (crashStore names) (.selectQueued none)
      (.ok (some waitingStatus)) (crashStore names) := ⟨⟨0, rfl⟩, rfl⟩
  have hclaim : importEffect basicLatin (crashStore names) (.claimRow "s1" "w1" 60) (.ok true)
      (claimedStore names name) := ⟨name, 0, hname, rfl, rfl⟩
  exact ⟨_, (((Runs.refl.tail hstart).tail (.act hrecover)).tail (.act hselect)).tail (.act hclaim)⟩

/-- **Crashes.** A worker that crashes leaves the message in the queue, as it was. -/
lemma crash_cycle (hname : name ∉ names) :
    Runs (ImportStep plainImports ImportRequest.IsAutomatic) ⟨crashStore names, 0⟩ crashLabels
      ⟨crashStore (name :: names), 0⟩ := by
  obtain ⟨p, hclaimed⟩ := claim_runs hname
  have hrecover : importEffect basicLatin (claimedStore names name) .recoverExpired (.ok ())
      (crashStore (name :: names)) := ⟨addSeconds 0 60, rfl⟩
  have hstart : ImportStep plainImports ImportRequest.IsAutomatic ⟨claimedStore names name, 0⟩ none
      ⟨claimedStore names name, crashingWorker.program plainImports ::ₘ 0⟩ :=
    .start ⟨crashingWorker, trivial, rfl⟩
  exact hclaimed.trans ((((Runs.refl.tail .stop).tail hstart).tail (.act hrecover)).tail .stop)

end

/-- An iteration of a worker whose pipeline times out. -/
def retryingWorker : ImportRequest := .work "w1" 60 none fun _ => ⟨[], .error ⟨"TimeoutError", ""⟩⟩

/-- The message while its first attempt works on it. -/
def claimedStatus : StatusRow := waitingStatus.claimedBy ("w1", "a1") 0 60

/-- The store after the first attempt, which puts the message back for ten seconds. -/
def delayedStore : ImportStore := (claimedStore [] "a1").publish 1 "s1" ("w1", "a1") (.requeued 10)

/-- What the first attempt does after it has recovered leases. -/
def attemptEffects : List (Performed ImportEffect.Response) :=
  [⟨.selectQueued none, .ok (some waitingStatus)⟩, ⟨.claimRow "s1" "w1" 60, .ok true⟩,
    ⟨.getStatus "s1", .ok (some claimedStatus)⟩, ⟨.getRun "r1", .ok (some .processing)⟩,
    ⟨.getControl "r1", .ok ({} : ImportControl)⟩, ⟨.leaseFence "s1" ("w1", "a1"), .ok true⟩,
    ⟨.prepareMessage claimedStatus, .ok ()⟩, ⟨.leaseFence "s1" ("w1", "a1"), .ok true⟩,
    ⟨.publish "s1" ("w1", "a1") (.requeued 10), .ok true⟩]

/-- What the second one has done once it has claimed the message. -/
def againEffects : List (Performed ImportEffect.Response) :=
  [⟨.selectQueued none, .ok (delayedStore.statuses.table.get? "s1")⟩,
    ⟨.claimRow "s1" "w1" 60, .ok true⟩]

/-- The message is claimed, put back and claimed again. -/
theorem attempts_bounded_retried : ∃ labels pool,
    Runs (CountedStep plainImports "s1") ⟨crashStore [], 0⟩ labels pool ∧
      importClaimsOf "s1" labels.reduceOption = 2 ∧ delaysOf "s1" labels.reduceOption = [10] ∧
      importClaimsOf "s1" labels.reduceOption ≤ importMaxAttempts ∧
      (delaysOf "s1" labels.reduceOption).Pairwise (· ≤ ·) ∧
      (importClaimsOf "s1" labels.reduceOption = importMaxAttempts →
        ∀ row ∈ pool.shared.statuses.table.get? "s1", row.status ≠ .queued) := by
  -- each attempt begins with a recovery that finds no message in work
  have hbegin : ∀ {s : ImportStore} {ps : Multiset (ImportProgram Unit)} {now : Timestamp},
      s.recoverExpired now = s → (∀ row ∈ s.statuses.table.get? "s1", row.status ≠ .running) →
        ∃ p, retryingWorker.program plainImports = .call .recoverExpired p ∧
          Runs (CountedStep plainImports "s1") ⟨s, ps⟩ [none, some ⟨.recoverExpired, .ok ()⟩]
            ⟨s, p (.ok ()) ::ₘ ps⟩ := by
    intro s ps now hsame hidle
    refine ⟨_, rfl, (Runs.refl.tail ⟨.start ⟨retryingWorker, trivial, rfl⟩, fun x hx => by cases hx⟩).tail
      ⟨.act ⟨now, hsame.symm⟩, fun x hx => ?_⟩⟩
    rintro ⟨-, ⟨row, hrow, hrunning⟩, -⟩
    exact hidle row hrow hrunning
  have hcounted : ∀ {es : List (Performed ImportEffect.Response)},
      (∀ x ∈ es, x.1 ≠ .recoverExpired ∧ ∀ name attempt, x.1 ≠ .releaseClaim name attempt) →
      ∀ label ∈ es.map some, ∀ (a b : ImportPool), ∀ x ∈ label,
        ¬ReturnsUncounted "s1" a.shared x.1 b.shared := by
    rintro es hes label hlabel a b x hx ⟨hrecovers | ⟨name, attempt, hreleases⟩, -⟩
    all_goals obtain ⟨y, hy, rfl⟩ := List.mem_map.mp hlabel
    all_goals obtain rfl := Option.some.inj hx
    · exact (hes y hy).1 hrecovers
    · exact (hes y hy).2 name attempt hreleases
  obtain ⟨p, hp, hfirst⟩ := @hbegin (crashStore []) 0 0 rfl (by decide)
  obtain ⟨q, hattempt⟩ : ∃ q, Prog.Exec (importEffect basicLatin) (crashStore []) (p (.ok ()))
      attemptEffects q delayedStore := by
    obtain rfl := (Prog.call.inj hp).2
    let claimed : ImportStore := claimedStore [] "a1"
    exact ⟨_, .call (t := crashStore []) ⟨⟨0, rfl⟩, rfl⟩ (.call (t := claimed)
      ⟨"a1", 0, by decide, rfl, rfl⟩ (.call (t := claimed) ⟨rfl, rfl⟩ (.call (t := claimed) ⟨rfl, rfl⟩
        (.call (t := claimed) ⟨rfl, rfl⟩ (.call (t := claimed) ⟨⟨0, rfl⟩, rfl⟩
          (.call (t := claimed) rfl (.call (t := claimed) ⟨⟨0, rfl⟩, rfl⟩
            (.call ⟨0, 1, rfl, rfl⟩ (.refl _ _)))))))))⟩
  obtain ⟨p', hp', hsecond⟩ := @hbegin delayedStore (q ::ₘ 0) 0 rfl (by decide)
  obtain ⟨q', hagain⟩ : ∃ q', Prog.Exec (importEffect basicLatin) delayedStore (p' (.ok ()))
      againEffects q' { delayedStore with
        statuses := delayedStore.statuses.claim "s1" ("w1", "a2") (addSeconds 1 10) 60 } := by
    obtain rfl := (Prog.call.inj hp').2
    exact ⟨_, .call (t := delayedStore) ⟨⟨addSeconds 1 10, rfl⟩, rfl⟩
      (.call ⟨"a2", addSeconds 1 10, by decide, rfl, rfl⟩ (.refl _ _))⟩
  have hruns := (hfirst.trans ((PoolStep.runs_exec hattempt 0).restrict
    (hcounted (by simp [attemptEffects])))).trans
      (hsecond.trans ((PoolStep.runs_exec hagain (q ::ₘ 0)).restrict
        (hcounted (by simp [againEffects]))))
  exact ⟨_, _, hruns, rfl, rfl, attempts_bounded plainImports (crashStore []) "s1" _ _ hruns⟩

/-- After six crashes the message was claimed six times, and is queued again. -/
theorem not_attempts_bounded : ¬∀ (P : ImportPlatform) (s₀ : ImportStore) (statusUuid : String)
    (labels : List (Option (Performed ImportEffect.Response))) (pool : ImportPool),
      Runs (ImportStep P ImportRequest.IsAutomatic) ⟨s₀, 0⟩ labels pool →
        importClaimsOf statusUuid labels.reduceOption ≤ importMaxAttempts := by
  intro h
  have hsix := (((((@crash_cycle [] "a1" (by decide)).trans
    (@crash_cycle _ "a2" (by decide))).trans
    (@crash_cycle _ "a3" (by decide))).trans
    (@crash_cycle _ "a4" (by decide))).trans
    (@crash_cycle _ "a5" (by decide))).trans (@crash_cycle _ "a6" (by decide))
  exact absurd (h _ _ "s1" _ _ hsix) (by decide)

end Memorist
