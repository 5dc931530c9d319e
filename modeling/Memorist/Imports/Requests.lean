import Memorist.Imports.Commit

/-!
The requests on imports, and what each of them does on a run.

* `ImportRequest`: commits, iterations of workers, and the control of a run;
* `runDiscipline`: what a program must have read of a run before it writes to it;
* `ImportRequest.keeps`: every request keeps the discipline.
-/

namespace Memorist

open Fallible

/-! ### Requests -/

/-- A request on imports. -/
inductive ImportRequest where
  | commitBatch (run : String) (mode : ProcessingMode) (batchSize maxWriteQueueDepth : ℕ)
  | work (workerId : String) (leaseSeconds : ℕ) (run? : Option String)
      (pipeline : StatusRow → ImportPipeline)
  | processBatch (workerId : String) (leaseSeconds : ℕ) (run : String) (limit : ℕ)
      (pipeline : StatusRow → ImportPipeline)
  | processDirectly (workerId : String) (leaseSeconds : ℕ) (run : String) (limit : ℕ)
      (pipeline : StatusRow → ImportPipeline)
  | heartbeat (leaseSeconds : ℕ) (statusUuid : String) (attempt : ImportAttempt) (renewals : ℕ)
  | retryFailed (run : String)
  | pause (run : String)
  | resume (run : String)
  | cancel (run : String)

/-- The program of a request. -/
def ImportRequest.program (P : ImportPlatform) : ImportRequest → ImportProgram Unit
  | commitBatch run mode batchSize maxWriteQueueDepth =>
      commitNextBatch P run mode batchSize maxWriteQueueDepth
  | work workerId leaseSeconds run? pipeline =>
      andThen (processOneClaimedItem P.unicode leaseSeconds workerId run? pipeline) fun _ => pure ()
  | processBatch workerId leaseSeconds run limit pipeline =>
      processNextBatch P.unicode leaseSeconds workerId run limit pipeline
  | processDirectly workerId leaseSeconds run limit pipeline =>
      processBatchDirectly P.unicode leaseSeconds workerId run limit pipeline
  | heartbeat leaseSeconds statusUuid attempt renewals =>
      Memorist.heartbeat leaseSeconds statusUuid attempt renewals
  | retryFailed run => Memorist.retryFailed run
  | pause run => pauseImport run
  | resume run => resumeImport run
  | cancel run => cancelImport run

/-- A step of the requests that are allowed, in any order of statements, each of which may raise and
after each of which a request may stop. -/
abbrev ImportStep (P : ImportPlatform) (allowed : ImportRequest → Prop) :=
  PoolStep (α := Except ImportError Unit) (importEffect P.unicode)
    fun p => ∃ request, allowed request ∧ p = request.program P

/-! ### What is read before it is written -/

/-- Whether a run has ended with its messages processed. -/
def ImportRunStatus.isFinal : ImportRunStatus → Bool
  | fullyReconstructed | completedWithFailures => true
  | _ => false

/-- The run is neither cancelled nor paused. -/
def ImportControl.goesOn (control : ImportControl) : Bool := !control.cancelled && !control.paused

/-- What a program holds of a run: whether it may resume it or retry its messages, whether it found
the run neither cancelled nor paused, whether it has conversations of it to commit, whether it found
a message in work that it looked for, what its last report says of the end of the run, and how it is
to end it, once it has found after a report that the run goes on. -/
structure RunHeld where
  resumes : Bool := false
  retries : Bool := false
  checked : Bool := false
  batch : Bool := false
  inWork : Bool := false
  report : Option (Option ImportRunStatus) := none
  decided : Option ImportRunStatus := none

/-- A program that holds no less. -/
structure RunHeld.Le (g g' : RunHeld) : Prop where
  resumes : g.resumes → g'.resumes
  retries : g.retries → g'.retries
  checked : g.checked → g'.checked
  batch : g.batch → g'.batch
  inWork : g.inWork → g'.inWork

/-- What a program must hold of a run for an effect. -/
def runRequires (r : String) (g : RunHeld) : ImportEffect → Prop
  | .setRunStatus run status => run = r → g.checked ∧ !status.isFinal
  | .finishRun run status => run = r → status = .cancelled ∨
      g.checked ∧ (status = .paused ∨ g.decided = some status)
  | .setControl run _ cancelled => run = r → cancelled = some false → g.resumes
  | .markConversation run _ status _ _ => run = r → g.checked ∧ status ≠ .pending
  | .insertStatus row => row.importRunUuid = r →
      (g.checked ∧ g.batch) ∧ (row.status = .running → g.inWork)
  | .requeueFailed run _ => run = r → g.retries
  | _ => True

/-- What a program holds of a run after an effect. -/
def runAfter (r : String) (g : RunHeld) : (e : ImportEffect) → e.Response → RunHeld
  | .getRun run, .ok status =>
      { g with checked := g.checked || (run = r && Option.any
          (fun st => st ≠ .cancelled && st ≠ .paused) status) }
  | .getControl run, .ok control =>
      { g with
        checked := g.checked || (run = r && !ImportControl.cancelled control)
        decided := if run = r then if control.goesOn then g.report.join else none else g.decided }
  | .pendingConversations run _, .ok rows =>
      { g with batch := g.batch || (run = r && !List.isEmpty rows) }
  | .findActive _, .ok active =>
      { g with inWork := g.inWork || Option.any (·.status = .running) active }
  | .statusReport run, .ok rows =>
      { g with report := if run = r then some (finalStatus rows) else g.report }
  | _, _ => g

/-- What is read of a run before it is written to. -/
def runDiscipline (r : String) : Discipline ImportEffect.Response RunHeld where
  requires := runRequires r
  after := runAfter r

/-- The program keeps the discipline from any state that holds no less, and ends with no less. -/
def KeepsRun (r : String) (g : RunHeld) {α : Type} (p : ImportProgram α) : Prop :=
  ∀ g', g.Le g' → Prog.Keeps (runDiscipline r) (fun g'' _ => g'.Le g'') g' p

section

variable {r run : String} {g g' g'' : RunHeld} {α β : Type} {e : ImportEffect}
  {k : e.Answer → ImportProgram α} {p : ImportProgram α} {f : α → ImportProgram β}

@[refl] lemma RunHeld.Le.refl (g : RunHeld) : g.Le g := ⟨id, id, id, id, id⟩

lemma RunHeld.Le.trans (h : g.Le g') (h' : g'.Le g'') : g.Le g'' :=
  ⟨h'.1 ∘ h.1, h'.2 ∘ h.2, h'.3 ∘ h.3, h'.4 ∘ h.4, h'.5 ∘ h.5⟩

/-- Nothing that is held is lost. -/
lemma runAfter_le (r : String) (g : RunHeld) (e : ImportEffect) (response : e.Response) :
    g.Le (runAfter r g e response) := by
  unfold runAfter
  split
  · exact ⟨id, id, fun h => by simp [h], id, id⟩
  · exact ⟨id, id, fun h => by simp [h], id, id⟩
  · exact ⟨id, id, id, fun h => by simp [h], id⟩
  · exact ⟨id, id, id, id, fun h => by simp [h]⟩
  · exact ⟨id, id, id, id, id⟩
  · exact .refl g

lemma KeepsRun.mono (h : KeepsRun r g p) (hle : g.Le g') : KeepsRun r g' p :=
  fun g'' hle' => h g'' (hle.trans hle')

lemma keepsRun_done (answer : Except ImportError α) :
    KeepsRun r g (.done answer : ImportProgram α) := fun g' _ => .refl g'

/-- An effect that is allowed, and what follows what is held after it. -/
lemma keepsRun_ask_after (hreq : ∀ g', g.Le g' → runRequires r g' e)
    (hk : ∀ a g', g.Le g' → KeepsRun r (runAfter r g' e (.ok a)) (k a)) :
    KeepsRun r g (ask e k) := by
  intro g' hle
  refine keeps_ask.mpr ⟨hreq g' hle, fun a => ?_, fun error => runAfter_le r g' e _⟩
  exact (hk a g' hle _ (.refl _)).imp fun _ _ hle' => (runAfter_le r g' e _).trans hle'

lemma keepsRun_ask (hreq : ∀ g', g.Le g' → runRequires r g' e) (hk : ∀ a, KeepsRun r g (k a)) :
    KeepsRun r g (ask e k) :=
  keepsRun_ask_after hreq fun a g' hle => (hk a).mono (hle.trans (runAfter_le r g' e _))

/-- An effect that needs nothing. -/
lemma keepsRun_read (hreq : ∀ g', runRequires r g' e) (hk : ∀ a, KeepsRun r g (k a)) :
    KeepsRun r g (ask e k) :=
  keepsRun_ask (fun g' _ => hreq g') hk

lemma KeepsRun.andThen (h : KeepsRun r g p) (hf : ∀ a, KeepsRun r g (f a)) :
    KeepsRun r g (andThen p f) := by
  intro g' hle
  refine keeps_andThen ((h g' hle).imp fun g'' answer hle' => ⟨fun a _ => ?_, fun _ _ => hle'⟩)
  exact (hf a g'' (hle.trans hle')).imp fun _ _ hle'' => hle'.trans hle''

lemma KeepsRun.attempt {handle : Except ImportError α → ImportProgram β} (h : KeepsRun r g p)
    (hf : ∀ answer, KeepsRun r g (handle answer)) : KeepsRun r g (attempt p handle) := by
  intro g' hle
  refine Prog.Keeps.bind ((h g' hle).imp fun g'' answer hle' => ?_)
  exact (hf answer g'' (hle.trans hle')).imp fun _ _ hle'' => hle'.trans hle''

/-! ### Processing -/

lemma keepsRun_finalizeIfTerminal (run : String) : KeepsRun r g (finalizeIfTerminal run) := by
  intro g' _
  refine keeps_ask.mpr ⟨trivial, fun rows => ?_,
    fun error => runAfter_le r g' (.statusReport run) (.error error)⟩
  have hrows := runAfter_le r g' (.statusReport run) (.ok rows)
  refine keeps_ask.mpr ⟨trivial, fun control => ?_,
    fun error => hrows.trans (runAfter_le r _ (.getControl run) (.error error))⟩
  have hcontrol := hrows.trans (runAfter_le r _ (.getControl run) (.ok control))
  have hfinish : ∀ status, (run = r → status = .cancelled ∨ control.cancelled = false ∧
      (status = .paused ∨ control.paused = false ∧ finalStatus rows = some status)) →
      Prog.Keeps (runDiscipline r) (fun g'' _ => g'.Le g'')
        (runAfter r (runAfter r g' (.statusReport run) (.ok rows)) (.getControl run) (.ok control))
        (ask (.finishRun run status) fun () => pure true) := by
    intro status hstatus
    refine keeps_ask.mpr ⟨fun hrun => ?_,
      fun a => hcontrol.trans (runAfter_le r _ (.finishRun run status) (.ok a)),
      fun error => hcontrol.trans (runAfter_le r _ (.finishRun run status) (.error error))⟩
    refine (hstatus hrun).imp_right fun hgoes => ⟨?_, hgoes.2.imp_right fun h => ?_⟩
    · simp [runAfter, hrun, hgoes.1]
    · simp [runAfter, ImportControl.goesOn, hrun, hgoes.1, h.1, h.2]
  split_ifs with hcancelled hpaused
  · exact hfinish _ fun _ => .inl rfl
  · exact hfinish _ fun _ => .inr ⟨by simpa using hcancelled, .inl rfl⟩
  · split
    · exact hcontrol
    · rename_i status hstatus
      exact hfinish _ fun _ =>
        .inr ⟨by simpa using hcancelled, .inr ⟨by simpa using hpaused, hstatus⟩⟩

lemma keepsRun_finalizeRuns (runs : List String) : KeepsRun r g (finalizeRuns runs) := by
  induction runs with
  | nil => exact keepsRun_done _
  | cons run runs ih => exact (keepsRun_finalizeIfTerminal run).andThen fun _ => ih

lemma keepsRun_finalizeReadyRuns (run? : Option String) :
    KeepsRun r g (finalizeReadyRuns run?) :=
  keepsRun_read (fun _ => trivial) keepsRun_finalizeRuns

lemma keepsRun_claimNextMessage (workerId : String) (leaseSeconds : ℕ) (run? : Option String) :
    KeepsRun r g (claimNextMessage workerId leaseSeconds run?) := by
  refine keepsRun_read (fun _ => trivial) fun
    | none => keepsRun_done _
    | some row => keepsRun_read (fun _ => trivial) fun
        | false => keepsRun_done _
        | true => keepsRun_read (fun _ => trivial) fun _ => keepsRun_done _

section

variable (U : UnicodeData) (leaseSeconds : ℕ) (workerId statusUuid : String)
  (attempt : ImportAttempt)

lemma keepsRun_requireFence (beforeProvider : Bool) :
    KeepsRun r g (requireFence leaseSeconds statusUuid attempt beforeProvider) := by
  refine keepsRun_read (fun _ => trivial) fun
    | false => keepsRun_done _
    | true => ?_
  dsimp only
  split_ifs
  · refine keepsRun_read (fun _ => trivial) fun
      | false => keepsRun_done _
      | true => keepsRun_done _
  · exact keepsRun_done _

lemma keepsRun_runPipeline (result : Except ImportError String) (fences : List Bool) :
    KeepsRun r g (runPipeline leaseSeconds statusUuid attempt result fences) := by
  induction fences with
  | nil => exact keepsRun_done _
  | cons beforeProvider fences ih =>
      exact (keepsRun_requireFence leaseSeconds statusUuid attempt beforeProvider).andThen
        fun _ => ih

lemma keepsRun_startJob (row : StatusRow) : KeepsRun r g (startJob row) := by
  unfold startJob
  split
  · exact keepsRun_done _
  · refine keepsRun_read (fun _ => trivial) fun
      | false => keepsRun_done _
      | true => keepsRun_done _

lemma keepsRun_attemptMessage (row : StatusRow) (pipeline : ImportPipeline) :
    KeepsRun r g (attemptMessage leaseSeconds row attempt pipeline) := by
  have hfence := keepsRun_requireFence (r := r) (g := g) leaseSeconds row.statusUuid attempt false
  refine hfence.andThen fun _ => (keepsRun_startJob row).andThen fun _ =>
    keepsRun_read (fun _ => trivial) fun _ => hfence.andThen fun _ => ?_
  refine (keepsRun_runPipeline _ _ _ _ _).andThen fun _ => keepsRun_read (fun _ => trivial) fun
    | false => keepsRun_done _
    | true => keepsRun_done _

lemma keepsRun_processOne (row : StatusRow) (pipeline : ImportPipeline) :
    KeepsRun r g (processOne U leaseSeconds row workerId pipeline) := by
  unfold processOne
  split
  · exact keepsRun_done _
  · refine (keepsRun_attemptMessage _ _ _ _).attempt fun
      | .ok () => keepsRun_done _
      | .error error => ?_
    dsimp only
    split_ifs <;> exact keepsRun_read (fun _ => trivial) fun _ => keepsRun_done _

lemma keepsRun_processOneClaimedItem (run? : Option String) (pipeline : StatusRow → ImportPipeline) :
    KeepsRun r g (processOneClaimedItem U leaseSeconds workerId run? pipeline) := by
  refine keepsRun_read (fun _ => trivial) fun _ =>
    (keepsRun_claimNextMessage _ _ _).andThen fun
      | none => (keepsRun_finalizeReadyRuns _).andThen fun _ => keepsRun_done _
      | some row => keepsRun_read (fun _ => trivial) fun status =>
          keepsRun_read (fun _ => trivial) fun control => ?_
  split_ifs
  · split
    · exact keepsRun_done _
    · exact keepsRun_read (fun _ => trivial) fun _ => keepsRun_done _
  · exact (keepsRun_processOne _ _ _ _ _).attempt fun _ =>
      (keepsRun_finalizeIfTerminal _).andThen fun _ => keepsRun_done _

lemma keepsRun_processItems (pipeline : StatusRow → ImportPipeline) (n : ℕ) :
    KeepsRun r g (processItems U leaseSeconds workerId run pipeline n) := by
  induction n with
  | zero => exact keepsRun_done _
  | succ n ih =>
      refine (keepsRun_processOneClaimedItem _ _ _ _ _).andThen fun
        | false => keepsRun_done _
        | true => ih

lemma keepsRun_processMessages (pipeline : StatusRow → ImportPipeline) (n : ℕ) :
    KeepsRun r g (processMessages U leaseSeconds workerId run pipeline n) := by
  induction n with
  | zero => exact keepsRun_done _
  | succ n ih =>
      refine keepsRun_read (fun _ => trivial) fun control => ?_
      split_ifs
      · exact keepsRun_done _
      · refine (keepsRun_claimNextMessage _ _ _).andThen fun
          | none => keepsRun_done _
          | some row => (keepsRun_processOne _ _ _ _ _).andThen fun _ => ih

lemma keepsRun_heartbeat (n : ℕ) : KeepsRun r g (heartbeat leaseSeconds statusUuid attempt n) := by
  induction n with
  | zero => exact keepsRun_done _
  | succ n ih =>
      refine keepsRun_read (fun _ => trivial) fun
        | false => keepsRun_done _
        | true => ih

end

/-! ### Commits -/

section

variable (P : ImportPlatform) (conversation : ImportedConversation) (sessionUuid : String)
  (mode : ProcessingMode)

lemma keepsRun_upsertStatus {row : StatusRow} (h : row.importRunUuid = r → g.checked ∧ g.batch)
    (hstatus : row.status = .running → g.inWork) : KeepsRun r g (upsertStatus row) := by
  refine keepsRun_read (fun _ => trivial) fun
    | some _ => keepsRun_done _
    | none => keepsRun_ask (fun g' hle hrun => ?_) fun _ => keepsRun_done _
  exact ⟨⟨hle.checked (h hrun).1, hle.batch (h hrun).2⟩, fun hrunning =>
    hle.inWork (hstatus hrunning)⟩

lemma keepsRun_schedule (h : run = r → g.checked ∧ g.batch) (message : ImportedMessageNode)
    (messageUuid : String) :
    KeepsRun r g (schedule P run conversation message sessionUuid messageUuid mode) := by
  unfold schedule
  dsimp only
  split_ifs
  · exact keepsRun_done _
  · split
    · exact (keepsRun_upsertStatus h (by simp [scheduledRow])).andThen fun _ => keepsRun_done _
    · refine keepsRun_read (fun _ => trivial) fun
        | some _ => (keepsRun_upsertStatus h (by simp [scheduledRow])).andThen fun _ => keepsRun_done _
        | none => keepsRun_ask_after (fun _ _ => trivial) fun active g' hle => ?_
      have hafter := hle.trans (runAfter_le r g' (.findActive _) (.ok active))
      have h' := fun hrun => (h hrun).imp hafter.checked hafter.batch
      rcases active with _ | active
      · exact keepsRun_read (fun _ => trivial) fun _ =>
          (keepsRun_upsertStatus h' (by simp [scheduledRow])).andThen fun _ => keepsRun_done _
      · refine (keepsRun_upsertStatus h' fun hrunning => ?_).andThen fun _ => keepsRun_done _
        have hactive : active.status = .running := hrunning
        simp [runAfter, hactive]

lemma keepsRun_addMapping (row : ImportMappingRow) : KeepsRun r g (addMapping row) := by
  refine keepsRun_read (fun _ => trivial) fun
    | some _ => keepsRun_done _
    | none => keepsRun_read (fun _ => trivial) fun _ => keepsRun_done _

lemma keepsRun_commitMessage (h : run = r → g.checked ∧ g.batch) (mappingRepair : Bool)
    (message : ImportedMessageNode) :
    KeepsRun r g (commitMessage P run conversation sessionUuid mode mappingRepair message) :=
  keepsRun_read (fun _ => trivial) fun _ => (keepsRun_addMapping _).andThen fun _ =>
    (keepsRun_schedule P conversation sessionUuid mode h _ _).andThen fun _ => keepsRun_done _

lemma keepsRun_commitMessages (h : run = r → g.checked ∧ g.batch)
    (messages : List ImportedMessageNode) :
    KeepsRun r g (commitMessages P run conversation sessionUuid mode messages) := by
  induction messages with
  | nil => exact keepsRun_done _
  | cons message messages ih =>
      exact (keepsRun_commitMessage P conversation sessionUuid mode h false message).andThen
        fun _ => ih.andThen fun _ => keepsRun_done _

lemma keepsRun_repairMessages (h : run = r → g.checked ∧ g.batch)
    (messages : List ImportedMessageNode) :
    KeepsRun r g (repairMessages P run conversation sessionUuid mode messages) := by
  have hcreate : ∀ message, KeepsRun r g (andThen
      (commitMessage P run conversation sessionUuid mode true message) fun _ => pure ()) :=
    fun message => (keepsRun_commitMessage P conversation sessionUuid mode h true message).andThen
      fun _ => keepsRun_done _
  induction messages with
  | nil => exact keepsRun_done _
  | cons message messages ih =>
      refine KeepsRun.andThen (keepsRun_read (fun _ => trivial) fun
        | some (_, some _) => keepsRun_schedule P conversation sessionUuid mode h _ _
        | some (_, none) => hcreate message
        | none => hcreate message) fun _ => ih

/-- A conversation is settled by a program that has found its run neither cancelled nor paused. -/
lemma keepsRun_mark (h : run = r → g.checked ∧ g.batch) (row : ImportedConversationRow)
    {status : CommitStatus} (hstatus : status ≠ .pending) (sessionUuid : Option String)
    (links : List ParentLink) {k : Unit → ImportProgram α} (hk : ∀ a, KeepsRun r g (k a)) :
    KeepsRun r g (ask (.markConversation run row status sessionUuid links) k) :=
  keepsRun_ask (fun _ hle hrun => ⟨hle.checked (h hrun).1, hstatus⟩) hk

lemma keepsRun_commitNew (h : run = r → g.checked ∧ g.batch) (row : ImportedConversationRow) :
    KeepsRun r g (commitNew P run row mode) := by
  refine KeepsRun.attempt (KeepsRun.andThen ?_ fun
    | (_, _, none) => keepsRun_mark h row (by simp) _ _ fun _ => keepsRun_done _
    | (_, _, some _) => keepsRun_done _) fun
    | .ok none => keepsRun_done _
    | .ok (some _) => keepsRun_mark h row (by simp) _ _ fun _ => keepsRun_done _
    | .error _ => keepsRun_mark h row (by simp) _ _ fun _ => keepsRun_done _
  exact keepsRun_read (fun _ => trivial) fun _ => (keepsRun_addMapping _).andThen fun _ =>
    (keepsRun_commitMessages P row.conversation _ mode h _).andThen fun _ =>
      keepsRun_read (fun _ => trivial) fun _ => keepsRun_done _

/-- The status of a run is set by a program that has found it neither cancelled nor paused. -/
lemma keepsRun_setRunStatus (h : run = r → g.checked) {status : ImportRunStatus}
    (hstatus : !status.isFinal) {k : Unit → ImportProgram α} (hk : ∀ a, KeepsRun r g (k a)) :
    KeepsRun r g (ask (.setRunStatus run status) k) :=
  keepsRun_ask (fun _ hle hrun => ⟨hle.checked (h hrun), hstatus⟩) hk

lemma keepsRun_commitRows (h : run = r → g.checked ∧ g.batch) (maxWriteQueueDepth : ℕ)
    (rows : List ImportedConversationRow) :
    KeepsRun r g (commitRows P run mode maxWriteQueueDepth rows) := by
  have hstop : KeepsRun r g (ask (.setRunStatus run .paused) fun () => pure true) :=
    keepsRun_setRunStatus (fun hrun => (h hrun).1) rfl fun _ => keepsRun_done _
  induction rows with
  | nil => exact keepsRun_done _
  | cons row rows ih =>
      refine keepsRun_read (fun _ => trivial) fun control => ?_
      split_ifs
      · exact hstop
      · refine keepsRun_read (fun _ => trivial) fun depth => ?_
        split_ifs
        · exact keepsRun_ask (fun _ _ _ hfalse => absurd hfalse (by simp)) fun _ => hstop
        · refine keepsRun_read (fun _ => trivial) fun
            | some _ => keepsRun_mark h row (by simp) _ _ fun _ => KeepsRun.andThen
                (keepsRun_read (fun _ => trivial) fun
                  | none => keepsRun_done _
                  | some _ => keepsRun_repairMessages P row.conversation _ mode h _) fun _ => ih
            | none => (keepsRun_commitNew P mode h row).andThen fun _ => ih

lemma keepsRun_finalizeCommitIfComplete (h : run = r → g.checked) :
    KeepsRun r g (finalizeCommitIfComplete run mode) := by
  refine keepsRun_read (fun _ => trivial) fun counts => ?_
  split_ifs
  · exact keepsRun_setRunStatus h rfl fun _ => keepsRun_done _
  · exact keepsRun_setRunStatus h (by cases mode <;> rfl) fun _ =>
      (keepsRun_finalizeIfTerminal run).andThen fun _ => keepsRun_done _
  · exact keepsRun_setRunStatus h (by cases mode <;> rfl) fun _ => keepsRun_done _

lemma keepsRun_commitNextBatch (batchSize maxWriteQueueDepth : ℕ) :
    KeepsRun r g (commitNextBatch P run mode batchSize maxWriteQueueDepth) := by
  refine keepsRun_read (fun _ => trivial) fun _ =>
    keepsRun_ask_after (fun _ _ => trivial) fun status g₁ _ => ?_
  rcases status with _ | status
  · exact keepsRun_done _
  dsimp only
  split_ifs with hstopped
  · exact keepsRun_done _
  -- from here on the run was found neither cancelled nor paused
  have hchecked : run = r → (runAfter r g₁ (.getRun run) (.ok (some status))).checked := by
    intro hrun
    push Not at hstopped
    simp [runAfter, hrun, hstopped]
  refine keepsRun_setRunStatus hchecked rfl fun _ => keepsRun_read (fun _ => trivial) fun _ =>
    keepsRun_ask_after (fun _ _ => trivial) fun rows g₂ hle => ?_
  have hchecked' : run = r → (runAfter r g₂ (.pendingConversations run batchSize)
      (.ok rows)).checked :=
    fun hrun => (runAfter_le r g₂ _ _).checked (hle.checked (hchecked hrun))
  split_ifs with hnil
  · exact keepsRun_finalizeCommitIfComplete mode hchecked'
  · have hbatch : run = r → (runAfter r g₂ (.pendingConversations run batchSize)
        (.ok rows)).batch := by
      intro hrun
      simp [runAfter, hrun, List.isEmpty_eq_false_iff.mpr hnil]
    refine (keepsRun_commitRows P mode (fun hrun => ⟨hchecked' hrun, hbatch hrun⟩) _ _).andThen fun
      | true => keepsRun_done _
      | false => keepsRun_setRunStatus hchecked' rfl fun _ =>
          keepsRun_finalizeCommitIfComplete mode hchecked'

end

end

/-! ### Requests -/

/-- What a request holds of a run before it has read it: the control of a run needs no check. -/
def ImportRequest.held (r : String) : ImportRequest → RunHeld
  | retryFailed run => { retries := run = r }
  | pause run => { checked := run = r }
  | resume run => { resumes := run = r, checked := run = r }
  | _ => {}

/-- Every request reads what it needs to before it writes to a run. -/
theorem ImportRequest.keeps (P : ImportPlatform) (r : String) (request : ImportRequest) :
    KeepsRun r (request.held r) (request.program P) := by
  cases request with
  | commitBatch run mode batchSize maxWriteQueueDepth =>
      exact keepsRun_commitNextBatch P mode batchSize maxWriteQueueDepth
  | work workerId leaseSeconds run? pipeline =>
      exact (keepsRun_processOneClaimedItem _ _ _ _ _).andThen fun _ => keepsRun_done _
  | processBatch workerId leaseSeconds run limit pipeline =>
      exact (keepsRun_processItems _ _ _ _ _).andThen fun _ =>
        (keepsRun_finalizeIfTerminal run).andThen fun _ => keepsRun_done _
  | processDirectly workerId leaseSeconds run limit pipeline =>
      refine keepsRun_read (fun _ => trivial) fun
        | none => keepsRun_done _
        | some _ => keepsRun_read (fun _ => trivial) fun control => ?_
      split_ifs
      · exact keepsRun_done _
      · exact (keepsRun_processMessages _ _ _ _ _).andThen fun _ =>
          (keepsRun_finalizeIfTerminal run).andThen fun _ => keepsRun_done _
  | heartbeat leaseSeconds statusUuid attempt renewals =>
      exact keepsRun_heartbeat leaseSeconds statusUuid attempt renewals
  | retryFailed run =>
      exact keepsRun_read (fun _ => trivial) fun _ =>
        keepsRun_ask (fun _ hle hrun => hle.retries (by simpa [ImportRequest.held] using hrun)) fun _ => keepsRun_done _
  | pause run =>
      exact keepsRun_setRunStatus (fun hrun => by simpa [ImportRequest.held] using hrun) rfl fun _ =>
        keepsRun_ask (fun _ _ _ hfalse => absurd hfalse (by simp)) fun _ => keepsRun_done _
  | resume run =>
      refine keepsRun_read (fun _ => trivial) fun count =>
        keepsRun_setRunStatus (fun hrun => by simpa [ImportRequest.held] using hrun) ?_ fun _ =>
          keepsRun_ask (fun _ hle hrun _ => hle.resumes (by simpa [ImportRequest.held] using hrun))
            fun _ => keepsRun_done _
      split_ifs <;> rfl
  | cancel run =>
      exact keepsRun_read (fun _ => trivial) fun _ =>
        keepsRun_ask (fun _ _ _ hfalse => absurd hfalse (by simp)) fun _ => keepsRun_done _

end Memorist
