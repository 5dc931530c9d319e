import Memorist.Imports.Effects

/-!
The processing of imported messages (`imports/processing.py`, `imports/worker.py`).

* `schedule`: the processing status of a message that is imported;
* `claimNextMessage`, `processOne`: an attempt at a message, under the fence of its lease;
* `finalizeIfTerminal`, `finalizeReadyRuns`, `retryFailed`: the end of a run, and its reopening;
* `processOneClaimedItem`, `processNextBatch`: an iteration of a worker, and a request.
-/

namespace Memorist

open Fallible

/-- What an attempt raises that no longer owns its lease. -/
def importLeaseLost : ImportError := ⟨"ImportLeaseLost", "lease_lost"⟩

/-! ### Scheduling -/

section

variable (P : ImportPlatform)

/-- Why a message is not processed, if it is not. -/
def eligibility (message : ImportedMessageNode) : Option String :=
  if !message.hasMessage then some "null_source_message_node"
  else if visibleText P.unicode message.contentParts = [] then
    if message.contentParts.any ImportedContentPart.quarantined then
      some "provider_internal_reasoning_quarantined"
    else if message.hasAttachments then some "unsupported_binary_only_attachment"
    else some "empty_visible_text"
  else if message.role ≠ .user ∧ message.role ≠ .assistant then
    some "unsupported_role_for_memory_processing"
  else none

/-- Add the row of a message, unless the run has one. -/
def upsertStatus (row : StatusRow) : ImportProgram StatusRow :=
  ask (.findStatus row) fun
    | some existing => pure existing
    | none => ask (.insertStatus row) fun inserted => pure inserted

/-- What the row of a scheduled message has in common. -/
def scheduledRow (run : String) (conversation : ImportedConversation)
    (message : ImportedMessageNode) (sessionUuid messageUuid : String) (mode : ProcessingMode)
    (stage : String) (status : ProcessingStatus) : StatusRow where
  statusUuid := ""
  importRunUuid := run
  sourcePlatform := conversation.sourcePlatform
  sourceConversationId := conversation.sourceConversationId
  sourceMessageId := message.sourceMessageId
  targetSessionUuid := sessionUuid
  targetMessageUuid := messageUuid
  processingMode := mode
  processingStage := stage
  status := status
  processingIdentityHash := P.identityHash run messageUuid (visibleText P.unicode message.contentParts)

/-- The stage that a mode queues its messages at. -/
def queuedStage : ProcessingMode → String
  | .fullMemoryReconstruction => "memory_extraction"
  | _ => "text_unitization"

/-- Record how an imported message is to be processed. -/
def schedule (run : String) (conversation : ImportedConversation) (message : ImportedMessageNode)
    (sessionUuid messageUuid : String) (mode : ProcessingMode) : ImportProgram Unit :=
  let row := scheduledRow P run conversation message sessionUuid messageUuid mode
  if mode = .none then pure ()
  else match eligibility P message with
  | some skipReason =>
      andThen (upsertStatus { row "eligibility" .skipped with skipReason := some skipReason })
        fun _ => pure ()
  | none =>
      let identity := P.identityHash run messageUuid (visibleText P.unicode message.contentParts)
      ask (.findProcessed identity) fun
        | some processingRunUuid =>
            andThen (upsertStatus { row "complete" .alreadyProcessed with
              memoryProcessingRunUuid := some processingRunUuid }) fun _ => pure ()
        | none => ask (.findActive identity) fun
            | some active =>
                andThen (upsertStatus { row active.processingStage active.status with
                  jobUuid := active.jobUuid
                  memoryProcessingRunUuid := active.memoryProcessingRunUuid }) fun _ => pure ()
            | none =>
                ask (.enqueueJob (row (queuedStage mode) .queued)) fun jobUuid =>
                  andThen (upsertStatus { row (queuedStage mode) .queued with
                    jobUuid := some jobUuid }) fun _ => pure ()

end

/-! ### The end of a run -/

/-- How a run ends whose rows are these, once all are settled. -/
def finalStatus (rows : List StatusRow) : Option ImportRunStatus :=
  if rows = [] then some .fullyReconstructed
  else if !rows.all (·.status.isTerminal) then none
  else if rows.any (·.status = .failed) then some .completedWithFailures
  else some .fullyReconstructed

/-- End a run whose rows are settled. -/
def finalizeIfTerminal (run : String) : ImportProgram Bool :=
  ask (.statusReport run) fun rows =>
  ask (.getControl run) fun (control : ImportControl) =>
    if control.cancelled then ask (.finishRun run .cancelled) fun () => pure true
    else if control.paused then ask (.finishRun run .paused) fun () => pure true
    else match finalStatus rows with
    | none => pure false
    | some status => ask (.finishRun run status) fun () => pure true

/-- End the runs of a list. -/
def finalizeRuns : List String → ImportProgram Unit
  | [] => pure ()
  | run :: runs => andThen (finalizeIfTerminal run) fun _ => finalizeRuns runs

/-- End the runs in processing whose rows are settled. -/
def finalizeReadyRuns (run? : Option String) : ImportProgram Unit :=
  ask (.readyRuns run?) finalizeRuns

/-- Put the failed messages of a run back in the queue. -/
def retryFailed (run : String) : ImportProgram Unit :=
  ask (.failedRows run) fun failed => ask (.requeueFailed run failed) fun () => pure ()

/-! ### Attempts -/

/-- Take the oldest message of the queue under a lease, and read its row again. -/
def claimNextMessage (workerId : String) (leaseSeconds : ℕ) (run? : Option String) :
    ImportProgram (Option StatusRow) :=
  ask (.selectQueued run?) fun
    | none => pure none
    | some row => ask (.claimRow row.statusUuid workerId leaseSeconds) fun
        | false => pure none
        | true => ask (.getStatus row.statusUuid) fun claimed => pure claimed

/-- How the pipeline uses the fence, before a provider call or not, and how it ends. -/
structure ImportPipeline where
  fences : List Bool := []
  result : Except ImportError String

section

variable (U : UnicodeData) (leaseSeconds : ℕ)

/-- The fence of an attempt; a lease is renewed before a provider call. -/
def requireFence (statusUuid : String) (attempt : ImportAttempt) (beforeProvider : Bool) :
    ImportProgram Unit :=
  ask (.leaseFence statusUuid attempt) fun
    | false => raise importLeaseLost
    | true =>
        if beforeProvider then
          ask (.renewLease statusUuid attempt leaseSeconds) fun
            | false => raise importLeaseLost
            | true => pure ()
        else pure ()

/-- Run the pipeline under the fence. -/
def runPipeline (statusUuid : String) (attempt : ImportAttempt)
    (result : Except ImportError String) : List Bool → ImportProgram String
  | [] => .done result
  | beforeProvider :: fences =>
      andThen (requireFence leaseSeconds statusUuid attempt beforeProvider) fun () =>
        runPipeline statusUuid attempt result fences

/-- Mark the job of a row as running, if it has one. -/
def startJob (row : StatusRow) : ImportProgram Unit :=
  match row.jobUuid with
  | none => pure ()
  | some _ => ask (.markJob row) fun
      | false => raise importLeaseLost
      | true => pure ()

/-- Process a message up to the publication of its success. -/
def attemptMessage (row : StatusRow) (attempt : ImportAttempt) (pipeline : ImportPipeline) :
    ImportProgram Unit :=
  andThen (requireFence leaseSeconds row.statusUuid attempt false) fun () =>
  andThen (startJob row) fun () =>
  ask (.prepareMessage row) fun () =>
  andThen (requireFence leaseSeconds row.statusUuid attempt false) fun () =>
  andThen (runPipeline leaseSeconds row.statusUuid attempt pipeline.result pipeline.fences)
    fun processingRunUuid =>
  ask (.publish row.statusUuid attempt (.succeeded processingRunUuid)) fun
    | false => raise importLeaseLost
    | true => pure ()

/-- Whether `_classify_error` finds an error retryable; its message is the sanitized text. -/
def isRetryable (error : ImportError) : Bool :=
  let lowered := U.lowerText error.message.toList
  let mentions (pattern : String) : Bool := pattern.toList <:+: lowered
  error.errorClass = "TimeoutError" || error.errorClass = "ConnectionError" ||
    mentions "timeout" || mentions "429" ||
    (List.range 100).any fun code => mentions (toString (500 + code))

/-- `_failure_transition`: an error is retried a few times, each after a longer delay. -/
def failureTransition (row : StatusRow) (error : ImportError) : Publication :=
  if isRetryable U error && row.retryCount + 1 < 5 then
    .requeued (min 900 (10 * 2 ^ row.retryCount))
  else .failed

/-- Process a claimed row under the attempt it was read with: publish its success or its failure, or
release it once the lease is lost. -/
def processOne (row : StatusRow) (workerId : String) (pipeline : ImportPipeline) :
    ImportProgram Unit :=
  match row.processingAttemptUuid with
  | none => pure ()
  | some attemptUuid =>
      let attempt : ImportAttempt := (row.leaseOwner.getD workerId, attemptUuid)
      Fallible.attempt (attemptMessage leaseSeconds row attempt pipeline) fun
        | .ok () => pure ()
        | .error error =>
            if error.errorClass = importLeaseLost.errorClass then
              ask (.releaseClaim row.statusUuid attempt) fun _ => pure ()
            else
              ask (.publish row.statusUuid attempt (failureTransition U row error)) fun _ =>
                pure ()

/-! ### Workers -/

/-- Process a claimed row whose run was read again, and end its run if it is settled. -/
def processClaimed (row : StatusRow) (workerId : String) (pipeline : ImportPipeline) :
    ImportProgram Bool :=
  Fallible.attempt (processOne U leaseSeconds row workerId pipeline) fun result =>
    andThen (finalizeIfTerminal row.importRunUuid) fun _ => .done (result.map fun () => true)

/-- An iteration of a worker: recover leases, claim a message and process it. -/
def processOneClaimedItem (workerId : String) (run? : Option String)
    (pipeline : StatusRow → ImportPipeline) : ImportProgram Bool :=
  ask .recoverExpired fun () =>
  andThen (claimNextMessage workerId leaseSeconds run?) fun
    | none => andThen (finalizeReadyRuns run?) fun () => pure false
    | some row =>
        ask (.getRun row.importRunUuid) fun (status : Option ImportRunStatus) =>
        ask (.getControl row.importRunUuid) fun (control : ImportControl) =>
          if status ≠ some .processing ∨ control.paused ∨ control.cancelled then
            match row.processingAttemptUuid with
            | none => pure false
            | some attemptUuid =>
                ask (.releaseClaim row.statusUuid (workerId, attemptUuid)) fun _ => pure false
          else processClaimed U leaseSeconds row workerId (pipeline row)

/-- Iterations of a worker, until one finds nothing to do. -/
def processItems (workerId : String) (run : String) (pipeline : StatusRow → ImportPipeline) :
    ℕ → ImportProgram Unit
  | 0 => pure ()
  | n + 1 =>
      andThen (processOneClaimedItem U leaseSeconds workerId (some run) pipeline) fun didWork =>
        if didWork then processItems workerId run pipeline n else pure ()

/-- A request to process messages of a run. -/
def processNextBatch (workerId : String) (run : String) (limit : ℕ)
    (pipeline : StatusRow → ImportPipeline) : ImportProgram Unit :=
  andThen (processItems U leaseSeconds workerId run pipeline (max 1 limit)) fun () =>
    andThen (finalizeIfTerminal run) fun _ => pure ()

/-- Messages of a run, one after the other, until it is paused or cancelled or has none left. -/
def processMessages (workerId : String) (run : String) (pipeline : StatusRow → ImportPipeline) :
    ℕ → ImportProgram Unit
  | 0 => pure ()
  | n + 1 =>
      ask (.getControl run) fun (control : ImportControl) =>
        if control.paused ∨ control.cancelled then pure ()
        else andThen (claimNextMessage workerId 900 (some run)) fun
          | none => pure ()
          | some row => andThen (processOne U leaseSeconds row workerId (pipeline row)) fun () =>
              processMessages workerId run pipeline n

/-- `ImportMessageProcessor.process_next_batch`. -/
def processBatchDirectly (workerId : String) (run : String) (limit : ℕ)
    (pipeline : StatusRow → ImportPipeline) : ImportProgram Unit :=
  ask (.getRun run) fun
    | none => raise ⟨"ValueError", "import run not found"⟩
    | some _ =>
        ask (.getControl run) fun (control : ImportControl) =>
          if control.paused ∨ control.cancelled then pure ()
          else andThen (processMessages U leaseSeconds workerId run pipeline (max 1 limit))
            fun () => andThen (finalizeIfTerminal run) fun _ => pure ()

/-- The heartbeat of a worker: renewals, until one is refused. -/
def heartbeat (statusUuid : String) (attempt : ImportAttempt) : ℕ → ImportProgram Unit
  | 0 => pure ()
  | n + 1 => ask (.renewLease statusUuid attempt leaseSeconds) fun
      | false => pure ()
      | true => heartbeat statusUuid attempt n

end

end Memorist
