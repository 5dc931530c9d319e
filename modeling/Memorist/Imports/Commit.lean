import Memorist.Imports.Processing

/-!
The commit of a staged import (`imports/service.py`).

* `commitConversation`: a session for a conversation, with its messages and their mappings;
* `recordDuplicateProcessing`: the repair of a conversation that is mapped already;
* `commitNextBatch`: a batch of a run, up to the end of its commit;
* `pauseImport`, `resumeImport`, `cancelImport`: the control of a run;
* `ImportOperation`: the operations on imports.
-/

namespace Memorist

open Fallible

section

variable (P : ImportPlatform) (run : String)

/-! ### Conversations -/

/-- Add a mapping, unless its key has one. -/
def addMapping (row : ImportMappingRow) : ImportProgram Unit :=
  ask (.findMapping row.key) fun
    | some _ => pure ()
    | none => ask (.insertMapping row) fun () => pure ()

/-- The mapping of a conversation. -/
def conversationMapping (run : String) (row : ImportedConversationRow) (sessionUuid : String) :
    ImportMappingRow where
  importRunUuid := run
  sourcePlatform := row.conversation.sourcePlatform
  sourceObjectType := .conversation
  sourceObjectId := row.conversation.sourceConversationId
  sourceFingerprint := row.conversationFingerprint
  targetUuid := sessionUuid

/-- The mapping of a message. -/
def messageMapping (conversation : ImportedConversation) (message : ImportedMessageNode)
    (messageUuid : String) : ImportMappingRow where
  importRunUuid := run
  sourcePlatform := conversation.sourcePlatform
  sourceObjectType := .message
  sourceObjectId := some message.sourceMessageId
  sourceFingerprint := P.messageFingerprint message
  targetUuid := messageUuid

/-- Create a message of a conversation with its mapping, and schedule it. -/
def commitMessage (conversation : ImportedConversation) (sessionUuid : String) (mode : ProcessingMode)
    (mappingRepair : Bool) (message : ImportedMessageNode) : ImportProgram String :=
  ask (.createMessage sessionUuid conversation message mappingRepair) fun messageUuid =>
  andThen (addMapping (messageMapping P run conversation message messageUuid)) fun () =>
  andThen (schedule P run conversation message sessionUuid messageUuid mode)
    fun () => pure messageUuid

/-- Create the messages of a conversation: their ids with their names. -/
def commitMessages (conversation : ImportedConversation) (sessionUuid : String)
    (mode : ProcessingMode) :
    List ImportedMessageNode → ImportProgram (List (String × String))
  | [] => pure []
  | message :: messages =>
      andThen (commitMessage P run conversation sessionUuid mode
        false message) fun messageUuid =>
      andThen (commitMessages conversation sessionUuid mode messages) fun names =>
        pure ((message.sourceMessageId, messageUuid) :: names)

/-- Messages in the order they are created: by their times, those without one last. -/
def orderedMessages (conversation : ImportedConversation) : List ImportedMessageNode :=
  KeySort.sortBy (fun message => toLex (message.createdAt.isNone,
    toLex (message.createdAt.getD "", message.sourceMessageId))) conversation.messages

/-- The parents of messages, as far as both were created. -/
def parentLinks (names : List (String × String)) (messages : List ImportedMessageNode) :
    List ParentLink :=
  messages.filterMap fun message => do
    let parent ← message.parentIds.head?
    let parentUuid ← names.lookup parent
    let messageUuid ← names.lookup message.sourceMessageId
    return (messageUuid, parentUuid)

/-- Import a conversation: its session, and the parents that were set before an error ended the
last loop. -/
def commitConversation (row : ImportedConversationRow) (mode : ProcessingMode) :
    ImportProgram (String × List ParentLink × Option ImportError) :=
  ask (.createSession row.conversation) fun sessionUuid =>
  andThen (addMapping (conversationMapping run row sessionUuid)) fun () =>
  andThen (commitMessages P run row.conversation sessionUuid mode
    (orderedMessages row.conversation)) fun names =>
  ask (.linkParents (parentLinks names (orderedMessages row.conversation)))
    fun (links : List ParentLink × Option ImportError) => pure (sessionUuid, links)

/-- Import a conversation and settle it; an error leaves it failed, with the parents that were set
before it. -/
def commitNew (row : ImportedConversationRow) (mode : ProcessingMode) : ImportProgram Unit :=
  Fallible.attempt
    (andThen (commitConversation P run row mode) fun
      | (sessionUuid, links, none) =>
          ask (.markConversation run row .committed (some sessionUuid) links) fun () => pure none
      | (_, links, some _) => pure (some links))
    fun
      | .ok none => pure ()
      | .ok (some links) => ask (.markConversation run row .failed none links) fun () => pure ()
      | .error _ => ask (.markConversation run row .failed none []) fun () => pure ()

/-! ### Repairs -/

/-- Find the message that a source message was imported as, or create it in the session, and
schedule it. -/
def repairMessage (conversation : ImportedConversation) (sessionUuid : String) (mode : ProcessingMode)
    (message : ImportedMessageNode) : ImportProgram Unit :=
  ask (.findMappedMessage conversation.sourcePlatform message.sourceMessageId) fun
    | some (messageUuid, some _) =>
        schedule P run conversation message sessionUuid messageUuid mode
    | _ => andThen
        (commitMessage P run conversation sessionUuid mode true
          message) fun _ => pure ()

/-- Repair messages one after the other. -/
def repairMessages (conversation : ImportedConversation) (sessionUuid : String)
    (mode : ProcessingMode) :
    List ImportedMessageNode → ImportProgram Unit
  | [] => pure ()
  | message :: messages =>
      andThen (repairMessage P run conversation sessionUuid mode
        message) fun () => repairMessages conversation sessionUuid mode messages

/-- Repair a conversation that is mapped, in the session it is mapped to; one without an id is
looked up by the hash of its payload. -/
def recordDuplicateProcessing (conversation : ImportedConversation) (mode : ProcessingMode) :
    ImportProgram Unit :=
  ask (.findMappedSession (conversation.sourcePlatform, .conversation,
      conversation.sourceConversationId.getD (P.payloadHash conversation))) fun
    | none => pure ()
    | some sessionUuid =>
        repairMessages P run conversation sessionUuid mode
          conversation.messages

/-! ### Batches -/

/-- The key that a conversation is mapped under. -/
def ImportedConversationRow.mappingKey (row : ImportedConversationRow) : MappingKey :=
  (row.conversation.sourcePlatform, .conversation,
    row.conversation.sourceConversationId.getD row.conversationFingerprint)

/-- Import the conversations of a batch, or repair those that are mapped; whether the batch was
stopped, by a flag of the run or by a full queue of writes. -/
def commitRows (mode : ProcessingMode) (maxWriteQueueDepth : ℕ) :
    List ImportedConversationRow → ImportProgram Bool
  | [] => pure false
  | row :: rows =>
      ask (.getControl run) fun (control : ImportControl) =>
        if control.paused ∨ control.cancelled then
          ask (.setRunStatus run .paused) fun () => pure true
        else ask .writeQueueDepth fun (depth : ℕ) =>
          if maxWriteQueueDepth ≤ depth then
            ask (.setControl run (some true) none) fun () =>
            ask (.setRunStatus run .paused) fun () => pure true
          else ask (.findMapping row.mappingKey) fun
            | some _ =>
                ask (.markConversation run row .skipped none []) fun () =>
                andThen (recordDuplicateProcessing P run
                  row.conversation mode) fun () => commitRows mode maxWriteQueueDepth rows
            | none =>
                andThen (commitNew P run row mode) fun () =>
                  commitRows mode maxWriteQueueDepth rows

/-- The phase that follows the commit. -/
def finalPhase : ProcessingMode → ImportRunStatus
  | .fullMemoryReconstruction => .processing
  | _ => .committed

/-- End the commit of a run whose conversations are all settled. -/
def finalizeCommitIfComplete (mode : ProcessingMode) : ImportProgram Unit :=
  ask (.terminalCounts run) fun (counts : ℕ × ℕ) =>
    if counts.1 < counts.2 then ask (.setRunStatus run .committing) fun () => pure ()
    else ask (.setRunStatus run (finalPhase mode)) fun () =>
      if mode = .fullMemoryReconstruction then
        andThen (finalizeIfTerminal run) fun _ => pure ()
      else pure ()

/-- Commit the next batch of a run. -/
def commitNextBatch (mode : ProcessingMode) (batchSize maxWriteQueueDepth : ℕ) :
    ImportProgram Unit :=
  ask (.checkPlan run mode) fun () =>
  ask (.getRun run) fun
    | none => raise ⟨"RepositoryError", "Import run not found: " ++ run⟩
    | some status =>
        if status = .cancelled ∨ status = .paused then pure ()
        else
          ask (.setRunStatus run .committing) fun () =>
          ask (.resolveTarget run) fun () =>
          ask (.pendingConversations run batchSize) fun (rows : List ImportedConversationRow) =>
            if rows = [] then finalizeCommitIfComplete run mode
            else andThen (commitRows P run mode
                maxWriteQueueDepth rows) fun stopped =>
              if stopped then pure ()
              else ask (.setRunStatus run .committing) fun () => finalizeCommitIfComplete run mode

/-! ### Control -/

/-- `ImportService.pause`. -/
def pauseImport : ImportProgram Unit :=
  ask (.setRunStatus run .paused) fun () => ask (.setControl run (some true) none) fun () => pure ()

/-- `ImportService.resume`: a run with processing statuses goes on in processing. -/
def resumeImport : ImportProgram Unit :=
  ask (.countStatuses run) fun (count : ℕ) =>
  ask (.setRunStatus run (if count = 0 then .dryRun else .processing)) fun () =>
  ask (.setControl run (some false) (some false)) fun () => pure ()

/-- `ImportService.cancel`: the rows and the run, and then the flag. -/
def cancelImport : ImportProgram Unit :=
  ask (.cancelRun run) fun () => ask (.setControl run none (some true)) fun () => pure ()

end

end Memorist
