import Mathlib.Data.Prod.Lex
import Mathlib.Data.String.Basic
import Memorist.Imports.Store
import Memorist.Library.Fallible
import Memorist.Library.KeySort

/-!
The statements of the imports, each a transaction of its own.

* `ImportStore`: the tables;
* `leaseFence`, `nextQueued`, `publish`: the statements on the processing statuses of a run;
* `ImportEffect`, `importEffect`: what the operations ask of the store, and what each does to it.
-/

namespace Memorist

/-- The row of a run with a status. -/
def ImportRunRow.withStatus (status : ImportRunStatus) (row : ImportRunRow) : ImportRunRow :=
  { row with status }

/-- The row of a conversation with a status, and the session it was imported into, if any. -/
def ImportedConversationRow.marked (status : CommitStatus) (sessionUuid : Option String)
    (row : ImportedConversationRow) : ImportedConversationRow :=
  { row with commitStatus := status
             targetSessionUuid := sessionUuid.or row.targetSessionUuid }

/-- The row of a message under a parent. -/
def ImportedMessageRow.under (parentUuid : String) (row : ImportedMessageRow) :
    ImportedMessageRow :=
  { row with parentMessageUuid := some parentUuid }

/-- The tables of the imports. -/
structure ImportStore where
  runs : Table ImportRunRow String ImportRunRow.importRunUuid := .empty
  control : String → ImportControl := fun _ => {}
  conversations : Table ImportedConversationRow String
    ImportedConversationRow.importedConversationUuid := .empty
  mappings : Table ImportMappingRow MappingKey ImportMappingRow.key := .empty
  sessions : Table ImportedSessionRow String ImportedSessionRow.sessionUuid := .empty
  messages : Table ImportedMessageRow String ImportedMessageRow.messageUuid := .empty
  statuses : StatusTable := {}

/-- A message and the parent it gets. -/
abbrev ParentLink : Type := String × String

namespace ImportStore

variable (s : ImportStore)

/-! ### Runs, conversations and messages -/

/-- The status of a run. -/
def runStatus (run : String) : Option ImportRunStatus := (s.runs.get? run).map ImportRunRow.status

/-- Set the status of a run. -/
def setRunStatus (run : String) (status : ImportRunStatus) : ImportStore :=
  { s with
    runs := s.runs.updateWhere (fun row => row.importRunUuid = run)
      (ImportRunRow.withStatus status) fun _ => rfl }

/-- Set the flags of a run that are given. -/
def setControl (run : String) (paused cancelled : Option Bool) : ImportStore :=
  { s with
    control := Function.update s.control run
      { paused := paused.getD (s.control run).paused
        cancelled := cancelled.getD (s.control run).cancelled } }

/-- The conversations of a run. -/
def conversationsOf (run : String) : List ImportedConversationRow :=
  s.conversations.rows.filter fun row => row.importRunUuid = run

/-- The conversations of a run that are still to be committed. -/
def pendingOf (run : String) : List ImportedConversationRow :=
  (s.conversationsOf run).filter fun row => row.commitStatus = .pending

/-- The conversations of a run that are settled, and all of them. -/
def terminalCounts (run : String) : ℕ × ℕ :=
  ((s.conversationsOf run).countP fun row => row.commitStatus ≠ .pending,
    (s.conversationsOf run).length)

/-- Give messages their parents. -/
def link (links : List ParentLink) : ImportStore :=
  { s with
    messages := links.foldl (fun messages (child, parent) =>
      messages.updateWhere (fun row => row.messageUuid = child) (ImportedMessageRow.under parent)
        fun _ => rfl) s.messages }

/-- Settle a conversation, which was read as one of the run; the parents that were set before are
committed with it. -/
def markConversation (run uuid : String) (status : CommitStatus) (sessionUuid : Option String)
    (links : List ParentLink) : ImportStore :=
  { s.link links with
    conversations := s.conversations.updateWhere
      (fun row => row.importRunUuid = run && row.importedConversationUuid = uuid)
      (ImportedConversationRow.marked status sessionUuid) fun _ => rfl }

/-- The session that a mapping leads to, if it is there. -/
def mappedSession (key : MappingKey) : Option String :=
  (s.mappings.get? key).bind fun row =>
    (s.sessions.get? row.targetUuid).map ImportedSessionRow.sessionUuid

/-- The message that the mapping of an id leads to, with its session if it is there. -/
def mappedMessage (platform sourceMessageId : String) : Option (String × Option String) :=
  ((s.mappings.get? (platform, .message, sourceMessageId)).filter fun row =>
    row.sourceObjectId = some sourceMessageId).map fun row =>
      (row.targetUuid, (s.messages.get? row.targetUuid).map ImportedMessageRow.sessionUuid)

/-! ### Processing statuses -/

/-- Whether work on a run goes on: it is in processing and not cancelled. -/
def isLive (run : String) : Bool :=
  s.runStatus run = some .processing && !(s.control run).cancelled

/-- Whether a row may be claimed, for a run if one is given. -/
def isClaimable (now : Timestamp) (run? : Option String) (row : StatusRow) : Bool :=
  row.processingMode = .fullMemoryReconstruction && row.status = .queued &&
    run?.all (row.importRunUuid = ·) && row.runAfter.all (· ≤ now) &&
    s.isLive row.importRunUuid && !(s.control row.importRunUuid).paused

/-- The oldest row that may be claimed. -/
def nextQueued (now : Timestamp) (run? : Option String) : Option StatusRow :=
  (KeySort.sortBy (fun row : StatusRow => toLex (row.createdAt, row.statusUuid))
    (s.statuses.table.rows.filter (s.isClaimable now run?))).head?

/-- `lease_fence_intact`: the attempt owns the row, its lease lasts and its run goes on. -/
def leaseFence (now : Timestamp) (statusUuid : String) (attempt : ImportAttempt) : Bool :=
  (s.statuses.table.get? statusUuid).any fun row =>
    row.isOwned attempt && row.unexpired now && s.isLive row.importRunUuid

/-- The row that an attempt at a name owns. -/
def ownedRow (statusUuid : String) (attempt : ImportAttempt) (row : StatusRow) : Bool :=
  row.statusUuid = statusUuid && row.isOwned attempt

lemma settles_released (statusUuid : String) (attempt : ImportAttempt) :
    StatusTable.Settles (ownedRow statusUuid attempt) StatusRow.released where
  key _ := rfl
  active row h := by
    simp only [ownedRow, StatusRow.isOwned, Bool.and_eq_true, decide_eq_true_eq] at h
    simp [StatusRow.activeIdentity, StatusRow.released, h.2.1.1, ProcessingStatus.isTerminal]
  attempt _ := .inr rfl

/-- `release_claim`. -/
def releaseClaim (statusUuid : String) (attempt : ImportAttempt) : ImportStore :=
  { s with
    statuses := s.statuses.updateWhere (ownedRow statusUuid attempt) StatusRow.released
      (settles_released statusUuid attempt) }

/-- The row whose lease an attempt may renew. -/
def renewable (now : Timestamp) (statusUuid : String) (attempt : ImportAttempt) (row : StatusRow) :
    Bool :=
  ownedRow statusUuid attempt row && row.unexpired now && s.isLive row.importRunUuid

lemma settles_renewed (p : StatusRow → Bool) (now : Timestamp) (leaseSeconds : ℕ) :
    StatusTable.Settles p (StatusRow.renewed now leaseSeconds) where
  key _ := rfl
  active _ _ := .inl rfl
  attempt _ := .inl rfl

/-- `renew_lease`. -/
def renewLease (now : Timestamp) (statusUuid : String) (attempt : ImportAttempt)
    (leaseSeconds : ℕ) : ImportStore :=
  { s with
    statuses := s.statuses.updateWhere (s.renewable now statusUuid attempt)
      (StatusRow.renewed now leaseSeconds) (settles_renewed _ now leaseSeconds) }

lemma settles_expired (now : Timestamp) :
    StatusTable.Settles (StatusRow.isExpired now) StatusRow.released where
  key _ := rfl
  active row h := by
    simp only [StatusRow.isExpired, Bool.and_eq_true, decide_eq_true_eq] at h
    simp [StatusRow.activeIdentity, StatusRow.released, h.1, ProcessingStatus.isTerminal]
  attempt _ := .inr rfl

/-- `recover_expired_leases`. -/
def recoverExpired (now : Timestamp) : ImportStore :=
  { s with
    statuses := s.statuses.updateWhere (StatusRow.isExpired now) StatusRow.released
      (settles_expired now) }

/-- The active rows of a run. -/
def activeOf (run : String) (row : StatusRow) : Bool :=
  row.importRunUuid = run && !row.status.isTerminal

lemma settles_cancelled (p : StatusRow → Bool) :
    StatusTable.Settles p StatusRow.cancelled where
  key _ := rfl
  active _ _ := .inr rfl
  attempt _ := .inr rfl

/-- The first transaction of `cancel`: its active rows and the run are cancelled. -/
def cancelRun (run : String) : ImportStore :=
  let t : ImportStore :=
    { s with
      statuses := s.statuses.updateWhere (activeOf run) StatusRow.cancelled (settles_cancelled _) }
  t.setRunStatus run .cancelled

lemma settles_published (statusUuid : String) (attempt : ImportAttempt) (publication : Publication)
    (now : Timestamp) :
    StatusTable.Settles (ownedRow statusUuid attempt) (StatusRow.published publication now) where
  key _ := by cases publication <;> rfl
  active row h := by
    simp only [ownedRow, StatusRow.isOwned, Bool.and_eq_true, decide_eq_true_eq] at h
    cases publication <;>
      simp [StatusRow.activeIdentity, StatusRow.published, h.2.1.1, ProcessingStatus.isTerminal]
  attempt _ := by cases publication <;> exact .inl rfl

/-- The publication of an attempt that passes its fence. -/
def publish (finished : Timestamp) (statusUuid : String) (attempt : ImportAttempt)
    (publication : Publication) : ImportStore :=
  { s with
    statuses := s.statuses.updateWhere (ownedRow statusUuid attempt)
      (StatusRow.published publication finished)
      (settles_published statusUuid attempt publication finished) }

/-- The runs are in processing, and no row of theirs is active. -/
def AllReady (run? : Option String) (runs : List String) : Prop :=
  ∀ run ∈ runs, run?.all (run = ·) ∧ s.runStatus run = some .processing ∧
    ∀ row ∈ s.statuses.ofRun run, row.status.isTerminal

/-- The failed rows of a run. -/
def failedOf (run : String) : List String :=
  ((s.statuses.ofRun run).filter fun row => row.status = .failed).map StatusRow.statusUuid

/-- The second half of `retry_failed`, unless an index forbids it. -/
def requeueFailed? (run : String) (statusUuids : List String) : Option ImportStore :=
  (s.statuses.requeue? run statusUuids).map fun statuses =>
    let t : ImportStore := { s with statuses }
    if statusUuids = [] then t else t.setRunStatus run .processing

end ImportStore

/-! ### Effects -/

/-- An error with its class. -/
structure ImportError where
  errorClass : String
  message : String := ""
  deriving DecidableEq, Repr

/-- What a violation of a unique index raises. -/
def uniqueViolation : ImportError := ⟨"IntegrityError", "UNIQUE constraint failed"⟩

/-- What the operations on imports ask of the store. -/
inductive ImportEffect where
  | checkPlan (run : String) (mode : ProcessingMode)
  | resolveTarget (run : String)
  | getRun (run : String)
  | setRunStatus (run : String) (status : ImportRunStatus)
  | getControl (run : String)
  | setControl (run : String) (paused cancelled : Option Bool)
  | cancelRun (run : String)
  | countStatuses (run : String)
  | writeQueueDepth
  | pendingConversations (run : String) (limit : ℕ)
  | terminalCounts (run : String)
  | findMapping (key : MappingKey)
  | findMappedSession (key : MappingKey)
  | findMappedMessage (platform sourceMessageId : String)
  | createSession (conversation : ImportedConversation)
  | insertMapping (row : ImportMappingRow)
  | createMessage (sessionUuid : String) (conversation : ImportedConversation)
      (message : ImportedMessageNode) (mappingRepair : Bool)
  | linkParents (links : List ParentLink)
  | markConversation (run : String) (row : ImportedConversationRow) (status : CommitStatus)
      (sessionUuid : Option String) (links : List ParentLink)
  | findProcessed (identityHash : String)
  | findActive (identityHash : String)
  | enqueueJob (row : StatusRow)
  | findStatus (row : StatusRow)
  | insertStatus (row : StatusRow)
  | selectQueued (run? : Option String)
  | claimRow (statusUuid workerId : String) (leaseSeconds : ℕ)
  | getStatus (statusUuid : String)
  | releaseClaim (statusUuid : String) (attempt : ImportAttempt)
  | renewLease (statusUuid : String) (attempt : ImportAttempt) (leaseSeconds : ℕ)
  | leaseFence (statusUuid : String) (attempt : ImportAttempt)
  | recoverExpired
  | markJob (row : StatusRow)
  | prepareMessage (row : StatusRow)
  | publish (statusUuid : String) (attempt : ImportAttempt) (publication : Publication)
  | failedRows (run : String)
  | requeueFailed (run : String) (statusUuids : List String)
  | statusReport (run : String)
  | readyRuns (run? : Option String)
  | finishRun (run : String) (status : ImportRunStatus)

/-- What an effect answers, unless it raises. -/
def ImportEffect.Answer : ImportEffect → Type
  | getRun _ => Option ImportRunStatus
  | getControl _ => ImportControl
  | countStatuses _ => ℕ
  | writeQueueDepth => ℕ
  | pendingConversations _ _ => List ImportedConversationRow
  | terminalCounts _ => ℕ × ℕ
  | findMapping _ => Option ImportMappingRow
  | findMappedSession _ => Option String
  | findMappedMessage _ _ => Option (String × Option String)
  | createSession _ => String
  | createMessage _ _ _ _ => String
  | linkParents _ => List ParentLink × Option ImportError
  | findProcessed _ => Option String
  | findActive _ => Option StatusRow
  | enqueueJob _ => String
  | findStatus _ => Option StatusRow
  | insertStatus _ => StatusRow
  | selectQueued _ => Option StatusRow
  | claimRow _ _ _ => Bool
  | getStatus _ => Option StatusRow
  | releaseClaim _ _ => Bool
  | renewLease _ _ _ => Bool
  | leaseFence _ _ => Bool
  | markJob _ => Bool
  | publish _ _ _ => Bool
  | failedRows _ => List String
  | statusReport _ => List StatusRow
  | readyRuns _ => List String
  | _ => Unit

/-- What an effect responds. -/
abbrev ImportEffect.Response (e : ImportEffect) : Type := Except ImportError e.Answer

/-- An operation on imports. -/
abbrev ImportProgram (α : Type) : Type := Fallible ImportEffect ImportEffect.Answer ImportError α

/-- The role of a message, as `_message_role` has it. -/
def ImportedRole.messageRole : ImportedRole → String
  | user => "user"
  | assistant => "assistant"
  | tool => "tool"
  | _ => "system"

/-- The row of a message that is imported. -/
def newImportedMessage (U : UnicodeData) (messageUuid sessionUuid : String)
    (conversation : ImportedConversation) (message : ImportedMessageNode) (mappingRepair : Bool) :
    ImportedMessageRow where
  messageUuid := messageUuid
  sessionUuid := sessionUuid
  role := message.role.messageRole
  rawText := visibleText U message.contentParts
  sourcePlatform := conversation.sourcePlatform
  sourceConversationId := conversation.sourceConversationId
  sourceMessageId := message.sourceMessageId
  mappingRepair := mappingRepair

/-- What an effect answers and does. The clocks, the plan of a run, the depth of the write queue,
the processing runs and the jobs are arbitrary; new rows have new names. -/
def importAnswers (U : UnicodeData) (s : ImportStore) :
    (e : ImportEffect) → e.Answer → ImportStore → Prop
  | .getRun run, answer, t => answer = s.runStatus run ∧ t = s
  | .setRunStatus run status, _, t => t = s.setRunStatus run status
  | .getControl run, answer, t => answer = s.control run ∧ t = s
  | .setControl run paused cancelled, _, t => t = s.setControl run paused cancelled
  | .cancelRun run, _, t => t = s.cancelRun run
  | .countStatuses run, answer, t => answer = (s.statuses.ofRun run).length ∧ t = s
  | .pendingConversations run limit, answer, t => answer.Subperm (s.pendingOf run) ∧
      answer.length = min (max 1 limit) (s.pendingOf run).length ∧ t = s
  | .terminalCounts run, answer, t => answer = s.terminalCounts run ∧ t = s
  | .findMapping key, answer, t => answer = s.mappings.get? key ∧ t = s
  | .findMappedSession key, answer, t => answer = s.mappedSession key ∧ t = s
  | .findMappedMessage platform sourceMessageId, answer, t =>
      answer = s.mappedMessage platform sourceMessageId ∧ t = s
  | .createSession conversation, answer, t => s.sessions.get? answer = none ∧
      t = { s with sessions := s.sessions.insert ⟨answer, conversation.title⟩ }
  | .insertMapping row, _, t => s.mappings.get? row.key = none ∧
      t = { s with mappings := s.mappings.insert row }
  | .createMessage sessionUuid conversation message mappingRepair, answer, t =>
      s.messages.get? answer = none ∧
        t =
          { s with
            messages := s.messages.insert
              (newImportedMessage U answer sessionUuid conversation message mappingRepair) }
  | .linkParents links, answer, t =>
      answer.1 <+: links ∧ (answer.2 = none → answer.1 = links) ∧ t = s
  | .markConversation run row status sessionUuid links, _, t =>
      t = s.markConversation run row.importedConversationUuid status sessionUuid links
  | .findActive identityHash, answer, t => answer = (s.statuses.table.rows.find? fun row =>
      row.activeIdentity = some identityHash) ∧ t = s
  | .findStatus row, answer, t => answer = (s.statuses.table.rows.find? fun row' =>
      row'.source = row.source) ∧ t = s
  | .insertStatus row, answer, t => ∃ statusUuid createdAt statuses,
      answer = { row with statusUuid, createdAt } ∧ (s.runs.get? row.importRunUuid).isSome ∧
        s.statuses.insert? { row with statusUuid, createdAt } = some statuses ∧
        t = { s with statuses }
  | .selectQueued run?, answer, t => (∃ now, answer = s.nextQueued now run?) ∧ t = s
  | .claimRow statusUuid workerId leaseSeconds, answer, t => ∃ attempt now,
      attempt ∉ s.statuses.attempts ∧
        answer = (s.statuses.table.get? statusUuid).any (·.status = .queued) ∧
        t = { s with statuses := s.statuses.claim statusUuid (workerId, attempt) now leaseSeconds }
  | .getStatus statusUuid, answer, t => answer = s.statuses.table.get? statusUuid ∧ t = s
  | .releaseClaim statusUuid attempt, answer, t =>
      answer = (s.statuses.table.get? statusUuid).any (·.isOwned attempt) ∧
        t = s.releaseClaim statusUuid attempt
  | .renewLease statusUuid attempt leaseSeconds, answer, t => ∃ now,
      answer = (s.statuses.table.get? statusUuid).any (s.renewable now statusUuid attempt) ∧
        t = s.renewLease now statusUuid attempt leaseSeconds
  | .leaseFence statusUuid attempt, answer, t =>
      (∃ now, answer = s.leaseFence now statusUuid attempt) ∧ t = s
  | .recoverExpired, _, t => ∃ now, t = s.recoverExpired now
  | .publish statusUuid attempt publication, answer, t => ∃ now finished,
      answer = s.leaseFence now statusUuid attempt ∧
        t = if s.leaseFence now statusUuid attempt then
          s.publish finished statusUuid attempt publication else s
  | .failedRows run, answer, t => answer = s.failedOf run ∧ t = s
  | .requeueFailed run statusUuids, _, t => s.requeueFailed? run statusUuids = some t
  | .statusReport run, answer, t => answer = s.statuses.ofRun run ∧ t = s
  | .readyRuns run?, answer, t => s.AllReady run? answer ∧ t = s
  | .finishRun run status, _, t => t = s.setRunStatus run status
  | _, _, t => t = s

/-- Whether a unique index forbids an effect. -/
def ImportEffect.Violates (s : ImportStore) : ImportEffect → Prop
  | insertMapping row => (s.mappings.get? row.key).isSome
  | insertStatus row => s.statuses.Forbids row
  | requeueFailed run statusUuids => s.requeueFailed? run statusUuids = none
  | _ => False

/-- What an effect does: it answers, or it raises and nothing changes. -/
def importEffect (U : UnicodeData) (s : ImportStore) (e : ImportEffect) (response : e.Response)
    (t : ImportStore) : Prop :=
  match response with
  | .ok answer => importAnswers U s e answer t
  | .error error => t = s ∧ (error = uniqueViolation → e.Violates s)

end Memorist
