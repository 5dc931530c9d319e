import Memorist.Library.Table
import Memorist.Storage.Sql
import Memorist.Text.Unicode

/-!
The tables of the imports (`imports/repositories.py`, `imports/processing.py`).

* `ImportedConversation`, `ImportedMessageNode`: a source conversation as it is staged;
* `ImportRunRow`, `ImportControl`, `ImportedConversationRow`, `ImportMappingRow`: the rows of a run;
* `StatusRow`, `StatusTable`: the processing statuses under their unique indexes;
* `ImportStore`: the tables, with the statements on runs, mappings, sessions and messages.
-/

namespace Memorist

/-! ### Source conversations -/

/-- The roles of source messages. -/
inductive ImportedRole where
  | user
  | assistant
  | system
  | tool
  | developer
  | unknown
  deriving DecidableEq, Repr

/-- A part of the content of a source message. -/
structure ImportedContentPart where
  text : Option Text
  quarantined : Bool := false
  deriving DecidableEq, Repr

/-- A source message. -/
structure ImportedMessageNode where
  sourceMessageId : String
  parentIds : List String := []
  role : ImportedRole
  contentParts : List ImportedContentPart
  createdAt : Option String := none
  /-- `metadata["source_node_has_message"]`, unless it is missing. -/
  hasMessage : Bool := true
  hasAttachments : Bool := false
  deriving DecidableEq, Repr

/-- A source conversation: its messages by their ids. -/
structure ImportedConversation where
  sourcePlatform : String
  sourceConversationId : Option String
  title : Option String := none
  messages : List ImportedMessageNode
  distinct : (messages.map ImportedMessageNode.sourceMessageId).Nodup := by decide
  deriving DecidableEq

/-- What the imports take from elsewhere: the character database and the hashes. -/
structure ImportPlatform where
  unicode : UnicodeData
  /-- The hash of the processing identity of a message and its text, under the model of a run. -/
  identityHash : String → String → Text → String
  /-- `canonical_hash_ijson(strip_none(payload))`. -/
  payloadHash : ImportedConversation → String
  messageFingerprint : ImportedMessageNode → String

/-- Imports of plain text, whose hashes are the ids and texts themselves. -/
def plainImports : ImportPlatform where
  unicode := basicLatin
  identityHash _ messageUuid text := messageUuid ++ ":" ++ String.ofList text
  payloadHash conversation := "payload:" ++ conversation.title.getD ""
  messageFingerprint message := "message:" ++ message.sourceMessageId

/-- The parts that are shown, one a line. -/
def visibleText (U : UnicodeData) (parts : List ImportedContentPart) : Text :=
  U.strip (List.intercalate ['\n'] ((parts.filter fun part => !part.quarantined).map
    fun part => part.text.getD []))

/-! ### Rows -/

/-- The statuses of import runs. -/
inductive ImportRunStatus where
  | uploaded
  | staged
  | inspected
  | reconstructed
  | dryRun
  | committing
  | committed
  | processing
  | paused
  | cancelled
  | fullyReconstructed
  | completedWithFailures
  deriving DecidableEq, Repr

/-- What is done with the messages of an import. -/
inductive ProcessingMode where
  | none
  | extractCandidates
  | fullMemoryReconstruction
  deriving DecidableEq, Repr

/-- A row of `import_runs`. -/
structure ImportRunRow where
  importRunUuid : String
  status : ImportRunStatus
  deriving DecidableEq, Repr

/-- The flags of a row of `import_progress`; a run without a row has none set. -/
structure ImportControl where
  paused : Bool := false
  cancelled : Bool := false
  deriving DecidableEq, Repr

/-- The statuses of staged conversations. -/
inductive CommitStatus where
  | pending
  | committed
  | skipped
  | failed
  deriving DecidableEq, Repr

/-- A row of `imported_conversations`. -/
structure ImportedConversationRow where
  importedConversationUuid : String
  importRunUuid : String
  conversationFingerprint : String
  conversation : ImportedConversation
  commitStatus : CommitStatus := .pending
  targetSessionUuid : Option String := none
  deriving DecidableEq

/-- What a mapping is of. -/
inductive ImportObject where
  | conversation
  | message
  deriving DecidableEq, Repr

/-- The key of a mapping: its platform, its kind, and its id or else its fingerprint. -/
abbrev MappingKey : Type := String × ImportObject × String

/-- A row of `import_mappings`. -/
structure ImportMappingRow where
  importRunUuid : String
  sourcePlatform : String
  sourceObjectType : ImportObject
  sourceObjectId : Option String
  sourceFingerprint : String
  targetUuid : String
  deriving DecidableEq, Repr

/-- `(source_platform, source_object_type, COALESCE(source_object_id, source_fingerprint))`. -/
def ImportMappingRow.key (row : ImportMappingRow) : MappingKey :=
  (row.sourcePlatform, row.sourceObjectType, row.sourceObjectId.getD row.sourceFingerprint)

/-- A row of `sessions` that an import created. -/
structure ImportedSessionRow where
  sessionUuid : String
  title : Option String := none
  deriving DecidableEq, Repr

/-- A row of `messages` that an import created, with what its snapshot says of its source. -/
structure ImportedMessageRow where
  messageUuid : String
  sessionUuid : String
  role : String
  rawText : Text
  parentMessageUuid : Option String := none
  sourcePlatform : String
  sourceConversationId : Option String
  sourceMessageId : String
  mappingRepair : Bool := false
  deriving DecidableEq, Repr

/-! ### Processing statuses -/

/-- The statuses of the processing of a message. -/
inductive ProcessingStatus where
  | queued
  | running
  | succeeded
  | skipped
  | alreadyProcessed
  | failed
  | cancelled
  deriving DecidableEq, Repr

/-- `TERMINAL_STATUSES`. -/
def ProcessingStatus.isTerminal : ProcessingStatus → Bool
  | queued | running => false
  | _ => true

/-- A worker with the name of its attempt. -/
abbrev ImportAttempt : Type := String × String

/-- A row of `import_message_processing_status`. -/
structure StatusRow where
  statusUuid : String
  importRunUuid : String
  sourcePlatform : String
  sourceConversationId : Option String
  sourceMessageId : String
  targetSessionUuid : String
  targetMessageUuid : String
  processingMode : ProcessingMode
  processingStage : String
  status : ProcessingStatus
  skipReason : Option String := none
  jobUuid : Option String := none
  memoryProcessingRunUuid : Option String := none
  processingIdentityHash : String
  retryCount : ℕ := 0
  runAfter : Option Timestamp := none
  leaseOwner : Option String := none
  leaseExpiresAt : Option Timestamp := none
  processingAttemptUuid : Option String := none
  createdAt : Timestamp := 0
  deriving DecidableEq, Repr

namespace StatusRow

/-- What the partial index on the processing identity holds of a row. -/
def activeIdentity (row : StatusRow) : Option String :=
  if row.status.isTerminal then none else some row.processingIdentityHash

/-- The message of a run that a row is about, in a mode. -/
def source (row : StatusRow) : String × String × String × String × ProcessingMode :=
  (row.importRunUuid, row.sourcePlatform, row.sourceConversationId.getD "", row.sourceMessageId,
    row.processingMode)

/-- Whether the row runs under an attempt. -/
def isOwned (attempt : ImportAttempt) (row : StatusRow) : Bool :=
  row.status = .running && row.leaseOwner = some attempt.1 &&
    row.processingAttemptUuid = some attempt.2

/-- Whether a lease has not expired. It was written with an offset and the clock reads `Z`, which
sorts after it, so that a lease is over at its second. -/
def unexpired (now : Timestamp) (row : StatusRow) : Bool := row.leaseExpiresAt.any (now < ·)

/-- Whether a lease has expired. -/
def isExpired (now : Timestamp) (row : StatusRow) : Bool :=
  row.status = .running && row.leaseExpiresAt.any (· ≤ now)

/-- The row under a new attempt. -/
def claimedBy (attempt : ImportAttempt) (now : Timestamp) (leaseSeconds : ℕ) (row : StatusRow) :
    StatusRow :=
  { row with
    status := .running
    leaseOwner := some attempt.1
    leaseExpiresAt := some (addSeconds now leaseSeconds)
    processingAttemptUuid := some attempt.2 }

/-- The row back in the queue, without its attempt. -/
def released (row : StatusRow) : StatusRow :=
  { row with status := .queued, leaseOwner := none, leaseExpiresAt := none,
             processingAttemptUuid := none }

/-- The row with its lease renewed. -/
def renewed (now : Timestamp) (leaseSeconds : ℕ) (row : StatusRow) : StatusRow :=
  { row with leaseExpiresAt := some (addSeconds now leaseSeconds) }

/-- The row of a failed message in the queue again. -/
def requeued (row : StatusRow) : StatusRow :=
  { row with status := .queued, processingStage := "memory_extraction",
             retryCount := row.retryCount + 1, runAfter := none, leaseOwner := none,
             leaseExpiresAt := none, processingAttemptUuid := none }

/-- The row of a cancelled run. -/
def cancelled (row : StatusRow) : StatusRow :=
  { row with status := .cancelled, leaseOwner := none, leaseExpiresAt := none,
             processingAttemptUuid := none }

end StatusRow

/-- How an attempt ends: with a processing run, in the queue again after a delay, or failed. -/
inductive Publication where
  | succeeded (processingRunUuid : String)
  | requeued (delay : ℕ)
  | failed
  deriving DecidableEq, Repr

/-- The row after the end of an attempt; it keeps the name of the attempt. -/
def StatusRow.published (publication : Publication) (now : Timestamp) (row : StatusRow) :
    StatusRow :=
  match publication with
  | .succeeded processingRunUuid =>
      { row with status := .succeeded, processingStage := "complete",
                 memoryProcessingRunUuid := some processingRunUuid, runAfter := none,
                 leaseOwner := none, leaseExpiresAt := none }
  | .requeued delay =>
      { row with status := .queued, retryCount := row.retryCount + 1,
                 runAfter := some (addSeconds now delay), leaseOwner := none,
                 leaseExpiresAt := none }
  | .failed =>
      { row with status := .failed, runAfter := none, leaseOwner := none, leaseExpiresAt := none }

lemma StatusRow.issued_empty :
    ∀ row ∈ (Table.empty : Table StatusRow String StatusRow.statusUuid).rows,
      ∀ attempt ∈ row.processingAttemptUuid, attempt ∈ ([] : List String) := by
  simp [Table.empty]

/-- The processing statuses: no two active ones of an identity, and the attempts so far, no name of
which is given again. -/
structure StatusTable where
  table : Table StatusRow String StatusRow.statusUuid := .empty
  attempts : List String := []
  unique : (table.rows.filterMap StatusRow.activeIdentity).Nodup := by exact List.nodup_nil
  issued : ∀ row ∈ table.rows, ∀ attempt ∈ row.processingAttemptUuid, attempt ∈ attempts := by
    exact StatusRow.issued_empty

namespace StatusTable

/-- A change of a row that neither activates it nor gives it an attempt. -/
structure Settles (p : StatusRow → Bool) (f : StatusRow → StatusRow) : Prop where
  key : ∀ row, (f row).statusUuid = row.statusUuid
  active : ∀ row, p row → (f row).activeIdentity = row.activeIdentity ∨
    (f row).activeIdentity = none
  attempt : ∀ row, (f row).processingAttemptUuid = row.processingAttemptUuid ∨
    (f row).processingAttemptUuid = none

/-- Rows that are changed, or leave the index, keep it. -/
lemma nodup_filterMap_map {ρ ι : Type} {index : ρ → Option ι} {f : ρ → ρ} {rows : List ρ}
    (h : ∀ row ∈ rows, index (f row) = index row ∨ index (f row) = none)
    (hunique : (rows.filterMap index).Nodup) : ((rows.map f).filterMap index).Nodup := by
  refine hunique.sublist ?_
  clear hunique
  induction rows with
  | nil => exact .slnil
  | cons row rows ih =>
      obtain ⟨hrow, hrows⟩ := List.forall_mem_cons.mp h
      rw [List.map_cons, List.filterMap_cons, List.filterMap_cons]
      rcases hrow with heq | hnone
      · rw [heq]
        cases index row with
        | none => exact ih hrows
        | some i => exact (ih hrows).cons_cons i
      · rw [hnone]
        cases index row with
        | none => exact ih hrows
        | some i => exact (ih hrows).cons i

variable (t : StatusTable)

/-- Change the rows that meet a condition. -/
def updateWhere (p : StatusRow → Bool) (f : StatusRow → StatusRow) (h : Settles p f) :
    StatusTable where
  table := t.table.updateWhere p f h.key
  attempts := t.attempts
  unique := by
    refine nodup_filterMap_map (fun row _ => ?_) t.unique
    split_ifs with hp
    · exact h.active row hp
    · exact .inl rfl
  issued := by
    intro row hrow attempt hattempt
    obtain ⟨row₀, hrow₀, rfl⟩ := List.mem_map.mp hrow
    refine t.issued row₀ hrow₀ attempt ?_
    split_ifs at hattempt
    · rcases h.attempt row₀ with heq | hnone
      · rwa [heq] at hattempt
      · rw [hnone] at hattempt
        exact absurd hattempt (by simp)
    · exact hattempt

/-- Give a queued row to a worker under a new attempt. -/
def claim (statusUuid : String) (attempt : ImportAttempt) (now : Timestamp) (leaseSeconds : ℕ) :
    StatusTable where
  table := t.table.updateWhere (fun row => row.statusUuid = statusUuid && row.status = .queued)
    (StatusRow.claimedBy attempt now leaseSeconds) fun _ => rfl
  attempts := attempt.2 :: t.attempts
  unique := by
    refine nodup_filterMap_map (fun row _ => ?_) t.unique
    split_ifs with hp
    · simp only [Bool.and_eq_true, decide_eq_true_eq] at hp
      exact .inl (by simp [StatusRow.activeIdentity, StatusRow.claimedBy, hp.2,
        ProcessingStatus.isTerminal])
    · exact .inl rfl
  issued := by
    intro row hrow name hname
    obtain ⟨row₀, hrow₀, rfl⟩ := List.mem_map.mp hrow
    split_ifs at hname
    · obtain rfl := Option.mem_some_iff.mp hname
      exact List.mem_cons_self
    · exact List.mem_cons_of_mem _ (t.issued row₀ hrow₀ name hname)

/-- Whether a unique index forbids a row: its message has one in the run, or its identity has an
active one and it is active too. -/
def Forbids (row : StatusRow) : Prop :=
  row.source ∈ t.table.rows.map StatusRow.source ∨
    ∃ identity ∈ row.activeIdentity, identity ∈ t.table.rows.filterMap StatusRow.activeIdentity

instance (row : StatusRow) : Decidable (t.Forbids row) :=
  inferInstanceAs (Decidable (row.source ∈ t.table.rows.map StatusRow.source ∨
    ∃ identity ∈ row.activeIdentity,
      identity ∈ t.table.rows.filterMap StatusRow.activeIdentity))

/-- Add a row under a new name, unless an index forbids it. -/
def insert? (row : StatusRow) : Option StatusTable :=
  if h : row.statusUuid ∉ t.table.rows.map StatusRow.statusUuid ∧ ¬ t.Forbids row ∧
      row.processingAttemptUuid = none then
    some
      { table := t.table.insert row
        attempts := t.attempts
        unique := by
          obtain ⟨hkey, hallowed, -⟩ := h
          rw [Table.rows_insert (Table.get?_eq_none.mpr hkey), List.filterMap_append,
            List.nodup_append]
          refine ⟨t.unique, ?_, ?_⟩
          · rcases hidentity : row.activeIdentity with _ | identity <;> simp [hidentity]
          · intro identity hidentity other hother heq
            subst heq
            refine hallowed (.inr ⟨identity, ?_, hidentity⟩)
            simpa using hother
        issued := by
          obtain ⟨hkey, -, hnone⟩ := h
          intro row' hrow' attempt hattempt
          rw [Table.rows_insert (Table.get?_eq_none.mpr hkey), List.mem_append] at hrow'
          rcases hrow' with hold | hnew
          · exact t.issued row' hold attempt hattempt
          · rw [List.mem_singleton.mp hnew, hnone] at hattempt
            exact absurd hattempt (by simp) }
  else none

/-- The rows with the named ones back in the queue; they were read as rows of the run, which a row
keeps. -/
def requeuedRows (run : String) (statusUuids : List String) :
    Table StatusRow String StatusRow.statusUuid :=
  t.table.updateWhere (fun row => row.importRunUuid = run && row.statusUuid ∈ statusUuids)
    StatusRow.requeued fun _ => rfl

/-- Put the named rows back in the queue, unless the index forbids it. -/
def requeue? (run : String) (statusUuids : List String) : Option StatusTable :=
  if h : ((t.requeuedRows run statusUuids).rows.filterMap StatusRow.activeIdentity).Nodup then
    some
      { table := t.requeuedRows run statusUuids
        attempts := t.attempts
        unique := h
        issued := by
          intro row hrow attempt hattempt
          obtain ⟨row₀, hrow₀, rfl⟩ := List.mem_map.mp hrow
          split_ifs at hattempt
          · exact absurd hattempt (by simp [StatusRow.requeued])
          · exact t.issued row₀ hrow₀ attempt hattempt }
  else none

/-- The rows of a run. -/
def ofRun (run : String) : List StatusRow :=
  t.table.rows.filter fun row => row.importRunUuid = run

end StatusTable

end Memorist
