import Memorist.Storage.Conversation
import Memorist.Storage.WriteActor

/-!
The capture of messages from Open WebUI (`openwebui/commands.py`).

* `captureProgram`: the transactions of `CaptureOpenWebUIMessageCommand.execute`: the look-up of the
  capture, the message, its version, and the capture with its job;
* `captureEffect`: what a transaction does to the tables;
* `CaptureStep`: a submission of a capture to the single writer;
* `CapturesWhole`: a key has one message, and the message its version, its capture and its job;
* `captures_exactly_once`: so it is after any submissions that do not leave a capture half-way, and
  a key that comes back with another request is rejected.
-/

namespace Memorist

/-! ### Rows -/

/-- A row of `openwebui_message_captures`. -/
structure CaptureRow where
  idempotencyKey : String
  openwebuiConversationId : Option String
  openwebuiMessageId : Option String
  role : String
  contentHash : String
  sessionUuid : String
  messageUuid : String
  deriving DecidableEq, Repr

/-- A row of `openwebui_capture_dedup`. -/
structure CaptureDedupRow where
  dedupKey : String
  sessionUuid : String
  messageUuid : String
  deriving DecidableEq, Repr

/-- A job that a capture makes. -/
structure CaptureJobRow where
  jobType : String
  payloadIjson : Text
  deriving DecidableEq, Repr

/-- The tables of captures, and the history of the messages that captures created, with their
keys. -/
structure CaptureStore where
  messages : Table MessageRow String MessageRow.messageUuid
  versions : Table MessageVersionRow String MessageVersionRow.messageVersionUuid
  captures : Table CaptureRow String CaptureRow.idempotencyKey
  dedup : Table CaptureDedupRow String CaptureDedupRow.dedupKey
  jobs : List CaptureJobRow
  created : List (String × String)

/-- The request to capture a message. -/
structure CaptureCommand where
  sessionUuid : String
  role : String
  content : Text
  idempotencyKey : String
  openwebuiConversationId : Option String := none
  openwebuiMessageId : Option String := none
  rawPayload : Option IJson := none
  turnIndex : Option ℤ := none

/-- The command that is submitted for a capture. -/
def CaptureCommand.writeCommand (capture : CaptureCommand) : WriteCommand where
  commandType := "openwebui_capture_message"
  idempotencyKey := some capture.idempotencyKey
  estimatedWriteWeight := 2
  maxTransactionMs := 5000
  validatesReplay := true

/-! ### Transactions -/

/-- Why a capture is rejected whose key belongs to another request. -/
def reusedKeyError : String := "capture idempotency key reused with a different request"

/-- Why a recorded capture is rejected whose row is missing. -/
def incompleteCaptureError : String := "capture idempotency record is incomplete"

/-- The role of a message. -/
def messageRole (role : String) : String := if role = "user" then "user" else "assistant"

section

variable (P : Platform)

/-- A stored capture is that of a request. -/
def SameCapture (capture : CaptureCommand) (row : CaptureRow) : Prop :=
  row.sessionUuid = capture.sessionUuid ∧ row.role = capture.role ∧
    row.contentHash = P.sha256 capture.content ∧
    row.openwebuiMessageId = capture.openwebuiMessageId ∧
    row.openwebuiConversationId = capture.openwebuiConversationId

instance (capture : CaptureCommand) (row : CaptureRow) : Decidable (SameCapture P capture row) :=
  inferInstanceAs (Decidable (_ ∧ _ ∧ _ ∧ _ ∧ _))

/-- Check that a stored capture is that of the request. -/
def validateIdempotentCapture (capture : CaptureCommand) (s : CaptureStore) : Except String Unit :=
  match s.captures.get? capture.idempotencyKey with
  | none => .error incompleteCaptureError
  | some row => if SameCapture P capture row then .ok () else .error reusedKeyError

/-- The result of a capture. -/
def captureResult (sessionUuid messageUuid : String) (duplicate : Bool) : WriteResult where
  commandType := "openwebui_capture_message"
  targetType := some "message"
  targetUuid := some messageUuid
  result := .obj [field "session_uuid" (jsonString sessionUuid),
    field "message_uuid" (jsonString messageUuid), field "duplicate" (.bool duplicate)]

/-- The payload of a job on a message. -/
def messagePayload (messageUuid sessionUuid : String) (identity : List (Text × IJson)) : IJson :=
  .obj (field "message_uuid" (jsonString messageUuid) ::
    field "session_uuid" (jsonString sessionUuid) :: identity)

/-- Enqueue a job, unless it is there. -/
def CaptureStore.enqueueJobOnce (s : CaptureStore) (job : CaptureJobRow) : CaptureStore :=
  if job ∈ s.jobs then s else { s with jobs := s.jobs ++ [job] }

/-- What the execution of a capture asks for. -/
inductive CaptureEffect where
  | selectCapture
  | createMessage
  | createVersion (messageUuid : String)
  | recordCapture (messageUuid : String)

/-- What a transaction answers. -/
def CaptureEffect.Response : CaptureEffect → Type
  | selectCapture => Except ExecuteError (Option CaptureRow)
  | createMessage => Except ExecuteError String
  | _ => Except ExecuteError Unit

/-- The execution of a capture. -/
def captureProgram (capture : CaptureCommand) :
    Prog CaptureEffect CaptureEffect.Response (Except ExecuteError WriteResult) :=
  .call .selectCapture fun
    | .error error => .done (.error error)
    | .ok (some (row : CaptureRow)) =>
        if SameCapture P capture row then
          .done (.ok (captureResult row.sessionUuid row.messageUuid true))
        else .done (.error ⟨false, reusedKeyError⟩)
    | .ok none => .call .createMessage fun
      | .error error => .done (.error error)
      | .ok (messageUuid : String) => .call (.createVersion messageUuid) fun
        | .error error => .done (.error error)
        | .ok () => .call (.recordCapture messageUuid) fun
          | .error error => .done (.error error)
          | .ok () => .done (.ok (captureResult capture.sessionUuid messageUuid false))

/-- The turn after the last one of a session. -/
def CaptureStore.nextTurnIndex (s : CaptureStore) (sessionUuid : String) : ℤ :=
  ((s.messages.rows.filter fun row => row.sessionUuid = sessionUuid).foldl
    (fun top row => row.turnIndex.elim top (max top)) (-1)) + 1

/-- The number after the last one of a message's versions. -/
def CaptureStore.nextVersionNumber (s : CaptureStore) (messageUuid : String) : ℕ :=
  ((s.versions.rows.filter fun row => row.messageUuid = messageUuid).foldl
    (fun top row => max top row.versionNumber) 0) + 1

/-- The message of a capture. -/
def newCapturedMessage (s : CaptureStore) (capture : CaptureCommand) (messageUuid : String) :
    MessageRow where
  messageUuid := messageUuid
  sessionUuid := capture.sessionUuid
  turnIndex := some (capture.turnIndex.getD (s.nextTurnIndex capture.sessionUuid))
  role := messageRole capture.role
  rawText := some capture.content
  rawPayloadIjson := capture.rawPayload.map fun payload => String.ofList payload.dump

/-- The version of a captured message. -/
def newCapturedVersion (s : CaptureStore) (capture : CaptureCommand)
    (messageUuid versionUuid : String) : MessageVersionRow where
  messageVersionUuid := versionUuid
  messageUuid := messageUuid
  versionNumber := s.nextVersionNumber messageUuid
  rawText := some capture.content
  rawPayloadIjson := capture.rawPayload.map fun payload => String.ofList payload.dump

/-- The row of a capture. -/
def newCaptureRow (capture : CaptureCommand) (messageUuid : String) : CaptureRow where
  idempotencyKey := capture.idempotencyKey
  openwebuiConversationId := capture.openwebuiConversationId
  openwebuiMessageId := capture.openwebuiMessageId
  role := capture.role
  contentHash := P.sha256 capture.content
  sessionUuid := capture.sessionUuid
  messageUuid := messageUuid

/-- Write the message of a capture under a new id, with the job that divides its text. -/
def CaptureStore.createMessage (s : CaptureStore) (capture : CaptureCommand)
    (messageUuid : String) : CaptureStore :=
  { s with
    messages := s.messages.insert (newCapturedMessage s capture messageUuid)
    created := s.created ++ [(capture.idempotencyKey, messageUuid)] }.enqueueJobOnce
      ⟨"text_unitization", (messagePayload messageUuid capture.sessionUuid []).dump⟩

/-- Write the version of a captured message under a new id. -/
def CaptureStore.createVersion (s : CaptureStore) (capture : CaptureCommand)
    (messageUuid versionUuid : String) : CaptureStore :=
  { s with versions := s.versions.insert (newCapturedVersion s capture messageUuid versionUuid) }

/-- Write the rows of a capture and the job that extracts memories from its message. -/
def CaptureStore.recordCapture (s : CaptureStore) (capture : CaptureCommand) (messageUuid : String)
    (identity : List (Text × IJson)) : CaptureStore :=
  { s with
    captures := s.captures.insert (newCaptureRow P capture messageUuid)
    dedup := s.dedup.insert ⟨capture.idempotencyKey, capture.sessionUuid, messageUuid⟩
    }.enqueueJobOnce
      ⟨"memory_extraction", (messagePayload messageUuid capture.sessionUuid identity).dump⟩

/-- What a transaction of a capture does; any may raise and change nothing. -/
def captureEffect (capture : CaptureCommand) (s : CaptureStore) :
    (e : CaptureEffect) → e.Response → CaptureStore → Prop
  | .selectCapture, answer, t => t = s ∧
      (answer = .ok (s.captures.get? capture.idempotencyKey) ∨ ∃ error, answer = .error error)
  | .createMessage, answer, t =>
      (∃ messageUuid, s.messages.get? messageUuid = none ∧ answer = .ok messageUuid ∧
        t = s.createMessage capture messageUuid) ∨ (∃ error, answer = .error error) ∧ t = s
  | .createVersion messageUuid, answer, t =>
      (∃ versionUuid, s.versions.get? versionUuid = none ∧ answer = .ok () ∧
        (s.messages.get? messageUuid).isSome ∧
        t = s.createVersion capture messageUuid versionUuid) ∨
        (∃ error, answer = .error error) ∧ t = s
  | .recordCapture messageUuid, answer, t =>
      (∃ identity, s.captures.get? capture.idempotencyKey = none ∧ answer = .ok () ∧
        t = s.recordCapture P capture messageUuid identity) ∨
        (∃ error, answer = .error error) ∧ t = s

/-- The execution of a capture, which may raise or crash on its way. -/
def captureExecutes (capture : CaptureCommand) (_ : WriteCommand) (s : CaptureStore)
    (answer : Except ExecuteError WriteResult) (t : CaptureStore) : Prop :=
  ∃ es q, Prog.Exec (captureEffect P capture) s (captureProgram P capture) es q t ∧
    (q.result? = some answer ∨ q.result? = none ∧ ∃ error, answer = .error error)

/-- An execution that leaves nothing behind if it raises or crashes. -/
def Unbroken {σ : Type} (executes : WriteCommand → σ → Except ExecuteError WriteResult → σ → Prop)
    (command : WriteCommand) (db : σ) (answer : Except ExecuteError WriteResult) (db' : σ) : Prop :=
  executes command db answer db' ∧ ∀ error, answer = .error error → db' = db

/-- What a statement of a submission does; the check of a replay answers as it should, or raises. -/
def captureActorEffect
    (executes : WriteCommand → CaptureStore → Except ExecuteError WriteResult → CaptureStore → Prop)
    (capture : CaptureCommand) (s : ActorState CaptureStore) :
    (e : ActorEffect) → e.Response → ActorState CaptureStore → Prop
  | .validateReplay, answer, t => t = s ∧
      (answer = validateIdempotentCapture P capture s.db ∨ ∃ error, answer = .error error)
  | e, answer, t => actorEffect executes capture.writeCommand s e answer t

/-- A submission of a capture. -/
structure CaptureSubmission where
  capture : CaptureCommand
  submission : Submission

/-- A submission of a capture to the single writer. -/
def CaptureStep
    (executes : CaptureCommand → WriteCommand → CaptureStore → Except ExecuteError WriteResult →
      CaptureStore → Prop)
    (s : ActorState CaptureStore) (run : CaptureSubmission) (t : ActorState CaptureStore) : Prop :=
  run.submission.command = run.capture.writeCommand ∧
    ∃ q, Prog.Exec (captureActorEffect P (executes run.capture) run.capture) s
      (executeEnvelope P.unicode run.capture.writeCommand run.submission.submittedAt)
      run.submission.performed q t ∧ run.submission.result = q.result?

/-! ### Captures as a whole -/

/-- A message that a capture created has its initial version, its capture and its job. -/
structure CapturedWhole (s : CaptureStore) (key messageUuid : String) (row : CaptureRow)
    (message : MessageRow) : Prop where
  capture : s.captures.get? key = some row
  captured : row.messageUuid = messageUuid
  stored : s.messages.get? messageUuid = some message
  session : message.sessionUuid = row.sessionUuid
  role : message.role = messageRole row.role
  content : ∃ content, message.rawText = some content ∧ row.contentHash = P.sha256 content
  version : ∃ version ∈ s.versions.rows, version.messageUuid = messageUuid ∧
    version.versionNumber = 1 ∧ version.rawText = message.rawText
  job : ∃ identity, ⟨"memory_extraction",
    (messagePayload messageUuid row.sessionUuid identity).dump⟩ ∈ s.jobs

/-- A key has one message at most that a capture created, and the message is whole. -/
structure CapturesWhole (s : CaptureStore) : Prop where
  one : (s.created.map Prod.fst).Nodup
  whole : ∀ key messageUuid, (key, messageUuid) ∈ s.created →
    ∃ row message, CapturedWhole P s key messageUuid row message

/-- Every version is of a message. -/
def CaptureStore.VersionsHeld (s : CaptureStore) : Prop :=
  ∀ version ∈ s.versions.rows, (s.messages.get? version.messageUuid).isSome

end

section

variable {P : Platform} {capture : CaptureCommand} {s t : CaptureStore}

/-- The tables after a capture of a new key. -/
def CaptureStore.captured (P : Platform) (s : CaptureStore) (capture : CaptureCommand)
    (messageUuid versionUuid : String) (identity : List (Text × IJson)) : CaptureStore :=
  ((s.createMessage capture messageUuid).createVersion capture messageUuid versionUuid).recordCapture
    P capture messageUuid identity

/-- What an execution with a result did: nothing, where the capture is stored; or all of it. -/
inductive CaptureExecuted (P : Platform) (capture : CaptureCommand) (s t : CaptureStore) : Prop
  | stored {row : CaptureRow} (hrow : s.captures.get? capture.idempotencyKey = some row)
      (hsame : SameCapture P capture row) (hstay : t = s)
  | captured {messageUuid versionUuid : String} {identity : List (Text × IJson)}
      (hcapture : s.captures.get? capture.idempotencyKey = none)
      (hmessage : s.messages.get? messageUuid = none)
      (hversion : s.versions.get? versionUuid = none)
      (hcaptured : t = s.captured P capture messageUuid versionUuid identity)

@[simp] lemma versions_enqueueJobOnce (job : CaptureJobRow) :
    (s.enqueueJobOnce job).versions = s.versions := by
  unfold CaptureStore.enqueueJobOnce; split_ifs <;> rfl

@[simp] lemma messages_enqueueJobOnce (job : CaptureJobRow) :
    (s.enqueueJobOnce job).messages = s.messages := by
  unfold CaptureStore.enqueueJobOnce; split_ifs <;> rfl

@[simp] lemma captures_enqueueJobOnce (job : CaptureJobRow) :
    (s.enqueueJobOnce job).captures = s.captures := by
  unfold CaptureStore.enqueueJobOnce; split_ifs <;> rfl

@[simp] lemma created_enqueueJobOnce (job : CaptureJobRow) :
    (s.enqueueJobOnce job).created = s.created := by
  unfold CaptureStore.enqueueJobOnce; split_ifs <;> rfl

@[simp] lemma mem_jobs_enqueueJobOnce (job job' : CaptureJobRow) :
    job' ∈ (s.enqueueJobOnce job).jobs ↔ job' ∈ s.jobs ∨ job' = job := by
  unfold CaptureStore.enqueueJobOnce
  split_ifs with hmem
  · exact ⟨.inl, fun h => h.elim id fun heq => heq ▸ hmem⟩
  · simp

lemma safe_captureProgram :
    Prog.Safe (captureEffect P capture) (fun _ _ => True)
      (fun _ answer t => ∀ result, answer = .ok result → CaptureExecuted P capture s t) [] s
      (captureProgram P capture) := by
  refine ⟨trivial, fun answer t he => ?_⟩
  obtain ⟨ht, hanswer⟩ := he
  obtain rfl := ht.symm
  rcases answer with error | found
  · exact fun _ h => absurd h (by simp)
  have hfound : s.captures.get? capture.idempotencyKey = found := by
    rcases hanswer with h | ⟨error, h⟩
    · exact (Except.ok.inj h).symm
    · cases h
  rcases found with _ | row
  · refine ⟨trivial, fun answer t he => ?_⟩
    rcases he with ⟨messageUuid, hmessage, rfl, rfl⟩ | ⟨⟨error, rfl⟩, rfl⟩
    · refine ⟨trivial, fun answer t he => ?_⟩
      rcases he with ⟨versionUuid, hversion, rfl, -, rfl⟩ | ⟨⟨error, rfl⟩, rfl⟩
      · refine ⟨trivial, fun answer t he => ?_⟩
        rcases he with ⟨identity, -, rfl, rfl⟩ | ⟨⟨error, rfl⟩, rfl⟩
        · have hversion' : s.versions.get? versionUuid = none := by
            simpa [CaptureStore.createMessage] using hversion
          exact fun _ _ => .captured hfound hmessage hversion' rfl
        · exact fun _ h => absurd h (by simp)
      · exact fun _ h => absurd h (by simp)
    · exact fun _ h => absurd h (by simp)
  · dsimp only
    split_ifs with hsame
    · exact fun _ _ => .stored hfound hsame rfl
    · exact fun _ h => absurd h (by simp)

/-- What an execution did that leaves nothing behind when it raises. -/
lemma executed_of_unbroken {command : WriteCommand} {answer : Except ExecuteError WriteResult}
    (h : Unbroken (captureExecutes P capture) command s answer t) :
    t = s ∨ CaptureExecuted P capture s t := by
  obtain ⟨⟨es, q, hexec, hanswer⟩, hbroken⟩ := h
  rcases answer with error | result
  · exact .inl (hbroken error rfl)
  · refine .inr ?_
    have hresult : q.result? = some (.ok result) :=
      hanswer.resolve_right fun ⟨_, error, herror⟩ => absurd herror (by simp)
    rcases safe_captureProgram.outcome hexec with ⟨hnone, -⟩ | ⟨answer, hsome, hend⟩
    · exact absurd (hnone.symm.trans hresult) (by simp)
    · exact hend result (Option.some_inj.mp (hsome.symm.trans hresult))

/-! ### What a capture keeps -/

lemma mem_rows_insert {ρ κ : Type} {key : ρ → κ} [DecidableEq κ] {table : Table ρ κ key} {r r' : ρ}
    (h : r ∈ table.rows) : r ∈ (table.insert r').rows := by
  unfold Table.insert
  split_ifs
  · exact h
  · exact List.mem_append_left _ h

/-- A whole capture stays whole when others are added. -/
lemma CapturedWhole.mono {key messageUuid : String} {row : CaptureRow} {message : MessageRow}
    (h : CapturedWhole P s key messageUuid row message)
    (hcaptures : t.captures.get? key = s.captures.get? key)
    (hmessages : t.messages.get? messageUuid = s.messages.get? messageUuid)
    (hversions : ∀ version ∈ s.versions.rows, version ∈ t.versions.rows)
    (hjobs : ∀ job ∈ s.jobs, job ∈ t.jobs) : CapturedWhole P t key messageUuid row message where
  capture := hcaptures.trans h.capture
  captured := h.captured
  stored := hmessages.trans h.stored
  session := h.session
  role := h.role
  content := h.content
  version := h.version.imp fun version hversion => ⟨hversions version hversion.1, hversion.2⟩
  job := h.job.imp fun _ hjob => hjobs _ hjob

section

variable {messageUuid versionUuid : String} {identity : List (Text × IJson)}

lemma captures_captured : (s.captured P capture messageUuid versionUuid identity).captures =
    s.captures.insert (newCaptureRow P capture messageUuid) := by
  simp [CaptureStore.captured, CaptureStore.recordCapture, CaptureStore.createVersion,
    CaptureStore.createMessage]

lemma messages_captured : (s.captured P capture messageUuid versionUuid identity).messages =
    s.messages.insert (newCapturedMessage s capture messageUuid) := by
  simp [CaptureStore.captured, CaptureStore.recordCapture, CaptureStore.createVersion,
    CaptureStore.createMessage]

lemma versions_captured : (s.captured P capture messageUuid versionUuid identity).versions =
    s.versions.insert (newCapturedVersion (s.createMessage capture messageUuid) capture messageUuid
      versionUuid) := by
  simp [CaptureStore.captured, CaptureStore.recordCapture, CaptureStore.createVersion,
    CaptureStore.createMessage]

lemma created_captured : (s.captured P capture messageUuid versionUuid identity).created =
    s.created ++ [(capture.idempotencyKey, messageUuid)] := by
  simp [CaptureStore.captured, CaptureStore.recordCapture, CaptureStore.createVersion,
    CaptureStore.createMessage]

lemma mem_jobs_captured {job : CaptureJobRow} :
    job ∈ (s.captured P capture messageUuid versionUuid identity).jobs ↔ (job ∈ s.jobs ∨
      job = ⟨"text_unitization", (messagePayload messageUuid capture.sessionUuid []).dump⟩) ∨
      job = ⟨"memory_extraction", (messagePayload messageUuid capture.sessionUuid identity).dump⟩ := by
  simp [CaptureStore.captured, CaptureStore.recordCapture, CaptureStore.createVersion,
    CaptureStore.createMessage]

/-- The first version of a message has the number one. -/
lemma nextVersionNumber_of_fresh (hheld : s.VersionsHeld)
    (hmessage : s.messages.get? messageUuid = none) : s.nextVersionNumber messageUuid = 1 := by
  unfold CaptureStore.nextVersionNumber
  have hnone : (s.versions.rows.filter fun row => row.messageUuid = messageUuid) = [] := by
    refine List.filter_eq_nil_iff.mpr fun version hversion => ?_
    have hsome := hheld version hversion
    simp only [decide_eq_true_eq]
    rintro rfl
    simp [hmessage] at hsome
  rw [hnone]
  rfl

/-- The message of a capture of a new key is whole. -/
lemma capturedWhole_captured (hheld : s.VersionsHeld)
    (hcapture : s.captures.get? capture.idempotencyKey = none)
    (hmessage : s.messages.get? messageUuid = none)
    (hversion : s.versions.get? versionUuid = none) :
    CapturedWhole P (s.captured P capture messageUuid versionUuid identity) capture.idempotencyKey
      messageUuid (newCaptureRow P capture messageUuid) (newCapturedMessage s capture messageUuid)
      where
  capture := by
    rw [captures_captured]
    exact Table.get?_insert_self hcapture
  captured := rfl
  stored := by
    rw [messages_captured]
    exact Table.get?_insert_self hmessage
  session := rfl
  role := rfl
  content := ⟨capture.content, rfl, rfl⟩
  version := by
    rw [versions_captured, Table.rows_insert hversion]
    refine ⟨_, List.mem_append_right _ (List.mem_singleton_self _), rfl, ?_, rfl⟩
    have hnext : (s.createMessage capture messageUuid).nextVersionNumber messageUuid =
        s.nextVersionNumber messageUuid := by
      simp [CaptureStore.nextVersionNumber, CaptureStore.createMessage]
    exact hnext.trans (nextVersionNumber_of_fresh hheld hmessage)
  job := ⟨identity, mem_jobs_captured.mpr (.inr rfl)⟩

end

/-- A capture with a result keeps the captures whole. -/
lemma CaptureExecuted.capturesWhole (hexec : CaptureExecuted P capture s t) (h : CapturesWhole P s)
    (hheld : s.VersionsHeld) : CapturesWhole P t ∧ t.VersionsHeld := by
  cases hexec with
  | stored _ _ hstay => exact hstay ▸ ⟨h, hheld⟩
  | @captured messageUuid versionUuid identity hcapture hmessage hversion hcaptured =>
      subst hcaptured
      have hnew : CapturedWhole P (s.captured P capture messageUuid versionUuid identity) _ _ _ _ :=
        capturedWhole_captured hheld hcapture hmessage hversion
      refine ⟨⟨?_, fun key messageUuid' hmem => ?_⟩, fun version hmem => ?_⟩
      · -- the key of the new message has no other one
        rw [created_captured, List.map_append, List.nodup_append]
        refine ⟨h.one, List.nodup_singleton _, fun key hkey key' hkey' heq => ?_⟩
        obtain rfl := List.mem_singleton.mp hkey'
        obtain ⟨⟨key'', messageUuid'⟩, hmem, rfl⟩ := List.mem_map.mp hkey
        obtain ⟨row, message, hwhole⟩ := h.whole _ _ hmem
        have hrow := hwhole.capture
        dsimp only at heq hrow
        rw [heq, hcapture] at hrow
        cases hrow
      · rw [created_captured] at hmem
        rcases List.mem_append.mp hmem with hold | hlast
        · obtain ⟨row, message, hwhole⟩ := h.whole _ _ hold
          refine ⟨row, message, hwhole.mono ?_ ?_ (fun version hversion => ?_) fun job hjob => ?_⟩
          · rw [captures_captured, hwhole.capture]
            exact Table.get?_insert_of_some hwhole.capture _
          · rw [messages_captured, hwhole.stored]
            exact Table.get?_insert_of_some hwhole.stored _
          · rw [versions_captured]
            exact mem_rows_insert hversion
          · exact mem_jobs_captured.mpr (.inl (.inl hjob))
        · obtain ⟨rfl, rfl⟩ := Prod.mk.inj (List.mem_singleton.mp hlast)
          exact ⟨_, _, hnew⟩
      · rw [versions_captured, Table.rows_insert hversion] at hmem
        rcases List.mem_append.mp hmem with hold | hlast
        · obtain ⟨message, hsome⟩ := Option.isSome_iff_exists.mp (hheld version hold)
          rw [messages_captured, Table.get?_insert_of_some hsome]
          rfl
        · obtain rfl := List.mem_singleton.mp hlast
          have hself := hnew.stored
          have hversionUuid : (newCapturedVersion (s.createMessage capture messageUuid) capture
              messageUuid versionUuid).messageUuid = messageUuid := rfl
          rw [hversionUuid, hself]
          rfl

end

section

variable {P : Platform} {s t s₀ : ActorState CaptureStore} {run : CaptureSubmission}
variable {runs : List CaptureSubmission}

/-- A submission that does not leave a capture half-way keeps the captures whole. -/
lemma CaptureStep.capturesWhole
    (hstep : CaptureStep P (fun capture => Unbroken (captureExecutes P capture)) s run t)
    (h : CapturesWhole P s.db ∧ s.db.VersionsHeld) :
    CapturesWhole P t.db ∧ t.db.VersionsHeld := by
  obtain ⟨-, q, hexec, -⟩ := hstep
  refine hexec.invariant (I := fun s => CapturesWhole P s.db ∧ s.db.VersionsHeld) ?_ h
  intro s e answer t hs he
  cases e with
  | clock => exact (show t = s from he) ▸ hs
  | lookup key commandType => exact he.1 ▸ hs
  | validateReplay => exact he.1 ▸ hs
  | execute =>
      rcases executed_of_unbroken he.2 with heq | hexecuted
      · rwa [heq]
      · exact hexecuted.capturesWhole hs.1 hs.2
  | record row =>
      rcases he with ⟨-, rfl⟩ | ⟨-, rfl⟩
      · exact hs
      · exact hs

/-! ### A key that comes back -/

section

variable {capture : CaptureCommand} {row : CaptureRow}
variable {es : List (Performed ActorEffect.Response)}

/-- The execution of a capture whose key belongs to another request raises and changes nothing. -/
lemma captureExecutes_other {db db' : CaptureStore} {command : WriteCommand}
    {answer : Except ExecuteError WriteResult}
    (hrow : db.captures.get? capture.idempotencyKey = some row) (hother : ¬ SameCapture P capture row)
    (h : captureExecutes P capture command db answer db') :
    db' = db ∧ ∃ error, answer = .error error := by
  have hsafe : Prog.Safe (captureEffect P capture) (fun _ u => u = db)
      (fun _ (answer : Except ExecuteError WriteResult) u => u = db ∧ ∃ error, answer = .error error)
      [] db (captureProgram P capture) := by
    refine ⟨rfl, fun answer u he => ?_⟩
    obtain ⟨hu, hanswer⟩ := he
    obtain rfl := hu.symm
    rcases hanswer with rfl | ⟨error, rfl⟩
    · rw [hrow]
      dsimp only
      rw [if_neg hother]
      exact ⟨rfl, _, rfl⟩
    · exact ⟨rfl, error, rfl⟩
  obtain ⟨es, q, hexec, hanswer⟩ := h
  rcases hsafe.outcome hexec with ⟨hnone, hstay⟩ | ⟨answer', hsome, hstay, herror⟩
  · refine ⟨hstay, ?_⟩
    rcases hanswer with hresult | ⟨-, herror⟩
    · exact absurd (hnone.symm.trans hresult) (by simp)
    · exact herror
  · refine ⟨hstay, ?_⟩
    rcases hanswer with hresult | ⟨hnone, -⟩
    · rwa [Option.some_inj.mp (hresult.symm.trans hsome)]
    · exact absurd (hsome.symm.trans hnone) (by simp)

/-- The store as it was. -/
abbrev Stays (s : ActorState CaptureStore) (_ : List (Performed ActorEffect.Response))
    (u : ActorState CaptureStore) : Prop := u = s

/-- A rejection that leaves the store as it was. -/
def Rejected {α : Type} (s : ActorState CaptureStore) (_ : List (Performed ActorEffect.Response))
    (answer : Except String α) (u : ActorState CaptureStore) : Prop :=
  u = s ∧ ∀ a, answer ≠ .ok a

lemma safe_executeWithBusyRetry_other
    (hrow : s.db.captures.get? capture.idempotencyKey = some row)
    (hother : ¬ SameCapture P capture row) (attempts : ℕ) :
    Prog.Safe (captureActorEffect P (captureExecutes P capture) capture) (Stays s) (Rejected s) es s
      (executeWithBusyRetry attempts) := by
  induction attempts generalizing es with
  | zero => exact ⟨rfl, by simp⟩
  | succ attempts ih =>
      refine ⟨rfl, fun answer u he => ?_⟩
      obtain ⟨hrecords, hexecutes⟩ := he
      obtain ⟨hdb, error, rfl⟩ := captureExecutes_other hrow hother hexecutes
      obtain rfl : s = u := by
        obtain ⟨db, records⟩ := u
        obtain rfl : records = s.records := hrecords
        obtain rfl : db = s.db := hdb
        rfl
      dsimp only
      split_ifs
      · exact ih
      · exact ⟨rfl, by simp⟩

/-- A capture whose key belongs to another request is rejected. -/
lemma safe_executeEnvelope_other
    (hrow : s.db.captures.get? capture.idempotencyKey = some row)
    (hother : ¬ SameCapture P capture row) (submittedAt : ℕ) :
    Prog.Safe (captureActorEffect P (captureExecutes P capture) capture) (Stays s) (Rejected s) [] s
      (executeEnvelope P.unicode capture.writeCommand submittedAt) := by
  unfold executeEnvelope
  split_ifs
  · exact ⟨rfl, by simp⟩
  · exact ⟨rfl, by simp⟩
  refine ⟨rfl, fun now t he => ?_⟩
  obtain rfl : s = t := Eq.symm he
  refine ⟨rfl, fun started t he => ?_⟩
  obtain rfl : s = t := Eq.symm he
  have hlookup {es : List (Performed ActorEffect.Response)} :
      Prog.Safe (captureActorEffect P (captureExecutes P capture) capture) (Stays s)
        (fun _ _ u => u = s) es s (idempotencyLookup capture.writeCommand) := by
    unfold idempotencyLookup
    split
    · exact rfl
    · refine ⟨rfl, fun answer u he => ?_⟩
      obtain ⟨hu, -⟩ := he
      obtain rfl := hu.symm
      cases answer <;> exact rfl
  refine safe_andThen (hlookup.imp fun es answer u hu => ?_)
  obtain rfl : s = u := hu.symm
  refine ⟨fun error _ => ⟨rfl, by simp⟩, fun cached _ => ?_⟩
  refine safe_andThen (Prog.Safe.imp (Q := Rejected s) (fun es answer u hrejected =>
    ⟨fun error _ => ⟨hrejected.1, by simp⟩, fun a ha => absurd ha (hrejected.2 a)⟩) ?_)
  cases cached with
  | none =>
      refine safe_andThen ((safe_executeWithBusyRetry_other hrow hother maxAttempts).imp
        fun es answer u hrejected => ⟨fun error _ => ⟨hrejected.1, by simp⟩, fun a ha =>
          absurd ha (hrejected.2 a)⟩)
  | some cached =>
      refine ⟨rfl, fun answer u he => ?_⟩
      obtain ⟨hu, hanswer⟩ := he
      obtain rfl := hu.symm
      rcases answer with error | _
      · exact ⟨rfl, by simp⟩
      · rcases hanswer with hvalid | ⟨error, herror⟩
        · unfold validateIdempotentCapture at hvalid
          rw [hrow] at hvalid
          exact absurd (hvalid.trans (if_neg hother)) (by simp)
        · cases herror

/-- A request that differs from the one that a key belongs to. -/
def DiffersFrom (capture : CaptureCommand) (row : CaptureRow) (message : MessageRow) : Prop :=
  capture.sessionUuid ≠ row.sessionUuid ∨ capture.role ≠ row.role ∨
    some capture.content ≠ message.rawText ∨
    capture.openwebuiMessageId ≠ row.openwebuiMessageId ∨
    capture.openwebuiConversationId ≠ row.openwebuiConversationId

end

/-- After any submissions that do not leave a capture half-way, a key has one message at most and
the message its version, its capture and its job; and whoever comes back with the key and another
request is rejected and changes nothing. -/
theorem captures_exactly_once (hsha : Function.Injective P.sha256)
    (hruns : Runs (CaptureStep P fun capture => Unbroken (captureExecutes P capture)) s₀ runs t)
    (hcreated : s₀.db.created = []) (hheld : s₀.db.VersionsHeld) :
    CapturesWhole P t.db ∧ ∀ run u messageUuid row message,
      (run.capture.idempotencyKey, messageUuid) ∈ t.db.created →
      t.db.captures.get? run.capture.idempotencyKey = some row →
      t.db.messages.get? messageUuid = some message → DiffersFrom run.capture row message →
      CaptureStep P (captureExecutes P) t run u →
      u = t ∧ ∀ result, run.submission.result ≠ some (.ok result) := by
  have hwhole : CapturesWhole P t.db ∧ t.db.VersionsHeld := by
    refine hruns.invariant (I := fun s => CapturesWhole P s.db ∧ s.db.VersionsHeld)
      (fun h hstep => hstep.capturesWhole h) ⟨⟨?_, fun key messageUuid hmem => ?_⟩, hheld⟩
    · rw [hcreated]
      exact List.nodup_nil
    · rw [hcreated] at hmem
      cases hmem
  refine ⟨hwhole.1, fun run u messageUuid row message hmem hrow hmessage hdiffers hstep => ?_⟩
  obtain ⟨row', message', hcaptured⟩ := hwhole.1.whole _ _ hmem
  obtain rfl := Option.some_inj.mp (hrow.symm.trans hcaptured.capture)
  obtain rfl := Option.some_inj.mp (hmessage.symm.trans hcaptured.stored)
  have hother : ¬ SameCapture P run.capture row := by
    rintro ⟨hsession, hrole, hhash, hmessageId, hconversation⟩
    obtain ⟨content, hcontent, hcontentHash⟩ := hcaptured.content
    obtain rfl : content = run.capture.content := hsha (hcontentHash.symm.trans hhash)
    rcases hdiffers with h | h | h | h | h
    · exact h hsession.symm
    · exact h hrole.symm
    · exact h hcontent.symm
    · exact h hmessageId.symm
    · exact h hconversation.symm
  obtain ⟨-, q, hexec, hresult⟩ := hstep
  rcases (safe_executeEnvelope_other hrow hother run.submission.submittedAt).outcome hexec with
    ⟨hnone, hstay⟩ | ⟨answer, hsome, hstay, hrejected⟩
  · exact ⟨hstay, fun result h => absurd (hnone.symm.trans (hresult.symm.trans h)) (by simp)⟩
  · refine ⟨hstay, fun result h => hrejected result ?_⟩
    exact Option.some_inj.mp (hsome.symm.trans (hresult.symm.trans h))

end

/-! ### Captures on an empty store -/

/-- A platform whose digests keep the text. -/
def textPlatform : Platform := { latinPlatform with sha256 := String.ofList }

/-- A store without captures. -/
def noCaptures : ActorState CaptureStore := ⟨⟨.empty, .empty, .empty, .empty, [], []⟩, .empty⟩

/-- The capture of a message `tea` under the key `k`. -/
def teaCapture : CaptureCommand where
  sessionUuid := "s1"
  role := "user"
  content := "tea".toList
  idempotencyKey := "k"

/-- The answer of a transaction of a capture that goes well. -/
def captureRespond (capture : CaptureCommand) (s : CaptureStore) :
    (e : CaptureEffect) → e.Response × CaptureStore
  | .selectCapture => (.ok (s.captures.get? capture.idempotencyKey), s)
  | .createMessage =>
      if s.messages.get? "m1" = none then (.ok "m1", s.createMessage capture "m1")
      else (.error ⟨false, "IntegrityError"⟩, s)
  | .createVersion messageUuid =>
      if s.versions.get? "v1" = none ∧ (s.messages.get? messageUuid).isSome then
        (.ok (), s.createVersion capture messageUuid "v1")
      else (.error ⟨false, "IntegrityError"⟩, s)
  | .recordCapture messageUuid =>
      if s.captures.get? capture.idempotencyKey = none then
        (.ok (), s.recordCapture textPlatform capture messageUuid [])
      else (.error ⟨false, "IntegrityError"⟩, s)

lemma captureRespond_effect (capture : CaptureCommand) (s : CaptureStore) (e : CaptureEffect) :
    captureEffect textPlatform capture s e (captureRespond capture s e).1
      (captureRespond capture s e).2 := by
  unfold captureRespond
  cases e with
  | selectCapture => exact ⟨rfl, .inl rfl⟩
  | createMessage =>
      dsimp only
      split_ifs with h
      · exact .inl ⟨"m1", h, rfl, rfl⟩
      · exact .inr ⟨⟨_, rfl⟩, rfl⟩
  | createVersion messageUuid =>
      dsimp only
      split_ifs with h
      · exact .inl ⟨"v1", h.1, rfl, h.2, rfl⟩
      · exact .inr ⟨⟨_, rfl⟩, rfl⟩
  | recordCapture messageUuid =>
      dsimp only
      split_ifs with h
      · exact .inl ⟨[], h, rfl, rfl⟩
      · exact .inr ⟨⟨_, rfl⟩, rfl⟩

/-- The answer of a statement of a submission that goes well. -/
def captureActorRespond (capture : CaptureCommand) (s : ActorState CaptureStore) :
    (e : ActorEffect) → e.Response × ActorState CaptureStore
  | .clock => ((0 : ℕ), s)
  | .lookup key commandType =>
      (.ok ((s.records.get? key).filter fun row => row.commandType = commandType), s)
  | .validateReplay => (validateIdempotentCapture textPlatform capture s.db, s)
  | .execute =>
      let ended := Prog.eval (captureRespond capture) s.db (captureProgram textPlatform capture)
      match ended.2.1 with
      | .ok result => (.ok result, { s with db := ended.2.2 })
      | .error error => (.error error, s)
  | .record row => (.ok (), { s with records := s.records.insert row })

/-- A submission of a capture that goes well, and the store after it. -/
def submitCapture (capture : CaptureCommand) (s : ActorState CaptureStore) :
    CaptureSubmission × ActorState CaptureStore :=
  let ended := Prog.eval (captureActorRespond capture) s
    (executeEnvelope basicLatin capture.writeCommand 0)
  (⟨capture, ⟨capture.writeCommand, 0, ended.1, some ended.2.1⟩⟩, ended.2.2)

lemma submitCapture_step (capture : CaptureCommand) (s : ActorState CaptureStore) :
    CaptureStep textPlatform (fun capture => Unbroken (captureExecutes textPlatform capture)) s
      (submitCapture capture s).1 (submitCapture capture s).2 := by
  refine ⟨rfl, _, Prog.exec_eval (fun s e => ?_) s _, rfl⟩
  cases e with
  | clock => exact rfl
  | lookup key commandType => exact ⟨rfl, .inl rfl⟩
  | validateReplay => exact ⟨rfl, .inl rfl⟩
  | execute =>
      have hexec := Prog.exec_eval (captureRespond_effect capture) s.db
        (captureProgram textPlatform capture)
      unfold captureActorRespond
      dsimp only
      split
      case h_1 result hresult =>
        exact ⟨rfl, ⟨_, _, hexec, .inl (congrArg some hresult)⟩, fun _ h => absurd h (by simp)⟩
      case h_2 error herror =>
        exact ⟨rfl, ⟨[], _, .refl _ _, .inr ⟨rfl, error, rfl⟩⟩, fun _ _ => rfl⟩
  | record row => exact .inl ⟨rfl, rfl⟩

/-- A store after the same capture was submitted twice. -/
def twiceSubmitted : ActorState CaptureStore :=
  (submitCapture teaCapture (submitCapture teaCapture noCaptures).2).2

theorem tea_captured_once : twiceSubmitted.db.created = [("k", "m1")] ∧
    CapturesWhole textPlatform twiceSubmitted.db ∧
      ∀ run u messageUuid row message,
        (run.capture.idempotencyKey, messageUuid) ∈ twiceSubmitted.db.created →
        twiceSubmitted.db.captures.get? run.capture.idempotencyKey = some row →
        twiceSubmitted.db.messages.get? messageUuid = some message →
        DiffersFrom run.capture row message →
        CaptureStep textPlatform (captureExecutes textPlatform) twiceSubmitted run u →
        u = twiceSubmitted ∧ ∀ result, run.submission.result ≠ some (.ok result) :=
  ⟨by decide, captures_exactly_once (fun _ _ h => String.ofList_inj.mp h)
    ((Runs.refl.tail (submitCapture_step teaCapture noCaptures)).tail
      (submitCapture_step teaCapture (submitCapture teaCapture noCaptures).2)) rfl
    (fun _ h => absurd h List.not_mem_nil)⟩

/-- A capture whose version cannot be written leaves a message without capture and job. -/
theorem failed_version_leaves_message : ¬ ∀ runs t,
    Runs (CaptureStep textPlatform (captureExecutes textPlatform)) noCaptures runs t →
      CapturesWhole textPlatform t.db := by
  intro h
  have hexecutes : captureExecutes textPlatform teaCapture teaCapture.writeCommand noCaptures.db
      (.error ⟨false, "disk I/O error"⟩) (noCaptures.db.createMessage teaCapture "m1") :=
    ⟨_, _, .call (t := noCaptures.db) ⟨rfl, .inl rfl⟩
      (.call (t := noCaptures.db.createMessage teaCapture "m1") (.inl ⟨"m1", rfl, rfl, rfl⟩)
        (.call (t := noCaptures.db.createMessage teaCapture "m1") (.inr ⟨⟨_, rfl⟩, rfl⟩)
          (.refl _ _))), .inl rfl⟩
  have hstep : CaptureStep textPlatform (captureExecutes textPlatform) noCaptures
      ⟨teaCapture, ⟨teaCapture.writeCommand, 0,
        [⟨.clock, (0 : ℕ)⟩, ⟨.clock, (0 : ℕ)⟩, ⟨.lookup "k" "openwebui_capture_message", .ok none⟩,
          ⟨.execute, .error ⟨false, "disk I/O error"⟩⟩], some (.error "disk I/O error")⟩⟩
      ⟨noCaptures.db.createMessage teaCapture "m1", .empty⟩ :=
    ⟨rfl, _, .call (t := noCaptures) rfl (.call (t := noCaptures) rfl (.call (t := noCaptures)
      ⟨rfl, .inl rfl⟩ (.call (t := ⟨noCaptures.db.createMessage teaCapture "m1", .empty⟩)
        ⟨rfl, hexecutes⟩ (.refl _ _)))), rfl⟩
  obtain ⟨row, message, hwhole⟩ := (h _ _ (Runs.refl.tail hstep)).whole "k" "m1" (by decide +kernel)
  have hnone : (noCaptures.db.createMessage teaCapture "m1").captures.get? "k" = none := by
    decide +kernel
  exact absurd (hnone.symm.trans hwhole.capture) (by simp)

end Memorist
