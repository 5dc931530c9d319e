import Memorist.Library.Fallible
import Memorist.Library.Json
import Memorist.Library.Table
import Memorist.Storage.Sql

/-!
Context attachments and their lifecycle (`memory_control/repository.py`, with `mark_stale` of
`active_memory/repositories.py`).

* `AttachmentRow`, `LifecycleEvent`, `AttachmentStore`: the rows, and the time;
* `allowedTransitions`: the statuses that may follow one another;
* `AttachmentEffect`, `attachmentEffect`: the statements, each a transaction of its own;
* `transitionAttachment`: the program of `transition_attachment`;
* `AttachmentRequest`, `AttachmentStep`: calls side by side, with blocks that are marked stale or
  rolled back, and with time.
-/

namespace Memorist

open Fallible (ask raise)

/-! ### Rows -/

/-- The statuses of an attachment. -/
inductive LifecycleStatus where
  | prepared
  | approved
  | delivered
  | suppressed
  | cancelledBeforeSend
  | userRejected
  | usedForResponse
  deriving DecidableEq, Repr

/-- The statuses that may follow one. -/
def allowedTransitions : LifecycleStatus → List LifecycleStatus
  | .prepared => [.approved, .delivered, .suppressed, .cancelledBeforeSend, .userRejected]
  | .approved => [.delivered, .suppressed, .cancelledBeforeSend, .userRejected]
  | .delivered => [.usedForResponse]
  | .suppressed | .cancelledBeforeSend | .userRejected | .usedForResponse => []

/-- A row of `memory_context_attachments`. -/
structure AttachmentRow where
  attachmentUuid : String
  ownerUserUuid : Option String
  workspaceUuid : Option String
  sourceBlockUuidsIjson : Option Text := none
  status : String := "active"
  staleReason : Option String := none
  lifecycleStatus : LifecycleStatus := .prepared
  attachmentReview : Bool := false
  expiresAt : Option Timestamp := none
  approvedAt : Option Timestamp := none
  deliveredAt : Option Timestamp := none
  suppressedAt : Option Timestamp := none
  cancelledAt : Option Timestamp := none
  userDisposition : String := "none"
  userDispositionAt : Option Timestamp := none
  deriving DecidableEq

namespace AttachmentRow

/-- Whether an attachment has expired at a time. -/
def isExpired (row : AttachmentRow) (now : Timestamp) : Bool := row.expiresAt.any (· ≤ now)

/-- Whether an attachment is active; an empty status counts as none. -/
def isActive (row : AttachmentRow) : Bool := row.status = "" || row.status = "active"

/-- Whether an attachment has a reason to be stale. -/
def isStale (row : AttachmentRow) : Bool := row.staleReason.any (· ≠ "")

/-- The row of an attachment that enters a status. -/
def entering (status : LifecycleStatus) (now : Timestamp) (row : AttachmentRow) : AttachmentRow :=
  let row := { row with lifecycleStatus := status }
  match status with
  | .approved => { row with approvedAt := some now }
  | .delivered => { row with deliveredAt := some now }
  | .suppressed => { row with suppressedAt := some now }
  | .cancelledBeforeSend | .userRejected => { row with cancelledAt := some now }
  | .prepared | .usedForResponse => row

/-- The row of an attachment that its user rejects. -/
def rejecting (now : Timestamp) (row : AttachmentRow) : AttachmentRow :=
  { row with userDisposition := "rejected", userDispositionAt := some now }

/-- The row of an attachment that is marked stale. -/
def staled (reason : String) (row : AttachmentRow) : AttachmentRow :=
  { row with status := "stale", staleReason := some reason }

/-- Whether a block is among the sources of an attachment, by its text. -/
def namesBlock (blockUuid : Text) (row : AttachmentRow) : Bool :=
  row.sourceBlockUuidsIjson.any (like ('%' :: (blockUuid ++ ['%'])))

@[simp] lemma attachmentUuid_entering (status : LifecycleStatus) (now : Timestamp)
    (row : AttachmentRow) : (row.entering status now).attachmentUuid = row.attachmentUuid := by
  cases status <;> rfl

@[simp] lemma attachmentUuid_rejecting (now : Timestamp) (row : AttachmentRow) :
    (row.rejecting now).attachmentUuid = row.attachmentUuid := rfl

@[simp] lemma attachmentUuid_staled (reason : String) (row : AttachmentRow) :
    (row.staled reason).attachmentUuid = row.attachmentUuid := rfl

@[simp] lemma lifecycleStatus_entering (status : LifecycleStatus) (now : Timestamp)
    (row : AttachmentRow) : (row.entering status now).lifecycleStatus = status := by
  cases status <;> rfl

end AttachmentRow

/-- A row of `memorist_attachment_lifecycle_events`. -/
structure LifecycleEvent where
  lifecycleEventUuid : String
  attachmentUuid : String
  lifecycleStatus : LifecycleStatus
  idempotencyKey : String
  userUuid : Option String
  workspaceUuid : Option String
  responseMessageUuid : Option String := none
  detail : IJson := .obj []
  createdAt : Timestamp

/-- The attachments, their events and the time. -/
structure AttachmentStore where
  attachments : Table AttachmentRow String AttachmentRow.attachmentUuid := .empty
  events : List LifecycleEvent := []
  now : Timestamp := 0

namespace AttachmentStore

variable (s : AttachmentStore)

/-- The row of an attachment that belongs to a user and a workspace. -/
def attachmentForActor (attachmentUuid userUuid : String) (workspaceUuid : Option String) :
    Option AttachmentRow :=
  if userUuid = "" ∨ workspaceUuid.all (· = "") then none
  else (s.attachments.get? attachmentUuid).filter fun row =>
    row.ownerUserUuid = some userUuid && row.workspaceUuid = workspaceUuid

/-- The event of a status, of which an attachment has one at most. -/
def eventOf (attachmentUuid : String) (status : LifecycleStatus) : Option LifecycleEvent :=
  s.events.find? fun event =>
    event.attachmentUuid = attachmentUuid && event.lifecycleStatus = status

/-- The event of a status that an earlier call with the key has left. -/
def existingEvent (attachmentUuid : String) (status : LifecycleStatus) (idempotencyKey : String) :
    Option LifecycleEvent :=
  s.events.find? fun event => event.attachmentUuid = attachmentUuid &&
    event.lifecycleStatus = status && event.idempotencyKey = idempotencyKey

/-- Whether an event is refused: its attachment has one of the same status, or its id is taken. -/
def conflicts (event : LifecycleEvent) : Bool :=
  s.events.any fun old => old.lifecycleEventUuid = event.lifecycleEventUuid ||
    (old.attachmentUuid = event.attachmentUuid && old.lifecycleStatus = event.lifecycleStatus)

/-- Add an event of an attachment that is there. -/
def insertEvent? (event : LifecycleEvent) : Option AttachmentStore :=
  if s.conflicts event || (s.attachments.get? event.attachmentUuid).isNone then none
  else some { s with events := s.events ++ [event] }

/-- Set the status of an attachment that still has the one it was read with. -/
def enter (seen : AttachmentRow) (status : LifecycleStatus) (now : Timestamp) : AttachmentStore :=
  { s with
    attachments := s.attachments.updateWhere
      (fun row => row.attachmentUuid = seen.attachmentUuid &&
        row.lifecycleStatus = seen.lifecycleStatus)
      (AttachmentRow.entering status now) (AttachmentRow.attachmentUuid_entering status now) }

/-- Record that a user rejects an attachment. -/
def reject (attachmentUuid : String) (now : Timestamp) : AttachmentStore :=
  { s with
    attachments := s.attachments.updateWhere (fun row => row.attachmentUuid = attachmentUuid)
      (AttachmentRow.rejecting now) (AttachmentRow.attachmentUuid_rejecting now) }

/-- Mark the attachments that name a block stale. -/
def markStale (blockUuid : Text) (reason : String) : AttachmentStore :=
  { s with
    attachments := s.attachments.updateWhere (AttachmentRow.namesBlock blockUuid)
      (AttachmentRow.staled reason) (AttachmentRow.attachmentUuid_staled reason) }

/-- Whether the attachment still has the status it was read with. -/
def guardHolds (seen : AttachmentRow) : Bool :=
  (s.attachments.get? seen.attachmentUuid).any fun row =>
    row.lifecycleStatus = seen.lifecycleStatus

end AttachmentStore

/-! ### Statements -/

/-- What a call asks of the store. A transition and its event are written in one transaction, as a
rejection and its event are. -/
inductive AttachmentEffect where
  | createAttachment (row : AttachmentRow) (event : LifecycleEvent)
  | attachmentForActor (attachmentUuid userUuid : String) (workspaceUuid : Option String)
  | clock
  | existingEvent (attachmentUuid : String) (status : LifecycleStatus) (idempotencyKey : String)
  | eventOf (attachmentUuid : String) (status : LifecycleStatus)
  | reject (attachmentUuid : String) (event : LifecycleEvent)
  | enter (seen : AttachmentRow) (event : LifecycleEvent)
  | audit (attachmentUuid : String) (status : LifecycleStatus)
  | markStale (blockUuid : Text) (reason : String)
  | rollback (blockUuid : Text) (versionNumber : ℕ)
  | wait (duration : Timestamp)

/-- What a statement answers. -/
def AttachmentEffect.Answer : AttachmentEffect → Type
  | attachmentForActor _ _ _ => Option AttachmentRow
  | clock => Timestamp
  | existingEvent _ _ _ | eventOf _ _ => Option LifecycleEvent
  | enter _ _ => Bool
  | createAttachment _ _ | reject _ _ | audit _ _ | markStale _ _ | rollback _ _ | wait _ => Unit

/-- The errors of a call. -/
inductive AttachmentError where
  | lookup (message : String)
  | value (message : String)
  | store (message : String)
  deriving DecidableEq

/-- A statement answers, or the store refuses it. -/
abbrev AttachmentEffect.Response (e : AttachmentEffect) : Type := Except AttachmentError e.Answer

/-- Calls on the attachments. -/
abbrev AttachmentProgram (α : Type) : Type :=
  Fallible AttachmentEffect AttachmentEffect.Answer AttachmentError α

/-- What a statement does to the store. -/
def attachmentEffect (s : AttachmentStore) (e : AttachmentEffect) (response : e.Response)
    (t : AttachmentStore) : Prop :=
  match e, response with
  | .createAttachment row event, .ok () =>
      s.attachments.get? row.attachmentUuid = none ∧
        { s with attachments := s.attachments.insert row }.insertEvent? event = some t
  | .attachmentForActor attachmentUuid userUuid workspaceUuid, .ok row =>
      row = s.attachmentForActor attachmentUuid userUuid workspaceUuid ∧ t = s
  | .clock, .ok (now : ℕ) => now = s.now ∧ t = s
  | .existingEvent attachmentUuid status idempotencyKey, .ok event =>
      event = s.existingEvent attachmentUuid status idempotencyKey ∧ t = s
  | .eventOf attachmentUuid status, .ok event => event = s.eventOf attachmentUuid status ∧ t = s
  | .reject attachmentUuid event, .ok () =>
      (s.reject attachmentUuid event.createdAt).insertEvent? event = some t
  | .enter seen event, .ok entered =>
      if s.guardHolds seen then
        entered = true ∧
          (s.enter seen event.lifecycleStatus event.createdAt).insertEvent? event = some t
      else entered = false ∧ t = s
  | .audit _ _, .ok () => t = s
  | .markStale blockUuid reason, .ok () => t = s.markStale blockUuid reason
  -- a rollback writes the row of the block only
  | .rollback _ _, .ok () => t = s
  | .wait duration, .ok () => t = { s with now := s.now + duration }
  | _, .error _ => t = s

/-! ### Calls -/

/-- The arguments of a transition, with the id of its event. -/
structure TransitionRequest where
  attachmentUuid : String
  lifecycleStatus : LifecycleStatus
  userUuid : String
  workspaceUuid : Option String
  idempotencyKey : String
  responseMessageUuid : Option String := none
  detail : IJson := .obj []
  eventUuid : String

/-- The event of a transition. -/
def TransitionRequest.event (request : TransitionRequest) (now : Timestamp) : LifecycleEvent where
  lifecycleEventUuid := request.eventUuid
  attachmentUuid := request.attachmentUuid
  lifecycleStatus := request.lifecycleStatus
  idempotencyKey := request.idempotencyKey
  userUuid := some request.userUuid
  workspaceUuid := request.workspaceUuid
  responseMessageUuid := request.responseMessageUuid
  detail := request.detail
  createdAt := now

/-- Why an attachment cannot be delivered at a time, if it cannot. -/
def deliveryError (attachment : AttachmentRow) (now : Timestamp) : Option String :=
  if attachment.isExpired now then some "attachment expired before delivery"
  else if !attachment.isActive then some "inactive attachment cannot be delivered"
  else if attachment.isStale then some "stale attachment cannot be delivered"
  else if attachment.attachmentReview && attachment.lifecycleStatus ≠ .approved then
    some "attachment approval required before delivery"
  else none

/-- The text of a status. -/
def LifecycleStatus.value : LifecycleStatus → String
  | prepared => "prepared"
  | approved => "approved"
  | delivered => "delivered"
  | suppressed => "suppressed"
  | cancelledBeforeSend => "cancelled_before_send"
  | userRejected => "user_rejected"
  | usedForResponse => "used_for_response"

/-- The end of a transition: the guarded update, and the event of a concurrent call that won. -/
def enterStatus (request : TransitionRequest) (attachment : AttachmentRow) :
    AttachmentProgram LifecycleEvent :=
  if request.lifecycleStatus ∉ allowedTransitions attachment.lifecycleStatus then
    raise (.value ("invalid attachment transition: " ++ attachment.lifecycleStatus.value ++ " -> " ++
      request.lifecycleStatus.value))
  else
    ask .clock fun (now : ℕ) =>
    ask (.enter attachment (request.event now)) fun (entered : Bool) =>
    if entered then
      ask (.audit request.attachmentUuid request.lifecycleStatus) fun () =>
      .pure (request.event now)
    else
      ask (.eventOf request.attachmentUuid request.lifecycleStatus)
        fun (concurrent : Option LifecycleEvent) =>
      match concurrent with
      | some event => .pure event
      | none => raise (.value "attachment state changed concurrently")

/-- A transition of an attachment that was read, once it may be delivered if it is to be. -/
def transitionRead (request : TransitionRequest) (attachment : AttachmentRow) :
    AttachmentProgram LifecycleEvent :=
  ask (.existingEvent request.attachmentUuid request.lifecycleStatus request.idempotencyKey)
    fun (existing : Option LifecycleEvent) =>
  match existing with
  | some event => .pure event
  | none =>
      if request.lifecycleStatus = .userRejected then
        if attachment.lifecycleStatus ∉ [.delivered, .usedForResponse] then
          raise (.value "only a delivered attachment can be rejected")
        else
          ask .clock fun (now : ℕ) =>
          ask (.reject request.attachmentUuid (request.event now)) fun () =>
          .pure (request.event now)
      else if request.lifecycleStatus = attachment.lifecycleStatus then
        ask (.eventOf request.attachmentUuid request.lifecycleStatus)
          fun (canonical : Option LifecycleEvent) =>
        match canonical with
        | some event => .pure event
        | none => enterStatus request attachment
      else enterStatus request attachment

/-- `transition_attachment`. -/
def transitionAttachment (request : TransitionRequest) : AttachmentProgram LifecycleEvent :=
  ask (.attachmentForActor request.attachmentUuid request.userUuid request.workspaceUuid)
    fun (attachment : Option AttachmentRow) =>
  match attachment with
  | none => raise (.lookup "attachment not found")
  | some attachment =>
      if request.lifecycleStatus = .delivered then
        ask .clock fun (now : ℕ) =>
        match deliveryError attachment now with
        | some message => raise (.value message)
        | none => transitionRead request attachment
      else transitionRead request attachment

/-- A call on the attachments, or time that passes. -/
inductive AttachmentRequest where
  | create (row : AttachmentRow) (event : LifecycleEvent)
  | transition (request : TransitionRequest)
  | markStale (blockUuid : Text) (reason : String)
  | rollback (blockUuid : Text) (versionNumber : ℕ)
  | wait (duration : Timestamp)

/-- An attachment as it is prepared, with its first event. -/
def AttachmentRow.preparedWith (row : AttachmentRow) (event : LifecycleEvent) : Prop :=
  row.status = "active" ∧ row.staleReason = none ∧ row.lifecycleStatus = .prepared ∧
    event.attachmentUuid = row.attachmentUuid ∧ event.lifecycleStatus = .prepared

/-- Whether a request is one that the program makes: an attachment is created as a prepared one. -/
def AttachmentRequest.WellFormed : AttachmentRequest → Prop
  | create row event => row.preparedWith event
  | _ => True

/-- The program of a request. -/
def AttachmentRequest.program : AttachmentRequest → AttachmentProgram Unit
  | create row event => ask (.createAttachment row event) fun () => .pure ()
  | transition request => Fallible.andThen (transitionAttachment request) fun _ => .pure ()
  | markStale blockUuid reason => ask (.markStale blockUuid reason) fun () => .pure ()
  | rollback blockUuid versionNumber => ask (.rollback blockUuid versionNumber) fun () => .pure ()
  | wait duration => ask (.wait duration) fun () => .pure ()

/-- A step of any calls, in any order of statements, each of which may raise and after each of which
a call may stop. -/
abbrev AttachmentStep :=
  PoolStep (α := Except AttachmentError Unit) attachmentEffect
    fun p => ∃ request : AttachmentRequest, request.WellFormed ∧ p = request.program

end Memorist
