import Memorist.MemoryControl.Attachments

/-!
What the lifecycle of an attachment keeps, over any interleaving of calls.

* `AttachmentHeld`, `attachmentDiscipline`: a call updates the row that it read, along the
  transitions that are allowed, and delivers what it found fit for delivery;
* `entered`: the statuses that an attachment has entered along a run;
* `FollowsLifecycle`, `AttachmentsKept`: they follow the transitions, each once and with one event;
* `RowLater`: what may change of a row between its reading and its update;
* `delivered_live_iff`: what is delivered is live and approved exactly when it was neither marked
  stale nor has expired since it was read.
-/

namespace Memorist

open Fallible (ask raise)

/-! ### What a call has read -/

/-- What a call holds: the row that it read under a name, and the time it read next. -/
structure AttachmentHeld where
  seen : Option (String × AttachmentRow) := none
  checkedAt : Option Timestamp := none

/-- A call updates the row that it read, to a status that may follow, and delivers it only if it
could be delivered at the time that the call read. -/
def attachmentDiscipline : Discipline AttachmentEffect.Response AttachmentHeld where
  requires g e :=
    match e with
    | .createAttachment row event => row.preparedWith event
    | .reject attachmentUuid event =>
        event.attachmentUuid = attachmentUuid ∧ event.lifecycleStatus = .userRejected
    | .enter seen event =>
        g.seen = some (event.attachmentUuid, seen) ∧ event.lifecycleStatus ≠ .userRejected ∧
          event.lifecycleStatus ∈ allowedTransitions seen.lifecycleStatus ∧
          (event.lifecycleStatus = .delivered →
            ∃ now ∈ g.checkedAt, deliveryError seen now = none)
    | _ => True
  after g e response :=
    match e, response with
    | .attachmentForActor attachmentUuid _ _, .ok (some row) => ⟨some (attachmentUuid, row), none⟩
    | .clock, .ok (now : ℕ) => { g with checkedAt := g.checkedAt.or (some now) }
    | _, _ => g

/-- The end of a transition keeps the discipline. -/
lemma keeps_enterStatus {request : TransitionRequest} {attachment : AttachmentRow}
    {g : AttachmentHeld} (hseen : g.seen = some (request.attachmentUuid, attachment))
    (hrejects : request.lifecycleStatus ≠ .userRejected)
    (hchecked : request.lifecycleStatus = .delivered →
      ∃ now ∈ g.checkedAt, deliveryError attachment now = none) :
    Prog.Keeps attachmentDiscipline (fun _ _ => True) g (enterStatus request attachment) := by
  unfold enterStatus
  split_ifs with hallowed
  swap
  · trivial
  refine Fallible.keeps_ask.mpr ⟨trivial, fun (now : ℕ) => ?_, fun _ => trivial⟩
  refine Fallible.keeps_ask.mpr ⟨⟨hseen, hrejects, hallowed, ?_⟩, ?_, fun _ => trivial⟩
  · intro hdelivered
    obtain ⟨checked, hmem, hfit⟩ := hchecked hdelivered
    refine ⟨checked, ?_, hfit⟩
    change (g.checkedAt.or (some now)) = some checked
    rw [hmem, Option.some_or]
  · intro (entered : Bool)
    cases entered with
    | true => exact Fallible.keeps_ask.mpr ⟨trivial, fun _ => trivial, fun _ => trivial⟩
    | false =>
        refine Fallible.keeps_ask.mpr
          ⟨trivial, fun (concurrent : Option LifecycleEvent) => ?_, fun _ => trivial⟩
        cases concurrent <;> trivial

lemma keeps_transitionRead {request : TransitionRequest} {attachment : AttachmentRow}
    {g : AttachmentHeld} (hseen : g.seen = some (request.attachmentUuid, attachment))
    (hchecked : request.lifecycleStatus = .delivered →
      ∃ now ∈ g.checkedAt, deliveryError attachment now = none) :
    Prog.Keeps attachmentDiscipline (fun _ _ => True) g (transitionRead request attachment) := by
  unfold transitionRead
  refine Fallible.keeps_ask.mpr
    ⟨trivial, fun (existing : Option LifecycleEvent) => ?_, fun _ => trivial⟩
  cases existing with
  | some event => trivial
  | none =>
      dsimp only
      split_ifs with hrejects hunfit hsame
      · refine Fallible.keeps_ask.mpr ⟨trivial, fun (now : ℕ) => ?_, fun _ => trivial⟩
        exact Fallible.keeps_ask.mpr ⟨⟨rfl, hrejects⟩, fun _ => trivial, fun _ => trivial⟩
      · trivial
      · refine Fallible.keeps_ask.mpr
          ⟨trivial, fun (canonical : Option LifecycleEvent) => ?_, fun _ => trivial⟩
        cases canonical with
        | some event => trivial
        | none => exact keeps_enterStatus hseen hrejects hchecked
      · exact keeps_enterStatus hseen hrejects hchecked

lemma keeps_transitionAttachment (request : TransitionRequest) :
    Prog.Keeps attachmentDiscipline (fun _ _ => True) {} (transitionAttachment request) := by
  unfold transitionAttachment
  refine Fallible.keeps_ask.mpr
    ⟨trivial, fun (attachment : Option AttachmentRow) => ?_, fun _ => trivial⟩
  cases attachment with
  | none => trivial
  | some attachment =>
      dsimp only
      split_ifs with hdelivered
      · refine Fallible.keeps_ask.mpr ⟨trivial, fun (now : ℕ) => ?_, fun _ => trivial⟩
        cases hfit : deliveryError attachment now with
        | some message => trivial
        | none => exact keeps_transitionRead rfl fun _ => ⟨now, rfl, hfit⟩
      · exact keeps_transitionRead rfl fun hdelivers => absurd hdelivers hdelivered

/-- Every request keeps the discipline. -/
lemma AttachmentRequest.keeps {request : AttachmentRequest} (hwell : request.WellFormed) :
    Prog.Keeps attachmentDiscipline (fun _ _ => True) {} request.program := by
  cases request with
  | create row event =>
      exact Fallible.keeps_ask.mpr ⟨hwell, fun _ => trivial, fun _ => trivial⟩
  | transition request =>
      refine Fallible.keeps_andThen ?_
      exact (keeps_transitionAttachment request).imp
        fun _ _ _ => ⟨fun _ _ => trivial, fun _ _ => trivial⟩
  | markStale | rollback | wait =>
      exact Fallible.keeps_ask.mpr ⟨trivial, fun _ => trivial, fun _ => trivial⟩

/-! ### The statuses of a run -/

/-- The status that an attachment enters by a statement, if it does. -/
def enteredBy (attachmentUuid : String) : Performed AttachmentEffect.Response → Option LifecycleStatus
  | ⟨.enter seen event, .ok true⟩ =>
      if seen.attachmentUuid = attachmentUuid then some event.lifecycleStatus else none
  | _ => none

/-- The statuses that an attachment enters along statements, after that it was prepared with. -/
def entered (attachmentUuid : String) (es : List (Performed AttachmentEffect.Response)) :
    List LifecycleStatus := es.filterMap (enteredBy attachmentUuid)

/-! ### What a statement changes -/

section

variable {s t : AttachmentStore} {event : LifecycleEvent} {e : AttachmentEffect}
variable {response : e.Response}

lemma insertEvent?_eq_some :
    s.insertEvent? event = some t ↔ s.conflicts event = false ∧
      (s.attachments.get? event.attachmentUuid).isSome ∧
        { s with events := s.events ++ [event] } = t := by
  rw [AttachmentStore.insertEvent?]
  split_ifs with h
  · rw [Bool.or_eq_true, Option.isNone_iff_eq_none] at h
    rcases h with h | h <;> simp [h]
  · rw [Bool.or_eq_true, not_or, Bool.not_eq_true, Bool.not_eq_true, Option.isNone_eq_false_iff] at h
    simp [h.1, h.2]

/-- The statuses have no more than one event each. -/
lemma countP_of_not_conflicts (h : s.conflicts event = false) :
    s.events.countP (fun old => old.attachmentUuid = event.attachmentUuid ∧
      old.lifecycleStatus = event.lifecycleStatus) = 0 := by
  rw [List.countP_eq_zero]
  intro old hold hsame
  rw [AttachmentStore.conflicts, List.any_eq_false] at h
  exact h old hold (by simpa using .inr (by simpa using hsame))

lemma guardHolds_iff {seen : AttachmentRow} :
    s.guardHolds seen = true ↔ ∃ row, s.attachments.get? seen.attachmentUuid = some row ∧
      row.lifecycleStatus = seen.lifecycleStatus := by
  rw [AttachmentStore.guardHolds, Option.any_eq_true_iff_get]
  cases s.attachments.get? seen.attachmentUuid <;> simp

/-- What may change of a row after it was read: its status may follow, and it may be marked stale. -/
structure RowLater (row later : AttachmentRow) : Prop where
  review : later.attachmentReview = row.attachmentReview
  expiry : later.expiresAt = row.expiresAt
  stale : later.status = row.status ∧ later.staleReason = row.staleReason ∨ later.status = "stale"

lemma RowLater.refl (row : AttachmentRow) : RowLater row row := ⟨rfl, rfl, .inl ⟨rfl, rfl⟩⟩

lemma RowLater.trans {row later latest : AttachmentRow} (h : RowLater row later)
    (h' : RowLater later latest) : RowLater row latest where
  review := h'.review.trans h.review
  expiry := h'.expiry.trans h.expiry
  stale := by
    rcases h'.stale with ⟨hstatus, hreason⟩ | hstale
    · rcases h.stale with ⟨hstatus', hreason'⟩ | hstale
      · exact .inl ⟨hstatus.trans hstatus', hreason.trans hreason'⟩
      · exact .inr (hstatus.trans hstale)
    · exact .inr hstale

lemma rowLater_entering (status : LifecycleStatus) (now : Timestamp) (row : AttachmentRow) :
    RowLater row (row.entering status now) := by
  cases status <;> exact ⟨rfl, rfl, .inl ⟨rfl, rfl⟩⟩

lemma get?_reject (s : AttachmentStore) (attachmentUuid : String) (now : Timestamp)
    (uuid : String) : (s.reject attachmentUuid now).attachments.get? uuid =
      (s.attachments.get? uuid).map fun row =>
        if decide (row.attachmentUuid = attachmentUuid) then row.rejecting now else row :=
  @Table.get?_updateWhere _ _ _ _ _ _ _ _ (AttachmentRow.attachmentUuid_rejecting now)

lemma get?_markStale (s : AttachmentStore) (blockUuid : Text) (reason : String) (uuid : String) :
    (s.markStale blockUuid reason).attachments.get? uuid =
      (s.attachments.get? uuid).map fun row =>
        if row.namesBlock blockUuid then row.staled reason else row :=
  @Table.get?_updateWhere _ _ _ _ _ _ _ _ (AttachmentRow.attachmentUuid_staled reason)

lemma get?_enter {seen : AttachmentRow} {status : LifecycleStatus} {now : Timestamp} {uuid : String}
    {row : AttachmentRow} (hguard : s.guardHolds seen)
    (hrow : s.attachments.get? uuid = some row) :
    (s.enter seen status now).attachments.get? uuid =
      some (if seen.attachmentUuid = uuid then row.entering status now else row) := by
  have hkey : row.attachmentUuid = uuid := Table.key_of_get? hrow
  unfold AttachmentStore.enter
  dsimp only
  rw [Table.get?_updateWhere, hrow, Option.map_some, hkey]
  by_cases hseen : seen.attachmentUuid = uuid
  · obtain ⟨read, hread, hstatus⟩ := guardHolds_iff.mp hguard
    rw [hseen, hrow] at hread
    cases hread
    simp [hseen, hstatus]
  · simp [hseen, Ne.symm hseen]

/-- What a statement leaves of the rows: their status is the one that the statement enters, if it
enters one for them. -/
lemma attachmentEffect_row (heffect : attachmentEffect s e response t) {uuid : String}
    {row : AttachmentRow} (hrow : s.attachments.get? uuid = some row) :
    ∃ later, t.attachments.get? uuid = some later ∧ RowLater row later ∧
      later.lifecycleStatus = (enteredBy uuid ⟨e, response⟩).getD row.lifecycleStatus := by
  cases response with
  | error error =>
      have hsame : t = s := by cases e <;> exact heffect
      rw [hsame]
      exact ⟨row, hrow, .refl row, by cases e <;> rfl⟩
  | ok answer =>
      cases e with
      | createAttachment created event =>
          obtain ⟨hfresh, hinsert⟩ := heffect
          obtain ⟨-, -, rfl⟩ := insertEvent?_eq_some.mp hinsert
          exact ⟨row, Table.get?_insert_of_some hrow created, .refl row, rfl⟩
      | attachmentForActor | clock | existingEvent | eventOf =>
          obtain ⟨-, rfl⟩ := heffect
          exact ⟨row, hrow, .refl row, rfl⟩
      | reject attachmentUuid event =>
          obtain ⟨-, -, rfl⟩ := insertEvent?_eq_some.mp heffect
          refine ⟨_, (get?_reject s attachmentUuid _ uuid).trans (by rw [hrow]; rfl), ?_, ?_⟩
          · dsimp only
            split_ifs <;> exact ⟨rfl, rfl, .inl ⟨rfl, rfl⟩⟩
          · dsimp only
            split_ifs <;> rfl
      | enter seen event =>
          rw [attachmentEffect] at heffect
          split_ifs at heffect with hguard
          · obtain ⟨hentered, hinsert⟩ := heffect
            obtain ⟨-, -, rfl⟩ := insertEvent?_eq_some.mp hinsert
            cases hentered
            refine ⟨_, get?_enter hguard hrow, ?_, ?_⟩
            · split_ifs
              · exact rowLater_entering _ _ row
              · exact .refl row
            · simp only [enteredBy]
              split_ifs <;> simp
          · obtain ⟨hentered, rfl⟩ := heffect
            cases hentered
            exact ⟨row, hrow, .refl row, rfl⟩
      | audit | rollback =>
          have hsame : t = s := heffect
          rw [hsame]
          exact ⟨row, hrow, .refl row, rfl⟩
      | markStale blockUuid reason =>
          have hsame : t = s.markStale blockUuid reason := heffect
          rw [hsame]
          refine ⟨_, (get?_markStale s blockUuid reason uuid).trans (by rw [hrow]; rfl), ?_, ?_⟩
          · dsimp only
            split_ifs
            · exact ⟨rfl, rfl, .inr rfl⟩
            · exact .refl row
          · dsimp only
            split_ifs <;> rfl
      | wait duration =>
          have hsame : t = { s with now := s.now + duration } := heffect
          rw [hsame]
          exact ⟨row, hrow, .refl row, rfl⟩

/-! ### Each status once, with its event -/

/-- The number of events that an attachment has of a status. -/
def AttachmentStore.eventCount (s : AttachmentStore) (uuid : String) (status : LifecycleStatus) : ℕ :=
  s.events.countP fun event => event.attachmentUuid = uuid ∧ event.lifecycleStatus = status

/-- The statuses of an attachment since it was prepared. -/
def history (uuid : String) (es : List (Performed AttachmentEffect.Response)) :
    List LifecycleStatus := .prepared :: entered uuid es

/-- An attachment in a status has come there along the transitions that are allowed, and has one
event of each status on its way. -/
structure FollowsLifecycle (s : AttachmentStore) (es : List (Performed AttachmentEffect.Response))
    (uuid : String) (status : LifecycleStatus) : Prop where
  chain : (history uuid es).IsChain fun before after => after ∈ allowedTransitions before
  last : (history uuid es).getLast? = some status
  events : ∀ other ≠ .userRejected,
    s.eventCount uuid other = if other ∈ history uuid es then 1 else 0

/-- All attachments follow the lifecycle, and there is nothing of those that are not there. -/
structure AttachmentsKept (s : AttachmentStore)
    (es : List (Performed AttachmentEffect.Response)) : Prop where
  follows : ∀ uuid row, s.attachments.get? uuid = some row →
    FollowsLifecycle s es uuid row.lifecycleStatus
  absent : ∀ uuid, s.attachments.get? uuid = none →
    entered uuid es = [] ∧ ∀ status, s.eventCount uuid status = 0

variable {es : List (Performed AttachmentEffect.Response)}

lemma entered_append (uuid : String) (x : Performed AttachmentEffect.Response) :
    entered uuid (es ++ [x]) = entered uuid es ++ (enteredBy uuid x).toList := by
  rw [entered, entered, List.filterMap_append]
  cases hentered : enteredBy uuid x <;> simp [hentered]

lemma history_append (uuid : String) (x : Performed AttachmentEffect.Response) :
    history uuid (es ++ [x]) = history uuid es ++ (enteredBy uuid x).toList := by
  rw [history, entered_append, ← List.cons_append]
  rfl

/-- An event more counts for its attachment and its status. -/
lemma eventCount_append (uuid : String) (status : LifecycleStatus)
    (hevents : t.events = s.events ++ [event]) :
    t.eventCount uuid status = s.eventCount uuid status +
      if event.attachmentUuid = uuid ∧ event.lifecycleStatus = status then 1 else 0 := by
  rw [AttachmentStore.eventCount, AttachmentStore.eventCount, hevents, List.countP_append,
    List.countP_singleton]
  simp

lemma eventCount_of_not_conflicts (h : s.conflicts event = false) :
    s.eventCount event.attachmentUuid event.lifecycleStatus = 0 :=
  countP_of_not_conflicts h

/-- A statement after which the attachments have the statuses that they had, and their events apart
from rejections. -/
lemma AttachmentsKept.quiet {x : Performed AttachmentEffect.Response} (kept : AttachmentsKept s es)
    (hrows : ∀ uuid, (t.attachments.get? uuid).map AttachmentRow.lifecycleStatus =
      (s.attachments.get? uuid).map AttachmentRow.lifecycleStatus)
    (hevents : ∀ uuid status, t.eventCount uuid status = s.eventCount uuid status ∨
      status = .userRejected ∧ (s.attachments.get? uuid).isSome)
    (hnone : ∀ uuid, enteredBy uuid x = none) : AttachmentsKept t (es ++ [x]) := by
  have hhistory : ∀ uuid, history uuid (es ++ [x]) = history uuid es := fun uuid => by
    rw [history_append, hnone, Option.toList_none, List.append_nil]
  refine ⟨fun uuid row hrow => ?_, fun uuid habsent => ?_⟩
  · obtain ⟨old, hold, hstatus⟩ : ∃ old, s.attachments.get? uuid = some old ∧
        old.lifecycleStatus = row.lifecycleStatus := by
      have hmap := hrows uuid
      rw [hrow, Option.map_some, eq_comm, Option.map_eq_some_iff] at hmap
      exact hmap
    obtain ⟨hchain, hlast, hcount⟩ := kept.follows uuid old hold
    refine ⟨by rwa [hhistory], by rw [hhistory, hlast, hstatus], fun other hother => ?_⟩
    rw [hhistory, ← hcount other hother]
    exact (hevents uuid other).resolve_right fun h => hother h.1
  · have hold : s.attachments.get? uuid = none := by
      have hmap := hrows uuid
      rwa [habsent, Option.map_none, eq_comm, Option.map_eq_none_iff] at hmap
    obtain ⟨hentered, hcount⟩ := kept.absent uuid hold
    refine ⟨by rw [entered_append, hnone, hentered]; rfl, fun status => ?_⟩
    rw [← hcount status]
    refine (hevents uuid status).resolve_right fun h => ?_
    rw [hold] at h
    exact absurd h.2 (by simp)

/-- An attachment is prepared. -/
lemma AttachmentsKept.created {row : AttachmentRow} {x : Performed AttachmentEffect.Response}
    (kept : AttachmentsKept s es) (hprepared : row.preparedWith event)
    (hfresh : s.attachments.get? row.attachmentUuid = none)
    (hrows : t.attachments = s.attachments.insert row) (hevents : t.events = s.events ++ [event])
    (hnone : ∀ uuid, enteredBy uuid x = none) : AttachmentsKept t (es ++ [x]) := by
  obtain ⟨-, -, hstatus, huuid, hevent⟩ := hprepared
  have hhistory : ∀ uuid, history uuid (es ++ [x]) = history uuid es := fun uuid => by
    rw [history_append, hnone, Option.toList_none, List.append_nil]
  have hcount : ∀ uuid ≠ row.attachmentUuid, ∀ status,
      t.eventCount uuid status = s.eventCount uuid status := fun uuid hne status => by
    rw [eventCount_append uuid status hevents, huuid, if_neg fun h => hne h.1.symm, add_zero]
  refine ⟨fun uuid later hlater => ?_, fun uuid habsent => ?_⟩
  · rw [hrows] at hlater
    rcases Table.get?_insert (t := s.attachments) row uuid with hsame | ⟨hnew, rfl, hinserted⟩
    · rw [hsame] at hlater
      have hne : uuid ≠ row.attachmentUuid := fun h => by
        rw [h, hfresh] at hlater
        cases hlater
      obtain ⟨hchain, hlast, hold⟩ := kept.follows uuid later hlater
      exact ⟨by rwa [hhistory], by rwa [hhistory],
        fun other hother => by rw [hhistory, hcount uuid hne, hold other hother]⟩
    · rw [hinserted] at hlater
      cases hlater
      obtain ⟨hentered, hold⟩ := kept.absent _ hnew
      have honly : history row.attachmentUuid (es ++ [x]) = [.prepared] := by
        rw [hhistory, history, hentered]
      refine ⟨by rw [honly]; exact List.isChain_singleton _, by rw [honly, hstatus]; rfl,
        fun other _ => ?_⟩
      rw [eventCount_append _ other hevents, hold, honly, huuid, hevent]
      simp [eq_comm]
  · rw [hrows] at habsent
    have hold : s.attachments.get? uuid = none := by
      rcases Table.get?_insert (t := s.attachments) row uuid with hsame | ⟨-, -, hinserted⟩
      · rwa [hsame] at habsent
      · rw [hinserted] at habsent
        cases habsent
    have hne : uuid ≠ row.attachmentUuid := fun h => by
      rw [h, Table.get?_insert_self hfresh] at habsent
      cases habsent
    obtain ⟨hentered, hzero⟩ := kept.absent uuid hold
    exact ⟨by rw [entered_append, hnone, hentered]; rfl,
      fun status => by rw [hcount uuid hne, hzero]⟩

/-- An attachment enters a status that may follow. -/
lemma AttachmentsKept.entering {seen : AttachmentRow} (kept : AttachmentsKept s es)
    (huuid : event.attachmentUuid = seen.attachmentUuid)
    (hallowed : event.lifecycleStatus ∈ allowedTransitions seen.lifecycleStatus)
    (hguard : s.guardHolds seen) (hfree : s.conflicts event = false)
    (hrows : ∀ uuid, (t.attachments.get? uuid).map AttachmentRow.lifecycleStatus =
      (s.attachments.get? uuid).map fun row =>
        (enteredBy uuid ⟨.enter seen event, .ok true⟩).getD row.lifecycleStatus)
    (hevents : t.events = s.events ++ [event]) :
    AttachmentsKept t (es ++ [⟨.enter seen event, .ok true⟩]) := by
  have hzero := eventCount_of_not_conflicts hfree
  rw [huuid] at hzero
  obtain ⟨read, hread, hstatus⟩ := guardHolds_iff.mp hguard
  have hself : enteredBy seen.attachmentUuid ⟨.enter seen event, .ok true⟩ =
      some event.lifecycleStatus := if_pos rfl
  have hother : ∀ uuid ≠ seen.attachmentUuid,
      enteredBy uuid ⟨.enter seen event, .ok true⟩ = none ∧
        ∀ status, t.eventCount uuid status = s.eventCount uuid status := fun uuid hne =>
    ⟨if_neg hne.symm, fun status => by
      rw [eventCount_append uuid status hevents, huuid, if_neg fun h => hne h.1.symm, add_zero]⟩
  refine ⟨fun uuid later hlater => ?_, fun uuid habsent => ?_⟩
  · obtain ⟨row, hrow, hentered⟩ : ∃ row, s.attachments.get? uuid = some row ∧
        (enteredBy uuid ⟨.enter seen event, .ok true⟩).getD row.lifecycleStatus =
          later.lifecycleStatus := by
      have hmap := hrows uuid
      rw [hlater, Option.map_some, eq_comm, Option.map_eq_some_iff] at hmap
      exact hmap
    obtain ⟨hchain, hlast, hcount⟩ := kept.follows uuid row hrow
    by_cases hne : uuid = seen.attachmentUuid
    · subst hne
      rw [hread] at hrow
      cases hrow
      rw [hself, Option.getD_some] at hentered
      rw [hstatus] at hlast
      refine ⟨?_, ?_, fun other hreject => ?_⟩
      · rw [history_append, hself, Option.toList_some, List.isChain_append]
        refine ⟨hchain, List.isChain_singleton _, ?_⟩
        intro before hbefore after hafter
        rw [hlast] at hbefore
        cases hbefore
        cases hafter
        exact hallowed
      · rw [history_append, hself, Option.toList_some, List.getLast?_concat, hentered]
      · rw [eventCount_append _ other hevents, history_append, hself, huuid, Option.toList_some]
        by_cases hsame : event.lifecycleStatus = other
        · rw [← hsame, hzero]
          simp
        · rw [hcount other hreject]
          simp [hsame, Ne.symm hsame]
    · obtain ⟨hby, hevent⟩ := hother uuid hne
      rw [hby, Option.getD_none] at hentered
      have hhistory : history uuid (es ++ [⟨.enter seen event, .ok true⟩]) = history uuid es := by
        rw [history_append, hby, Option.toList_none, List.append_nil]
      exact ⟨by rwa [hhistory], by rw [hhistory, hlast, hentered],
        fun status hreject => by rw [hhistory, hevent, hcount status hreject]⟩
  · have hold : s.attachments.get? uuid = none := by
      have hmap := hrows uuid
      rwa [habsent, Option.map_none, eq_comm, Option.map_eq_none_iff] at hmap
    have hne : uuid ≠ seen.attachmentUuid := fun h => by
      rw [h, hread] at hold
      cases hold
    obtain ⟨hby, hevent⟩ := hother uuid hne
    obtain ⟨hentered, hcount⟩ := kept.absent uuid hold
    exact ⟨by rw [entered_append, hby, hentered]; rfl,
      fun status => by rw [hevent, hcount]⟩

/-- What a call holds is still there, and has changed as it may. -/
def HeldKept (s : AttachmentStore) (g : AttachmentHeld) : Prop :=
  ∀ uuid seen, g.seen = some (uuid, seen) → seen.attachmentUuid = uuid ∧
    ∃ row, s.attachments.get? uuid = some row ∧ RowLater seen row

/-- A statement keeps what was read before. -/
lemma HeldKept.step {g : AttachmentHeld} (held : HeldKept s g)
    (heffect : attachmentEffect s e response t) : HeldKept t g := by
  intro uuid seen hseen
  obtain ⟨huuid, row, hrow, hlater⟩ := held uuid seen hseen
  obtain ⟨later, hlater', hchange, -⟩ := attachmentEffect_row heffect hrow
  exact ⟨huuid, later, hlater', hlater.trans hchange⟩

/-- A call holds what it has just read. -/
lemma HeldKept.after {g : AttachmentHeld} (held : HeldKept s g)
    (heffect : attachmentEffect s e response t) :
    HeldKept t (attachmentDiscipline.after g e response) := by
  cases response with
  | error error => cases e <;> exact held.step heffect
  | ok answer =>
      cases e with
      | attachmentForActor attachmentUuid userUuid workspaceUuid =>
          obtain ⟨hanswer, rfl⟩ := heffect
          cases hrow : (answer : Option AttachmentRow) with
          | none =>
              cases hrow
              exact held
          | some row =>
              cases hrow
              rintro uuid seen ⟨⟩
              rw [AttachmentStore.attachmentForActor] at hanswer
              split_ifs at hanswer
              have hread := Option.eq_some_of_filter_eq_some hanswer.symm
              exact ⟨Table.key_of_get? hread, _, hread, .refl _⟩
      | clock =>
          intro uuid seen hseen
          exact held.step heffect uuid seen hseen
      | createAttachment | existingEvent | eventOf | reject | enter | audit | markStale | rollback
      | wait => exact held.step heffect

/-- A statement that a call may perform keeps the lifecycles. -/
lemma AttachmentsKept.step {g : AttachmentHeld} (kept : AttachmentsKept s es)
    (held : HeldKept s g) (hrequires : attachmentDiscipline.requires g e)
    (heffect : attachmentEffect s e response t) : AttachmentsKept t (es ++ [⟨e, response⟩]) := by
  have hsame : t.attachments = s.attachments → t.events = s.events →
      (∀ uuid, enteredBy uuid ⟨e, response⟩ = none) → AttachmentsKept t (es ++ [⟨e, response⟩]) :=
    fun hrows hevents hnone => kept.quiet (fun uuid => by rw [hrows])
      (fun uuid status => .inl (by rw [AttachmentStore.eventCount, hevents]; rfl)) hnone
  cases response with
  | error error =>
      have hstays : t = s := by cases e <;> exact heffect
      exact hsame (by rw [hstays]) (by rw [hstays]) fun _ => by cases e <;> rfl
  | ok answer =>
      cases e with
      | createAttachment row event =>
          obtain ⟨hfresh, hinsert⟩ := heffect
          obtain ⟨-, -, rfl⟩ := insertEvent?_eq_some.mp hinsert
          exact kept.created hrequires hfresh rfl rfl fun _ => rfl
      | attachmentForActor | clock | existingEvent | eventOf =>
          obtain ⟨-, rfl⟩ := heffect
          exact hsame rfl rfl fun _ => rfl
      | reject attachmentUuid event =>
          obtain ⟨huuid, hstatus⟩ := hrequires
          obtain ⟨-, hthere, rfl⟩ := insertEvent?_eq_some.mp heffect
          rw [get?_reject, Option.isSome_map] at hthere
          refine kept.quiet (fun uuid => ?_) (fun uuid status => ?_) fun _ => rfl
          · rw [get?_reject, Option.map_map]
            congr 1
            funext row
            rw [Function.comp_apply]
            split_ifs <;> rfl
          · rw [eventCount_append uuid status rfl]
            by_cases hevent : event.attachmentUuid = uuid ∧ event.lifecycleStatus = status
            · exact .inr ⟨by rw [← hevent.2, hstatus], hevent.1 ▸ hthere⟩
            · rw [if_neg hevent]
              exact .inl rfl
      | enter seen event =>
          obtain ⟨hseen, -, hallowed, -⟩ := hrequires
          obtain ⟨huuid, -⟩ := held _ _ hseen
          have hrows := fun uuid row => @attachmentEffect_row _ _ _ _ heffect uuid row
          rw [attachmentEffect] at heffect
          split_ifs at heffect with hguard
          · obtain ⟨hentered, hinsert⟩ := heffect
            cases hentered
            obtain ⟨hfree, -, rfl⟩ := insertEvent?_eq_some.mp hinsert
            refine kept.entering huuid.symm hallowed hguard hfree (fun uuid => ?_) rfl
            cases hrow : s.attachments.get? uuid with
            | none =>
                have hnone : (s.enter seen event.lifecycleStatus event.createdAt).attachments.get? uuid
                    = none := by
                  unfold AttachmentStore.enter
                  dsimp only
                  rw [Table.get?_updateWhere, hrow]
                  rfl
                rw [hnone]
                rfl
            | some row =>
                obtain ⟨later, hlater, -, hstatus⟩ := hrows uuid row hrow
                rw [hlater, Option.map_some, Option.map_some, hstatus]
          · obtain ⟨hentered, rfl⟩ := heffect
            cases hentered
            exact hsame rfl rfl fun _ => rfl
      | audit | rollback =>
          have hstays : t = s := heffect
          exact hsame (by rw [hstays]) (by rw [hstays]) fun _ => rfl
      | markStale blockUuid reason =>
          have hmarked : t = s.markStale blockUuid reason := heffect
          subst hmarked
          refine kept.quiet (fun uuid => ?_) (fun uuid status => .inl rfl) fun _ => rfl
          rw [get?_markStale, Option.map_map]
          congr 1
          funext row
          rw [Function.comp_apply]
          split_ifs <;> rfl
      | wait duration =>
          have hlater : t = { s with now := s.now + duration } := heffect
          subst hlater
          exact hsame rfl rfl fun _ => rfl

end

/-! ### Runs -/

/-- The lifecycles are kept over any run, and what its calls hold. -/
lemma attachments_kept_of_runs {labels : List (Option (Performed AttachmentEffect.Response))}
    {now : Timestamp} {pool : Pool AttachmentStore AttachmentEffect AttachmentEffect.Response
      (Except AttachmentError Unit)}
    (hruns : Runs AttachmentStep ⟨{ now := now }, 0⟩ labels pool) :
    ∃ held, PoolStep.Holds attachmentDiscipline pool.running held ∧
      AttachmentsKept pool.shared labels.reduceOption ∧ ∀ g ∈ held, HeldKept pool.shared g := by
  refine PoolStep.invariant (I := fun (s : AttachmentStore) (held : Multiset AttachmentHeld) es =>
    AttachmentsKept s es ∧ ∀ g ∈ held, HeldKept s g) attachmentDiscipline {} ?_ ?_ ?_ ?_ ?_ hruns
  · rintro p ⟨request, hwell, rfl⟩
    exact AttachmentRequest.keeps hwell
  · rintro s held es ⟨kept, hheld⟩
    refine ⟨kept, fun g hg => ?_⟩
    rcases Multiset.mem_cons.mp hg with rfl | hg
    · rintro uuid seen ⟨⟩
    · exact hheld g hg
  · rintro s g held es ⟨kept, hheld⟩
    exact ⟨kept, fun g' hg' => hheld g' (Multiset.mem_cons_of_mem hg')⟩
  · rintro s g held es e r t ⟨kept, hheld⟩ hrequires heffect
    have hg := hheld g (Multiset.mem_cons_self g held)
    refine ⟨kept.step hg hrequires heffect, fun g' hg' => ?_⟩
    rcases Multiset.mem_cons.mp hg' with rfl | hg'
    · exact hg.after heffect
    · exact (hheld g' (Multiset.mem_cons_of_mem hg')).step heffect
  · exact ⟨⟨fun uuid row hrow => (by cases hrow), fun uuid _ => ⟨rfl, fun _ => rfl⟩⟩,
      fun g hg => absurd hg (Multiset.notMem_zero g)⟩

/-! ### What is delivered -/

/-- How far an attachment has come. -/
def LifecycleStatus.rank : LifecycleStatus → ℕ
  | prepared => 0
  | approved => 1
  | delivered | suppressed | cancelledBeforeSend | userRejected => 2
  | usedForResponse => 3

lemma rank_lt_of_allowed {before after : LifecycleStatus}
    (h : after ∈ allowedTransitions before) : before.rank < after.rank := by
  revert h
  cases before <;> cases after <;> decide

/-- No status is entered twice. -/
lemma FollowsLifecycle.nodup {s : AttachmentStore}
    {es : List (Performed AttachmentEffect.Response)} {uuid : String} {status : LifecycleStatus}
    (follows : FollowsLifecycle s es uuid status) : (history uuid es).Nodup := by
  have hranks : (history uuid es).IsChain fun before after => before.rank < after.rank :=
    follows.chain.imp fun _ _ => rank_lt_of_allowed
  have htrans : IsTrans LifecycleStatus fun before after => before.rank < after.rank :=
    ⟨fun _ _ _ => lt_trans⟩
  exact hranks.pairwise.imp fun hlt heq => absurd hlt (by rw [heq]; exact lt_irrefl _)

/-- The attachment is active, not stale, not expired, and was approved if it is reviewed. -/
def LiveApproved (s : AttachmentStore) (es : List (Performed AttachmentEffect.Response))
    (uuid : String) : Prop :=
  ∃ row, s.attachments.get? uuid = some row ∧ row.isActive ∧ ¬ row.isStale ∧
    ¬ row.isExpired s.now ∧ (row.attachmentReview → .approved ∈ entered uuid es)

/-- The attachment has not been marked stale since it was read, and has not expired. -/
def AttachmentStore.Unchanged (s : AttachmentStore) (seen : AttachmentRow) : Prop :=
  ∃ row, s.attachments.get? seen.attachmentUuid = some row ∧ row.status = seen.status ∧
    row.staleReason = seen.staleReason ∧ ¬ row.isExpired s.now

/-- What was found fit for delivery. -/
lemma deliveryError_eq_none {attachment : AttachmentRow} {now : Timestamp} :
    deliveryError attachment now = none ↔ attachment.isExpired now = false ∧
      attachment.isActive = true ∧ attachment.isStale = false ∧
        (attachment.attachmentReview = true → attachment.lifecycleStatus = .approved) := by
  unfold deliveryError
  cases attachment.isExpired now <;> cases attachment.isActive <;> cases attachment.isStale <;>
    simp

/-- A row that may be delivered is live and approved exactly when it is as it was read. -/
lemma liveApproved_iff {s : AttachmentStore} {es : List (Performed AttachmentEffect.Response)}
    {seen row : AttachmentRow} {now : Timestamp} (kept : AttachmentsKept s es)
    (hrow : s.attachments.get? seen.attachmentUuid = some row) (hlater : RowLater seen row)
    (hfit : deliveryError seen now = none) (hguard : s.guardHolds seen) :
    LiveApproved s es seen.attachmentUuid ↔ s.Unchanged seen := by
  obtain ⟨-, hactive, hstale, hreview⟩ := deliveryError_eq_none.mp hfit
  constructor
  · rintro ⟨row', hrow', hlive, -, hexpired, -⟩
    rw [hrow] at hrow'
    cases hrow'
    rcases hlater.stale with ⟨hstatus, hreason⟩ | hmarked
    · exact ⟨row, hrow, hstatus, hreason, hexpired⟩
    · rw [AttachmentRow.isActive, hmarked] at hlive
      exact absurd hlive (by decide)
  · rintro ⟨row', hrow', hstatus, hreason, hexpired⟩
    rw [hrow] at hrow'
    cases hrow'
    refine ⟨row, hrow, ?_, ?_, hexpired, fun hreviewed => ?_⟩
    · rwa [AttachmentRow.isActive, hstatus]
    · rw [AttachmentRow.isStale, hreason, Bool.not_eq_true]
      exact hstale
    · rw [hlater.review] at hreviewed
      obtain ⟨read, hread, hentered⟩ := guardHolds_iff.mp hguard
      rw [hrow] at hread
      cases hread
      have hlast := (kept.follows _ row hrow).last
      rw [hentered, hreview hreviewed] at hlast
      refine (List.mem_cons.mp (List.mem_of_getLast? hlast)).resolve_left (by decide)

/-- **Delivery of an attachment.** After any run of calls, each attachment has come to its status
along the transitions that are allowed, each at most once and with one event; and where an update to
delivered then commits, the attachment is active, not stale, not expired and approved if it is
reviewed exactly when it was not marked stale since the call read it and has not expired. -/
theorem delivered_live_iff {labels : List (Option (Performed AttachmentEffect.Response))}
    {now : Timestamp} {pool : Pool AttachmentStore AttachmentEffect AttachmentEffect.Response
      (Except AttachmentError Unit)}
    (hruns : Runs AttachmentStep ⟨{ now := now }, 0⟩ labels pool) :
    (∀ uuid row, pool.shared.attachments.get? uuid = some row →
      FollowsLifecycle pool.shared labels.reduceOption uuid row.lifecycleStatus ∧
        (history uuid labels.reduceOption).Nodup) ∧
    ∀ seen event pool', event.lifecycleStatus = .delivered →
      AttachmentStep pool (some ⟨.enter seen event, .ok true⟩) pool' →
        (LiveApproved pool.shared labels.reduceOption seen.attachmentUuid ↔
          pool.shared.Unchanged seen) := by
  obtain ⟨held, hholds, kept, hheld⟩ := attachments_kept_of_runs hruns
  refine ⟨fun uuid row hrow => ?_, fun seen event pool' hdelivered hstep => ?_⟩
  · have follows := kept.follows uuid row hrow
    exact ⟨follows, follows.nodup⟩
  · have heffect := PoolStep.effect_of_some hstep
    have hguard : pool.shared.guardHolds seen := by
      by_contra hguard
      simp [attachmentEffect, hguard] at heffect
    cases hstep with
    | act _ =>
        obtain ⟨g, held', rfl, hkeeps, -⟩ := hholds.of_cons
        obtain ⟨hseen, -, -, hfit⟩ := hkeeps.1
        obtain ⟨checked, -, hfit⟩ := hfit hdelivered
        obtain ⟨huuid, row, hrow, hlater⟩ := hheld g (Multiset.mem_cons_self g held') _ _ hseen
        rw [← huuid] at hrow
        exact liveApproved_iff kept hrow hlater hfit hguard

/-! ### A block marked stale between the check and the update -/

/-- An attachment of one block. -/
def blockAttachment : AttachmentRow where
  attachmentUuid := "a1"
  ownerUserUuid := some "u1"
  workspaceUuid := some "w1"
  sourceBlockUuidsIjson := some "[\"b1\"]".toList

/-- The event with which it is prepared. -/
def preparedEvent : LifecycleEvent where
  lifecycleEventUuid := "e0"
  attachmentUuid := "a1"
  lifecycleStatus := .prepared
  idempotencyKey := "prepared:a1"
  userUuid := some "u1"
  workspaceUuid := some "w1"
  createdAt := 0

/-- The call that delivers it. -/
def deliver : TransitionRequest where
  attachmentUuid := "a1"
  lifecycleStatus := .delivered
  userUuid := "u1"
  workspaceUuid := some "w1"
  idempotencyKey := "k1"
  eventUuid := "e1"

/-- The store with the attachment. -/
def preparedStore : AttachmentStore where
  attachments := ⟨[blockAttachment], by decide⟩
  events := [preparedEvent]

/-- The attachment is prepared, and a call finds that it may be delivered. -/
lemma deliver_checked : ∃ labels k, Runs AttachmentStep ⟨{}, 0⟩ labels
    ⟨preparedStore, .call (.enter blockAttachment (deliver.event 0)) k ::ₘ 0⟩ := by
  have hprepared : blockAttachment.preparedWith preparedEvent := ⟨rfl, rfl, rfl, rfl, rfl⟩
  let create : AttachmentRequest := .create blockAttachment preparedEvent
  let call : AttachmentRequest := .transition deliver
  obtain ⟨p, hcreate⟩ : ∃ p, AttachmentStep ⟨{}, create.program ::ₘ 0⟩
      (some ⟨.createAttachment blockAttachment preparedEvent, .ok ()⟩)
      ⟨preparedStore, p ::ₘ 0⟩ := ⟨_, .act ⟨rfl, rfl⟩⟩
  obtain ⟨k, hread⟩ : ∃ k, Prog.Exec attachmentEffect preparedStore call.program
      [⟨.attachmentForActor "a1" "u1" (some "w1"), .ok (some blockAttachment)⟩,
        ⟨.clock, .ok (0 : ℕ)⟩,
        ⟨.existingEvent "a1" .delivered "k1", .ok (none : Option LifecycleEvent)⟩,
        ⟨.clock, .ok (0 : ℕ)⟩]
      (.call (.enter blockAttachment (deliver.event 0)) k) preparedStore :=
    ⟨_, .call ⟨rfl, rfl⟩ (.call ⟨rfl, rfl⟩ (.call ⟨rfl, rfl⟩ (.call ⟨rfl, rfl⟩ (.refl _ _))))⟩
  have hstored := ((Runs.refl.tail (.start ⟨create, hprepared, rfl⟩)).tail hcreate).tail .stop
  exact ⟨_, k, (hstored.tail (.start ⟨call, trivial, rfl⟩)).trans (PoolStep.runs_exec hread 0)⟩

/-- Delivered at once it is live. -/
theorem delivered_live_iff_at_once : ∃ labels, LiveApproved preparedStore labels "a1" := by
  obtain ⟨labels, k, hruns⟩ := deliver_checked
  have hunchanged : preparedStore.Unchanged blockAttachment :=
    ⟨blockAttachment, by decide, rfl, rfl, by decide⟩
  exact ⟨_, ((delivered_live_iff hruns).2 blockAttachment (deliver.event 0) _ rfl
    (.act ⟨rfl, rfl⟩)).mpr hunchanged⟩

/-- An attachment that is marked stale after it was read is delivered. -/
theorem stale_attachment_delivered :
    ¬ ∀ (labels : List (Option (Performed AttachmentEffect.Response))) pool seen event pool',
      Runs AttachmentStep ⟨{}, 0⟩ labels pool → event.lifecycleStatus = .delivered →
        AttachmentStep pool (some ⟨.enter seen event, .ok true⟩) pool' →
          LiveApproved pool.shared labels.reduceOption seen.attachmentUuid := by
  intro h
  obtain ⟨labels, k, hruns⟩ := deliver_checked
  let mark : AttachmentRequest := .markStale "b1".toList "source_memory_changed"
  -- the block is marked stale between the check and the update
  obtain ⟨p, hmark⟩ : ∃ p, AttachmentStep
      ⟨preparedStore, mark.program ::ₘ .call (.enter blockAttachment (deliver.event 0)) k ::ₘ 0⟩
      (some ⟨.markStale "b1".toList "source_memory_changed", .ok ()⟩)
      ⟨preparedStore.markStale "b1".toList "source_memory_changed",
        p ::ₘ .call (.enter blockAttachment (deliver.event 0)) k ::ₘ 0⟩ := ⟨_, .act rfl⟩
  have hstale := ((hruns.tail (.start ⟨mark, trivial, rfl⟩)).tail hmark).tail .stop
  obtain ⟨row, hrow, hactive, -⟩ := h _ _ blockAttachment (deliver.event 0) _ hstale rfl
    (.act ⟨rfl, rfl⟩)
  have hmarked : row.status = "stale" := by
    have hstored : (preparedStore.markStale "b1".toList "source_memory_changed").attachments.get?
        "a1" = some (blockAttachment.staled "source_memory_changed") := by decide
    cases hstored.symm.trans hrow
    rfl
  rw [AttachmentRow.isActive, hmarked] at hactive
  exact absurd hactive (by decide)

end Memorist
