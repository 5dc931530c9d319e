import Memorist.MemoryControl.Delivery

/-!
Transitions that are asked for again with the same key.

* `PassageStep`, `Passage`: what may happen to the attachments, in any order;
* `Continues`: what a passage keeps of the rows and events;
* `Returned`, `returned_of_exec`: what a transition leaves that has returned an event, whatever
  others did between its statements;
* `AttachmentStore.respond`, `transition`: a call on a store, with what the store answers;
* `replays_iff`: the same call later returns the event and changes nothing exactly when it may
  still be delivered, if it is to be, and its key is found or the status has not changed.
-/

namespace Memorist

open Fallible (ask raise)

/-! ### Passages -/

/-- A statement of a call, or an update of other columns of some rows, which stay with whom they
belong to: a quarantine, a flag of review, a source that has changed. -/
inductive PassageStep : AttachmentStore → AttachmentStore → Prop where
  | statement {s t : AttachmentStore} {e : AttachmentEffect} {response : e.Response}
      (h : attachmentEffect s e response t) : PassageStep s t
  | columns {s : AttachmentStore} (condition : AttachmentRow → Bool)
      (change : AttachmentRow → AttachmentRow)
      (hkey : ∀ row, (change row).attachmentUuid = row.attachmentUuid)
      (howner : ∀ row, (change row).ownerUserUuid = row.ownerUserUuid)
      (hworkspace : ∀ row, (change row).workspaceUuid = row.workspaceUuid) :
      PassageStep s
        { s with attachments := s.attachments.updateWhere condition change hkey }

/-- What happens to the attachments. -/
abbrev Passage : AttachmentStore → AttachmentStore → Prop := Relation.ReflTransGen PassageStep

/-- A statement of a call after what others have done since the one before. -/
def amid (s : AttachmentStore) (e : AttachmentEffect) (response : e.Response)
    (t : AttachmentStore) : Prop := ∃ u, Passage s u ∧ attachmentEffect u e response t

/-! ### What a passage keeps -/

/-- The events stay, and the attachments with whom they belong to. -/
structure Continues (s t : AttachmentStore) : Prop where
  events : ∀ event ∈ s.events, event ∈ t.events
  rows : ∀ uuid row, s.attachments.get? uuid = some row →
    ∃ later, t.attachments.get? uuid = some later ∧ later.ownerUserUuid = row.ownerUserUuid ∧
      later.workspaceUuid = row.workspaceUuid

namespace Continues

variable {s t u : AttachmentStore}

lemma refl (s : AttachmentStore) : Continues s s :=
  ⟨fun _ h => h, fun _ row h => ⟨row, h, rfl, rfl⟩⟩

lemma trans (h : Continues s t) (h' : Continues t u) : Continues s u where
  events event hevent := h'.events event (h.events event hevent)
  rows uuid row hrow := by
    obtain ⟨later, hlater, howner, hworkspace⟩ := h.rows uuid row hrow
    obtain ⟨latest, hlatest, howner', hworkspace'⟩ := h'.rows uuid later hlater
    exact ⟨latest, hlatest, howner'.trans howner, hworkspace'.trans hworkspace⟩

/-- Rows that are updated stay with whom they belong to. -/
lemma updateWhere {condition : AttachmentRow → Bool} {change : AttachmentRow → AttachmentRow}
    (hkey : ∀ row, (change row).attachmentUuid = row.attachmentUuid)
    (howner : ∀ row, (change row).ownerUserUuid = row.ownerUserUuid)
    (hworkspace : ∀ row, (change row).workspaceUuid = row.workspaceUuid)
    (hrows : t.attachments = s.attachments.updateWhere condition change hkey)
    (hevents : ∀ event ∈ s.events, event ∈ t.events) : Continues s t where
  events := hevents
  rows uuid row hrow := by
    refine ⟨if condition row then change row else row, ?_, ?_, ?_⟩
    · rw [hrows, Table.get?_updateWhere, hrow, Option.map_some]
    · split_ifs
      · exact howner row
      · rfl
    · split_ifs
      · exact hworkspace row
      · rfl

/-- An event is added. -/
lemma insertEvent? {event : LifecycleEvent} (h : s.insertEvent? event = some t) :
    Continues s t := by
  obtain ⟨-, -, rfl⟩ := insertEvent?_eq_some.mp h
  exact ⟨fun old hold => List.mem_append_left _ hold, fun _ row hrow => ⟨row, hrow, rfl, rfl⟩⟩

end Continues

lemma ownerUserUuid_entering (status : LifecycleStatus) (now : Timestamp) (row : AttachmentRow) :
    (row.entering status now).ownerUserUuid = row.ownerUserUuid := by
  cases status <;> rfl

lemma workspaceUuid_entering (status : LifecycleStatus) (now : Timestamp) (row : AttachmentRow) :
    (row.entering status now).workspaceUuid = row.workspaceUuid := by
  cases status <;> rfl

lemma continues_enter (s : AttachmentStore) (seen : AttachmentRow) (status : LifecycleStatus)
    (now : Timestamp) : Continues s (s.enter seen status now) :=
  .updateWhere (AttachmentRow.attachmentUuid_entering status now)
    (ownerUserUuid_entering status now) (workspaceUuid_entering status now) rfl fun _ h => h

/-- A statement keeps the events and the owners. -/
lemma continues_of_attachmentEffect {s t : AttachmentStore} {e : AttachmentEffect}
    {response : e.Response} (heffect : attachmentEffect s e response t) : Continues s t := by
  cases response with
  | error error =>
      have hsame : t = s := by cases e <;> exact heffect
      rw [hsame]
      exact .refl s
  | ok answer =>
      cases e with
      | createAttachment row event =>
          obtain ⟨-, hinsert⟩ := heffect
          refine Continues.trans ?_ (.insertEvent? hinsert)
          exact ⟨fun _ h => h, fun uuid old hold =>
            ⟨old, Table.get?_insert_of_some hold row, rfl, rfl⟩⟩
      | attachmentForActor | clock | existingEvent | eventOf =>
          obtain ⟨-, rfl⟩ := heffect
          exact .refl _
      | reject attachmentUuid event =>
          refine Continues.trans ?_ (.insertEvent? heffect)
          exact .updateWhere (AttachmentRow.attachmentUuid_rejecting event.createdAt)
            (fun _ => rfl) (fun _ => rfl) rfl fun _ h => h
      | enter seen event =>
          rw [attachmentEffect] at heffect
          split_ifs at heffect
          · exact (continues_enter s seen _ _).trans (.insertEvent? heffect.2)
          · rw [heffect.2]
            exact .refl s
      | audit | rollback =>
          have hsame : t = s := heffect
          rw [hsame]
          exact .refl s
      | markStale blockUuid reason =>
          have hmarked : t = s.markStale blockUuid reason := heffect
          rw [hmarked]
          exact .updateWhere (AttachmentRow.attachmentUuid_staled reason) (fun _ => rfl)
            (fun _ => rfl) rfl fun _ h => h
      | wait duration =>
          have hlater : t = { s with now := s.now + duration } := heffect
          rw [hlater]
          exact ⟨fun _ h => h, fun _ row hrow => ⟨row, hrow, rfl, rfl⟩⟩

/-- A passage keeps the events and the owners. -/
theorem continues_of_passage {s t : AttachmentStore} (h : Passage s t) : Continues s t := by
  induction h with
  | refl => exact .refl s
  | tail _ hstep ih =>
      refine ih.trans ?_
      cases hstep with
      | statement heffect => exact continues_of_attachmentEffect heffect
      | columns condition change hkey howner hworkspace =>
          exact .updateWhere hkey howner hworkspace rfl fun _ h => h

/-! ### One event of each status -/

/-- No attachment has two events of one status. -/
def AttachmentStore.EventsApart (s : AttachmentStore) : Prop :=
  (s.events.map fun event => (event.attachmentUuid, event.lifecycleStatus)).Nodup

lemma eventsApart_insertEvent? {s t : AttachmentStore} {event : LifecycleEvent}
    (hapart : s.EventsApart) (h : s.insertEvent? event = some t) : t.EventsApart := by
  obtain ⟨hfree, -, rfl⟩ := insertEvent?_eq_some.mp h
  rw [AttachmentStore.EventsApart, List.map_append, List.map_singleton, ← List.concat_eq_append]
  refine hapart.concat fun hmem => ?_
  obtain ⟨old, hold, hsame⟩ := List.mem_map.mp hmem
  rw [AttachmentStore.conflicts, List.any_eq_false] at hfree
  exact hfree old hold (by simpa using .inr (Prod.mk.inj hsame))

/-- A statement keeps the events of an attachment apart. -/
lemma eventsApart_of_attachmentEffect {s t : AttachmentStore} {e : AttachmentEffect}
    {response : e.Response} (hs : s.EventsApart) (heffect : attachmentEffect s e response t) :
    t.EventsApart := by
  cases response with
  | error error =>
      have hsame : t = s := by cases e <;> exact heffect
      rwa [hsame]
  | ok answer =>
      cases e with
      | createAttachment row event =>
          have hrows : ({ s with attachments := s.attachments.insert row } :
            AttachmentStore).EventsApart := hs
          exact eventsApart_insertEvent? hrows heffect.2
      | attachmentForActor | clock | existingEvent | eventOf =>
          obtain ⟨-, rfl⟩ := heffect
          exact hs
      | reject attachmentUuid event =>
          have hrows : (s.reject attachmentUuid event.createdAt).EventsApart := hs
          exact eventsApart_insertEvent? hrows heffect
      | enter seen event =>
          rw [attachmentEffect] at heffect
          have hrows : (s.enter seen event.lifecycleStatus event.createdAt).EventsApart := hs
          split_ifs at heffect
          · exact eventsApart_insertEvent? hrows heffect.2
          · rwa [heffect.2]
      | audit | rollback =>
          have hsame : t = s := heffect
          rwa [hsame]
      | markStale blockUuid reason =>
          have hmarked : t = s.markStale blockUuid reason := heffect
          rw [hmarked]
          exact hs
      | wait duration =>
          have hlater : t = { s with now := s.now + duration } := heffect
          rw [hlater]
          exact hs

/-- A passage keeps the events of an attachment apart. -/
theorem eventsApart_of_passage {s t : AttachmentStore} (h : Passage s t) (hs : s.EventsApart) :
    t.EventsApart := by
  induction h with
  | refl => exact hs
  | tail _ hstep ih =>
      cases hstep with
      | statement heffect => exact eventsApart_of_attachmentEffect ih heffect
      | columns => exact ih

/-- The one event of an attachment and a status. -/
lemma AttachmentStore.EventsApart.eq {s : AttachmentStore} (h : s.EventsApart)
    {event event' : LifecycleEvent} (hevent : event ∈ s.events) (hevent' : event' ∈ s.events)
    (hattachment : event.attachmentUuid = event'.attachmentUuid)
    (hstatus : event.lifecycleStatus = event'.lifecycleStatus) : event = event' :=
  List.inj_on_of_nodup_map h hevent hevent' (Prod.ext hattachment hstatus)

/-! ### What a transition returns -/

/-- What a transition leaves that has returned an event: the event is there, with the key of the
call if it is a rejection, and the attachment is the caller's. -/
structure Returned (s : AttachmentStore) (request : TransitionRequest) (event : LifecycleEvent) :
    Prop where
  mem : event ∈ s.events
  attachment : event.attachmentUuid = request.attachmentUuid
  status : event.lifecycleStatus = request.lifecycleStatus
  key : request.lifecycleStatus = .userRejected → event.idempotencyKey = request.idempotencyKey
  owned : (s.attachmentForActor request.attachmentUuid request.userUuid
    request.workspaceUuid).isSome

/-- An attachment stays the caller's. -/
lemma Continues.owned {s t : AttachmentStore} (h : Continues s t) {attachmentUuid userUuid : String}
    {workspaceUuid : Option String}
    (hs : (s.attachmentForActor attachmentUuid userUuid workspaceUuid).isSome) :
    (t.attachmentForActor attachmentUuid userUuid workspaceUuid).isSome := by
  rw [AttachmentStore.attachmentForActor] at hs ⊢
  split_ifs at hs ⊢
  · exact hs
  obtain ⟨row, hfilter⟩ := Option.isSome_iff_exists.mp hs
  obtain ⟨hrow, howns⟩ := Option.filter_eq_some_iff.mp hfilter
  obtain ⟨later, hlater, howner, hworkspace⟩ := h.rows _ _ hrow
  rw [hlater, Option.filter_some, howner, hworkspace, if_pos howns]
  rfl

lemma Returned.continues {s t : AttachmentStore} {request : TransitionRequest}
    {event : LifecycleEvent} (h : Returned s request event) (hst : Continues s t) :
    Returned t request event :=
  ⟨hst.events event h.mem, h.attachment, h.status, h.key, hst.owned h.owned⟩

lemma continues_of_amid {s t : AttachmentStore} {e : AttachmentEffect} {response : e.Response}
    (h : amid s e response t) : Continues s t := by
  obtain ⟨u, hu, heffect⟩ := h
  exact (continues_of_passage hu).trans (continues_of_attachmentEffect heffect)

/-- A transition on its way leaves what it returns, whatever others do between its statements. -/
abbrev SafeReturn (request : TransitionRequest) :
    List (Performed AttachmentEffect.Response) → AttachmentStore →
      AttachmentProgram LifecycleEvent → Prop :=
  Prog.Safe amid (fun _ _ => True) fun _ answer t =>
    ∀ event, answer = .ok event → Returned t request event

section

variable {request : TransitionRequest} {attachment : AttachmentRow} {s : AttachmentStore}
variable {es : List (Performed AttachmentEffect.Response)} {e : AttachmentEffect}
variable {k : e.Answer → AttachmentProgram LifecycleEvent}

/-- Nothing is returned where a statement raises. -/
lemma safeReturn_ask (h : ∀ a t, amid s e (.ok a) t →
    SafeReturn request (es ++ [⟨e, .ok a⟩]) t (k a)) : SafeReturn request es s (ask e k) :=
  Fallible.safe_ask.mpr ⟨trivial, h, fun _ _ _ _ h => nomatch h⟩

lemma safeReturn_raise (error : AttachmentError) : SafeReturn request es s (raise error) :=
  fun _ h => nomatch h

lemma safeReturn_pure {event : LifecycleEvent} (h : Returned s request event) :
    SafeReturn request es s (Fallible.pure event) := by
  intro returned hreturned
  obtain rfl := Except.ok.inj hreturned
  exact h

/-- The caller's attachment. -/
def Owned (s : AttachmentStore) (request : TransitionRequest) : Prop :=
  (s.attachmentForActor request.attachmentUuid request.userUuid request.workspaceUuid).isSome

/-- The event of a status that a call finds is there. -/
lemma returned_eventOf {event : LifecycleEvent} {t : AttachmentStore}
    (hrejects : request.lifecycleStatus ≠ .userRejected) (howned : Owned t request)
    (hread : some event = t.eventOf request.attachmentUuid request.lifecycleStatus) :
    Returned t request event := by
  have hfound := List.find?_some hread.symm
  rw [Bool.and_eq_true, decide_eq_true_iff, decide_eq_true_iff] at hfound
  exact ⟨List.mem_of_find?_eq_some hread.symm, hfound.1, hfound.2, fun h => absurd h hrejects,
    howned⟩

lemma returned_of_insertEvent? {now : Timestamp} {s t : AttachmentStore} (howned : Owned t request)
    (hinsert : s.insertEvent? (request.event now) = some t) :
    Returned t request (request.event now) := by
  obtain ⟨-, -, rfl⟩ := insertEvent?_eq_some.mp hinsert
  exact ⟨List.mem_append_right _ (List.mem_singleton_self _), rfl, rfl, fun _ => rfl, howned⟩

/-- The end of a transition leaves what it returns. -/
lemma safeReturn_enterStatus (hrejects : request.lifecycleStatus ≠ .userRejected)
    (howned : Owned s request) : SafeReturn request es s (enterStatus request attachment) := by
  unfold enterStatus
  split_ifs with hallowed
  swap
  · exact safeReturn_raise _
  refine safeReturn_ask fun (now : ℕ) t₁ h₁ => ?_
  refine safeReturn_ask fun (entered : Bool) t₂ h₂ => ?_
  have howned₂ : Owned t₂ request :=
    (continues_of_amid h₂).owned ((continues_of_amid h₁).owned howned)
  cases entered with
  | true =>
      refine safeReturn_ask fun () t₃ h₃ => safeReturn_pure ?_
      obtain ⟨u, -, heffect⟩ := h₂
      have heffect : if u.guardHolds attachment then
          true = true ∧ (u.enter attachment request.lifecycleStatus now).insertEvent?
            (request.event now) = some t₂
        else true = false ∧ t₂ = u := heffect
      split_ifs at heffect
      · exact (returned_of_insertEvent? howned₂ heffect.2).continues (continues_of_amid h₃)
      · exact nomatch heffect.1
  | false =>
      refine safeReturn_ask fun (concurrent : Option LifecycleEvent) t₃ h₃ => ?_
      have howned₃ : Owned t₃ request := (continues_of_amid h₃).owned howned₂
      obtain ⟨v, -, hanswer, rfl⟩ := h₃
      cases concurrent with
      | none => exact safeReturn_raise _
      | some event => exact safeReturn_pure (returned_eventOf hrejects howned₃ hanswer)

lemma safeReturn_transitionRead (howned : Owned s request) :
    SafeReturn request es s (transitionRead request attachment) := by
  unfold transitionRead
  refine safeReturn_ask fun (existing : Option LifecycleEvent) t₁ h₁ => ?_
  have howned₁ : Owned t₁ request := (continues_of_amid h₁).owned howned
  cases existing with
  | some event =>
      obtain ⟨u, -, hanswer, rfl⟩ := h₁
      have hanswer : some event = t₁.existingEvent request.attachmentUuid request.lifecycleStatus
        request.idempotencyKey := hanswer
      have hfound := List.find?_some hanswer.symm
      rw [Bool.and_eq_true, Bool.and_eq_true, decide_eq_true_iff, decide_eq_true_iff,
        decide_eq_true_iff] at hfound
      exact safeReturn_pure ⟨List.mem_of_find?_eq_some hanswer.symm, hfound.1.1, hfound.1.2,
        fun _ => hfound.2, howned₁⟩
  | none =>
      dsimp only
      split_ifs with hrejects hdelivered hsame
      · refine safeReturn_ask fun (now : ℕ) t₂ h₂ => ?_
        refine safeReturn_ask fun () t₃ h₃ => safeReturn_pure ?_
        have howned₃ : Owned t₃ request :=
          (continues_of_amid h₃).owned ((continues_of_amid h₂).owned howned₁)
        obtain ⟨u, -, heffect⟩ := h₃
        exact returned_of_insertEvent? howned₃ heffect
      · exact safeReturn_raise _
      · refine safeReturn_ask fun (canonical : Option LifecycleEvent) t₂ h₂ => ?_
        have howned₂ : Owned t₂ request := (continues_of_amid h₂).owned howned₁
        obtain ⟨u, -, hanswer, rfl⟩ := h₂
        cases canonical with
        | some event => exact safeReturn_pure (returned_eventOf hrejects howned₂ hanswer)
        | none => exact safeReturn_enterStatus hrejects howned₂
      · exact safeReturn_enterStatus hrejects howned₁

lemma safeReturn_transitionAttachment : SafeReturn request es s (transitionAttachment request) := by
  unfold transitionAttachment
  refine safeReturn_ask fun (attachment : Option AttachmentRow) t₁ h₁ => ?_
  cases attachment with
  | none => exact safeReturn_raise _
  | some attachment =>
      have howned₁ : Owned t₁ request := by
        obtain ⟨u, -, hanswer, rfl⟩ := h₁
        have hanswer : some attachment = t₁.attachmentForActor request.attachmentUuid
          request.userUuid request.workspaceUuid := hanswer
        rw [Owned, ← hanswer]
        rfl
      dsimp only
      split_ifs
      · refine safeReturn_ask fun (now : ℕ) t₂ h₂ => ?_
        have howned₂ : Owned t₂ request := (continues_of_amid h₂).owned howned₁
        cases deliveryError attachment now with
        | some message => exact safeReturn_raise _
        | none => exact safeReturn_transitionRead howned₂
      · exact safeReturn_transitionRead howned₁

end

/-- What a transition has returned, whatever others did between its statements, is there. -/
theorem returned_of_exec {request : TransitionRequest} {event : LifecycleEvent}
    {s t : AttachmentStore} {es : List (Performed AttachmentEffect.Response)}
    (hexec : Prog.Exec amid s (transitionAttachment request) es (.done (.ok event)) t) :
    Returned t request event := by
  have hsafe : SafeReturn request [] s (transitionAttachment request) :=
    safeReturn_transitionAttachment
  rcases hsafe.outcome hexec with ⟨hcut, -⟩ | ⟨answer, hanswer, hreturned⟩
  · exact nomatch hcut
  · exact hreturned event (Option.some.inj hanswer).symm

/-! ### A call on a store -/

/-- The error of an insert that meets a unique index. -/
def AttachmentStore.integrityError : AttachmentError := .store "IntegrityError"

/-- What the store answers to a statement, and what becomes of it. -/
def AttachmentStore.respond (s : AttachmentStore) :
    (e : AttachmentEffect) → e.Response × AttachmentStore
  | .createAttachment row event =>
      if (s.attachments.get? row.attachmentUuid).isSome then (.error integrityError, s)
      else match ({ s with attachments := s.attachments.insert row }).insertEvent? event with
        | some t => (.ok (), t)
        | none => (.error integrityError, s)
  | .attachmentForActor attachmentUuid userUuid workspaceUuid =>
      (.ok (s.attachmentForActor attachmentUuid userUuid workspaceUuid), s)
  | .clock => (.ok s.now, s)
  | .existingEvent attachmentUuid status idempotencyKey =>
      (.ok (s.existingEvent attachmentUuid status idempotencyKey), s)
  | .eventOf attachmentUuid status => (.ok (s.eventOf attachmentUuid status), s)
  | .reject attachmentUuid event =>
      match (s.reject attachmentUuid event.createdAt).insertEvent? event with
      | some t => (.ok (), t)
      | none => (.error integrityError, s)
  | .enter seen event =>
      if s.guardHolds seen then
        match (s.enter seen event.lifecycleStatus event.createdAt).insertEvent? event with
        | some t => (.ok true, t)
        | none => (.error integrityError, s)
      else (.ok false, s)
  | .audit _ _ => (.ok (), s)
  | .markStale blockUuid reason => (.ok (), s.markStale blockUuid reason)
  | .rollback _ _ => (.ok (), s)
  | .wait duration => (.ok (), { s with now := s.now + duration })

/-- The store answers as a statement may be answered. -/
lemma attachmentEffect_respond (s : AttachmentStore) (e : AttachmentEffect) :
    attachmentEffect s e (s.respond e).1 (s.respond e).2 := by
  cases e with
  | createAttachment row event =>
      rw [AttachmentStore.respond]
      split_ifs with hrow
      · rfl
      · split
        · exact ⟨by simpa using hrow, by assumption⟩
        · rfl
  | attachmentForActor | clock | existingEvent | eventOf => exact ⟨rfl, rfl⟩
  | reject attachmentUuid event =>
      rw [AttachmentStore.respond]
      split
      · assumption
      · rfl
  | enter seen event =>
      rw [AttachmentStore.respond]
      split_ifs with hguard
      · split
        · rename_i t hinsert
          exact (if_pos hguard).mpr ⟨rfl, hinsert⟩
        · rfl
      · exact (if_neg hguard).mpr ⟨rfl, rfl⟩
  | audit | markStale | rollback | wait => rfl

/-- A call on a store: what it returns or raises, and the store after it. -/
def transition (s : AttachmentStore) (request : TransitionRequest) :
    Except AttachmentError LifecycleEvent × AttachmentStore :=
  (Prog.eval AttachmentStore.respond s (transitionAttachment request)).2

/-- A call on a store is one between whose statements nobody acts. -/
lemma exec_transition (s : AttachmentStore) (request : TransitionRequest) {t : AttachmentStore}
    {event : LifecycleEvent} (h : transition s request = (.ok event, t)) :
    ∃ es, Prog.Exec amid s (transitionAttachment request) es (.done (.ok event)) t := by
  have hexec := Prog.exec_eval attachmentEffect_respond s (transitionAttachment request)
  rw [transition] at h
  rw [h] at hexec
  exact ⟨_, hexec.mono fun heffect => ⟨_, .refl, heffect⟩⟩

section

variable {s : AttachmentStore} {request : TransitionRequest} {row : AttachmentRow}

/-- A call on an attachment that may not be delivered raises, and goes on otherwise. -/
lemma transition_of_owned (hrow : s.attachmentForActor request.attachmentUuid request.userUuid
    request.workspaceUuid = some row) :
    (request.lifecycleStatus = .delivered ∧
      ∃ message, deliveryError row s.now = some message ∧
        transition s request = (.error (.value message), s)) ∨
    ((request.lifecycleStatus = .delivered → deliveryError row s.now = none) ∧
      transition s request =
        (Prog.eval AttachmentStore.respond s (transitionRead request row)).2) := by
  have hread : s.respond (.attachmentForActor request.attachmentUuid request.userUuid
      request.workspaceUuid) = (.ok (some row), s) := by rw [AttachmentStore.respond, hrow]
  have hclock : s.respond .clock = (.ok s.now, s) := rfl
  have heval : transition s request = _ := Fallible.eval_ask_ok hread
  rw [heval]
  dsimp only
  by_cases hdelivered : request.lifecycleStatus = .delivered
  · rw [if_pos hdelivered]
    cases hfit : deliveryError row s.now with
    | some message =>
        refine .inl ⟨hdelivered, message, rfl, (Fallible.eval_ask_ok hclock).trans ?_⟩
        rw [hfit]
        rfl
    | none =>
        refine .inr ⟨fun _ => rfl, (Fallible.eval_ask_ok hclock).trans ?_⟩
        rw [hfit]
  · rw [if_neg hdelivered]
    exact .inr ⟨fun h => absurd h hdelivered, rfl⟩

/-- A key that is found gives its event. -/
lemma eval_transitionRead_of_existing {event : LifecycleEvent}
    (h : s.existingEvent request.attachmentUuid request.lifecycleStatus request.idempotencyKey =
      some event) :
    (Prog.eval AttachmentStore.respond s (transitionRead request row)).2 = (.ok event, s) := by
  have hread : s.respond (.existingEvent request.attachmentUuid request.lifecycleStatus
      request.idempotencyKey) = (.ok (some event), s) := by rw [AttachmentStore.respond, h]
  rw [transitionRead]
  exact Fallible.eval_ask_ok hread

/-- A call for the status that the attachment has gives the event of the status. -/
lemma eval_transitionRead_of_same {event : LifecycleEvent}
    (h : s.existingEvent request.attachmentUuid request.lifecycleStatus request.idempotencyKey =
      none)
    (hrejects : request.lifecycleStatus ≠ .userRejected)
    (hsame : request.lifecycleStatus = row.lifecycleStatus)
    (hevent : s.eventOf request.attachmentUuid request.lifecycleStatus = some event) :
    (Prog.eval AttachmentStore.respond s (transitionRead request row)).2 = (.ok event, s) := by
  have hread : s.respond (.existingEvent request.attachmentUuid request.lifecycleStatus
      request.idempotencyKey) = (.ok none, s) := by rw [AttachmentStore.respond, h]
  have hcanonical : s.respond (.eventOf request.attachmentUuid request.lifecycleStatus) =
      (.ok (some event), s) := by rw [AttachmentStore.respond, hevent]
  rw [transitionRead]
  refine (Fallible.eval_ask_ok hread).trans ?_
  dsimp only
  rw [if_neg hrejects, if_pos hsame]
  exact Fallible.eval_ask_ok hcanonical

/-- A call for a status that the attachment has had and has left raises. -/
lemma eval_transitionRead_of_left {event : LifecycleEvent}
    (h : s.existingEvent request.attachmentUuid request.lifecycleStatus request.idempotencyKey =
      none)
    (hrejects : request.lifecycleStatus ≠ .userRejected)
    (hleft : request.lifecycleStatus ≠ row.lifecycleStatus) (hmem : event ∈ s.events)
    (hattachment : event.attachmentUuid = request.attachmentUuid)
    (hstatus : event.lifecycleStatus = request.lifecycleStatus)
    (hrow : s.attachments.get? row.attachmentUuid = some row) :
    ∃ error, (Prog.eval AttachmentStore.respond s (transitionRead request row)).2 =
      (.error error, s) := by
  have hread : s.respond (.existingEvent request.attachmentUuid request.lifecycleStatus
      request.idempotencyKey) = (.ok none, s) := by rw [AttachmentStore.respond, h]
  have heval : (Prog.eval AttachmentStore.respond s (transitionRead request row)).2 =
      (Prog.eval AttachmentStore.respond s (enterStatus request row)).2 := by
    rw [transitionRead]
    refine (Fallible.eval_ask_ok hread).trans ?_
    dsimp only
    rw [if_neg hrejects, if_neg hleft]
  rw [heval, enterStatus]
  split_ifs with hallowed
  swap
  · exact ⟨_, rfl⟩
  have hclock : s.respond .clock = (.ok s.now, s) := rfl
  -- the unique index refuses a second event of the status
  have hconflict : (s.enter row request.lifecycleStatus s.now).conflicts (request.event s.now) =
      true := by
    rw [AttachmentStore.conflicts, List.any_eq_true]
    refine ⟨event, hmem, ?_⟩
    rw [Bool.or_eq_true, Bool.and_eq_true]
    exact .inr ⟨decide_eq_true hattachment, decide_eq_true hstatus⟩
  have hrefused : (s.enter row request.lifecycleStatus s.now).insertEvent?
      (request.event s.now) = none := by
    rw [AttachmentStore.insertEvent?, hconflict, Bool.true_or, if_pos rfl]
  have henter : s.respond (.enter row (request.event s.now)) =
      (.error AttachmentStore.integrityError, s) := by
    have hguard : s.guardHolds row = true := guardHolds_iff.mpr ⟨row, hrow, rfl⟩
    have hevent : (request.event s.now).lifecycleStatus = request.lifecycleStatus ∧
        (request.event s.now).createdAt = s.now := ⟨rfl, rfl⟩
    rw [AttachmentStore.respond, if_pos hguard, hevent.1, hevent.2, hrefused]
  exact ⟨_, (Fallible.eval_ask_ok hclock).trans (Fallible.eval_ask_error henter)⟩

end

/-! ### Replays -/

/-- The same transition, asked for by the same user with the same key. -/
structure TransitionRequest.SameCall (request later : TransitionRequest) : Prop where
  attachment : later.attachmentUuid = request.attachmentUuid
  status : later.lifecycleStatus = request.lifecycleStatus
  user : later.userUuid = request.userUuid
  workspace : later.workspaceUuid = request.workspaceUuid
  key : later.idempotencyKey = request.idempotencyKey

/-- A call returns an event of the same name and changes nothing. -/
def Replays (s : AttachmentStore) (request : TransitionRequest) (event : LifecycleEvent) : Prop :=
  ∃ event', transition s request = (.ok event', s) ∧
    event'.lifecycleEventUuid = event.lifecycleEventUuid

/-- The attachment may still be delivered, if it is to be; and there is an event with the key, or
the attachment still has the status. -/
def StillReplays (s : AttachmentStore) (request : TransitionRequest) : Prop :=
  ∀ row, s.attachmentForActor request.attachmentUuid request.userUuid request.workspaceUuid =
    some row →
      (request.lifecycleStatus = .delivered → deliveryError row s.now = none) ∧
        ((s.existingEvent request.attachmentUuid request.lifecycleStatus
          request.idempotencyKey).isSome ∨ request.lifecycleStatus = row.lifecycleStatus)

/-- A call that has returned an event returns it again exactly when it still replays. -/
theorem replays_iff {s₀ s₁ s : AttachmentStore} {request later : TransitionRequest}
    {event : LifecycleEvent} {es : List (Performed AttachmentEffect.Response)}
    (hbefore : Passage {} s₀)
    (hfirst : Prog.Exec amid s₀ (transitionAttachment request) es (.done (.ok event)) s₁)
    (hbetween : Passage s₁ s) (hsame : request.SameCall later) :
    Replays s later event ↔ StillReplays s later := by
  obtain ⟨hattachment, hstatus, huser, hworkspace, hkey⟩ := hsame
  have hreturned := (returned_of_exec hfirst).continues (continues_of_passage hbetween)
  have hapart : s.EventsApart := by
    have hstart : s₁.EventsApart := by
      refine hfirst.invariant (I := AttachmentStore.EventsApart) (fun hs hamid => ?_)
        (eventsApart_of_passage hbefore List.nodup_nil)
      obtain ⟨u, hu, heffect⟩ := hamid
      exact eventsApart_of_attachmentEffect (eventsApart_of_passage hu hs) heffect
    exact eventsApart_of_passage hbetween hstart
  obtain ⟨hmem, heventAttachment, heventStatus, heventKey, howned⟩ := hreturned
  rw [← hattachment] at heventAttachment
  rw [← hstatus] at heventStatus
  rw [← hstatus, ← hkey] at heventKey
  rw [← hattachment, ← huser, ← hworkspace] at howned
  obtain ⟨row, hrow⟩ := Option.isSome_iff_exists.mp howned
  have hstored : s.attachments.get? row.attachmentUuid = some row := by
    rw [AttachmentStore.attachmentForActor] at hrow
    split_ifs at hrow
    have hget := Option.eq_some_of_filter_eq_some hrow
    rwa [Table.key_of_get? hget]
  have hstill : StillReplays s later ↔
      (later.lifecycleStatus = .delivered → deliveryError row s.now = none) ∧
        ((s.existingEvent later.attachmentUuid later.lifecycleStatus
          later.idempotencyKey).isSome ∨ later.lifecycleStatus = row.lifecycleStatus) := by
    rw [StillReplays, hrow]
    exact ⟨fun h => h row rfl, fun h row' hrow' => Option.some.inj hrow' ▸ h⟩
  rw [hstill, Replays]
  rcases transition_of_owned hrow with ⟨hdelivered, message, hunfit, heq⟩ | ⟨hfit, heq⟩
  · rw [heq]
    constructor
    · rintro ⟨event', h, -⟩
      cases (Prod.mk.inj h).1
    · rintro ⟨h, -⟩
      rw [h hdelivered] at hunfit
      cases hunfit
  rw [heq]
  cases hexisting : s.existingEvent later.attachmentUuid later.lifecycleStatus
      later.idempotencyKey with
  | some found =>
      have hfound := List.find?_some hexisting
      rw [Bool.and_eq_true, Bool.and_eq_true, decide_eq_true_iff, decide_eq_true_iff] at hfound
      have hevent : found = event := hapart.eq (List.mem_of_find?_eq_some hexisting) hmem
        (hfound.1.1.trans heventAttachment.symm) (hfound.1.2.trans heventStatus.symm)
      rw [eval_transitionRead_of_existing hexisting, hevent]
      exact ⟨fun _ => ⟨hfit, .inl rfl⟩, fun _ => ⟨event, rfl, rfl⟩⟩
  | none =>
      have hnone := List.find?_eq_none.mp hexisting event hmem
      -- a rejection is returned with its own key
      have hrejects : later.lifecycleStatus ≠ .userRejected := fun hrejected =>
        hnone (by simp [heventAttachment, heventStatus, heventKey hrejected])
      by_cases hcurrent : later.lifecycleStatus = row.lifecycleStatus
      · obtain ⟨canonical, hcanonical⟩ : ∃ canonical,
            s.eventOf later.attachmentUuid later.lifecycleStatus = some canonical := by
          refine Option.isSome_iff_exists.mp (List.find?_isSome.mpr ⟨event, hmem, ?_⟩)
          rw [Bool.and_eq_true]
          exact ⟨decide_eq_true heventAttachment, decide_eq_true heventStatus⟩
        have hfound := List.find?_some hcanonical
        rw [Bool.and_eq_true, decide_eq_true_iff, decide_eq_true_iff] at hfound
        have hevent : canonical = event := hapart.eq (List.mem_of_find?_eq_some hcanonical) hmem
          (hfound.1.trans heventAttachment.symm) (hfound.2.trans heventStatus.symm)
        rw [eval_transitionRead_of_same hexisting hrejects hcurrent hcanonical, hevent]
        exact ⟨fun _ => ⟨hfit, .inr hcurrent⟩, fun _ => ⟨event, rfl, rfl⟩⟩
      · obtain ⟨error, hraises⟩ := eval_transitionRead_of_left hexisting hrejects hcurrent hmem
          heventAttachment heventStatus hstored
        rw [hraises]
        constructor
        · rintro ⟨event', h, -⟩
          cases (Prod.mk.inj h).1
        · rintro ⟨-, h | h⟩
          · cases h
          · exact absurd h hcurrent

/-! ### A delivery that was reviewed, and an approval under another key -/

/-- A call with what others do between its statements is a passage. -/
lemma passage_of_exec {s t : AttachmentStore} {p q : AttachmentProgram LifecycleEvent}
    {es : List (Performed AttachmentEffect.Response)} (h : Prog.Exec amid s p es q t) :
    Passage s t := by
  induction h with
  | refl s p => exact .refl
  | call he _ ih =>
      obtain ⟨u, hu, heffect⟩ := he
      exact (hu.tail (.statement heffect)).trans ih

lemma passage_transition (s : AttachmentStore) (request : TransitionRequest) :
    Passage s (transition s request).2 := by
  have hexec := Prog.exec_eval attachmentEffect_respond s (transitionAttachment request)
  exact passage_of_exec (hexec.mono fun heffect => ⟨_, .refl, heffect⟩)

lemma passage_preparedStore : Passage {} preparedStore :=
  .single (@PassageStep.statement _ _ (.createAttachment blockAttachment preparedEvent) (.ok ())
    ⟨rfl, rfl⟩)

/-- A delivery is returned again while the attachment lives. -/
theorem replays_iff_delivered : Replays (transition preparedStore deliver).2 deliver
    (deliver.event 0) ↔ StillReplays (transition preparedStore deliver).2 deliver := by
  obtain ⟨es, hfirst⟩ := exec_transition preparedStore deliver rfl
  exact replays_iff passage_preparedStore hfirst .refl ⟨rfl, rfl, rfl, rfl, rfl⟩

/-- An attachment that is delivered when it was approved. -/
def reviewedAttachment : AttachmentRow := { blockAttachment with attachmentReview := true }

/-- The store with the attachment. -/
def reviewedStore : AttachmentStore where
  attachments := ⟨[reviewedAttachment], by decide⟩
  events := [preparedEvent]

/-- The call that approves it. -/
def approve : TransitionRequest :=
  { deliver with lifecycleStatus := .approved, idempotencyKey := "k0", eventUuid := "e2" }

/-- The call that approves it once more. -/
def approveAgain : TransitionRequest := { approve with idempotencyKey := "k2", eventUuid := "e3" }

lemma passage_reviewedStore : Passage {} reviewedStore :=
  .single (@PassageStep.statement _ _ (.createAttachment reviewedAttachment preparedEvent) (.ok ())
    ⟨rfl, rfl⟩)

/-- The delivery of an attachment that was approved is refused when it is asked for again, since
its status is no longer that; and an approval that was answered with the event of another key is
refused once the attachment is delivered. -/
theorem reviewed_delivery_not_replayed :
    (¬ ∀ (s₀ s₁ s : AttachmentStore) (request later : TransitionRequest) (event : LifecycleEvent)
        (es : List (Performed AttachmentEffect.Response)), Passage {} s₀ →
      Prog.Exec amid s₀ (transitionAttachment request) es (.done (.ok event)) s₁ → Passage s₁ s →
        request.SameCall later → later.lifecycleStatus = .delivered → Replays s later event) ∧
    ¬ ∀ (s₀ s₁ s : AttachmentStore) (request later : TransitionRequest) (event : LifecycleEvent)
        (es : List (Performed AttachmentEffect.Response)), Passage {} s₀ →
      Prog.Exec amid s₀ (transitionAttachment request) es (.done (.ok event)) s₁ → Passage s₁ s →
        request.SameCall later → later.lifecycleStatus = .approved → Replays s later event := by
  constructor
  · intro h
    let approved := (transition reviewedStore approve).2
    obtain ⟨es, hfirst⟩ := exec_transition approved deliver rfl
    obtain ⟨event, hreplay, -⟩ := h approved _ _ deliver deliver _ es
      (passage_reviewedStore.trans (passage_transition _ _)) hfirst .refl
      ⟨rfl, rfl, rfl, rfl, rfl⟩ rfl
    have hrefused : (transition (transition approved deliver).2 deliver).1 =
        .error (.value "attachment approval required before delivery") := rfl
    exact nomatch hrefused.symm.trans (congrArg Prod.fst hreplay)
  · intro h
    let approved := (transition reviewedStore approve).2
    obtain ⟨es, hfirst⟩ := exec_transition approved approveAgain rfl
    obtain ⟨event, hreplay, -⟩ := h approved _ _ approveAgain approveAgain _ es
      (passage_reviewedStore.trans (passage_transition _ _)) hfirst
      (passage_transition _ deliver) ⟨rfl, rfl, rfl, rfl, rfl⟩ rfl
    have hrefused : (transition (transition approved deliver).2 approveAgain).1 =
        .error (.value "invalid attachment transition: delivered -> approved") := rfl
    exact nomatch hrefused.symm.trans (congrArg Prod.fst hreplay)

end Memorist
