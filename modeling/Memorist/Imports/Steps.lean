import Memorist.Imports.Requests

/-!
What the statements of the imports do to the rows of a run.

* `ImportChange`: what an effect changes; only a few change the flags of a run
  (`control_eq`), its status (`runs_eq`) or its conversations (`conversations_eq`);
* `StatusStep`: a processing status is kept, claimed, released, renewed, published, cancelled or put
  back;
* `importEffect_statusStep`: an effect takes each row by such a step;
* `importEffect_newStatus`: a row that was not there before is one that was inserted.
-/

namespace Memorist

/-! ### Runs and conversations -/

/-- What an effect changes: a status or the flags of a run, a conversation, what is imported, or
processing statuses. -/
inductive ImportChange (s : ImportStore) : ImportEffect → ImportStore → Prop
  | none (e : ImportEffect) : ImportChange s e s
  | runStatus {e : ImportEffect} (run : String) (status : ImportRunStatus)
      (he : e = .setRunStatus run status ∨ e = .finishRun run status) :
      ImportChange s e (s.setRunStatus run status)
  | control (run : String) (paused cancelled : Option Bool) :
      ImportChange s (.setControl run paused cancelled) (s.setControl run paused cancelled)
  | cancelled (run : String) : ImportChange s (.cancelRun run) (s.cancelRun run)
  | marked (run : String) (row : ImportedConversationRow) (status : CommitStatus)
      (sessionUuid : Option String) (links : List ParentLink) :
      ImportChange s (.markConversation run row status sessionUuid links)
        (s.markConversation run row.importedConversationUuid status sessionUuid links)
  | imported (e : ImportEffect) (mappings : Table ImportMappingRow MappingKey ImportMappingRow.key)
      (sessions : Table ImportedSessionRow String ImportedSessionRow.sessionUuid)
      (messages : Table ImportedMessageRow String ImportedMessageRow.messageUuid) :
      ImportChange s e { s with mappings, sessions, messages }
  | processing (e : ImportEffect) (statuses : StatusTable) :
      ImportChange s e { s with statuses }
  | requeued (run : String) (statusUuids : List String) {t : ImportStore}
      (h : s.requeueFailed? run statusUuids = some t) :
      ImportChange s (.requeueFailed run statusUuids) t

section

variable {U : UnicodeData} {s t : ImportStore} {e : ImportEffect} {response : e.Response}
  {run : String}

/-- An effect changes the store in one of these ways. -/
theorem importEffect_change (h : importEffect U s e response t) : ImportChange s e t := by
  cases response with
  | error error =>
      obtain rfl := h.1
      exact .none e
  | ok answer =>
      cases e with
      | setRunStatus run status =>
          obtain rfl : t = s.setRunStatus run status := h
          exact .runStatus run status (.inl rfl)
      | finishRun run status =>
          obtain rfl : t = s.setRunStatus run status := h
          exact .runStatus run status (.inr rfl)
      | setControl run paused cancelled =>
          obtain rfl : t = s.setControl run paused cancelled := h
          exact .control run paused cancelled
      | cancelRun run =>
          obtain rfl : t = s.cancelRun run := h
          exact .cancelled run
      | markConversation run row status sessionUuid links =>
          obtain rfl : t = s.markConversation run row.importedConversationUuid status sessionUuid
            links := h
          exact .marked run row status sessionUuid links
      | createSession conversation =>
          obtain ⟨-, rfl⟩ := h
          exact .imported _ _ _ _
      | insertMapping row =>
          obtain ⟨-, rfl⟩ := h
          exact .imported _ _ _ _
      | createMessage sessionUuid conversation message mappingRepair =>
          obtain ⟨-, rfl⟩ := h
          exact .imported _ _ _ _
      | insertStatus row =>
          obtain ⟨name, createdAt, statuses, -, -, -, rfl⟩ := h
          exact .processing _ _
      | claimRow name workerId leaseSeconds =>
          obtain ⟨attempt, now, -, -, rfl⟩ := h
          exact .processing _ _
      | releaseClaim name attempt =>
          obtain ⟨-, rfl⟩ := h
          exact .processing _ _
      | renewLease name attempt leaseSeconds =>
          obtain ⟨now, -, rfl⟩ := h
          exact .processing _ _
      | recoverExpired =>
          obtain ⟨now, rfl⟩ := h
          exact .processing _ _
      | publish name attempt publication =>
          obtain ⟨now, finished, -, rfl⟩ := h
          split_ifs
          · exact .processing _ _
          · exact .none _
      | requeueFailed run names => exact .requeued run names h
      | _ =>
          have hsame : t = s := by
            first
              | exact h
              | exact h.2
              | exact h.2.2
          rw [hsame]
          exact .none _

/-- The flags of runs are set by the requests that control them. -/
lemma ImportChange.control_eq (h : ImportChange s e t) :
    (∃ run paused cancelled, e = .setControl run paused cancelled ∧
      t = s.setControl run paused cancelled) ∨ t.control = s.control := by
  cases h with
  | control run paused cancelled => exact .inl ⟨run, paused, cancelled, rfl, rfl⟩
  | requeued run names h =>
      obtain ⟨statuses, -, rfl⟩ := Option.map_eq_some_iff.mp h
      refine .inr ?_
      dsimp only
      split_ifs <;> rfl
  | _ => exact .inr rfl

/-- The status of runs is set by an operation, by a cancel, or by a retry. -/
lemma ImportChange.runs_eq (h : ImportChange s e t) :
    (∃ run status, (e = .setRunStatus run status ∨ e = .finishRun run status ∨
      e = .cancelRun run ∧ status = .cancelled ∨
      (∃ names, e = .requeueFailed run names) ∧ status = .processing) ∧
        t.runs = (s.setRunStatus run status).runs) ∨ t.runs = s.runs := by
  cases h with
  | runStatus run status he =>
      exact .inl ⟨run, status, he.imp_right .inl, rfl⟩
  | cancelled run => exact .inl ⟨run, .cancelled, .inr (.inr (.inl ⟨rfl, rfl⟩)), rfl⟩
  | requeued run names h =>
      obtain ⟨statuses, -, rfl⟩ := Option.map_eq_some_iff.mp h
      dsimp only
      split_ifs
      · exact .inr rfl
      · exact .inl ⟨run, .processing, .inr (.inr (.inr ⟨⟨names, rfl⟩, rfl⟩)), rfl⟩
  | _ => exact .inr rfl

/-- The conversations of runs are settled by their commits. -/
lemma ImportChange.conversations_eq (h : ImportChange s e t) :
    (∃ run row status sessionUuid links,
      e = .markConversation run row status sessionUuid links ∧
        t.conversations = (s.markConversation run row.importedConversationUuid status sessionUuid
          links).conversations) ∨ t.conversations = s.conversations := by
  cases h with
  | marked run row status sessionUuid links =>
      exact .inl ⟨run, row, status, sessionUuid, links, rfl, rfl⟩
  | requeued run names h =>
      obtain ⟨statuses, -, rfl⟩ := Option.map_eq_some_iff.mp h
      refine .inr ?_
      dsimp only
      split_ifs <;> rfl
  | _ => exact .inr rfl

lemma ImportStore.runStatus_congr (h : t.runs = s.runs) : t.runStatus run = s.runStatus run := by
  rw [ImportStore.runStatus, h, ImportStore.runStatus]

lemma ImportStore.get?_setRunStatus (run' : String) (status : ImportRunStatus) :
    (s.setRunStatus run' status).runs.get? run = (s.runs.get? run).map fun row =>
      if decide (row.importRunUuid = run') then row.withStatus status else row :=
  @Table.get?_updateWhere ImportRunRow String ImportRunRow.importRunUuid _ s.runs run _
    (.withStatus status) fun _ => rfl

/-- The status of a run that has one is set. -/
lemma ImportStore.runStatus_setRunStatus (status : ImportRunStatus) :
    (s.setRunStatus run status).runStatus run = (s.runStatus run).map fun _ => status := by
  rw [ImportStore.runStatus, ImportStore.get?_setRunStatus, ImportStore.runStatus, Option.map_map,
    Option.map_map]
  refine Option.map_congr fun row hrow => ?_
  rw [Function.comp_apply, if_pos (by simpa using Table.key_of_get? hrow)]
  rfl

lemma ImportStore.runStatus_setRunStatus_of_ne {run' : String} (status : ImportRunStatus)
    (h : run ≠ run') : (s.setRunStatus run' status).runStatus run = s.runStatus run := by
  rw [ImportStore.runStatus, ImportStore.get?_setRunStatus, ImportStore.runStatus, Option.map_map]
  refine Option.map_congr fun row hrow => ?_
  rw [Function.comp_apply, if_neg (by simpa [Table.key_of_get? hrow] using h)]

/-- The conversations of the other runs stay. -/
lemma ImportStore.conversationsOf_markConversation_of_ne {run' uuid : String}
    {status : CommitStatus} {sessionUuid : Option String} {links : List ParentLink}
    (h : run ≠ run') :
    (s.markConversation run' uuid status sessionUuid links).conversationsOf run =
      s.conversationsOf run := by
  have hrows : (s.markConversation run' uuid status sessionUuid links).conversations.rows =
      s.conversations.rows.map fun row =>
        if decide (row.importRunUuid = run') && decide (row.importedConversationUuid = uuid) then
          row.marked status sessionUuid else row := rfl
  rw [ImportStore.conversationsOf, ImportStore.conversationsOf, hrows]
  induction s.conversations.rows with
  | nil => rfl
  | cons row rows ih =>
      rw [List.map_cons, List.filter_cons, List.filter_cons, ih]
      by_cases hrun : row.importRunUuid = run
      · simp [hrun, h]
      · split_ifs <;> simp_all [ImportedConversationRow.marked]

/-- Settled conversations stay settled. -/
lemma ImportStore.pendingOf_markConversation {uuid : String} {status : CommitStatus}
    {sessionUuid : Option String} {links : List ParentLink} (hstatus : status ≠ .pending)
    (h : s.pendingOf run = []) :
    (s.markConversation run uuid status sessionUuid links).pendingOf run = [] := by
  simp only [ImportStore.pendingOf, ImportStore.conversationsOf, List.filter_eq_nil_iff,
    List.mem_filter, decide_eq_true_eq] at h ⊢
  rintro row ⟨hrow, hrun⟩
  obtain ⟨row₀, hrow₀, rfl⟩ := List.mem_map.mp hrow
  split_ifs at hrun ⊢
  · exact hstatus
  · exact h row₀ ⟨hrow₀, hrun⟩

@[simp] lemma ImportStore.control_setControl {paused cancelled : Option Bool} :
    (s.setControl run paused cancelled).control run =
      { paused := paused.getD (s.control run).paused
        cancelled := cancelled.getD (s.control run).cancelled } :=
  Function.update_self _ _ _

@[simp] lemma ImportStore.control_setControl_of_ne {run' : String} {paused cancelled : Option Bool}
    (h : run' ≠ run) : (s.setControl run paused cancelled).control run' = s.control run' :=
  Function.update_of_ne h _ _

end

/-! ### Processing statuses -/

/-- The attempt that an effect names. -/
def ImportEffect.attempt? : ImportEffect → Option ImportAttempt
  | releaseClaim _ attempt => some attempt
  | renewLease _ attempt _ => some attempt
  | publish _ attempt _ => some attempt
  | _ => none

/-- What an effect does to a processing status. -/
inductive StatusStep (s : ImportStore) : ImportEffect → StatusRow → StatusRow → Prop
  | kept (e : ImportEffect) (row : StatusRow) : StatusStep s e row row
  | claimed {row : StatusRow} (name workerId : String) (leaseSeconds : ℕ) (attempt : String)
      (now : Timestamp) (hqueued : row.status = .queued) (hnew : attempt ∉ s.statuses.attempts) :
      StatusStep s (.claimRow name workerId leaseSeconds) row
        (row.claimedBy (workerId, attempt) now leaseSeconds)
  | released {row : StatusRow} {attempt : ImportAttempt} (name : String)
      (howned : row.isOwned attempt) : StatusStep s (.releaseClaim name attempt) row row.released
  | renewed {row : StatusRow} {attempt : ImportAttempt} (name : String) (leaseSeconds : ℕ)
      (now : Timestamp) (howned : row.isOwned attempt) :
      StatusStep s (.renewLease name attempt leaseSeconds) row (row.renewed now leaseSeconds)
  | published {row : StatusRow} {attempt : ImportAttempt} (name : String)
      (publication : Publication) (finished : Timestamp) (howned : row.isOwned attempt)
      (hlive : s.isLive row.importRunUuid) :
      StatusStep s (.publish name attempt publication) row (row.published publication finished)
  | recovered {row : StatusRow} (hrunning : row.status = .running) :
      StatusStep s .recoverExpired row row.released
  | requeued {row : StatusRow} (run : String) (names : List String)
      (hrun : row.importRunUuid = run) : StatusStep s (.requeueFailed run names) row row.requeued
  | cancelled {row : StatusRow} (run : String) (hrun : row.importRunUuid = run)
      (hactive : !row.status.isTerminal) : StatusStep s (.cancelRun run) row row.cancelled

section

variable {U : UnicodeData} {s t : ImportStore} {e : ImportEffect} {response : e.Response}
  {statusUuid : String} {row : StatusRow}

/-- A row of the table after the rows that meet a condition have changed. -/
lemma statusStep_updateWhere {p : StatusRow → Bool}
    (f : StatusRow → StatusRow) (hf : ∀ row, (f row).statusUuid = row.statusUuid)
    (hrow : s.statuses.table.get? statusUuid = some row) (hstep : p row → StatusStep s e row (f row)) :
    ∃ row', (s.statuses.table.updateWhere p f hf).get? statusUuid = some row' ∧
      StatusStep s e row row' := by
  refine ⟨if p row then f row else row, by rw [Table.get?_updateWhere, hrow, Option.map_some], ?_⟩
  split_ifs with hp
  · exact hstep hp
  · exact .kept _ _

/-- What an insertion has checked and done. -/
lemma insert?_eq_some {t t' : StatusTable} {new : StatusRow} (h : t.insert? new = some t') :
    t'.table = t.table.insert new ∧ t'.attempts = t.attempts ∧
      new.processingAttemptUuid = none ∧ ¬ t.Forbids new := by
  unfold StatusTable.insert? at h
  split_ifs at h with hallowed
  obtain rfl := Option.some_inj.mp h
  exact ⟨rfl, rfl, hallowed.2.2, hallowed.2.1⟩

/-- What a retry has done to the processing statuses. -/
lemma requeueFailed?_eq_some {run : String} {names : List String}
    (h : s.requeueFailed? run names = some t) :
    t.statuses.table = s.statuses.requeuedRows run names ∧
      t.statuses.attempts = s.statuses.attempts := by
  obtain ⟨statuses, hstatuses, rfl⟩ := Option.map_eq_some_iff.mp h
  unfold StatusTable.requeue? at hstatuses
  split_ifs at hstatuses
  obtain rfl := Option.some_inj.mp hstatuses
  dsimp only
  split_ifs <;> exact ⟨rfl, rfl⟩

/-- An effect takes each row by a step. -/
theorem importEffect_statusStep (h : importEffect U s e response t)
    (hrow : s.statuses.table.get? statusUuid = some row) :
    ∃ row', t.statuses.table.get? statusUuid = some row' ∧ StatusStep s e row row' := by
  have hsame : t.statuses = s.statuses → ∃ row', t.statuses.table.get? statusUuid = some row' ∧
      StatusStep s e row row' := fun heq => ⟨row, heq ▸ hrow, .kept _ _⟩
  have howned : ∀ {name attempt}, ImportStore.ownedRow name attempt row → row.isOwned attempt := by
    intro name attempt hp
    simp only [ImportStore.ownedRow, Bool.and_eq_true] at hp
    exact hp.2
  cases response with
  | error error => exact hsame (by rw [h.1])
  | ok answer =>
      cases e with
      | cancelRun run =>
          obtain rfl : t = s.cancelRun run := h
          refine statusStep_updateWhere StatusRow.cancelled (fun _ => rfl) hrow fun hp => ?_
          simp only [ImportStore.activeOf, Bool.and_eq_true, decide_eq_true_eq] at hp
          exact .cancelled run hp.1 hp.2
      | insertStatus new =>
          obtain ⟨name, createdAt, statuses, -, -, hinsert, rfl⟩ := h
          refine ⟨row, ?_, .kept _ _⟩
          show statuses.table.get? statusUuid = some row
          rw [(insert?_eq_some hinsert).1]
          exact Table.get?_insert_of_some hrow _
      | claimRow name workerId leaseSeconds =>
          obtain ⟨attempt, now, hnew, -, rfl⟩ := h
          refine statusStep_updateWhere (.claimedBy (workerId, attempt) now leaseSeconds)
            (fun _ => rfl) hrow fun hp =>
              .claimed name workerId leaseSeconds attempt now ?_ hnew
          simp only [Bool.and_eq_true, decide_eq_true_eq] at hp
          exact hp.2
      | releaseClaim name attempt =>
          obtain ⟨-, rfl⟩ := h
          exact statusStep_updateWhere StatusRow.released (fun _ => rfl) hrow fun hp => .released name (howned hp)
      | renewLease name attempt leaseSeconds =>
          obtain ⟨now, -, rfl⟩ := h
          refine statusStep_updateWhere (.renewed now leaseSeconds) (fun _ => rfl) hrow fun hp =>
            .renewed name leaseSeconds now ?_
          simp only [ImportStore.renewable, Bool.and_eq_true] at hp
          exact howned hp.1.1
      | recoverExpired =>
          obtain ⟨now, rfl⟩ := h
          refine statusStep_updateWhere StatusRow.released (fun _ => rfl) hrow fun hp => .recovered ?_
          simp only [StatusRow.isExpired, Bool.and_eq_true, decide_eq_true_eq] at hp
          exact hp.1
      | publish name attempt publication =>
          obtain ⟨now, finished, -, rfl⟩ := h
          split_ifs with hfence
          · refine statusStep_updateWhere (.published publication finished)
              (fun _ => by cases publication <;> rfl) hrow fun hp =>
                .published name publication finished (howned hp) ?_
            simp only [ImportStore.ownedRow, Bool.and_eq_true, decide_eq_true_eq] at hp
            have hname : statusUuid = name := (Table.key_of_get? hrow).symm.trans hp.1
            rw [ImportStore.leaseFence, ← hname, hrow, Option.any_some, Bool.and_eq_true] at hfence
            exact hfence.2
          · exact ⟨row, hrow, .kept _ _⟩
      | requeueFailed run names =>
          obtain ⟨htable, -⟩ := requeueFailed?_eq_some h
          rw [htable]
          refine statusStep_updateWhere StatusRow.requeued (fun _ => rfl) hrow fun hp => ?_
          simp only [Bool.and_eq_true, decide_eq_true_eq] at hp
          exact .requeued run names hp.1
      | _ =>
          refine hsame ?_
          first
            | obtain rfl := h
              rfl
            | obtain ⟨-, rfl⟩ := h
              rfl
            | obtain ⟨-, -, rfl⟩ := h
              rfl

lemma StatusStep.importRunUuid_eq {row' : StatusRow} (hstep : StatusStep s e row row') :
    row'.importRunUuid = row.importRunUuid := by
  cases hstep with
  | published name publication => cases publication <;> rfl
  | _ => rfl

/-- A row that is settled stays as it is, unless its run is retried. -/
lemma StatusStep.eq_of_isTerminal {row' : StatusRow} (hstep : StatusStep s e row row')
    (hterminal : row.status.isTerminal) :
    row' = row ∨ ∃ names, e = .requeueFailed row.importRunUuid names := by
  have hrunning : ∀ {attempt}, row.isOwned attempt → row.status = .running := by
    intro attempt howned
    simp only [StatusRow.isOwned, Bool.and_eq_true, decide_eq_true_eq] at howned
    exact howned.1.1
  cases hstep with
  | kept => exact .inl rfl
  | claimed name workerId leaseSeconds attempt now hqueued =>
      rw [hqueued] at hterminal
      exact absurd hterminal (by decide)
  | released name howned =>
      rw [hrunning howned] at hterminal
      exact absurd hterminal (by decide)
  | renewed name leaseSeconds now howned =>
      rw [hrunning howned] at hterminal
      exact absurd hterminal (by decide)
  | published name publication finished howned =>
      rw [hrunning howned] at hterminal
      exact absurd hterminal (by decide)
  | recovered hrunning' =>
      rw [hrunning'] at hterminal
      exact absurd hterminal (by decide)
  | requeued run names hrun => exact .inr ⟨names, by rw [hrun]⟩
  | cancelled run hrun hactive =>
      rw [hterminal] at hactive
      exact absurd hactive (by decide)

lemma mem_ofRun {statuses : StatusTable} {run : String} : row ∈ statuses.ofRun run ↔
    statuses.table.get? row.statusUuid = some row ∧ row.importRunUuid = run := by
  rw [StatusTable.ofRun, List.mem_filter, decide_eq_true_eq, Table.get?_eq_some]
  simp

/-- A new processing status is one that was inserted, without an attempt, as the indexes allow, of a
run that is there. -/
def NewStatus (s : ImportStore) (e : ImportEffect) (row : StatusRow) : Prop :=
  ∃ new createdAt, e = .insertStatus new ∧
    row = { new with statusUuid := row.statusUuid, createdAt } ∧
      row.processingAttemptUuid = none ∧ ¬ s.statuses.Forbids row ∧
        (s.runs.get? row.importRunUuid).isSome

/-- No attempt is forgotten, and a row that was not there before is a new one. -/
theorem importEffect_newStatus (h : importEffect U s e response t) (statusUuid : String) :
    s.statuses.attempts ⊆ t.statuses.attempts ∧
      (s.statuses.table.get? statusUuid = none →
        ∀ row ∈ t.statuses.table.get? statusUuid, NewStatus s e row) := by
  have hsame : t.statuses = s.statuses → s.statuses.attempts ⊆ t.statuses.attempts ∧
      (s.statuses.table.get? statusUuid = none →
        ∀ row ∈ t.statuses.table.get? statusUuid, NewStatus s e row) := by
    intro heq
    rw [heq]
    exact ⟨List.Subset.refl _, fun hnone row hrow => absurd (hnone ▸ hrow) (by simp)⟩
  have hupdate : ∀ p f hf, t.statuses.table = s.statuses.table.updateWhere p f hf →
      s.statuses.table.get? statusUuid = none →
        ∀ row ∈ t.statuses.table.get? statusUuid, NewStatus s e row := by
    intro p f hf heq hnone row hrow
    rw [heq, Table.get?_updateWhere, hnone] at hrow
    exact absurd hrow (by simp)
  cases response with
  | error error => exact hsame (by rw [h.1])
  | ok answer =>
      cases e with
      | cancelRun run =>
          obtain rfl : t = s.cancelRun run := h
          exact ⟨List.Subset.refl _, hupdate _ StatusRow.cancelled (fun _ => rfl) rfl⟩
      | insertStatus new =>
          obtain ⟨name, createdAt, statuses, -, hrun, hinsert, rfl⟩ := h
          obtain ⟨htable, hattempts, hnew, hallowed⟩ := insert?_eq_some hinsert
          refine ⟨hattempts ▸ List.Subset.refl _, fun hnone row hrow => ?_⟩
          change row ∈ statuses.table.get? statusUuid at hrow
          rw [htable] at hrow
          rcases Table.get?_insert (t := s.statuses.table) { new with statusUuid := name, createdAt }
            statusUuid with heq | ⟨-, -, heq⟩ <;> rw [heq] at hrow
          · exact absurd (hnone ▸ hrow) (by simp)
          · obtain rfl := Option.mem_some_iff.mp hrow
            exact ⟨new, createdAt, rfl, rfl, hnew, hallowed, hrun⟩
      | claimRow name workerId leaseSeconds =>
          obtain ⟨attempt, now, -, -, rfl⟩ := h
          exact ⟨List.subset_cons_self _ _,
            hupdate _ (.claimedBy (workerId, attempt) now leaseSeconds) (fun _ => rfl) rfl⟩
      | releaseClaim name attempt =>
          obtain ⟨-, rfl⟩ := h
          exact ⟨List.Subset.refl _, hupdate _ StatusRow.released (fun _ => rfl) rfl⟩
      | renewLease name attempt leaseSeconds =>
          obtain ⟨now, -, rfl⟩ := h
          exact ⟨List.Subset.refl _, hupdate _ (.renewed now leaseSeconds) (fun _ => rfl) rfl⟩
      | recoverExpired =>
          obtain ⟨now, rfl⟩ := h
          exact ⟨List.Subset.refl _, hupdate _ StatusRow.released (fun _ => rfl) rfl⟩
      | publish name attempt publication =>
          obtain ⟨now, finished, -, rfl⟩ := h
          split_ifs at hsame hupdate ⊢
          · exact ⟨List.Subset.refl _, hupdate _ (.published publication finished)
              (fun _ => by cases publication <;> rfl) rfl⟩
          · exact hsame rfl
      | requeueFailed run names =>
          obtain ⟨htable, hattempts⟩ := requeueFailed?_eq_some h
          exact ⟨hattempts ▸ List.Subset.refl _, hupdate _ StatusRow.requeued (fun _ => rfl) htable⟩
      | _ =>
          refine hsame ?_
          first
            | obtain rfl := h
              rfl
            | obtain ⟨-, rfl⟩ := h
              rfl
            | obtain ⟨-, -, rfl⟩ := h
              rfl

/-- The settled messages of a run stay as they are, unless one is added or the run is retried. -/
theorem ofRun_step {run : String} (h : importEffect U s e response t)
    (hsettled : ∀ row ∈ s.statuses.ofRun run, row.status.isTerminal)
    (hinsert : ∀ new, e = .insertStatus new → new.importRunUuid ≠ run)
    (hretry : ∀ names, e ≠ .requeueFailed run names) (row : StatusRow) :
    row ∈ t.statuses.ofRun run ↔ row ∈ s.statuses.ofRun run := by
  refine ⟨fun hrow => ?_, fun hrow => ?_⟩
  · obtain ⟨hget, hrun⟩ := mem_ofRun.mp hrow
    rcases hbefore : s.statuses.table.get? row.statusUuid with _ | row₀
    · obtain ⟨new, createdAt, he, hnew, -⟩ :=
        (importEffect_newStatus h row.statusUuid).2 hbefore row hget
      rw [hnew] at hrun
      exact absurd hrun (hinsert new he)
    · obtain ⟨row', hget', hstep⟩ := importEffect_statusStep h hbefore
      obtain rfl := Option.some_inj.mp (hget'.symm.trans hget)
      have hrun₀ : row₀.importRunUuid = run := hstep.importRunUuid_eq.symm.trans hrun
      have hmem : row₀ ∈ s.statuses.ofRun run :=
        mem_ofRun.mpr ⟨by rw [Table.key_of_get? hbefore, hbefore], hrun₀⟩
      rcases hstep.eq_of_isTerminal (hsettled row₀ hmem) with rfl | ⟨names, he⟩
      · exact hmem
      · exact absurd (hrun₀ ▸ he) (hretry names)
  · obtain ⟨hget, hrun⟩ := mem_ofRun.mp hrow
    obtain ⟨row', hget', hstep⟩ := importEffect_statusStep h hget
    rcases hstep.eq_of_isTerminal (hsettled row hrow) with rfl | ⟨names, he⟩
    · exact mem_ofRun.mpr ⟨hget', hrun⟩
    · exact absurd (hrun ▸ he) (hretry names)

end

end Memorist
