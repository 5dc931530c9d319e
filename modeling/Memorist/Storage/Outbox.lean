import Memorist.Library.Runs
import Memorist.Library.Table
import Memorist.Storage.Sql
import Memorist.Text.LoadIjson

/-!
The outboxes of PostgreSQL (`storage/postgres/outbox.py`).

* `OutboxRow`, `Outbox`: the items, one for each name and one for each event of a source;
* `enqueue`, `claimItem`, `recoverStaleItems`, `completeItem`: the statements, each a transaction;
* `OutboxStep`: a call at a time that is not before the last one;
* `claims_exclude`: two claims of an item are further apart than a lease;
* `outbox_keeps_events_iff`: **events are kept exactly when none meets an item of its source that is
  finished or carries something else.**
-/

namespace Memorist

/-! ### Items -/

/-- The statuses of an item. -/
inductive OutboxRowStatus where
  | pending
  | retry
  | running
  | succeeded
  | failed
  deriving DecidableEq, Repr

/-- A row of an outbox. -/
structure OutboxRow (F : Type) where
  outboxUuid : String
  eventType : String
  sourceType : String
  sourceUuid : String
  payloadJsonb : Json F
  status : OutboxRowStatus := .pending
  priority : ℤ
  attempts : ℕ := 0
  runAfter : Timestamp
  lockedBy : Option String := none
  lockedAt : Option Timestamp := none
  lastErrorSanitized : Option String := none
  createdAt : Timestamp
  updatedAt : Timestamp

/-- What an item is about: its event and its source. -/
def OutboxRow.source {F : Type} (row : OutboxRow F) : String × String × String :=
  (row.eventType, row.sourceType, row.sourceUuid)

/-- An outbox: no two items of one name, and no two of one event of a source. -/
structure Outbox (F : Type) where
  table : Table (OutboxRow F) String OutboxRow.outboxUuid
  nodup_source : (table.rows.map OutboxRow.source).Nodup

/-- What is enqueued. -/
structure EnqueueRequest (F : Type) where
  eventType : String
  sourceType : String
  sourceUuid : String
  payload : Json F
  priority : ℤ := 50
  runAfter : Option Timestamp := none

/-- What a request is about. -/
def EnqueueRequest.source {F : Type} (request : EnqueueRequest F) : String × String × String :=
  (request.eventType, request.sourceType, request.sourceUuid)

namespace Outbox

variable {F : Type} (outbox : Outbox F)

/-- The outbox without items. -/
def empty : Outbox F := ⟨.empty, List.nodup_nil⟩

/-- The item of an event of a source. -/
def ofSource (source : String × String × String) : Option (OutboxRow F) :=
  outbox.table.rows.find? fun row => row.source = source

/-! ### Statements -/

/-- Change the items that meet a condition. -/
def updateWhere (p : OutboxRow F → Bool) (f : OutboxRow F → OutboxRow F)
    (hname : ∀ row, (f row).outboxUuid = row.outboxUuid)
    (hsource : ∀ row, (f row).source = row.source) : Outbox F where
  table := outbox.table.updateWhere p f hname
  nodup_source := by
    have hsources : (outbox.table.updateWhere p f hname).rows.map OutboxRow.source =
        outbox.table.rows.map OutboxRow.source := by
      rw [Table.rows_updateWhere, List.map_map]
      refine List.map_congr_left fun row _ => ?_
      rw [Function.comp_apply]
      split_ifs
      · exact hsource row
      · rfl
    rw [hsources]
    exact outbox.nodup_source

/-- Add an item of another name, about another event. -/
def insert (row : OutboxRow F) (hname : outbox.table.get? row.outboxUuid = none)
    (hsource : outbox.ofSource row.source = none) : Outbox F where
  table := outbox.table.insert row
  nodup_source := by
    rw [Table.rows_insert hname, List.map_append, List.map_singleton, List.nodup_append]
    refine ⟨outbox.nodup_source, List.nodup_singleton _, ?_⟩
    rintro source hmem source' hmem' rfl
    obtain ⟨old, hold, heq⟩ := List.mem_map.mp hmem
    rw [ofSource, List.find?_eq_none] at hsource
    exact hsource old hold (by simpa using heq.trans (List.mem_singleton.mp hmem'))

/-- The payload as it is stored. -/
def payloadJson (U : UnicodeData) (N : Floats F) (payload : Json F) : Except String (Json F) := do
  let text ← dumpJson U N payload
  loadIjson U N text

/-- The item of a request. -/
def newRow (request : EnqueueRequest F) (payloadJsonb : Json F) (outboxUuid : String)
    (now : Timestamp) : OutboxRow F where
  outboxUuid := outboxUuid
  eventType := request.eventType
  sourceType := request.sourceType
  sourceUuid := request.sourceUuid
  payloadJsonb := payloadJsonb
  priority := request.priority
  runAfter := request.runAfter.getD now
  createdAt := now
  updatedAt := now

/-- Enqueue an event. An item of its source is returned as it is. -/
def enqueue (U : UnicodeData) (N : Floats F) (request : EnqueueRequest F) (outboxUuid : String)
    (now : Timestamp) : Except String (OutboxRow F × Outbox F) := do
  let payloadJsonb ← payloadJson U N request.payload
  let row := newRow request payloadJsonb outboxUuid now
  match hsource : outbox.ofSource row.source with
  | some existing => pure (existing, outbox)
  | none =>
      match hname : outbox.table.get? row.outboxUuid with
      | some _ => .error "duplicate key value violates unique constraint"
      | none => pure (row, outbox.insert row hname hsource)

/-- Whether an item is due. -/
def isDue (now : Timestamp) (row : OutboxRow F) : Bool :=
  (row.status = .pending || row.status = .retry) && row.runAfter ≤ now

/-- The order of claims: priority, then due time, then creation. -/
def claimedBefore (a b : OutboxRow F) : Prop :=
  b.priority < a.priority ∨ a.priority = b.priority ∧
    (a.runAfter < b.runAfter ∨ a.runAfter = b.runAfter ∧ a.createdAt < b.createdAt)

/-- An item is due, and no due one comes before it. -/
def IsNext (now : Timestamp) (row : OutboxRow F) : Prop :=
  row ∈ outbox.table.rows ∧ isDue now row ∧
    ∀ other ∈ outbox.table.rows, isDue now other → ¬ claimedBefore other row

/-- An item that a worker has claimed. -/
def claimedItem (workerId : String) (now : Timestamp) (row : OutboxRow F) : OutboxRow F :=
  { row with
    status := .running
    lockedBy := some workerId
    lockedAt := some now
    attempts := row.attempts + 1
    updatedAt := now }

@[simp] lemma claimedItem_outboxUuid (workerId : String) (now : Timestamp) (row : OutboxRow F) :
    (claimedItem workerId now row).outboxUuid = row.outboxUuid := rfl

@[simp] lemma claimedItem_source (workerId : String) (now : Timestamp) (row : OutboxRow F) :
    (claimedItem workerId now row).source = row.source := rfl

/-- Claim an item. -/
def claimItem (workerId outboxUuid : String) (now : Timestamp) : Outbox F :=
  outbox.updateWhere (fun row => row.outboxUuid = outboxUuid) (claimedItem workerId now)
    (claimedItem_outboxUuid workerId now) (claimedItem_source workerId now)

/-- Whether an item runs and was locked before a time. -/
def isStaleItem (cutoff : Timestamp) (row : OutboxRow F) : Bool :=
  row.status = .running && row.lockedAt.any (· < cutoff)

/-- An item without its lock. -/
def recoveredItem (now : Timestamp) (row : OutboxRow F) : OutboxRow F :=
  { row with
    status := .pending
    lockedBy := none
    lockedAt := none
    lastErrorSanitized := row.lastErrorSanitized.or (some "lease expired")
    updatedAt := now }

@[simp] lemma recoveredItem_outboxUuid (now : Timestamp) (row : OutboxRow F) :
    (recoveredItem now row).outboxUuid = row.outboxUuid := rfl

@[simp] lemma recoveredItem_source (now : Timestamp) (row : OutboxRow F) :
    (recoveredItem now row).source = row.source := rfl

/-- Recover the items whose locks are older than a lease. -/
def recoverStaleItems (leaseTimeoutSeconds : ℕ) (now : Timestamp) : Outbox F :=
  outbox.updateWhere (isStaleItem (now - leaseTimeoutSeconds * second)) (recoveredItem now)
    (recoveredItem_outboxUuid now) (recoveredItem_source now)

/-- An item that has succeeded. -/
def completedItem (now : Timestamp) (row : OutboxRow F) : OutboxRow F :=
  { row with status := .succeeded, updatedAt := now }

@[simp] lemma completedItem_outboxUuid (now : Timestamp) (row : OutboxRow F) :
    (completedItem now row).outboxUuid = row.outboxUuid := rfl

@[simp] lemma completedItem_source (now : Timestamp) (row : OutboxRow F) :
    (completedItem now row).source = row.source := rfl

/-- Complete an item. -/
def completeItem (outboxUuid : String) (now : Timestamp) : Outbox F :=
  outbox.updateWhere (fun row => row.outboxUuid = outboxUuid) (completedItem now)
    (completedItem_outboxUuid now) (completedItem_source now)

end Outbox

/-! ### Calls in any order -/

/-- The calls on an outbox; a claim is listed with the item that it got. -/
inductive OutboxCall (F : Type) where
  | enqueue (request : EnqueueRequest F) (outboxUuid : String)
  | claimNext (workerId : String) (claimed : Option String)
  | recoverStale (leaseTimeoutSeconds : ℕ)
  | complete (outboxUuid : String)

/-- An outbox and the time of the last call. -/
structure OutboxState (F : Type) where
  outbox : Outbox F
  clock : Timestamp

section

variable {F : Type} (U : UnicodeData) (N : Floats F)

/-- What a call at a time makes of an outbox; one that raises changes nothing. -/
def OutboxCall.Does (outbox : Outbox F) (now : Timestamp) (outbox' : Outbox F) :
    OutboxCall F → Prop
  | .enqueue request outboxUuid => match outbox.enqueue U N request outboxUuid now with
    | .ok (_, result) => outbox' = result
    | .error _ => outbox' = outbox
  | .claimNext workerId (some outboxUuid) =>
      (∃ row, row.outboxUuid = outboxUuid ∧ outbox.IsNext now row) ∧
        outbox' = outbox.claimItem workerId outboxUuid now
  | .claimNext _ none =>
      (∀ row ∈ outbox.table.rows, ¬ Outbox.isDue now row) ∧ outbox' = outbox
  | .recoverStale leaseTimeoutSeconds =>
      outbox' = outbox.recoverStaleItems leaseTimeoutSeconds now
  | .complete outboxUuid => outbox' = outbox.completeItem outboxUuid now

/-- A call at a time that is not before the last one. -/
def OutboxStep (s : OutboxState F) (call : Timestamp × OutboxCall F) (t : OutboxState F) : Prop :=
  s.clock ≤ call.1 ∧ t.clock = call.1 ∧ call.2.Does U N s.outbox call.1 t.outbox

/-- An item that is open carries what was requested. -/
def Outbox.Carries (outbox : Outbox F) (request : EnqueueRequest F) : Prop :=
  ∃ row ∈ outbox.table.rows, row.source = request.source ∧
    row.status ∈ [.pending, .retry, .running] ∧
    Outbox.payloadJson U N request.payload = .ok row.payloadJsonb

/-- An event that was enqueued is carried by an open item. -/
def KeepsEvent (s : OutboxState F) (call : Timestamp × OutboxCall F) (t : OutboxState F) : Prop :=
  ∀ request outboxUuid, call.2 = .enqueue request outboxUuid →
    (∃ result, s.outbox.enqueue U N request outboxUuid call.1 = .ok result) →
      t.outbox.Carries U N request

/-- An item of the event's source is open and carries what is requested. -/
def Unabsorbed (s : OutboxState F) (call : Timestamp × OutboxCall F) : Prop :=
  ∀ request outboxUuid, call.2 = .enqueue request outboxUuid →
    ∀ payloadJsonb, Outbox.payloadJson U N request.payload = .ok payloadJsonb →
      ∀ row, s.outbox.ofSource request.source = some row →
        row.status ∈ [.pending, .retry, .running] ∧ row.payloadJsonb = payloadJsonb

/-- Two claims of an item are further apart than any lease that the recoveries between them
allow. -/
def LeasesExclude (calls : List (Timestamp × OutboxCall F)) : Prop :=
  ∀ before between after now now' workerId workerId' outboxUuid lease,
    calls = before ++ (now, .claimNext workerId (some outboxUuid)) ::
      (between ++ (now', .claimNext workerId' (some outboxUuid)) :: after) →
    (∀ time leaseTimeoutSeconds, (time, .recoverStale leaseTimeoutSeconds) ∈ between →
      lease ≤ leaseTimeoutSeconds) →
    now + lease * second < now'

end

section

variable {F : Type} {U : UnicodeData} {N : Floats F} {outbox outbox' : Outbox F}

/-! ### What is enqueued -/

/-- An item is the one of its source. -/
lemma Outbox.ofSource_eq_some {source : String × String × String} {row : OutboxRow F} :
    outbox.ofSource source = some row ↔ row ∈ outbox.table.rows ∧ row.source = source := by
  constructor
  · intro h
    exact ⟨List.mem_of_find?_eq_some h, by simpa using List.find?_some h⟩
  · rintro ⟨hmem, rfl⟩
    rcases hfound : outbox.ofSource row.source with _ | other
    · rw [Outbox.ofSource, List.find?_eq_none] at hfound
      exact absurd (decide_eq_true rfl) (hfound row hmem)
    · have hother : other.source = row.source := by simpa using List.find?_some hfound
      rw [List.inj_on_of_nodup_map outbox.nodup_source (List.mem_of_find?_eq_some hfound) hmem
        hother]

/-- A request returns the item of its source, or adds one. -/
lemma Outbox.enqueue_eq_ok {request : EnqueueRequest F} {outboxUuid : String} {now : Timestamp}
    {result : OutboxRow F × Outbox F} :
    outbox.enqueue U N request outboxUuid now = .ok result ↔
      ∃ payloadJsonb, payloadJson U N request.payload = .ok payloadJsonb ∧
        (outbox.ofSource request.source = some result.1 ∧ result.2 = outbox ∨
          ∃ hsource hname, result = (newRow request payloadJsonb outboxUuid now,
            outbox.insert (newRow request payloadJsonb outboxUuid now) hname hsource)) := by
  obtain ⟨row, outbox'⟩ := result
  rw [enqueue, Checks.bind_eq_ok]
  refine exists_congr fun payloadJsonb => and_congr_right fun _ => ?_
  dsimp only
  split
  case h_1 existing hsource =>
    have hsource' : outbox.ofSource request.source = some existing := hsource
    rw [Checks.pure_eq_ok, Prod.mk.injEq, hsource', Option.some_inj]
    refine ⟨fun h => .inl ⟨h.1, h.2.symm⟩, ?_⟩
    rintro (⟨rfl, rfl⟩ | ⟨hnone, -⟩)
    · exact ⟨rfl, rfl⟩
    · exact absurd (hsource.symm.trans hnone) (by simp)
  case h_2 hsource =>
    have hsource' : outbox.ofSource request.source = none := hsource
    split
    case h_1 existing hname =>
      refine ⟨fun h => (by cases h), ?_⟩
      rintro (⟨hsome, -⟩ | ⟨-, hnone, -⟩)
      · exact absurd (hsource'.symm.trans hsome) (by simp)
      · exact absurd (hname.symm.trans hnone) (by simp)
    case h_2 hname =>
      rw [Checks.pure_eq_ok]
      refine ⟨fun h => .inr ⟨hsource, hname, h.symm⟩, ?_⟩
      rintro (⟨hsome, -⟩ | ⟨_, _, heq⟩)
      · exact absurd (hsource'.symm.trans hsome) (by simp)
      · exact heq.symm

lemma Outbox.get?_updateWhere {p : OutboxRow F → Bool} {f : OutboxRow F → OutboxRow F}
    {hname : ∀ row, (f row).outboxUuid = row.outboxUuid} {hsource : ∀ row, (f row).source = row.source}
    {name : String} : (outbox.updateWhere p f hname hsource).table.get? name =
      (outbox.table.get? name).map fun row => if p row then f row else row :=
  @Table.get?_updateWhere _ _ _ _ outbox.table name p f hname

lemma Outbox.rows_insert {row : OutboxRow F} {hname : outbox.table.get? row.outboxUuid = none}
    {hsource : outbox.ofSource row.source = none} :
    (outbox.insert row hname hsource).table.rows = outbox.table.rows ++ [row] :=
  Table.rows_insert hname

/-- An event is kept exactly when no item of its source is in its way. -/
lemma keepsEvent_iff {s t : OutboxState F} {call : Timestamp × OutboxCall F}
    (hstep : OutboxStep U N s call t) : KeepsEvent U N s call t ↔ Unabsorbed U N s call := by
  obtain ⟨-, -, hdoes⟩ := hstep
  constructor
  · intro hkeeps request outboxUuid hcall payloadJsonb hpayload row hrow
    -- the item is returned, and it is the only one of its source
    have henqueue : s.outbox.enqueue U N request outboxUuid call.1 = .ok (row, s.outbox) :=
      Outbox.enqueue_eq_ok.mpr ⟨payloadJsonb, hpayload, .inl ⟨hrow, rfl⟩⟩
    obtain ⟨other, hother, hsource, hopen, hcarried⟩ := hkeeps request outboxUuid hcall ⟨_, henqueue⟩
    rw [hcall, OutboxCall.Does, henqueue] at hdoes
    dsimp only at hdoes
    rw [hdoes] at hother
    have hsame := (Outbox.ofSource_eq_some.mpr ⟨hother, hsource⟩).symm.trans hrow
    obtain rfl := Option.some_inj.mp hsame
    exact ⟨hopen, Except.ok.inj (hcarried.symm.trans hpayload)⟩
  · rintro hfree request outboxUuid hcall ⟨⟨row, result⟩, henqueue⟩
    rw [hcall, OutboxCall.Does, henqueue] at hdoes
    dsimp only at hdoes
    obtain ⟨payloadJsonb, hpayload, ⟨hrow, hsame⟩ | ⟨hsource, hname, hnew⟩⟩ :=
      Outbox.enqueue_eq_ok.mp henqueue
    · obtain ⟨hopen, hcarried⟩ := hfree request outboxUuid hcall payloadJsonb hpayload row hrow
      obtain ⟨hmem, hsource⟩ := Outbox.ofSource_eq_some.mp hrow
      refine ⟨row, ?_, hsource, hopen, hcarried ▸ hpayload⟩
      dsimp only at hsame
      rw [hdoes, hsame]
      exact hmem
    · refine ⟨Outbox.newRow request payloadJsonb outboxUuid call.1, ?_, rfl, by simp [Outbox.newRow],
        hpayload⟩
      rw [hdoes, (Prod.mk.inj hnew).2, Outbox.rows_insert]
      exact List.mem_append_right _ (List.mem_singleton_self _)

/-- A request that returns leaves its outbox. -/
lemma OutboxStep.outbox_eq {s t : OutboxState F} {now : Timestamp} {request : EnqueueRequest F}
    {outboxUuid : String} {result : OutboxRow F × Outbox F}
    (hstep : OutboxStep U N s (now, .enqueue request outboxUuid) t)
    (henqueue : s.outbox.enqueue U N request outboxUuid now = .ok result) :
    t.outbox = result.2 := by
  have hdoes := hstep.2.2
  rw [OutboxCall.Does, henqueue] at hdoes
  exact hdoes

/-- An event that is kept is carried by an open item. -/
lemma KeepsEvent.carries {s t : OutboxState F} {now : Timestamp} {request : EnqueueRequest F}
    {outboxUuid : String} {result : OutboxRow F × Outbox F}
    (hkeeps : KeepsEvent U N s (now, .enqueue request outboxUuid) t)
    (henqueue : s.outbox.enqueue U N request outboxUuid now = .ok result) :
    t.outbox.Carries U N request :=
  hkeeps request outboxUuid rfl ⟨result, henqueue⟩

/-! ### Leases -/

/-- An item runs under a lock of a time, it has succeeded, or its lease is over. -/
def HeldSince (outboxUuid : String) (now : Timestamp) (lease : ℕ) (s : OutboxState F) : Prop :=
  (∃ row, s.outbox.table.get? outboxUuid = some row ∧
    (row.status = .running ∧ row.lockedAt = some now ∨ row.status = .succeeded)) ∨
  now + lease * second < s.clock

/-- A call keeps a lease, unless it recovers with a shorter one. -/
lemma HeldSince.step {outboxUuid : String} {now : Timestamp} {lease : ℕ} {s t : OutboxState F}
    {call : Timestamp × OutboxCall F} (h : HeldSince outboxUuid now lease s)
    (hrecover : ∀ leaseTimeoutSeconds, call.2 = .recoverStale leaseTimeoutSeconds →
      lease ≤ leaseTimeoutSeconds)
    (hstep : OutboxStep U N s call t) : HeldSince outboxUuid now lease t := by
  obtain ⟨time, call⟩ := call
  obtain ⟨htime, hclock, hdoes⟩ := hstep
  dsimp only at htime hclock hdoes hrecover
  rcases h with ⟨row, hrow, hheld⟩ | hover
  case inr => exact .inr (hclock ▸ hover.trans_le htime)
  cases call with
  | enqueue request name =>
      rw [OutboxCall.Does] at hdoes
      refine .inl ⟨row, ?_, hheld⟩
      split at hdoes
      case h_1 result outbox' henqueue =>
        obtain ⟨_, -, ⟨-, hsame⟩ | ⟨hsource, hname, hnew⟩⟩ := Outbox.enqueue_eq_ok.mp henqueue
        · dsimp only at hsame
          rw [hdoes, hsame, hrow]
        · rw [hdoes, (Prod.mk.inj hnew).2]
          exact Table.get?_insert_of_some hrow _
      case h_2 => rw [hdoes, hrow]
  | claimNext workerId claimed =>
      rcases claimed with _ | name
      · rw [OutboxCall.Does] at hdoes
        exact .inl ⟨row, hdoes.2 ▸ hrow, hheld⟩
      · obtain ⟨⟨next, hname, hmem, hdue, -⟩, hclaim⟩ := hdoes
        -- an item that runs or has succeeded is not due
        have hne : row.outboxUuid ≠ name := by
          rintro rfl
          have hsame : next = row := s.outbox.table.eq_of_key_eq hmem
            (Table.get?_eq_some.mp hrow).1 hname
          subst hsame
          rcases hheld with ⟨hstatus, -⟩ | hstatus <;> simp [Outbox.isDue, hstatus] at hdue
        refine .inl ⟨row, ?_, hheld⟩
        rw [hclaim, Outbox.claimItem, Outbox.get?_updateWhere, hrow,
          Option.map_some, if_neg (by simpa using hne)]
  | recoverStale leaseTimeoutSeconds =>
      rw [OutboxCall.Does] at hdoes
      by_cases hstale : Outbox.isStaleItem (time - leaseTimeoutSeconds * second) row
      · -- only a lock older than the lease is recovered
        refine .inr ?_
        have hlease := hrecover leaseTimeoutSeconds rfl
        simp only [Outbox.isStaleItem, Bool.and_eq_true, decide_eq_true_eq] at hstale
        obtain ⟨hstatus, hlocked⟩ := hstale
        rcases hheld with ⟨-, hat⟩ | hdone
        · rw [hat, Option.any_some, decide_eq_true_eq] at hlocked
          calc now + lease * second
              ≤ now + leaseTimeoutSeconds * second :=
                Nat.add_le_add_left (Nat.mul_le_mul_right _ hlease) now
            _ < time := Nat.add_lt_of_lt_sub hlocked
            _ = t.clock := hclock.symm
        · rw [hdone] at hstatus
          exact absurd hstatus (by simp)
      · refine .inl ⟨row, ?_, hheld⟩
        rw [hdoes, Outbox.recoverStaleItems, Outbox.get?_updateWhere, hrow,
          Option.map_some, if_neg hstale]
  | complete name =>
      rw [OutboxCall.Does] at hdoes
      refine .inl ⟨if row.outboxUuid = name then Outbox.completedItem time row else row, ?_, ?_⟩
      · rw [hdoes, Outbox.completeItem, Outbox.get?_updateWhere, hrow,
          Option.map_some]
        simp only [decide_eq_true_eq]
      · split_ifs
        · exact .inr rfl
        · exact hheld

/-- Two claims of an item are further apart than a lease. -/
lemma claims_exclude {s t : OutboxState F} {calls : List (Timestamp × OutboxCall F)}
    (h : Runs (OutboxStep U N) s calls t) : LeasesExclude calls := by
  intro before between after now now' workerId workerId' outboxUuid lease hcalls hlease
  rw [hcalls] at h
  obtain ⟨s₁, -, h⟩ := h.exists_mid
  obtain ⟨s₂, ⟨-, hclock, ⟨row, hname, hmem, -⟩, hclaimed⟩, h⟩ := h.of_cons
  obtain ⟨s₃, hbetween, h⟩ := h.exists_mid
  obtain ⟨s₄, ⟨hafter, -, ⟨next, hname', hmem', hdue, -⟩, -⟩, -⟩ := h.of_cons
  -- the first claim locks the item at its time
  have hheld : HeldSince outboxUuid now lease s₂ := by
    refine .inl ⟨Outbox.claimedItem workerId now row, ?_, .inl ⟨rfl, rfl⟩⟩
    have hrow : s₁.outbox.table.get? outboxUuid = some row :=
      Table.get?_eq_some.mpr ⟨hmem, hname⟩
    rw [hclaimed, Outbox.claimItem, Outbox.get?_updateWhere, hrow,
      Option.map_some, if_pos (by simpa using hname)]
  have hheld' : HeldSince outboxUuid now lease s₃ := by
    refine hbetween.invariant_of_mem (I := HeldSince outboxUuid now lease) ?_ hheld
    intro a call b hcall hinv hstep
    refine hinv.step (fun leaseTimeoutSeconds heq => ?_) hstep
    exact hlease call.1 leaseTimeoutSeconds (heq ▸ hcall)
  rcases hheld' with ⟨held, hget, hstatus⟩ | hover
  · -- the second claim finds the item due
    have hsame := (Table.get?_eq_some.mpr ⟨hmem', hname'⟩).symm.trans hget
    obtain rfl := Option.some_inj.mp hsame
    rcases hstatus with ⟨hrunning, -⟩ | hdone
    · simp [Outbox.isDue, hrunning] at hdue
    · simp [Outbox.isDue, hdone] at hdue
  · exact hover.trans_le hafter

/-- Events are kept in a run exactly when none of them meets an item of its source that is finished
or carries something else; and in every run, workers exclude each other for the time of a lease. -/
theorem outbox_keeps_events_iff (U : UnicodeData) (N : Floats F) (s t : OutboxState F)
    (calls : List (Timestamp × OutboxCall F)) :
    (Runs (fun a call b => OutboxStep U N a call b ∧ KeepsEvent U N a call b) s calls t ↔
      Runs (fun a call b => OutboxStep U N a call b ∧ Unabsorbed U N a call) s calls t) ∧
    (Runs (OutboxStep U N) s calls t → LeasesExclude calls) := by
  refine ⟨⟨fun h => h.imp ?_, fun h => h.imp ?_⟩, claims_exclude⟩
  · exact fun hstep => ⟨hstep.1, (keepsEvent_iff hstep.1).mp hstep.2⟩
  · exact fun hstep => ⟨hstep.1, (keepsEvent_iff hstep.1).mpr hstep.2⟩

end

/-! ### An event that is absorbed -/

lemma isFloatLiteral_none : ∀ _ : Unit, false → isFloatLiteral [] :=
  fun _ h => absurd h Bool.false_ne_true

lemma ofLiteral_none : ∀ x : Unit, false → () = x := fun _ h => absurd h Bool.false_ne_true

/-- Numbers without a point or an exponent only. -/
def integersOnly : Floats Unit where
  finite := fun _ => false
  repr := fun _ => []
  ofLiteral := fun _ => ()
  isFloatLiteral_repr := isFloatLiteral_none
  ofLiteral_repr := ofLiteral_none

/-- The payload that names a version. -/
def versionPayload (version : String) : Json Unit :=
  .obj [("memory_version_uuid".toList, .str version.toList)]

/-- A version of a memory is to be projected. -/
def memoryUpserted (version : String) : EnqueueRequest Unit where
  eventType := "memory_upserted"
  sourceType := "memory"
  sourceUuid := "m"
  payload := versionPayload version

/-- The payload is stored as it is. -/
lemma payloadJson_versionPayload (version : String) :
    Outbox.payloadJson basicLatin integersOnly (versionPayload version) =
      .ok (versionPayload version) := by
  have hwell : Json.WellFormed integersOnly (versionPayload version) := by
    refine .obj (by simp [Json.distinctNames]) fun m hm => ?_
    obtain rfl := List.mem_singleton.mp hm
    exact .str _
  have hdump : dumpJson basicLatin integersOnly (versionPayload version) =
      .ok ((sortKeys (versionPayload version)).print integersOnly) := by
    refine dumpJson_eq_ok.mpr ⟨validJson_obj.mpr fun m hm => ?_, rfl⟩
    obtain rfl := List.mem_singleton.mp hm
    exact ⟨fun _ => rfl, rfl⟩
  rw [Outbox.payloadJson, hdump, Checks.ok_bind, loadIjson_dumpJson hwell hdump]
  rfl

/-- The outbox with the first event. -/
def upsertedOnce : Outbox Unit :=
  Outbox.empty.insert (Outbox.newRow (memoryUpserted "v1") (versionPayload "v1") "o1" 1) rfl rfl

lemma rows_upsertedOnce : upsertedOnce.table.rows =
    [Outbox.newRow (memoryUpserted "v1") (versionPayload "v1") "o1" 1] := rfl

lemma versionPayload_ne : versionPayload "v2" ≠ versionPayload "v1" := by
  simp [versionPayload]

lemma enqueue_first : Outbox.empty.enqueue basicLatin integersOnly (memoryUpserted "v1") "o1" 1 =
    .ok (Outbox.newRow (memoryUpserted "v1") (versionPayload "v1") "o1" 1, upsertedOnce) :=
  Outbox.enqueue_eq_ok.mpr ⟨_, payloadJson_versionPayload "v1", .inr ⟨rfl, rfl, rfl⟩⟩

lemma enqueue_second : upsertedOnce.enqueue basicLatin integersOnly (memoryUpserted "v2") "o2" 2 =
    .ok (Outbox.newRow (memoryUpserted "v1") (versionPayload "v1") "o1" 1, upsertedOnce) :=
  Outbox.enqueue_eq_ok.mpr ⟨_, payloadJson_versionPayload "v2",
    .inl ⟨Outbox.ofSource_eq_some.mpr ⟨List.mem_singleton_self _, rfl⟩, rfl⟩⟩

/-- The second event of a memory is absorbed by the first, which carries another version. -/
theorem second_event_absorbed : ¬ ∀ calls t,
    Runs (OutboxStep basicLatin integersOnly) ⟨.empty, 0⟩ calls t →
      Runs (fun a call b => OutboxStep basicLatin integersOnly a call b ∧
        KeepsEvent basicLatin integersOnly a call b) ⟨.empty, 0⟩ calls t ∧ LeasesExclude calls := by
  intro h
  have hfirst : OutboxStep basicLatin integersOnly ⟨.empty, 0⟩
      (1, .enqueue (memoryUpserted "v1") "o1") ⟨upsertedOnce, 1⟩ := by
    refine ⟨Nat.zero_le _, rfl, ?_⟩
    rw [OutboxCall.Does, enqueue_first]
  have hsecond : OutboxStep basicLatin integersOnly ⟨upsertedOnce, 1⟩
      (2, .enqueue (memoryUpserted "v2") "o2") ⟨upsertedOnce, 2⟩ := by
    refine ⟨Nat.le_succ _, rfl, ?_⟩
    rw [OutboxCall.Does, enqueue_second]
  obtain ⟨hkept, -⟩ := h [_, _] _ ((Runs.refl.tail hfirst).tail hsecond)
  obtain ⟨a, hfirst', hrest⟩ := hkept.of_cons
  obtain ⟨b, hsecond', -⟩ := hrest.of_cons
  have ha : a.outbox = upsertedOnce := hfirst'.1.outbox_eq enqueue_first
  have henqueue : a.outbox.enqueue basicLatin integersOnly (memoryUpserted "v2") "o2" 2 =
      .ok (Outbox.newRow (memoryUpserted "v1") (versionPayload "v1") "o1" 1, upsertedOnce) := by
    rw [ha]
    exact enqueue_second
  have hb : b.outbox = upsertedOnce := hsecond'.1.outbox_eq henqueue
  obtain ⟨row, hrow, -, -, hcarried⟩ := hsecond'.2.carries henqueue
  -- the only item carries the first version
  rw [hb, rows_upsertedOnce, List.mem_singleton] at hrow
  rw [hrow] at hcarried
  exact versionPayload_ne (Except.ok.inj ((payloadJson_versionPayload "v2").symm.trans hcarried))

end Memorist
