import Mathlib.Tactic

/-!
The SQLite connection with its opt-in outer transaction (`storage/sqlite.py`).

* `Connection`: the two fields of `NestedTransactionConnection`, the transaction that is open and
  those that have ended;
* `Code`, `run`: well-bracketed programs of `with connection` blocks, `atomic()` blocks and composed
  writes, in which anything may raise and be caught;
* `Code.raises`, `Code.writes`, `Code.breaks`, `run_inside`: inside a transaction no block ends it;
* `Code.Careful`: no composed write commits after a block inside it has ended with an exception;
* `nested_all_or_nothing`: when the transactions of a program are all or nothing.
-/

namespace Memorist

variable {W : Type}

/-! ### The connection -/

/-- A transaction: its writes, and whether a block has ended with an exception since it began. -/
structure Transaction (W : Type) where
  writes : List W := []
  broken : Bool := false
  deriving DecidableEq

/-- `NestedTransactionConnection`: its depth and its mark, the transaction that is open, and the
transactions that have ended, each with whether it was committed. -/
structure Connection (W : Type) where
  atomicDepth : ℕ := 0
  rollbackOnly : Bool := false
  current : Option (Transaction W) := none
  ended : List (Transaction W × Bool) := []
  deriving DecidableEq

/-- How a statement or a block ended: whether it raised, and the connection it leaves. -/
structure Ran (W : Type) where
  raised : Bool
  connection : Connection W
  deriving DecidableEq

namespace Connection

/-- The writes of the store. -/
def committed (connection : Connection W) : List W :=
  (connection.ended.filter Prod.snd).flatMap fun transaction => transaction.1.writes

/-- A writing statement, which begins a transaction when none is open. -/
def execute (connection : Connection W) (written : List W) : Connection W :=
  let current := connection.current.getD {}
  { connection with current := some { current with writes := current.writes ++ written } }

/-- `BEGIN`, refused inside a transaction and when the store is locked. -/
def begin? (connection : Connection W) (begins : Bool) : Option (Connection W) :=
  if connection.current.isNone && begins then some { connection with current := some {} } else none

/-- `COMMIT` of the open transaction, unless the store refuses it. -/
def commit? (connection : Connection W) (commits : Bool) : Option (Connection W) :=
  match connection.current with
  | none => some connection
  | some transaction =>
      if commits then
        some { connection with
          current := none
          ended := connection.ended ++ [(transaction, true)] }
      else none

/-- `ROLLBACK` of the open transaction. -/
def rollback (connection : Connection W) : Connection W :=
  match connection.current with
  | none => connection
  | some transaction =>
      { connection with
        current := none
        ended := connection.ended ++ [(transaction, false)] }

/-- A block is ending with an exception. -/
def broke (connection : Connection W) : Connection W :=
  { connection with
    current := connection.current.map fun transaction => { transaction with broken := true } }

/-- `__exit__` of a `with connection` block. -/
def exit (connection : Connection W) (raised commits : Bool) : Ran W :=
  if 0 < connection.atomicDepth then
    if raised then ⟨true, { connection.broke with rollbackOnly := true }⟩ else ⟨false, connection⟩
  else if raised then ⟨true, connection.broke.rollback⟩
  else
    match connection.commit? commits with
    | some committed => ⟨false, committed⟩
    | none => ⟨true, connection.broke.rollback⟩

/-- `begin_composed_write`. -/
def beginComposedWrite (connection : Connection W) (begins : Bool) : Option (Connection W) :=
  if connection.atomicDepth ≠ 0 then none
  else (connection.begin? begins).map fun begun =>
    { begun with atomicDepth := 1, rollbackOnly := false }

/-- `commit_composed_write`. -/
def commitComposedWrite (connection : Connection W) (commits : Bool) : Ran W :=
  if connection.atomicDepth ≠ 1 then ⟨true, connection.broke⟩
  else
    let outside := { connection with atomicDepth := 0 }
    match outside.commit? commits with
    | some committed => ⟨false, committed⟩
    | none => ⟨true, outside.broke⟩

/-- `rollback_composed_write`, with which a composed write ends that raises. -/
def rollbackComposedWrite (connection : Connection W) : Connection W :=
  if connection.atomicDepth ≠ 1 then connection
  else { connection with atomicDepth := 0, rollbackOnly := false }.rollback

/-- The end of an `atomic()` block inside another. -/
def exitInner (connection : Connection W) (raised : Bool) : Ran W :=
  let inner := if raised then { connection.broke with rollbackOnly := true } else connection
  ⟨raised, { inner with atomicDepth := inner.atomicDepth - 1 }⟩

/-- The end of the outermost `atomic()` block: a transaction marked rollback-only is rolled back
and the block raises. -/
def exitOuter (connection : Connection W) (raised commits : Bool) : Ran W :=
  let ran : Ran W :=
    if raised then ⟨true, connection.broke.rollback⟩
    else if connection.rollbackOnly then ⟨true, connection.broke.rollback⟩
    else
      match connection.commit? commits with
      | some committed => ⟨false, committed⟩
      | none => ⟨true, connection.broke.rollback⟩
  ⟨ran.raised, { ran.connection with atomicDepth := 0, rollbackOnly := false }⟩

end Connection

/-! ### Programs -/

/-- The three kinds of blocks. -/
inductive TransactionKind where
  | withConnection
  | atomic
  | composedWrite
  deriving DecidableEq

/-- A well-bracketed program, with the exceptions of one run of it: a statement raises or writes,
a block may find the store locked when it begins and when it commits. -/
inductive Code (W : Type) where
  | skip
  | write (written : W)
  | raise
  | failedWrite
  | seq (first second : Code W)
  | tryExcept (body handler : Code W)
  | block (kind : TransactionKind) (begins commits : Bool) (body : Code W)
  deriving DecidableEq

/-- A run of a program on a connection. -/
def run : Code W → Connection W → Ran W
  | .skip, connection => ⟨false, connection⟩
  | .write written, connection => ⟨false, connection.execute [written]⟩
  | .raise, connection => ⟨true, connection⟩
  | .failedWrite, connection => ⟨true, connection.execute []⟩
  | .seq first second, connection =>
      let ran := run first connection
      if ran.raised then ran else run second ran.connection
  | .tryExcept body handler, connection =>
      let ran := run body connection
      if ran.raised then run handler ran.connection else ran
  | .block .withConnection _ commits body, connection =>
      let ran := run body connection
      ran.connection.exit ran.raised commits
  | .block .atomic begins commits body, connection =>
      if 0 < connection.atomicDepth then
        let ran := run body { connection with atomicDepth := connection.atomicDepth + 1 }
        ran.connection.exitInner ran.raised
      else
        match connection.begin? begins with
        | none => ⟨true, connection⟩
        | some begun =>
            let ran := run body { begun with atomicDepth := 1, rollbackOnly := false }
            ran.connection.exitOuter ran.raised commits
  | .block .composedWrite begins commits body, connection =>
      match connection.beginComposedWrite begins with
      | none => ⟨true, connection⟩
      | some begun =>
          let ran := run body begun
          if ran.raised then ⟨true, ran.connection.broke.rollbackComposedWrite⟩
          else ran.connection.commitComposedWrite commits

namespace Code

/-- Whether a program raises inside a transaction, where a composed write cannot begin. -/
def raises : Code W → Bool
  | .skip | .write _ => false
  | .raise | .failedWrite => true
  | .seq first second => first.raises || second.raises
  | .tryExcept body handler => body.raises && handler.raises
  | .block .composedWrite _ _ _ => true
  | .block _ _ _ body => body.raises

/-- What a program writes inside a transaction. -/
def writes : Code W → List W
  | .skip | .raise | .failedWrite => []
  | .write written => [written]
  | .seq first second => first.writes ++ if first.raises then [] else second.writes
  | .tryExcept body handler => body.writes ++ if body.raises then handler.writes else []
  | .block .composedWrite _ _ _ => []
  | .block _ _ _ body => body.writes

/-- Whether a block of a program ends with an exception inside a transaction. -/
def breaks : Code W → Bool
  | .skip | .write _ | .raise | .failedWrite => false
  | .seq first second => first.breaks || (!first.raises && second.breaks)
  | .tryExcept body handler => body.breaks || (body.raises && handler.breaks)
  | .block .composedWrite _ _ _ => false
  | .block _ _ _ body => body.breaks || body.raises

end Code

/-! ### Inside a transaction -/

/-- The open transaction after a program has run inside it. -/
def Transaction.after (transaction : Transaction W) (code : Code W) : Transaction W :=
  ⟨transaction.writes ++ code.writes, transaction.broken || code.breaks⟩

/-- Inside a transaction no block ends it, and a block that ends with an exception marks it. -/
lemma run_inside (code : Code W) {connection : Connection W} {transaction : Transaction W}
    (hdepth : 0 < connection.atomicDepth) (hcurrent : connection.current = some transaction) :
    run code connection =
      ⟨code.raises, { connection with
        rollbackOnly := connection.rollbackOnly || code.breaks
        current := some (transaction.after code) }⟩ := by
  induction code generalizing connection transaction with
  | skip => simp [run, Code.raises, Code.breaks, Code.writes, Transaction.after, ← hcurrent]
  | write written =>
      simp [run, Code.raises, Code.breaks, Code.writes, Transaction.after, Connection.execute,
        hcurrent]
  | raise => simp [run, Code.raises, Code.breaks, Code.writes, Transaction.after, ← hcurrent]
  | failedWrite =>
      simp [run, Code.raises, Code.breaks, Code.writes, Transaction.after, Connection.execute,
        hcurrent]
  | seq first second ihFirst ihSecond =>
      rw [run, ihFirst hdepth hcurrent]
      cases hraises : first.raises with
      | true =>
          simp [Code.raises, Code.breaks, Code.writes, Transaction.after, hraises]
      | false =>
          simp only [Bool.false_eq_true, if_false]
          rw [ihSecond (by exact hdepth) rfl]
          simp [Code.raises, Code.breaks, Code.writes, Transaction.after, hraises,
            Bool.or_assoc]
  | tryExcept body handler ihBody ihHandler =>
      rw [run, ihBody hdepth hcurrent]
      cases hraises : body.raises with
      | false =>
          simp [Code.raises, Code.breaks, Code.writes, Transaction.after, hraises]
      | true =>
          simp only [if_true]
          rw [ihHandler (by exact hdepth) rfl]
          simp [Code.raises, Code.breaks, Code.writes, Transaction.after, hraises,
            Bool.or_assoc]
  | block kind begins commits body ih =>
      cases kind with
      | withConnection =>
          rw [run, ih hdepth hcurrent]
          cases hraises : body.raises <;>
            simp [Connection.exit, Connection.broke, Code.raises, Code.breaks, Code.writes,
              Transaction.after, hraises, hdepth]
      | atomic =>
          have hbody := @ih { connection with atomicDepth := connection.atomicDepth + 1 }
            transaction (Nat.succ_pos _) hcurrent
          simp only [run, if_pos hdepth, hbody]
          cases hraises : body.raises <;>
            simp [Connection.exitInner, Connection.broke, Code.raises, Code.breaks, Code.writes,
              Transaction.after, hraises]
      | composedWrite =>
          have hbegin : connection.beginComposedWrite begins = none := by
            rw [Connection.beginComposedWrite, if_pos hdepth.ne']
          simp [run, hbegin, Code.raises, Code.breaks, Code.writes, Transaction.after,
            ← hcurrent]

/-- A connection whose outer transaction has just begun. -/
def Connection.begun (connection : Connection W) : Connection W :=
  { connection with
    atomicDepth := 1
    rollbackOnly := false
    current := some {} }

/-- A connection in whose outer transaction a program has run. -/
def Connection.ranInside (connection : Connection W) (code : Code W) : Connection W :=
  { connection with
    atomicDepth := 1
    rollbackOnly := code.breaks
    current := some ⟨code.writes, code.breaks⟩ }

lemma run_begun (code : Code W) (connection : Connection W) :
    run code connection.begun = ⟨code.raises, connection.ranInside code⟩ := by
  rw [@run_inside _ code connection.begun {} Nat.one_pos rfl]
  simp [Connection.begun, Connection.ranInside, Transaction.after]

/-- Outside a transaction `BEGIN` succeeds unless the store is locked. -/
lemma Connection.begin?_eq_some {connection begun : Connection W} {begins : Bool} :
    connection.begin? begins = some begun ↔
      connection.current = none ∧ begins = true ∧
        { connection with current := some {} } = begun := by
  rw [Connection.begin?]
  split_ifs with hopen <;> simp_all

/-- The outermost `atomic()` block, when its transaction begins. -/
lemma run_atomic {connection : Connection W} (hdepth : connection.atomicDepth = 0)
    (hopen : connection.current = none) (commits : Bool) (body : Code W) :
    run (.block .atomic true commits body) connection =
      (connection.ranInside body).exitOuter body.raises commits := by
  have hbegin : connection.begin? true = some { connection with current := some {} } :=
    Connection.begin?_eq_some.mpr ⟨hopen, rfl, rfl⟩
  have hbody := run_begun body connection
  rw [Connection.begun] at hbody
  simp only [run, hdepth, lt_irrefl, if_false, hbegin, hbody]

/-- A composed write, when its transaction begins. -/
lemma run_composedWrite {connection : Connection W} (hdepth : connection.atomicDepth = 0)
    (hopen : connection.current = none) (commits : Bool) (body : Code W) :
    run (.block .composedWrite true commits body) connection =
      if body.raises then ⟨true, (connection.ranInside body).broke.rollbackComposedWrite⟩
      else (connection.ranInside body).commitComposedWrite commits := by
  have hbegin : connection.beginComposedWrite true = some connection.begun := by
    rw [Connection.beginComposedWrite, if_neg (by simp [hdepth]),
      Connection.begin?_eq_some.mpr ⟨hopen, rfl, rfl⟩]
    rfl
  simp only [run, hbegin, run_begun]

/-- A block that finds a transaction open or the store locked raises at its beginning. -/
lemma run_refused {connection : Connection W} {kind : TransactionKind} {begins : Bool}
    (hkind : kind ≠ .withConnection) (hdepth : connection.atomicDepth = 0)
    (hrefused : ¬ (connection.current = none ∧ begins = true)) (commits : Bool) (body : Code W) :
    run (.block kind begins commits body) connection = ⟨true, connection⟩ := by
  have hbegin : connection.begin? begins = none := by
    rw [Option.eq_none_iff_forall_not_mem]
    intro begun hbegun
    obtain ⟨hopen, hbegins, -⟩ := Connection.begin?_eq_some.mp hbegun
    exact hrefused ⟨hopen, hbegins⟩
  cases kind with
  | withConnection => exact absurd rfl hkind
  | atomic => simp only [run, hdepth, lt_irrefl, if_false, hbegin]
  | composedWrite =>
      have hrefuses : connection.beginComposedWrite begins = none := by
        rw [Connection.beginComposedWrite, if_neg (by simp [hdepth]), hbegin]
        rfl
      simp only [run, hrefuses]

/-! ### Outside a transaction -/

/-- What holds of the connection between the outermost blocks: it is in its initial state, apart
from a transaction that a bare statement has begun. -/
structure Connection.Outside (connection : Connection W) : Prop where
  depth : connection.atomicDepth = 0
  unmarked : connection.rollbackOnly = false
  unbroken : ∀ transaction ∈ connection.current, transaction.broken = false

/-- A connection in its initial state, with no transaction open. -/
structure Connection.Initial (connection : Connection W) : Prop where
  depth : connection.atomicDepth = 0
  unmarked : connection.rollbackOnly = false
  closed : connection.current = none

/-- The transactions of a connection are all or nothing: one is committed when no block ended with
an exception since it began, and no other is. -/
def Connection.AllOrNothing (connection : Connection W) : Prop :=
  ∀ transaction ∈ connection.ended, transaction.2 = !transaction.1.broken

/-- The writes of the transactions in which no block ended with an exception. -/
def Connection.unbrokenWrites (connection : Connection W) : List W :=
  (connection.ended.filter fun transaction => !transaction.1.broken).flatMap
    fun transaction => transaction.1.writes

lemma Connection.AllOrNothing.committed_eq {connection : Connection W}
    (settled : connection.AllOrNothing) : connection.committed = connection.unbrokenWrites := by
  rw [committed, unbrokenWrites]
  congr 1
  exact List.filter_congr settled

lemma Connection.Initial.outside {connection : Connection W} (initial : connection.Initial) :
    connection.Outside :=
  ⟨initial.depth, initial.unmarked, by simp [initial.closed]⟩

/-- No composed write of a run ends normally with a block inside it that ended with an exception,
or with a `COMMIT` that raises. -/
def Code.Careful : Code W → Connection W → Prop
  | .skip, _ | .write _, _ | .raise, _ | .failedWrite, _ => True
  | .seq first second, connection =>
      Code.Careful first connection ∧
        ((run first connection).raised = false → Code.Careful second (run first connection).connection)
  | .tryExcept body handler, connection =>
      Code.Careful body connection ∧
        ((run body connection).raised = true → Code.Careful handler (run body connection).connection)
  | .block .withConnection _ _ body, connection => Code.Careful body connection
  | .block .atomic _ _ _, _ => True
  | .block .composedWrite begins commits body, connection =>
      connection.current = none → begins = true →
        body.raises = true ∨ (body.breaks = false ∧ commits = true)

namespace Connection

variable {connection committed : Connection W} {commits : Bool}

@[simp] lemma current_broke_rollback : connection.broke.rollback.current = none := by
  cases hcurrent : connection.current <;> simp [broke, rollback, hcurrent]

@[simp] lemma depth_broke_rollback :
    connection.broke.rollback.atomicDepth = connection.atomicDepth := by
  cases hcurrent : connection.current <;> simp [broke, rollback, hcurrent]

@[simp] lemma rollbackOnly_broke_rollback :
    connection.broke.rollback.rollbackOnly = connection.rollbackOnly := by
  cases hcurrent : connection.current <;> simp [broke, rollback, hcurrent]

/-- A transaction that a failing block rolls back is broken. -/
lemma AllOrNothing.rolledBack (settled : connection.AllOrNothing) :
    connection.broke.rollback.AllOrNothing := by
  intro ended hended
  cases hcurrent : connection.current with
  | none => exact settled ended (by simpa [broke, rollback, hcurrent] using hended)
  | some transaction =>
      simp only [broke, rollback, hcurrent, Option.map_some, List.mem_append,
        List.mem_singleton] at hended
      rcases hended with hended | rfl
      · exact settled ended hended
      · rfl

/-- What a `COMMIT` leaves. -/
lemma commit?_eq_some (hcommit : connection.commit? commits = some committed) :
    committed.current = none ∧ committed.atomicDepth = connection.atomicDepth ∧
      committed.rollbackOnly = connection.rollbackOnly ∧
      committed.ended = connection.ended ++ connection.current.toList.map (·, true) := by
  rw [commit?] at hcommit
  cases hcurrent : connection.current with
  | none =>
      rw [hcurrent] at hcommit
      cases hcommit
      simp [hcurrent]
  | some transaction =>
      rw [hcurrent] at hcommit
      cases commits with
      | false => cases hcommit
      | true =>
          cases hcommit
          simp

/-- A transaction that is committed unbroken. -/
lemma AllOrNothing.afterCommit (settled : connection.AllOrNothing)
    (unbroken : ∀ transaction ∈ connection.current, transaction.broken = false)
    (hcommit : connection.commit? commits = some committed) : committed.AllOrNothing := by
  intro ended hended
  rw [(commit?_eq_some hcommit).2.2.2, List.mem_append, List.mem_map] at hended
  rcases hended with hended | ⟨transaction, hcurrent, rfl⟩
  · exact settled ended hended
  · rw [unbroken transaction (Option.mem_toList.mp hcurrent)]
    rfl

/-- The end of a `with connection` block outside `atomic()`. -/
lemma Outside.exit (outside : connection.Outside) (settled : connection.AllOrNothing)
    (raised commits : Bool) :
    (connection.exit raised commits).connection.Initial ∧
      (connection.exit raised commits).connection.AllOrNothing := by
  rw [Connection.exit, if_neg (by simp [outside.depth])]
  cases raised with
  | true =>
      exact ⟨⟨by simp [outside.depth], by simp [outside.unmarked], by simp⟩, settled.rolledBack⟩
  | false =>
      simp only [Bool.false_eq_true, if_false]
      split
      · next committed hcommit =>
          obtain ⟨hclosed, hdepth, hmark, -⟩ := commit?_eq_some hcommit
          exact ⟨⟨by rw [hdepth, outside.depth], by rw [hmark, outside.unmarked], hclosed⟩,
            settled.afterCommit outside.unbroken hcommit⟩
      · exact ⟨⟨by simp [outside.depth], by simp [outside.unmarked], by simp⟩,
          settled.rolledBack⟩

/-- The end of the outermost `atomic()` block. -/
lemma exitOuter_initial (settled : connection.AllOrNothing)
    (unbroken : connection.rollbackOnly = false →
      ∀ transaction ∈ connection.current, transaction.broken = false) (raised commits : Bool) :
    (connection.exitOuter raised commits).connection.Initial ∧
      (connection.exitOuter raised commits).connection.AllOrNothing := by
  rw [exitOuter]
  cases raised with
  | true => exact ⟨⟨rfl, rfl, by simp⟩, settled.rolledBack⟩
  | false =>
      simp only [Bool.false_eq_true, if_false]
      split_ifs with hmark
      · exact ⟨⟨rfl, rfl, by simp⟩, settled.rolledBack⟩
      · split
        · next committed hcommit =>
            have hsettled : committed.AllOrNothing :=
              settled.afterCommit (unbroken (Bool.eq_false_of_not_eq_true hmark)) hcommit
            exact ⟨⟨rfl, rfl, (commit?_eq_some hcommit).1⟩, hsettled⟩
        · exact ⟨⟨rfl, rfl, by simp⟩, settled.rolledBack⟩

/-- The end of a composed write whose body raises. -/
lemma rollbackComposedWrite_initial (hdepth : connection.atomicDepth = 1)
    (settled : connection.AllOrNothing) :
    connection.broke.rollbackComposedWrite.Initial ∧
      connection.broke.rollbackComposedWrite.AllOrNothing := by
  have hbroke : connection.broke.atomicDepth = 1 := hdepth
  rw [rollbackComposedWrite, if_neg (by simp [hbroke])]
  change Initial ({ connection with atomicDepth := 0, rollbackOnly := false } :
      Connection W).broke.rollback ∧ AllOrNothing ({ connection with
        atomicDepth := 0, rollbackOnly := false } : Connection W).broke.rollback
  exact ⟨⟨depth_broke_rollback, rollbackOnly_broke_rollback, current_broke_rollback⟩,
    @AllOrNothing.rolledBack _ { connection with
      atomicDepth := 0, rollbackOnly := false } settled⟩

end Connection

/-- An `atomic()` block or a composed write whose transaction begins. -/
lemma Code.Careful.begun {kind : TransactionKind} {begins commits : Bool} {body : Code W}
    {connection : Connection W} (careful : Code.Careful (.block kind begins commits body) connection)
    (hkind : kind ≠ .withConnection) (hdepth : connection.atomicDepth = 0)
    (hbegin : connection.current = none ∧ begins = true) (settled : connection.AllOrNothing) :
    (run (.block kind begins commits body) connection).connection.Initial ∧
      (run (.block kind begins commits body) connection).connection.AllOrNothing := by
  obtain ⟨hopen, rfl⟩ := hbegin
  cases kind with
  | withConnection => exact absurd rfl hkind
  | atomic =>
      rw [run_atomic hdepth hopen]
      refine @Connection.exitOuter_initial _ (connection.ranInside body) settled ?_ _ _
      intro hmark transaction hcurrent
      cases hcurrent
      exact hmark
  | composedWrite =>
      rw [run_composedWrite hdepth hopen]
      cases hraises : body.raises with
      | true =>
          exact @Connection.rollbackComposedWrite_initial _ (connection.ranInside body) rfl settled
      | false =>
          obtain hraised | ⟨hbreaks, rfl⟩ := careful hopen rfl
          · rw [hraises] at hraised
            cases hraised
          · refine ⟨⟨rfl, hbreaks, rfl⟩, ?_⟩
            intro ended hended
            rcases List.mem_append.mp hended with hended | hended
            · exact settled ended hended
            · rw [List.mem_singleton.mp hended]
              simp [hbreaks]

/-- A program that runs between the outermost blocks leaves them as they were, when it is careful. -/
lemma Code.Careful.outside {code : Code W} {connection : Connection W} (careful : Code.Careful code connection)
    (outside : connection.Outside) (settled : connection.AllOrNothing) :
    (run code connection).connection.Outside ∧ (run code connection).connection.AllOrNothing := by
  induction code generalizing connection with
  | skip | raise => exact ⟨outside, settled⟩
  | write written =>
      refine ⟨⟨outside.depth, outside.unmarked, ?_⟩, settled⟩
      intro transaction hcurrent
      cases hcurrent
      cases hopen : connection.current with
      | none => rfl
      | some transaction => exact outside.unbroken transaction hopen
  | failedWrite =>
      refine ⟨⟨outside.depth, outside.unmarked, ?_⟩, settled⟩
      intro transaction hcurrent
      cases hcurrent
      cases hopen : connection.current with
      | none => rfl
      | some transaction => exact outside.unbroken transaction hopen
  | seq first second ihFirst ihSecond =>
      obtain ⟨houtside, hsettled⟩ := ihFirst careful.1 outside settled
      rw [run]
      cases hraised : (run first connection).raised with
      | true => simpa [hraised] using ⟨houtside, hsettled⟩
      | false => simpa [hraised] using ihSecond (careful.2 hraised) houtside hsettled
  | tryExcept body handler ihBody ihHandler =>
      obtain ⟨houtside, hsettled⟩ := ihBody careful.1 outside settled
      rw [run]
      cases hraised : (run body connection).raised with
      | false => simpa [hraised] using ⟨houtside, hsettled⟩
      | true => simpa [hraised] using ihHandler (careful.2 hraised) houtside hsettled
  | block kind begins commits body ih =>
      by_cases hkind : kind = .withConnection
      · subst hkind
        obtain ⟨houtside, hsettled⟩ := ih careful outside settled
        obtain ⟨hinitial, hended⟩ := houtside.exit hsettled (run body connection).raised commits
        exact ⟨hinitial.outside, hended⟩
      by_cases hbegin : connection.current = none ∧ begins = true
      · obtain ⟨hinitial, hended⟩ := careful.begun hkind outside.depth hbegin settled
        exact ⟨hinitial.outside, hended⟩
      · rw [run_refused hkind outside.depth hbegin]
        exact ⟨outside, settled⟩

/-! ### What has ended stays -/

namespace Connection

variable {connection committed : Connection W} {commits : Bool}

lemma ended_rollback : connection.ended <+: connection.rollback.ended := by
  cases hcurrent : connection.current <;> simp [rollback, hcurrent]

lemma ended_broke_rollback : connection.ended <+: connection.broke.rollback.ended :=
  @ended_rollback _ connection.broke

lemma ended_commit? (hcommit : connection.commit? commits = some committed) :
    connection.ended <+: committed.ended := by
  rw [(commit?_eq_some hcommit).2.2.2]
  exact List.prefix_append _ _

lemma ended_exit (raised commits : Bool) :
    connection.ended <+: (connection.exit raised commits).connection.ended := by
  rw [exit]
  split_ifs
  · exact List.prefix_rfl
  · exact List.prefix_rfl
  · exact ended_broke_rollback
  · split
    · next hcommit => exact ended_commit? hcommit
    · exact ended_broke_rollback

lemma ended_exitOuter (raised commits : Bool) :
    connection.ended <+: (connection.exitOuter raised commits).connection.ended := by
  rw [exitOuter]
  split_ifs
  · exact ended_broke_rollback
  · exact ended_broke_rollback
  · split
    · next committed hcommit =>
        have hended : connection.ended <+: committed.ended := ended_commit? hcommit
        exact hended
    · exact ended_broke_rollback

lemma ended_rollbackComposedWrite : connection.ended <+: connection.rollbackComposedWrite.ended := by
  rw [rollbackComposedWrite]
  split_ifs
  · exact List.prefix_rfl
  · exact @ended_rollback _ { connection with atomicDepth := 0, rollbackOnly := false }

lemma ended_commitComposedWrite (commits : Bool) :
    connection.ended <+: (connection.commitComposedWrite commits).connection.ended := by
  rw [commitComposedWrite]
  split_ifs
  · exact List.prefix_rfl
  · simp only
    split
    · next hcommit => exact @ended_commit? _ { connection with atomicDepth := 0 } _ _ hcommit
    · exact List.prefix_rfl

end Connection

/-- A transaction that has ended stays ended as it did. -/
lemma ended_run (code : Code W) (connection : Connection W) :
    connection.ended <+: (run code connection).connection.ended := by
  induction code generalizing connection with
  | skip | write | raise | failedWrite => exact List.prefix_rfl
  | seq first second ihFirst ihSecond =>
      rw [run]
      cases hraised : (run first connection).raised with
      | true => simpa [hraised] using ihFirst connection
      | false => simpa [hraised] using (ihFirst connection).trans (ihSecond _)
  | tryExcept body handler ihBody ihHandler =>
      rw [run]
      cases hraised : (run body connection).raised with
      | false => simpa [hraised] using ihBody connection
      | true => simpa [hraised] using (ihBody connection).trans (ihHandler _)
  | block kind begins commits body ih =>
      cases kind with
      | withConnection => exact (ih connection).trans (Connection.ended_exit _ _)
      | atomic =>
          rw [run]
          split_ifs with hdepth
          · refine (ih { connection with atomicDepth := connection.atomicDepth + 1 }).trans ?_
            simp only [Connection.exitInner]
            split_ifs
            · exact List.prefix_rfl
            · exact List.prefix_rfl
          · cases hbegin : connection.begin? begins with
            | none => exact List.prefix_rfl
            | some begun =>
                obtain ⟨-, -, rfl⟩ := Connection.begin?_eq_some.mp hbegin
                exact (ih connection.begun).trans (Connection.ended_exitOuter _ _)
      | composedWrite =>
          rw [run]
          cases hbegin : connection.beginComposedWrite begins with
          | none => exact List.prefix_rfl
          | some begun =>
              have hended : begun.ended = connection.ended := by
                rw [Connection.beginComposedWrite] at hbegin
                split_ifs at hbegin
                obtain ⟨opened, hopened, rfl⟩ := Option.map_eq_some_iff.mp hbegin
                obtain ⟨-, -, rfl⟩ := Connection.begin?_eq_some.mp hopened
                rfl
              rw [← hended]
              refine (ih begun).trans ?_
              simp only
              split_ifs
              · exact @Connection.ended_rollbackComposedWrite _ (run body begun).connection.broke
              · exact Connection.ended_commitComposedWrite commits

lemma Connection.AllOrNothing.before {code : Code W} {connection : Connection W}
    (settled : (run code connection).connection.AllOrNothing) : connection.AllOrNothing :=
  fun ended hended => settled ended ((ended_run code connection).subset hended)

/-! ### When the transactions are all or nothing -/

/-- No `COMMIT` of a composed write raises. -/
def Code.Commits : Code W → Prop
  | .skip | .write _ | .raise | .failedWrite => True
  | .seq first second => first.Commits ∧ second.Commits
  | .tryExcept body handler => body.Commits ∧ handler.Commits
  | .block .composedWrite _ commits body => commits = true ∧ body.Commits
  | .block _ _ _ body => body.Commits

/-- A program that is not careful commits a transaction in which a block ended with an exception. -/
lemma careful_of_allOrNothing {code : Code W} {connection : Connection W} (hcommits : code.Commits)
    (outside : connection.Outside) (settled : (run code connection).connection.AllOrNothing) :
    Code.Careful code connection := by
  induction code generalizing connection with
  | skip | write | raise | failedWrite => trivial
  | seq first second ihFirst ihSecond =>
      rw [run] at settled
      cases hraised : (run first connection).raised with
      | true =>
          refine ⟨ihFirst hcommits.1 outside (by simpa [hraised] using settled), ?_⟩
          intro hreturned
          rw [hraised] at hreturned
          cases hreturned
      | false =>
          have hsettled : (run second (run first connection).connection).connection.AllOrNothing := by
            simpa [hraised] using settled
          have hfirst := ihFirst hcommits.1 outside hsettled.before
          exact ⟨hfirst, fun _ => ihSecond hcommits.2
            (hfirst.outside outside hsettled.before.before).1 hsettled⟩
  | tryExcept body handler ihBody ihHandler =>
      rw [run] at settled
      cases hraised : (run body connection).raised with
      | false =>
          refine ⟨ihBody hcommits.1 outside (by simpa [hraised] using settled), ?_⟩
          intro hcaught
          rw [hraised] at hcaught
          cases hcaught
      | true =>
          have hsettled : (run handler (run body connection).connection).connection.AllOrNothing := by
            simpa [hraised] using settled
          have hbody := ihBody hcommits.1 outside hsettled.before
          exact ⟨hbody, fun _ => ihHandler hcommits.2
            (hbody.outside outside hsettled.before.before).1 hsettled⟩
  | block kind begins commits body ih =>
      cases kind with
      | withConnection =>
          refine ih hcommits outside ?_
          intro ended hended
          exact settled ended ((Connection.ended_exit _ _).subset hended)
      | atomic => trivial
      | composedWrite =>
          obtain ⟨rfl, -⟩ := hcommits
          rintro hopen rfl
          rw [run_composedWrite outside.depth hopen] at settled
          cases hraises : body.raises with
          | true => exact .inl rfl
          | false =>
              have hended := settled (⟨body.writes, body.breaks⟩, true)
                (by simp [hraises, Connection.commitComposedWrite, Connection.commit?,
                  Connection.ranInside])
              exact .inr ⟨by simpa using hended, rfl⟩

/-- **Nested transactions are all or nothing exactly when no composed write commits after a failure
inside it.** From a connection in its initial state, a block in whose run every composed write that
ends normally has seen no block inside it end with an exception commits every transaction in which
no block ended with an exception, commits no other, and leaves the connection in its initial state;
and where no `COMMIT` of a composed write raises, no other block does. -/
theorem nested_all_or_nothing {connection : Connection W} (initial : connection.Initial)
    (settled : connection.AllOrNothing) (kind : TransactionKind) (begins commits : Bool)
    (body : Code W) :
    let code := Code.block kind begins commits body
    let left := (run code connection).connection
    (Code.Careful code connection →
      left.Initial ∧ left.AllOrNothing ∧ left.committed = left.unbrokenWrites) ∧
      (code.Commits → left.Initial ∧ left.AllOrNothing → Code.Careful code connection) := by
  refine ⟨fun careful => ?_, fun hcommits hleft =>
    careful_of_allOrNothing hcommits initial.outside hleft.2⟩
  suffices hleft : (run (.block kind begins commits body) connection).connection.Initial ∧
      (run (.block kind begins commits body) connection).connection.AllOrNothing from
    ⟨hleft.1, hleft.2, hleft.2.committed_eq⟩
  by_cases hkind : kind = .withConnection
  · subst hkind
    obtain ⟨houtside, hsettled⟩ := @Code.Careful.outside _ body _ careful initial.outside settled
    exact houtside.exit hsettled _ _
  by_cases hbegin : connection.current = none ∧ begins = true
  · exact careful.begun hkind initial.depth hbegin settled
  · rw [run_refused hkind initial.depth hbegin]
    exact ⟨initial, settled⟩

/-- A composed write in which a repository's block fails and the failure is caught. -/
def caughtFailure : Code ℕ :=
  .seq (.write 1) (.tryExcept (.block .withConnection true true (.seq (.write 2) .raise)) .skip)

/-- An `atomic()` block with the same body rolls back and raises. -/
theorem nested_all_or_nothing_atomic :
    (run (.block .atomic true true caughtFailure) {}).connection.committed = [] ∧
      Code.Careful (.block .composedWrite true true (.write 1)) ({} : Connection ℕ) := by
  have hinitial : ({} : Connection ℕ).Initial := ⟨rfl, rfl, rfl⟩
  have hsettled : ({} : Connection ℕ).AllOrNothing := fun _ hended => by cases hended
  have hatomic := (nested_all_or_nothing hinitial hsettled .atomic true true caughtFailure).1 trivial
  have hcomposed := (nested_all_or_nothing hinitial hsettled .composedWrite true true (.write 1)).2
    ⟨rfl, trivial⟩ ⟨⟨rfl, rfl, rfl⟩, by
      intro ended hended
      rw [List.mem_singleton.mp hended]
      rfl⟩
  exact ⟨hatomic.2.2, hcomposed⟩

/-- A composed write commits what its failed block has written. -/
theorem composed_write_ignores_failure :
    ¬ ∀ (kind : TransactionKind) (begins commits : Bool) (body : Code ℕ),
      (run (.block kind begins commits body) {}).connection.Initial ∧
        (run (.block kind begins commits body) {}).connection.AllOrNothing := by
  intro h
  have hended := (h .composedWrite true true caughtFailure).2 (⟨[1, 2], true⟩, true) (by decide)
  exact absurd hended (by decide)

end Memorist
