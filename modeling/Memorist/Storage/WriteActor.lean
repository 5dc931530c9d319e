import Memorist.Library.Prog
import Memorist.Library.Table
import Memorist.Text.CanonicalHash

/-!
The single writer of the SQLite store (`storage/write_actor.py`, `storage/commands.py`).

* `executeEnvelope`: a submission, statement by statement: limits, the look-up of its idempotency
  record, the execution with retries while the store is busy, the record, the time budget;
* `actorEffect`, `Atomic`: what the statements do to the store and its records, and when a command
  that raises has changed nothing;
* `SubmissionStep`: a submission, which may crash on its way;
* `Outcome`, `outcome_of_step`: all that a submission can leave behind.
-/

namespace Memorist

/-! ### Commands and results -/

/-- The result of a write. -/
structure WriteResult where
  commandType : String
  targetType : Option String
  targetUuid : Option String
  result : IJson
  idempotentReplay : Bool := false
  queueWaitMs : ℕ := 0
  transactionMs : ℕ := 0

/-- A result with the times of its submission. -/
def WriteResult.timed (result : WriteResult) (waitMs transactionMs : ℕ) : WriteResult :=
  { result with queueWaitMs := waitMs, transactionMs := transactionMs }

/-- A command, apart from what it writes. -/
structure WriteCommand where
  commandType : String
  idempotencyKey : Option String := none
  estimatedWriteWeight : ℤ := 1
  maxTransactionMs : ℤ := 30000
  validatesReplay : Bool := false
  deriving DecidableEq, Repr

/-- The largest weight of a command. -/
def defaultMaxWriteWeight : ℤ := 20000

/-- How often a command is tried while the store is busy. -/
def maxAttempts : ℕ := 4

/-- The key of a command, unless it is missing or empty. -/
def WriteCommand.key? (command : WriteCommand) : Option String :=
  command.idempotencyKey.filter fun key => key ≠ ""

/-- A row of `write_idempotency_records`. -/
structure IdempotencyRow where
  idempotencyKey : String
  commandType : String
  targetType : Option String
  targetUuid : Option String
  result : IJson

/-- An exception of a command. -/
structure ExecuteError where
  isBusy : Bool
  message : String
  deriving DecidableEq, Repr

/-- A stored result that says it is no first one, if it has a member for that. -/
def markDuplicate : IJson → IJson
  | .obj members => .obj (members.map fun p =>
      if p.1 = "duplicate".toList then (p.1, .bool true) else p)
  | value => .obj [field "value" value]

/-- The result that a record stands for. -/
def IdempotencyRow.replay (row : IdempotencyRow) : WriteResult where
  commandType := row.commandType
  targetType := row.targetType
  targetUuid := row.targetUuid
  result := markDuplicate row.result
  idempotentReplay := true

/-- The record of a result. -/
def idempotencyRow (key : String) (command : WriteCommand) (result : WriteResult) :
    IdempotencyRow where
  idempotencyKey := key
  commandType := command.commandType
  targetType := result.targetType
  targetUuid := result.targetUuid
  result := result.result.canon

/-! ### Statements -/

/-- What a submission asks for. -/
inductive ActorEffect where
  | clock
  | lookup (key commandType : String)
  | validateReplay
  | execute
  | record (row : IdempotencyRow)

/-- What a statement answers. -/
def ActorEffect.Response : ActorEffect → Type
  | clock => ℕ
  | lookup _ _ => Except String (Option IdempotencyRow)
  | validateReplay => Except String Unit
  | execute => Except ExecuteError WriteResult
  | record _ => Except String Unit

/-- Statements with a result. -/
abbrev ActorProgram (α : Type) : Type := Prog ActorEffect ActorEffect.Response (Except String α)

section

variable (U : UnicodeData) (command : WriteCommand)

/-- The milliseconds between two readings of a clock that counts nanoseconds. -/
def elapsedMs (started ended : ℕ) : ℕ := (ended - started) / 1000000

/-- The error for a command that is too heavy. -/
def weightError : String :=
  "Write command exceeds maximum write weight: " ++ toString command.estimatedWriteWeight ++
    " > " ++ toString defaultMaxWriteWeight

/-- The error for a command that took too long. -/
def budgetError (transactionMs : ℕ) : String :=
  "Write command exceeded bounded transaction budget: " ++ toString transactionMs ++ "ms > " ++
    toString command.maxTransactionMs ++ "ms"

/-- Look the record of the command up. -/
def idempotencyLookup : ActorProgram (Option WriteResult) :=
  match command.key? with
  | none => .done (.ok none)
  | some key => .call (.lookup key command.commandType) fun
      | .error error => .done (.error error)
      | .ok row => .done (.ok (row.map IdempotencyRow.replay))

/-- Check that a stored result may be given again. -/
def validateIdempotentReplay (cached : WriteResult) : ActorProgram WriteResult :=
  if command.validatesReplay then .call .validateReplay fun
    | .error error => .done (.error error)
    | .ok () => .done (.ok cached)
  else .done (.ok cached)

/-- Execute the command, again while the store is busy. -/
def executeWithBusyRetry : ℕ → ActorProgram WriteResult
  | 0 => .done (.error "unreachable SQLite busy retry state")
  | attempts + 1 => .call .execute fun
      | .ok result => .done (.ok result)
      | .error error =>
          if error.isBusy ∧ attempts ≠ 0 then executeWithBusyRetry attempts
          else .done (.error error.message)

/-- Record a result under the key of the command. -/
def recordIdempotency (result : WriteResult) : ActorProgram WriteResult :=
  match command.key? with
  | none => .done (.ok result)
  | some key => match dumpIjson U result.result with
    | .error error => .done (.error error)
    | .ok _ => .call (.record (idempotencyRow key command result)) fun
        | .error error => .done (.error error)
        | .ok () => .done (.ok result)

/-- The next step of a computation that has not failed. -/
def andThen {α β : Type} (p : ActorProgram α) (f : α → ActorProgram β) : ActorProgram β :=
  p.bind fun
    | .error error => .done (.error error)
    | .ok a => f a

/-- Check the time that a submission took. -/
def settle (waitMs started : ℕ) (result : WriteResult) : ActorProgram WriteResult :=
  .call .clock fun ended : ℕ =>
    let transactionMs := elapsedMs started ended
    if command.maxTransactionMs < transactionMs then
      .done (.error (budgetError command transactionMs))
    else .done (.ok (result.timed waitMs transactionMs))

/-- Carry a submission out. -/
def executeEnvelope (submittedAt : ℕ) : ActorProgram WriteResult :=
  if defaultMaxWriteWeight < command.estimatedWriteWeight then
    .done (.error (weightError command))
  else if command.maxTransactionMs ≤ 0 then
    .done (.error "Write command has invalid max_transaction_ms")
  else .call .clock fun now : ℕ => .call .clock fun started : ℕ =>
    andThen (idempotencyLookup command) fun cached =>
      andThen
        (match cached with
          | some cached => validateIdempotentReplay command cached
          | none => andThen (executeWithBusyRetry maxAttempts) (recordIdempotency U command))
        (settle command (elapsedMs submittedAt now) started)

end

/-! ### The store -/

/-- The store and its idempotency records. -/
structure ActorState (σ : Type) where
  db : σ
  records : Table IdempotencyRow String IdempotencyRow.idempotencyKey

section

variable {σ : Type} (executes : WriteCommand → σ → Except ExecuteError WriteResult → σ → Prop)

/-- A command that raises leaves the store as it was. -/
def Atomic : Prop :=
  ∀ {command : WriteCommand} {db db' : σ} {error : ExecuteError},
    executes command db (.error error) db' → db' = db

/-- What a statement of a submission does; any but the clock may raise. A record whose key is
taken is passed over. -/
def actorEffect (command : WriteCommand) (s : ActorState σ) :
    (e : ActorEffect) → e.Response → ActorState σ → Prop
  | .clock, _, t => t = s
  | .lookup key commandType, answer, t => t = s ∧
      (answer = .ok ((s.records.get? key).filter fun row => row.commandType = commandType) ∨
        ∃ error, answer = .error error)
  | .validateReplay, _, t => t = s
  | .execute, answer, t => t.records = s.records ∧ executes command s.db answer t.db
  | .record row, answer, t =>
      answer = .ok () ∧ t = { s with records := s.records.insert row } ∨
        (∃ error, answer = .error error) ∧ t = s

/-- A submission: what was performed, and its result unless the process crashed on its way. -/
structure Submission where
  command : WriteCommand
  submittedAt : ℕ
  performed : List (Performed ActorEffect.Response)
  result : Option (Except String WriteResult)

/-- A submission on a store. -/
def SubmissionStep (U : UnicodeData) (s : ActorState σ) (run : Submission) (t : ActorState σ) :
    Prop :=
  ∃ q, Prog.Exec (actorEffect executes run.command) s
      (executeEnvelope U run.command run.submittedAt) run.performed q t ∧ run.result = q.result?

end

/-! ### What a submission leaves behind -/

/-- A statement that committed the effects of a command. -/
def isCommit : Performed ActorEffect.Response → Bool
  | ⟨.execute, .ok _⟩ => true
  | _ => false

/-- A statement that wrote a record. -/
def isRecord : Performed ActorEffect.Response → Bool
  | ⟨.record _, .ok _⟩ => true
  | _ => false

/-- What a reading of the clock gave. -/
def reading? : Performed ActorEffect.Response → Option ℕ
  | ⟨.clock, now⟩ => some now
  | _ => none

/-- How often a submission committed the effects of its command. -/
def Submission.commits (run : Submission) : ℕ := run.performed.countP isCommit

/-- A submission whose command has a key wrote a record. -/
def Recorded (command : WriteCommand) (es : List (Performed ActorEffect.Response)) : Prop :=
  command.key? ≠ none → es.any isRecord

/-- By the clock a submission took longer than its command may. -/
def Late (command : WriteCommand) (es : List (Performed ActorEffect.Response)) : Prop :=
  ∃ now started ended, es.filterMap reading? = [now, started, ended] ∧
    command.maxTransactionMs < elapsedMs started ended

/-- The records after one of a result. -/
def recordsAfter (command : WriteCommand) (result : WriteResult)
    (records : Table IdempotencyRow String IdempotencyRow.idempotencyKey) :
    Table IdempotencyRow String IdempotencyRow.idempotencyKey :=
  match command.key? with
  | none => records
  | some key => records.insert (idempotencyRow key command result)

/-- No record of the command was found. -/
def Unseen {σ : Type} (command : WriteCommand) (s : ActorState σ) : Prop :=
  ∀ key, command.key? = some key →
    ((s.records.get? key).filter fun row => row.commandType = command.commandType) = none

/-- What a submission leaves behind: nothing; nothing but the answer of a record; the effects of
its command without a record; or both. -/
inductive Outcome {σ : Type} (command : WriteCommand) (s : ActorState σ) :
    List (Performed ActorEffect.Response) → Option (Except String WriteResult) → ActorState σ → Prop
  | untouched {es : List (Performed ActorEffect.Response)}
      {result : Option (Except String WriteResult)} (hcommits : es.countP isCommit = 0)
      (hresult : ∀ r, result ≠ some (.ok r)) : Outcome command s es result s
  | replayed {es : List (Performed ActorEffect.Response)} {key : String} {row : IdempotencyRow}
      {waitMs transactionMs : ℕ} (hcommits : es.countP isCommit = 0)
      (hkey : command.key? = some key) (hrow : s.records.get? key = some row)
      (htype : row.commandType = command.commandType) :
      Outcome command s es (some (.ok (row.replay.timed waitMs transactionMs))) s
  | unrecorded {es : List (Performed ActorEffect.Response)}
      {result : Option (Except String WriteResult)} {db : σ} (hunseen : Unseen command s)
      (hcommits : es.countP isCommit = 1) (hrecorded : ¬ Recorded command es)
      (hresult : ∀ r, result ≠ some (.ok r)) : Outcome command s es result { s with db := db }
  | recorded {es : List (Performed ActorEffect.Response)} {committed : WriteResult}
      {result : Option (Except String WriteResult)} {db : σ} (hunseen : Unseen command s)
      (hcommits : es.countP isCommit = 1) (hrecorded : Recorded command es)
      (herror : ∀ error, result = some (.error error) → Late command es)
      (hresult : ∀ r, result = some (.ok r) → ¬ Late command es ∧
        ∃ waitMs transactionMs, r = committed.timed waitMs transactionMs) :
      Outcome command s es result ⟨db, recordsAfter command committed s.records⟩

/-! ### The outcome of a submission -/

section

variable {σ : Type} {executes : WriteCommand → σ → Except ExecuteError WriteResult → σ → Prop}
variable {U : UnicodeData} {command : WriteCommand} {s t : ActorState σ}
variable {es : List (Performed ActorEffect.Response)} {waitMs started : ℕ}

/-- Where a submission is cut off. -/
abbrev CutOff (command : WriteCommand) (s : ActorState σ)
    (es : List (Performed ActorEffect.Response)) (t : ActorState σ) : Prop :=
  Outcome command s es none t

/-- Where a submission ends. -/
abbrev Ended (command : WriteCommand) (s : ActorState σ)
    (es : List (Performed ActorEffect.Response)) (answer : Except String WriteResult)
    (t : ActorState σ) : Prop :=
  Outcome command s es (some answer) t

/-- A result is at hand: a recorded one, or that of effects that were committed and recorded. -/
inductive AtHand (command : WriteCommand) (s : ActorState σ) (started : ℕ) :
    List (Performed ActorEffect.Response) → WriteResult → ActorState σ → Prop
  | replayed {es : List (Performed ActorEffect.Response)} {now : ℕ} {key : String}
      {row : IdempotencyRow} (hclock : es.filterMap reading? = [now, started])
      (hcommits : es.countP isCommit = 0) (hkey : command.key? = some key)
      (hrow : s.records.get? key = some row) (htype : row.commandType = command.commandType) :
      AtHand command s started es row.replay s
  | recorded {es : List (Performed ActorEffect.Response)} {now : ℕ} {committed : WriteResult}
      {db : σ} (hclock : es.filterMap reading? = [now, started]) (hunseen : Unseen command s)
      (hcommits : es.countP isCommit = 1) (hrecorded : Recorded command es) :
      AtHand command s started es committed ⟨db, recordsAfter command committed s.records⟩

lemma AtHand.cutOff {result : WriteResult} (h : AtHand command s started es result t) :
    CutOff command s es t := by
  cases h with
  | replayed _ hcommits => exact .untouched hcommits (by simp)
  | recorded _ hunseen hcommits hrecorded =>
      exact .recorded hunseen hcommits hrecorded (by simp) (by simp)

/-- A computation that gives a result at hand, or ends the submission. -/
def Handed (command : WriteCommand) (s : ActorState σ) (started : ℕ)
    (es : List (Performed ActorEffect.Response)) (answer : Except String WriteResult)
    (t : ActorState σ) : Prop :=
  (∀ error, answer = .error error → Ended command s es (.error error) t) ∧
    ∀ result, answer = .ok result → AtHand command s started es result t

/-- Computations in sequence: an error ends the submission. -/
lemma safe_andThen {α β : Type} {p : ActorProgram α} {f : α → ActorProgram β}
    {effect : ActorState σ → (e : ActorEffect) → e.Response → ActorState σ → Prop}
    {I : List (Performed ActorEffect.Response) → ActorState σ → Prop}
    {Q : List (Performed ActorEffect.Response) → Except String β → ActorState σ → Prop}
    (h : Prog.Safe effect I (fun es answer t =>
      (∀ error, answer = .error error → Q es (.error error) t) ∧
        ∀ a, answer = .ok a → Prog.Safe effect I Q es t (f a)) es s p) :
    Prog.Safe effect I Q es s (andThen p f) := by
  refine (h.imp fun es answer t hanswer => ?_).bind
  cases answer with
  | error error => exact hanswer.1 error rfl
  | ok a => exact hanswer.2 a rfl

/-- The time is checked last. -/
lemma safe_settle {result : WriteResult} (h : AtHand command s started es result t) :
    Prog.Safe (actorEffect executes command) (CutOff command s) (Ended command s) es t
      (settle command waitMs started result) := by
  refine ⟨h.cutOff, fun ended u he => ?_⟩
  obtain rfl : u = t := he
  cases h with
  | replayed hclock hcommits hkey hrow htype =>
      have hcount : List.countP isCommit (es ++ [⟨.clock, ended⟩]) = 0 := by
        rw [List.countP_append, hcommits]; rfl
      dsimp only
      split_ifs
      · exact .untouched hcount (by simp)
      · exact .replayed hcount hkey hrow htype
  | @recorded now committed db hclock hunseen hcommits hrecorded =>
      have hcount : List.countP isCommit (es ++ [⟨.clock, ended⟩]) = 1 := by
        rw [List.countP_append, hcommits]; rfl
      have hrec : Recorded command (es ++ [⟨.clock, ended⟩]) := fun hkey => by
        rw [List.any_append, hrecorded hkey, Bool.true_or]
      have hread : List.filterMap reading? (es ++ [⟨.clock, ended⟩]) = [now, started, ended] := by
        rw [List.filterMap_append, hclock]; rfl
      dsimp only
      split_ifs with hlate
      · exact .recorded hunseen hcount hrec (fun _ _ => ⟨_, _, _, hread, hlate⟩) (by simp)
      · refine .recorded hunseen hcount hrec (by simp) fun r hr =>
          ⟨?_, waitMs, elapsedMs started ended, ?_⟩
        · rintro ⟨now', started', ended', hread', hlate'⟩
          rw [hread] at hread'
          obtain ⟨-, hrest⟩ := List.cons.inj hread'
          obtain ⟨rfl, hlast⟩ := List.cons.inj hrest
          obtain rfl := List.singleton_inj.mp hlast
          exact hlate hlate'
        · simpa [eq_comm] using hr

/-- What was performed once both clocks are read and nothing is recorded. -/
structure Before (started commits : ℕ) (es : List (Performed ActorEffect.Response)) : Prop where
  clock : ∃ now, es.filterMap reading? = [now, started]
  commits : es.countP isCommit = commits
  unrecorded : es.any isRecord = false

/-- A statement that reads no clock, commits nothing and records nothing. -/
structure Neutral (x : Performed ActorEffect.Response) : Prop where
  clock : reading? x = none
  commit : isCommit x = false
  record : isRecord x = false

lemma Before.append {commits : ℕ} {x : Performed ActorEffect.Response}
    (h : Before started commits es) (hx : Neutral x) : Before started commits (es ++ [x]) where
  clock := by
    obtain ⟨now, hnow⟩ := h.clock
    exact ⟨now, by simp [hnow, hx.clock]⟩
  commits := by simp [h.commits, hx.commit]
  unrecorded := by simp [h.unrecorded, hx.record]

lemma Before.untouched {result : Option (Except String WriteResult)}
    (h : Before started 0 es) (hresult : ∀ r, result ≠ some (.ok r)) :
    Outcome command s es result s := .untouched h.commits hresult

/-- The look-up changes nothing and gives the record of the command, if it has one. -/
lemma safe_idempotencyLookup (h : Before started 0 es) :
    Prog.Safe (actorEffect executes command) (CutOff command s) (fun es answer t => t = s ∧
      Before started 0 es ∧ (answer = .ok none → Unseen command s) ∧
        ∀ cached, answer = .ok (some cached) → ∃ key row, command.key? = some key ∧
          s.records.get? key = some row ∧ row.commandType = command.commandType ∧
          cached = row.replay) es s (idempotencyLookup command) := by
  unfold idempotencyLookup
  split
  case h_1 hkey =>
    exact ⟨rfl, h, fun _ key hsome => absurd (hkey.symm.trans hsome) (by simp), by simp⟩
  case h_2 key hkey =>
    refine ⟨h.untouched (by simp), fun answer t he => ?_⟩
    obtain ⟨rfl, rfl | ⟨error, rfl⟩⟩ := he
    · refine ⟨rfl, h.append ⟨rfl, rfl, rfl⟩, fun hnone key' hkey' => ?_, fun cached hcached => ?_⟩
      · obtain rfl := Option.some_inj.mp (hkey.symm.trans hkey')
        simpa using hnone
      · obtain ⟨row, hrow, rfl⟩ := Option.map_eq_some_iff.mp (Except.ok.inj hcached)
        obtain ⟨hget, htype⟩ := Option.filter_eq_some_iff.mp hrow
        exact ⟨key, row, hkey, hget, by simpa using htype, rfl⟩
    · exact ⟨rfl, h.append ⟨rfl, rfl, rfl⟩, by simp, by simp⟩

/-- A recorded result is at hand once it may be given again. -/
lemma safe_validateIdempotentReplay {key : String} {row : IdempotencyRow}
    (h : Before started 0 es) (hkey : command.key? = some key)
    (hrow : s.records.get? key = some row) (htype : row.commandType = command.commandType) :
    Prog.Safe (actorEffect executes command) (CutOff command s) (Handed command s started) es s
      (validateIdempotentReplay command row.replay) := by
  unfold validateIdempotentReplay
  split
  · refine ⟨h.untouched (by simp), fun answer t he => ?_⟩
    obtain rfl : t = s := he
    have happend : Before started 0 (es ++ [⟨.validateReplay, answer⟩]) :=
      h.append ⟨rfl, rfl, rfl⟩
    obtain ⟨now, hnow⟩ := happend.clock
    cases answer with
    | error error => exact ⟨fun _ _ => happend.untouched (by simp), by simp⟩
    | ok _ =>
        refine ⟨by simp, fun result hresult => ?_⟩
        cases hresult
        exact .replayed hnow happend.commits hkey hrow htype
  · obtain ⟨now, hnow⟩ := h.clock
    refine ⟨by simp, fun result hresult => ?_⟩
    cases hresult
    exact .replayed hnow h.commits hkey hrow htype

/-- Attempts commit nothing but the effects of the last one. -/
lemma safe_executeWithBusyRetry (hatomic : Atomic executes) (attempts : ℕ)
    (h : Before started 0 es) :
    Prog.Safe (actorEffect executes command) (CutOff command s) (fun es answer t =>
      (∀ error, answer = .error error → Ended command s es (.error error) t) ∧
        ∀ result, answer = .ok result → Before started 1 es ∧ t.records = s.records) es s
      (executeWithBusyRetry attempts) := by
  induction attempts generalizing es with
  | zero => exact ⟨fun _ _ => h.untouched (by simp), by simp⟩
  | succ attempts ih =>
      refine ⟨h.untouched (by simp), fun answer t he => ?_⟩
      obtain ⟨hrecords, hexecutes⟩ := he
      cases answer with
      | ok result =>
          obtain ⟨now, hnow⟩ := h.clock
          refine ⟨by simp, fun _ _ => ⟨⟨⟨now, ?_⟩, ?_, ?_⟩, hrecords⟩⟩
          · simp [hnow, reading?]
          · simp [h.commits, isCommit]
          · simp [h.unrecorded, isRecord]
      | error error =>
          obtain rfl : t = s := by
            obtain ⟨db, records⟩ := t
            obtain rfl : records = s.records := hrecords
            obtain rfl : db = s.db := hatomic hexecutes
            rfl
          have happend : Before started 0 (es ++ [⟨.execute, .error error⟩]) :=
            h.append ⟨rfl, rfl, rfl⟩
          dsimp only
          split_ifs
          · exact ih happend
          · exact ⟨fun _ _ => happend.untouched (by simp), by simp⟩

/-- A committed result is at hand once it is recorded. -/
lemma safe_recordIdempotency {result : WriteResult} (hunseen : Unseen command s)
    (h : Before started 1 es) (hrecords : t.records = s.records) :
    Prog.Safe (actorEffect executes command) (CutOff command s) (Handed command s started) es t
      (recordIdempotency U command result) := by
  obtain ⟨db, records⟩ := t
  obtain rfl : records = s.records := hrecords
  obtain ⟨now, hnow⟩ := h.clock
  unfold recordIdempotency
  split
  case h_1 hkey =>
    refine ⟨by simp, fun result' hresult => ?_⟩
    obtain rfl := Except.ok.inj hresult
    have hat : AtHand command s started es result ⟨db, recordsAfter command result s.records⟩ :=
      .recorded hnow hunseen h.commits fun hne => absurd hkey hne
    rwa [recordsAfter, hkey] at hat
  case h_2 key hkey =>
    -- until the record is written, the effects are there without one
    have hlost {es' : List (Performed ActorEffect.Response)} (h' : Before started 1 es')
        {answer : Option (Except String WriteResult)} (hanswer : ∀ r, answer ≠ some (.ok r)) :
        Outcome command s es' answer { s with db := db } :=
      .unrecorded hunseen h'.commits
        (fun hrec => by simpa [h'.unrecorded] using hrec (by simp [hkey])) hanswer
    split
    · exact ⟨fun _ _ => hlost h (by simp), by simp⟩
    · refine ⟨hlost h (by simp), fun answer u he => ?_⟩
      rcases he with ⟨rfl, rfl⟩ | ⟨⟨error, rfl⟩, rfl⟩
      · refine ⟨by simp, fun result' hresult => ?_⟩
        obtain rfl := Except.ok.inj hresult
        let recorded : Performed ActorEffect.Response :=
          ⟨.record (idempotencyRow key command result), .ok ()⟩
        have hclock : (es ++ [recorded]).filterMap reading? = [now, started] := by
          simp [hnow, recorded, reading?]
        have hat : AtHand command s started (es ++ [recorded]) result
            ⟨db, recordsAfter command result s.records⟩ :=
          .recorded hclock hunseen (by simp [h.commits, recorded, isCommit])
            (fun _ => by simp [recorded, isRecord])
        rwa [recordsAfter, hkey] at hat
      · exact ⟨fun _ _ => hlost (h.append ⟨rfl, rfl, rfl⟩) (by simp), by simp⟩

/-- A submission, wherever it is cut off or ends, leaves one of the outcomes behind. -/
lemma safe_executeEnvelope (hatomic : Atomic executes) (submittedAt : ℕ) :
    Prog.Safe (actorEffect executes command) (CutOff command s) (Ended command s) [] s
      (executeEnvelope U command submittedAt) := by
  unfold executeEnvelope
  split_ifs
  · exact .untouched rfl (by simp)
  · exact .untouched rfl (by simp)
  refine ⟨.untouched rfl (by simp), fun now t he => ?_⟩
  obtain rfl : s = t := he.symm
  refine ⟨.untouched rfl (by simp), fun started t he => ?_⟩
  obtain rfl : s = t := he.symm
  have hbefore : Before started 0 (([] ++ [⟨.clock, now⟩]) ++ [⟨.clock, started⟩]) :=
    ⟨⟨now, rfl⟩, rfl, rfl⟩
  refine safe_andThen ((safe_idempotencyLookup hbefore).imp fun es answer t hlookup => ?_)
  obtain ⟨ht, hes, hnone, hsome⟩ := hlookup
  obtain rfl := ht.symm
  refine ⟨fun error _ => hes.untouched (by simp), fun cached hcached => ?_⟩
  refine safe_andThen (Prog.Safe.imp (Q := Handed command s started) (fun es answer t hhand =>
    ⟨hhand.1, fun result hresult => safe_settle (hhand.2 result hresult)⟩) ?_)
  cases cached with
  | none =>
      refine safe_andThen ((safe_executeWithBusyRetry hatomic maxAttempts hes).imp
        fun es answer t hexec => ⟨fun error herror => ⟨?_, ?_⟩, fun result hresult => ?_⟩)
      · intro error' herror'
        cases herror'
        exact hexec.1 _ herror
      · simp
      · obtain ⟨hes, hrecords⟩ := hexec.2 result hresult
        exact safe_recordIdempotency (hnone hcached) hes hrecords
  | some cached =>
      obtain ⟨key, row, hkey, hrow, htype, rfl⟩ := hsome cached hcached
      exact safe_validateIdempotentReplay hes hkey hrow htype

/-- All that a submission leaves behind. -/
theorem outcome_of_step (hatomic : Atomic executes) {run : Submission}
    (hstep : SubmissionStep executes U s run t) :
    Outcome run.command s run.performed run.result t := by
  obtain ⟨q, hexec, hresult⟩ := hstep
  rcases (safe_executeEnvelope hatomic run.submittedAt).outcome hexec with
    ⟨hnone, hcut⟩ | ⟨answer, hsome, hend⟩
  · rw [hresult, hnone]
    exact hcut
  · rw [hresult, hsome]
    exact hend

end

end Memorist
