import Memorist.Library.Dict
import Memorist.Library.Table
import Memorist.Storage.Sql
import Memorist.Worker.AttemptAudit

/-!
The memory-extraction jobs (`memory_worker/service.py`).

* `JobRow`, `JobTables`: the rows of `jobs`, by name, and of `job_attempts`;
* `ClaimedJob`: a claimed row, as its worker keeps it;
* `enqueueJob`, `recoverStale`, `claimNextExtractionJob`, `selectLease`, `renewLease`,
  `recordSuccess`, `recordFailure`: the statements, each atomic.
-/

namespace Memorist

/-! ### Rows -/

/-- The types of jobs. -/
inductive JobType where
  | memoryExtraction
  | textUnitization
  | other (name : String)
  deriving DecidableEq, Repr

/-- The statuses of jobs. -/
inductive JobStatus where
  | pending
  | running
  | succeeded
  | failed
  | dead
  | cancelled
  deriving DecidableEq, Repr

/-- A row of `jobs`. -/
structure JobRow where
  jobUuid : String
  jobType : JobType
  status : JobStatus := .pending
  priority : ℤ
  /-- The payload as PostgreSQL keeps it. -/
  payloadJsonb : Option JsonObject := none
  payloadIjson : Text
  attempts : ℕ := 0
  maxAttempts : ℕ
  lastError : Option String := none
  lastErrorSanitized : Option String := none
  runAfter : Option Timestamp := none
  lockedBy : Option String := none
  lockedAt : Option Timestamp := none
  leaseToken : Option String := none
  leaseGeneration : ℕ := 0
  leaseExpiresAt : Option Timestamp := none
  createdAt : Timestamp
  updatedAt : Option Timestamp := none

/-- The statuses of attempts at jobs. -/
inductive JobAttemptStatus where
  | running
  | succeeded
  | failed
  deriving DecidableEq, Repr

/-- A row of `job_attempts`. -/
structure JobAttemptRow where
  jobAttemptUuid : String
  jobUuid : String
  workerId : String
  status : JobAttemptStatus
  startedAt : Timestamp
  finishedAt : Option Timestamp := none
  errorSanitized : Option String := none

/-- The jobs, by name. -/
abbrev Jobs : Type := Table JobRow String JobRow.jobUuid

/-- The jobs and the attempts at them. -/
structure JobTables where
  jobs : Jobs := .empty
  jobAttempts : List JobAttemptRow := []

/-- A claimed row, as its worker keeps it. -/
structure ClaimedJob where
  workerId : String
  job : JobRow

/-- An error that ends a job. -/
structure JobError where
  typeName : String
  /-- The message without secrets, if any. -/
  sanitizedMessage : Option String
  /-- Whether it is a violation of a trusted fallback. -/
  deterministicContract : Bool

/-- Only a violation of a trusted fallback bypasses the retry budget. -/
def isTerminalMemoryJobError (error : JobError) : Bool := error.deterministicContract

/-! ### Claims -/

/-- Add a job, unless its name is taken. -/
def enqueueJob (row : JobRow) (tables : JobTables) : Bool × JobTables :=
  ((tables.jobs.get? row.jobUuid).isNone, { tables with jobs := tables.jobs.insert row })

/-- Whether a job runs with an expired lease, or with none. -/
def isStale (now : Timestamp) (row : JobRow) : Bool :=
  row.jobType = .memoryExtraction && row.status = .running &&
    row.leaseExpiresAt.all (· < now)

/-- A job without its lease: dead, if its attempts are used up. -/
def recoveredRow (store : Store) (now : Timestamp) (row : JobRow) : JobRow :=
  { row with
    status := if row.maxAttempts ≤ row.attempts then .dead else .pending
    lockedBy := none
    lockedAt := none
    leaseToken := none
    leaseExpiresAt := none
    lastErrorSanitized := row.lastErrorSanitized.or (some "lease expired")
    updatedAt := match store with
      | .sqlite => row.updatedAt
      | .postgres => some now }

@[simp] lemma recoveredRow_jobUuid (store : Store) (now : Timestamp) (row : JobRow) :
    (recoveredRow store now row).jobUuid = row.jobUuid := rfl

/-- Recover the stale jobs. -/
def recoverStale (store : Store) (now : Timestamp) (jobs : Jobs) : Jobs :=
  jobs.updateWhere (isStale now) (recoveredRow store now) (recoveredRow_jobUuid store now)

/-- Whether a job may be claimed. -/
def isClaimable (store : Store) (now : Timestamp) (row : JobRow) : Bool :=
  row.status = .pending && row.jobType = .memoryExtraction &&
    match row.runAfter with
    | some runAfter => runAfter ≤ now
    | none => store = .sqlite

/-- The order of claims: priority, then due time, then creation. -/
def claimedBefore (a b : JobRow) : Bool :=
  b.priority < a.priority || (a.priority = b.priority &&
    (a.runAfter.getD a.createdAt < b.runAfter.getD b.createdAt ||
      (a.runAfter.getD a.createdAt = b.runAfter.getD b.createdAt && a.createdAt ≤ b.createdAt)))

/-- The next job to claim, past the rows that other transactions lock. -/
def nextClaimable (store : Store) (now : Timestamp) (locked : List String) (jobs : Jobs) :
    Option JobRow :=
  ((jobs.rows.filter fun row => isClaimable store now row && !locked.contains row.jobUuid).mergeSort
    claimedBefore).head?

/-- A job with a new lease. -/
def claimedRow (store : Store) (workerId leaseToken : String) (leaseSeconds : ℕ) (now : Timestamp)
    (row : JobRow) : JobRow :=
  { row with
    status := .running
    lockedBy := some workerId
    lockedAt := some now
    leaseToken := some leaseToken
    leaseGeneration := row.leaseGeneration + 1
    leaseExpiresAt := match store with
      | .sqlite => some (addSeconds now leaseSeconds)
      | .postgres => some (now + leaseSeconds * second)
    attempts := row.attempts + 1
    updatedAt := match store with
      | .sqlite => row.updatedAt
      | .postgres => some now }

@[simp] lemma claimedRow_jobUuid (store : Store) (workerId leaseToken : String) (leaseSeconds : ℕ)
    (now : Timestamp) (row : JobRow) :
    (claimedRow store workerId leaseToken leaseSeconds now row).jobUuid = row.jobUuid := rfl

/-- Claim the next job. -/
def claimPending (store : Store) (workerId leaseToken : String) (leaseSeconds : ℕ) (now : Timestamp)
    (locked : List String) (jobs : Jobs) : Option JobRow × Jobs :=
  match nextClaimable store now locked jobs with
  | none => (none, jobs)
  | some next =>
      let jobs := jobs.updateWhere (fun row => row.jobUuid = next.jobUuid && row.status = .pending)
        (claimedRow store workerId leaseToken leaseSeconds now)
        (claimedRow_jobUuid store workerId leaseToken leaseSeconds now)
      (jobs.get? next.jobUuid, jobs)

/-- The transaction of a claim: SQLite recovers the stale jobs in it, and locks the whole table. -/
def claimNextExtractionJob (store : Store) (workerId leaseToken : String) (leaseSeconds : ℕ)
    (now : Timestamp) (locked : List String) (jobs : Jobs) : Option JobRow × Jobs :=
  match store with
  | .sqlite =>
      claimPending .sqlite workerId leaseToken leaseSeconds now [] (recoverStale .sqlite now jobs)
  | .postgres => claimPending .postgres workerId leaseToken leaseSeconds now locked jobs

/-! ### Leases -/

/-- Whether a row runs under the lease of a claim at a time. A row without a token matches none. -/
def ownsLease (claim : ClaimedJob) (now : Timestamp) (row : JobRow) : Bool :=
  row.jobUuid = claim.job.jobUuid && row.status = .running && row.lockedBy = some claim.workerId &&
    row.leaseToken.isSome && row.leaseToken = claim.job.leaseToken &&
    row.leaseGeneration = claim.job.leaseGeneration && row.leaseExpiresAt.any (now ≤ ·)

/-- Whether the claim's lease is owned. -/
def selectLease (claim : ClaimedJob) (now : Timestamp) (jobs : Jobs) : Bool :=
  jobs.rows.any fun row => ownsLease claim now row && row.jobType = .memoryExtraction

/-- A row with its lease renewed. -/
def renewedRow (leaseSeconds : ℕ) (now : Timestamp) (row : JobRow) : JobRow :=
  { row with
    leaseExpiresAt := some (addSeconds now leaseSeconds)
    lockedAt := some now
    updatedAt := some now }

@[simp] lemma renewedRow_jobUuid (leaseSeconds : ℕ) (now : Timestamp) (row : JobRow) :
    (renewedRow leaseSeconds now row).jobUuid = row.jobUuid := rfl

/-- Renew the claim's lease, if it is owned. -/
def renewLease (claim : ClaimedJob) (leaseSeconds : ℕ) (now : Timestamp) (jobs : Jobs) :
    Bool × Jobs :=
  (jobs.countWhere (ownsLease claim now) = 1,
    jobs.updateWhere (ownsLease claim now) (renewedRow leaseSeconds now)
      (renewedRow_jobUuid leaseSeconds now))

/-! ### Results -/

/-- A row that has succeeded. -/
def succeededRow (store : Store) (finished : Timestamp) (row : JobRow) : JobRow :=
  { row with
    status := .succeeded
    lockedBy := none
    lockedAt := none
    lastError := none
    lastErrorSanitized := none
    runAfter := none
    updatedAt := match store with
      | .sqlite => row.updatedAt
      | .postgres => some finished }

@[simp] lemma succeededRow_jobUuid (store : Store) (finished : Timestamp) (row : JobRow) :
    (succeededRow store finished row).jobUuid = row.jobUuid := rfl

/-- A claimed row that has succeeded. -/
def finishedRow (store : Store) (finished : Timestamp) (row : JobRow) : JobRow :=
  { succeededRow store finished row with leaseToken := none, leaseExpiresAt := none }

@[simp] lemma finishedRow_jobUuid (store : Store) (finished : Timestamp) (row : JobRow) :
    (finishedRow store finished row).jobUuid = row.jobUuid := rfl

/-- Whether a row is open text unitization for a message. -/
def isOpenUnitization (store : Store) (messageUuid : String) (row : JobRow) : Bool :=
  row.jobType = .textUnitization && (row.status = .pending || row.status = .running) &&
    match store with
    | .sqlite => like ("%\"".toList ++ messageUuid.toList ++ "\"%".toList) row.payloadIjson
    | .postgres =>
        match row.payloadJsonb.bind fun payload => Dict.get? payload "message_uuid".toList with
        | some (.str text) => text = messageUuid.toList
        | _ => false

/-- Finish an attempt, in PostgreSQL. -/
def finishAttempt (store : Store) (attemptUuid : String) (status : JobAttemptStatus)
    (finished : Timestamp) (error : Option String) (attempts : List JobAttemptRow) :
    List JobAttemptRow :=
  match store with
  | .sqlite => attempts
  | .postgres => attempts.map fun attempt =>
      if attempt.jobAttemptUuid = attemptUuid then
        { attempt with status := status, finishedAt := some finished, errorSanitized := error }
      else attempt

/-- Record that a claimed job has succeeded, if its lease is owned. -/
def recordSuccess (store : Store) (claim : ClaimedJob) (attemptUuid messageUuid : String)
    (finished : Timestamp) (tables : JobTables) : Bool × JobTables :=
  if tables.jobs.countWhere (ownsLease claim finished) = 1 then
    let jobs := tables.jobs.updateWhere (ownsLease claim finished) (finishedRow store finished)
      (finishedRow_jobUuid store finished)
    (true,
      { jobs := jobs.updateWhere (isOpenUnitization store messageUuid) (succeededRow store finished)
          (succeededRow_jobUuid store finished)
        jobAttempts := finishAttempt store attemptUuid .succeeded finished none tables.jobAttempts })
  else (false, tables)

/-- Whether an error ends a claimed job for good. -/
def isTerminal (store : Store) (claim : ClaimedJob) (error : JobError) : Bool :=
  isTerminalMemoryJobError error ||
    (if claim.job.maxAttempts = 0 then
      match store with
      | .sqlite => 3
      | .postgres => 1
    else claim.job.maxAttempts) ≤ claim.job.attempts

/-- The recorded text of an error. -/
def JobError.sanitized (error : JobError) : String :=
  (error.sanitizedMessage.filter (· ≠ "")).getD error.typeName

/-- A claimed row that has failed: dead, or due again; PostgreSQL sets the time by its own clock. -/
def failedRow (store : Store) (claim : ClaimedJob) (error : JobError)
    (finished storeNow : Timestamp) (row : JobRow) : JobRow :=
  { row with
    status := if isTerminal store claim error then .dead else .pending
    lockedBy := none
    lockedAt := none
    leaseToken := none
    leaseExpiresAt := none
    lastError := some error.sanitized
    lastErrorSanitized := some error.sanitized
    runAfter := if isTerminal store claim error then none else
      match store with
      | .sqlite => some finished
      | .postgres => some (storeNow + second)
    updatedAt := match store with
      | .sqlite => row.updatedAt
      | .postgres => some finished }

@[simp] lemma failedRow_jobUuid (store : Store) (claim : ClaimedJob) (error : JobError)
    (finished storeNow : Timestamp) (row : JobRow) :
    (failedRow store claim error finished storeNow row).jobUuid = row.jobUuid := rfl

/-- Record that a claimed job has failed, if its lease is owned. -/
def recordFailure (store : Store) (claim : ClaimedJob) (attemptUuid : String) (error : JobError)
    (finished storeNow : Timestamp) (tables : JobTables) : Bool × JobTables :=
  if tables.jobs.countWhere (ownsLease claim finished) = 1 then
    (true,
      { jobs := tables.jobs.updateWhere (ownsLease claim finished)
          (failedRow store claim error finished storeNow)
          (failedRow_jobUuid store claim error finished storeNow)
        jobAttempts := finishAttempt store attemptUuid .failed finished (some error.sanitized)
          tables.jobAttempts })
  else (false, tables)

end Memorist
