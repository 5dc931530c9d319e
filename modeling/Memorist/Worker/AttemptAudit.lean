import Memorist.Text.CanonicalHash

/-!
The audit of provider attempts (`memory_worker/attempt_audit.py`).

* `ProviderAttempt`, `ProviderError`: what a provider call reports;
* `AttemptRow`: a row of `processing_provider_attempts`, reserved before the call and
  finalized after it;
* `insertAttempt`, `selectAttempt`, `countAttempts`, `finalizeAttempt`: the statements of the
  repository, each its own commit;
* `attemptRow_insertAttempt`, `attemptRow_finalizeAttempt`: what they do to the row of an
  identity.
-/

namespace Memorist

/-! ### Provider calls -/

/-- The failures of a provider call. -/
inductive ErrorCategory where
  | transport
  | timeout
  | authentication
  | quota
  | incompatible
  deriving DecidableEq, Repr

/-- The text of a failure. -/
def ErrorCategory.value : ErrorCategory → String
  | transport => "transport"
  | timeout => "timeout"
  | authentication => "authentication"
  | quota => "quota"
  | incompatible => "incompatible"

/-- A failed provider call. -/
structure ProviderError where
  category : ErrorCategory
  httpStatus : Option ℤ
  latencyMs : ℤ
  deriving DecidableEq, Repr

/-- A JSON object. -/
abbrev JsonObject : Type := List (Text × IJson)

/-- The outcome of a single provider call, without schema judgement. -/
structure ProviderAttempt where
  parsed : Option JsonObject
  parseError : Option String
  inputTokens : ℤ
  outputTokens : ℤ
  latencyMs : ℤ
  providerResponseId : Option String
  httpStatus : Option ℤ

/-- What a validator finds. -/
structure ContractIssue where
  path : String
  code : String
  message : String
  deriving DecidableEq, Repr

/-! ### Rows -/

/-- What became of the transport of an attempt. -/
inductive TransportStatus where
  | unknownCompletion
  | ok
  | failed (category : ErrorCategory)
  deriving DecidableEq, Repr

/-- What became of the text of an answer, or why there is none. -/
inductive ParseStatus where
  | notObserved
  | notCalled
  | parsed
  | parseFailed
  | error
  | unknownCompletion
  | completed
  deriving DecidableEq, Repr

/-- The kinds of attempts. -/
inductive AttemptKind where
  | initial
  | repair
  deriving DecidableEq, Repr

/-- What is known of an attempt: the columns that finalizing it sets. -/
structure AttemptObservation where
  responseOutputHash : Option String := none
  providerResponseId : Option String := none
  httpStatus : Option ℤ := none
  transportStatus : TransportStatus := .unknownCompletion
  parseStatus : ParseStatus := .notObserved
  schemaValid : Option Bool := none
  canonicalized : Bool := false
  validation : List (Text × Text) := []
  inputTokens : ℤ := 0
  outputTokens : ℤ := 0
  latencyMs : ℤ := 0
  deriving DecidableEq, Repr

/-- A row of `processing_provider_attempts`. -/
structure AttemptRow where
  providerAttemptUuid : String
  stageExecutionUuid : String
  attemptIndex : ℕ
  attemptKind : AttemptKind
  observed : AttemptObservation
  startedAt : String
  completedAt : Option String
  idempotencyIdentity : String
  deriving DecidableEq, Repr

/-- The identity that the executions of a stage share. -/
structure FrozenProviderExecution where
  stageExecutionUuid : String
  idempotencyIdentity : String
  deriving DecidableEq, Repr

/-- The namespace of URLs. -/
def namespaceUrl : String := "6ba7b811-9dad-11d1-80b4-00c04fd430c8"

/-- The name of an attempt. -/
def stableProviderAttemptUuid (P : Platform) (stageExecutionUuid : String) (attemptIndex : ℕ) :
    String :=
  P.uuid5 namespaceUrl
    ("memorist:attempt:" ++ stageExecutionUuid ++ ":" ++ toString attemptIndex)

/-- The identity of an attempt. -/
def attemptIdentity (frozen : FrozenProviderExecution) (attemptIndex : ℕ) : String :=
  frozen.idempotencyIdentity ++ ":provider:" ++ toString attemptIndex

/-- The row of an attempt. -/
def attemptRow (frozen : FrozenProviderExecution) (rows : List AttemptRow) (attemptIndex : ℕ) :
    Option AttemptRow :=
  rows.find? fun row => row.idempotencyIdentity = attemptIdentity frozen attemptIndex

/-! ### Statements -/

/-- What an insertion did. -/
inductive Inserted where
  | inserted
  | conflict
  | violation
  deriving DecidableEq, Repr

/-- A reserved row. -/
def reservedRow (P : Platform) (frozen : FrozenProviderExecution) (attemptIndex : ℕ)
    (attemptKind : AttemptKind) (startedAt : String) : AttemptRow where
  providerAttemptUuid := stableProviderAttemptUuid P frozen.stageExecutionUuid attemptIndex
  stageExecutionUuid := frozen.stageExecutionUuid
  attemptIndex := attemptIndex
  attemptKind := attemptKind
  observed := {}
  startedAt := startedAt
  completedAt := none
  idempotencyIdentity := attemptIdentity frozen attemptIndex

/-- Insert the row of an attempt unless its identity has one; another row under its name or its
index is a violation. -/
def insertAttempt (P : Platform) (frozen : FrozenProviderExecution) (attemptIndex : ℕ)
    (attemptKind : AttemptKind) (now : String) (rows : List AttemptRow) :
    Inserted × List AttemptRow :=
  let row := reservedRow P frozen attemptIndex attemptKind now
  if (attemptRow frozen rows attemptIndex).isSome then (.conflict, rows)
  else if rows.any fun other => other.providerAttemptUuid = row.providerAttemptUuid ∨
      (other.stageExecutionUuid = row.stageExecutionUuid ∧
        other.attemptIndex = row.attemptIndex) then (.violation, rows)
  else (.inserted, rows ++ [row])

/-- The time of completion of an attempt, if it has a row. -/
def selectAttempt (frozen : FrozenProviderExecution) (attemptIndex : ℕ) (rows : List AttemptRow) :
    Option (Option String) :=
  (attemptRow frozen rows attemptIndex).map AttemptRow.completedAt

/-- The number of attempts of a stage. -/
def countAttempts (frozen : FrozenProviderExecution) (rows : List AttemptRow) : ℕ :=
  rows.countP fun row => row.stageExecutionUuid = frozen.stageExecutionUuid

/-- Record what is known of an attempt, unless it is completed. -/
def finalizeAttempt (frozen : FrozenProviderExecution) (attemptIndex : ℕ)
    (observed : AttemptObservation) (now : String) (rows : List AttemptRow) : List AttemptRow :=
  rows.map fun row =>
    if row.stageExecutionUuid = frozen.stageExecutionUuid ∧ row.attemptIndex = attemptIndex ∧
        row.completedAt = none then
      { row with observed := observed, completedAt := some now }
    else row

/-! ### Observations -/

/-- The recorded form of issues: the first twenty, shortened. -/
def recordedIssues (issues : List ContractIssue) : List (Text × Text) :=
  (issues.take 20).map fun issue =>
    ((if issue.path = "" then "(root)" else issue.path).toList.take 160,
      (if issue.code = "" then "invalid" else issue.code).toList.take 80)

/-- What is recorded of an answer. -/
def attemptObservation (P : Platform) (attempt : ProviderAttempt)
    (schemaValid canonicalized : Bool) (issues : List ContractIssue) :
    Except String AttemptObservation := do
  let outputHash ← attempt.parsed.mapM fun parsed => canonicalHashIjson P (.obj parsed)
  pure
    { responseOutputHash := outputHash
      providerResponseId := attempt.providerResponseId
      httpStatus := attempt.httpStatus
      transportStatus := .ok
      parseStatus := if attempt.parsed.isSome then .parsed else .parseFailed
      schemaValid := some schemaValid
      canonicalized := canonicalized
      validation := recordedIssues issues
      inputTokens := attempt.inputTokens
      outputTokens := attempt.outputTokens
      latencyMs := attempt.latencyMs }

/-- What is recorded of a failure. -/
def errorObservation (error : ProviderError) : AttemptObservation where
  httpStatus := error.httpStatus
  transportStatus := .failed error.category
  parseStatus := .error
  schemaValid := some false
  validation := [("(transport)".toList, error.category.value.toList)]
  latencyMs := error.latencyMs

/-! ### What the statements do to a row -/

section

variable {P : Platform} {frozen : FrozenProviderExecution} {rows rows' : List AttemptRow}
  {i j : ℕ} {kind : AttemptKind} {now : String} {observed : AttemptObservation}

lemma insertAttempt_cases (P : Platform) (frozen : FrozenProviderExecution) (i : ℕ)
    (kind : AttemptKind) (now : String) (rows : List AttemptRow) :
    (insertAttempt P frozen i kind now rows = (.conflict, rows) ∧
      (attemptRow frozen rows i).isSome) ∨
    insertAttempt P frozen i kind now rows = (.violation, rows) ∨
    (insertAttempt P frozen i kind now rows =
        (.inserted, rows ++ [reservedRow P frozen i kind now]) ∧
      attemptRow frozen rows i = none) := by
  simp only [insertAttempt]
  split_ifs with hrow hother
  · exact .inl ⟨rfl, hrow⟩
  · exact .inr (.inl rfl)
  · exact .inr (.inr ⟨rfl, Option.not_isSome_iff_eq_none.mp hrow⟩)

/-- A row is found after any insertion as it was before. -/
lemma attemptRow_insertAttempt (P : Platform) (i : ℕ) (kind : AttemptKind) (now : String)
    {row : AttemptRow} (h : attemptRow frozen rows j = some row) :
    attemptRow frozen (insertAttempt P frozen i kind now rows).2 j = some row := by
  rcases insertAttempt_cases P frozen i kind now rows with ⟨heq, -⟩ | heq | ⟨heq, -⟩
  · rw [heq, h]
  · rw [heq, h]
  · rw [heq, attemptRow, List.find?_append, ← attemptRow, h, Option.some_or]

/-- An insertion leaves a row for its attempt, unless another row stands in its place. -/
lemma attemptRow_inserted (h : (insertAttempt P frozen i kind now rows).1 = .inserted) :
    attemptRow frozen rows i = none ∧
      attemptRow frozen (insertAttempt P frozen i kind now rows).2 i =
        some (reservedRow P frozen i kind now) := by
  rcases insertAttempt_cases P frozen i kind now rows with ⟨heq, -⟩ | heq | ⟨heq, hnone⟩
  · rw [heq] at h
    exact absurd h (by simp)
  · rw [heq] at h
    exact absurd h (by simp)
  · refine ⟨hnone, ?_⟩
    rw [heq, attemptRow, List.find?_append, ← attemptRow, hnone, Option.none_or]
    simp [reservedRow]

/-- Finalizing changes a row that is not completed, and completes it. -/
lemma attemptRow_finalizeAttempt :
    attemptRow frozen (finalizeAttempt frozen i observed now rows) j =
      (attemptRow frozen rows j).map fun row =>
        if row.stageExecutionUuid = frozen.stageExecutionUuid ∧ row.attemptIndex = i ∧
            row.completedAt = none then
          { row with observed := observed, completedAt := some now }
        else row := by
  rw [attemptRow, finalizeAttempt, List.find?_map, attemptRow]
  congr 2
  funext row
  simp only [Function.comp_apply]
  split_ifs <;> rfl

end

end Memorist
