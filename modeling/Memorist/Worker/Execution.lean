import Memorist.Library.Dict
import Memorist.Library.Prog
import Memorist.Worker.AttemptAudit

/-!
Contract-bound provider execution (`memory_worker/execution.py`).

* `ContractEffect`: what an execution asks of its surroundings, statement by statement;
* `runContractExecution`: provider call, validation, one repair, deterministic fallback.
-/

namespace Memorist

/-! ### Effects and outcomes -/

/-- The repair call's account of the answer it corrects. -/
structure Corrective where
  invalidOutput : JsonObject
  issues : List ContractIssue

/-- What an execution asks for. -/
inductive ContractEffect where
  | revalidate
  | insertAttempt (attemptIndex : ℕ) (attemptKind : AttemptKind)
  | selectAttempt (attemptIndex : ℕ)
  | countAttempts
  | run (corrective : Option Corrective)
  | finalizeAttempt (attemptIndex : ℕ) (observed : AttemptObservation)
  | deterministicOutput

/-- How a provider call ends. -/
inductive ProviderAnswer where
  | returned (attempt : ProviderAttempt)
  | failed (error : ProviderError)
  | raised (message : String)

/-- What an effect answers. -/
def ContractEffect.Response : ContractEffect → Type
  | revalidate => Except String Unit
  | insertAttempt _ _ => Inserted
  | selectAttempt _ => Option (Option String)
  | countAttempts => ℕ
  | run _ => ProviderAnswer
  | finalizeAttempt _ _ => Unit
  | deterministicOutput => Except String JsonObject

/-- The canonical statuses of a stage. -/
inductive StageStatus where
  | ok
  | abstained
  | failedOpen
  | failed
  deriving DecidableEq, Repr

/-- What an execution reports. -/
structure ContractExecutionOutcome where
  output : JsonObject
  status : StageStatus
  calledProvider : Bool
  providerOutputValid : Bool
  canonicalized : Bool
  repairAttempted : Bool
  repairSucceeded : Bool
  fallbackUsed : Bool
  fallbackReason : Option String
  capabilityMode : String
  providerResponseId : Option String
  inputTokens : ℤ
  outputTokens : ℤ
  latencyMs : ℤ
  parseStatus : ParseStatus
  attemptCount : ℕ
  validationErrorPaths : List String

/-- How an execution fails. -/
inductive ExecutionFailure where
  | noDeterministicFallback (reason : String)
  | deterministicContract (validationErrorPaths : List String)
  | raised (message : String)
  deriving DecidableEq, Repr

/-- An execution: its effects, then an outcome or a failure. -/
abbrev Execution : Type :=
  Prog ContractEffect ContractEffect.Response (Except ExecutionFailure ContractExecutionOutcome)

/-- The arguments of an execution: the capability of the provider if there is one, the validator,
whether a lease is revalidated, whether a fallback is allowed, and the audit's identity. -/
structure ContractExecution where
  provider : Option String
  validate : JsonObject → List ContractIssue
  revalidates : Bool
  allowFallback : Bool
  attemptAudit : Option FrozenProviderExecution

/-! ### Pure parts -/

section

variable (U : UnicodeData)

/-- A member of an object. -/
def JsonObject.get? (output : JsonObject) (key : String) : Option IJson :=
  Dict.get? output key.toList

/-- Python's `text.strip().lower()`. -/
def stripLower (text : Text) : Text := (U.strip text).flatMap U.lower

/-- Project the status of an output and the use of a fallback onto the stage vocabulary. -/
def stageStatusForOutput (outputStatus : Option IJson) (fallbackUsed providerFailed : Bool) :
    StageStatus :=
  if fallbackUsed && providerFailed then .failedOpen
  else
    match outputStatus with
    | some (.str text) =>
        let status := stripLower U text
        if status = "abstain".toList ∨ status = "abstained".toList then .abstained
        else if status = "reject".toList ∨ status = "error".toList ∨ status = "failed".toList then
          .failed
        else .ok
    -- the text of any other value names no status
    | _ => .ok

/-- The documented status alias of an output, applied when it makes the output valid. -/
def canonicalize (validate : JsonObject → List ContractIssue) (output : JsonObject) :
    Option JsonObject :=
  match output.get? "status" with
  | some (.str status) =>
      if stripLower U status = "success".toList then
        let candidate := Dict.set output "status".toList (.str "ok".toList)
        if validate candidate = [] then some candidate else none
      else none
  | _ => none

/-- The first twenty paths of issues, each once. -/
def issuePaths (issues : List ContractIssue) : List String :=
  ((issues.map fun issue => if issue.path = "" then "(root)" else issue.path).eraseDups).take 20

/-- Python's truth and `len` of an optional value: nothing for what is falsy. -/
def truthyLength : Option IJson → Option (Except String ℕ)
  | some (.arr items) => if items.isEmpty then none else some (.ok items.length)
  | some (.obj members) => if members.isEmpty then none else some (.ok members.length)
  | some (.str text) => if text.isEmpty then none else some (.ok text.length)
  | some (.int i) => if i = 0 then none else some (.error "object of type 'int' has no len()")
  | some (.bool b) => if b then some (.error "object of type 'bool' has no len()") else none
  | _ => none

/-- The number of records of a deterministic output. -/
def outputSize (output : JsonObject) : Except String ℕ :=
  (((truthyLength (output.get? "items")).or (truthyLength (output.get? "sentences"))).or
    (truthyLength (output.get? "semantic_units"))).getD (.ok 0)

/-- What an execution has observed when it reports. -/
structure ExecutionFacts where
  repairAttempted : Bool
  parseStatus : ParseStatus
  providerResponseId : Option String := none
  inputTokens : ℤ := 0
  outputTokens : ℤ := 0
  latencyMs : ℤ := 0
  validationErrorPaths : List String := []

/-- The outcome of a valid provider output. -/
def validProviderOutcome (output : JsonObject) (capabilityMode : String) (facts : ExecutionFacts)
    (canonicalized : Bool) (attemptCount : ℕ) : ContractExecutionOutcome where
  output := output
  status := stageStatusForOutput U (output.get? "status") false false
  calledProvider := true
  providerOutputValid := true
  canonicalized := canonicalized
  repairAttempted := facts.repairAttempted
  repairSucceeded := facts.repairAttempted
  fallbackUsed := false
  fallbackReason := none
  capabilityMode := capabilityMode
  providerResponseId := facts.providerResponseId
  inputTokens := facts.inputTokens
  outputTokens := facts.outputTokens
  latencyMs := facts.latencyMs
  parseStatus := .parsed
  attemptCount := attemptCount
  validationErrorPaths := []

/-- The outcome of a fallback. -/
def fallbackOutcome (output : JsonObject) (reason capabilityMode : String) (facts : ExecutionFacts)
    (attemptCount : ℕ) : ContractExecutionOutcome where
  output := output
  status := stageStatusForOutput U (output.get? "status") true true
  calledProvider := true
  providerOutputValid := false
  canonicalized := false
  repairAttempted := facts.repairAttempted
  repairSucceeded := false
  fallbackUsed := true
  fallbackReason := some reason
  capabilityMode := capabilityMode
  providerResponseId := facts.providerResponseId
  inputTokens := facts.inputTokens
  outputTokens := facts.outputTokens
  latencyMs := facts.latencyMs
  parseStatus := facts.parseStatus
  attemptCount := attemptCount
  validationErrorPaths := facts.validationErrorPaths

/-- The outcome of a profile without a provider. -/
def deterministicOutcome (output : JsonObject) (size : ℕ) : ContractExecutionOutcome where
  output := output
  status := stageStatusForOutput U (output.get? "status") false false
  calledProvider := false
  providerOutputValid := false
  canonicalized := false
  repairAttempted := false
  repairSucceeded := false
  fallbackUsed := false
  fallbackReason := none
  capabilityMode := "deterministic"
  providerResponseId := none
  inputTokens := 0
  outputTokens := size
  latencyMs := 0
  parseStatus := .notCalled
  attemptCount := 0
  validationErrorPaths := []

end

/-! ### The execution -/

/-- The answers of the reservation. -/
inductive Reservation where
  | reserved
  | unknownCompletion
  | completed
  deriving DecidableEq, Repr

/-- Why a refused execution falls back. -/
def Reservation.reason : Reservation → String
  | unknownCompletion => "provider_attempt_unknown_completion"
  | _ => "provider_attempt_already_completed"

/-- The parse status of a refused execution. -/
def Reservation.parseStatus : Reservation → ParseStatus
  | unknownCompletion => .unknownCompletion
  | _ => .completed

section

variable (P : Platform) (c : ContractExecution)

/-- Revalidate the lease where there is one; an invalidation propagates. -/
def revalidated (next : Execution) : Execution :=
  if c.revalidates then
    .call .revalidate fun
      | .error message => .done (.error (.raised message))
      | .ok () => next
  else next

/-- Reserve an attempt, where attempts are audited. -/
def reserve (attemptIndex : ℕ) (attemptKind : AttemptKind) (next : Reservation → Execution) :
    Execution :=
  match c.attemptAudit with
  | none => next .reserved
  | some _ =>
      .call (.insertAttempt attemptIndex attemptKind) fun
        | .inserted => next .reserved
        | .violation => .done (.error (.raised "UNIQUE constraint failed"))
        | .conflict =>
            .call (.selectAttempt attemptIndex) fun
              | some (some _) => next .completed
              | _ => next .unknownCompletion

/-- Finalize an attempt, where attempts are audited. -/
def finalize (attemptIndex : ℕ) (observed : Except String AttemptObservation) (next : Execution) :
    Execution :=
  match c.attemptAudit with
  | none => next
  | some _ =>
      match observed with
      | .error message => .done (.error (.raised message))
      | .ok observed => .call (.finalizeAttempt attemptIndex observed) fun () => next

/-- The number of attempts, where attempts are audited. -/
def attemptCount (unaudited : ℕ) (next : ℕ → Execution) : Execution :=
  match c.attemptAudit with
  | none => next unaudited
  | some _ => .call .countAttempts next

/-- Fall back on the deterministic output. -/
def fallback (capabilityMode reason : String) (facts : ExecutionFacts) (attemptCount : ℕ) :
    Execution :=
  if c.allowFallback then
    .call .deterministicOutput fun
      | .error message => .done (.error (.raised message))
      | .ok output =>
          match c.validate output with
          | [] => .done (.ok
              (fallbackOutcome P.unicode output reason capabilityMode facts attemptCount))
          | issues => .done (.error (.deterministicContract (issuePaths issues)))
  else .done (.error (.noDeterministicFallback reason))

/-- Fall back on a refused reservation. -/
def refused (capabilityMode : String) (reservation : Reservation) (facts : ExecutionFacts) :
    Execution :=
  revalidated c <| attemptCount c 0 <|
    fallback P c capabilityMode reservation.reason { facts with parseStatus := reservation.parseStatus }

/-- Go on with a granted reservation, fall back on a refused one. -/
def onReservation (capabilityMode : String) (facts : ExecutionFacts) (granted : Execution) :
    Reservation → Execution
  | .reserved => granted
  | reservation => refused P c capabilityMode reservation facts

/-- The issue of an answer that is not an object. -/
def parseIssue (attempt : ProviderAttempt) : ContractIssue :=
  ⟨"(root)", "parse", (attempt.parseError.filter (· ≠ "")).getD "invalid JSON"⟩

/-- Finalize an answer and revalidate; a valid output is the outcome, an invalid one is left to
`next` with its issues. -/
def judged (capabilityMode : String) (attemptIndex : ℕ) (attempt : ProviderAttempt)
    (facts : ExecutionFacts) (next : List ContractIssue → Execution) : Execution :=
  match attempt.parsed with
  | some parsed =>
      let issues := c.validate parsed
      let canonical := if issues = [] then none else canonicalize P.unicode c.validate parsed
      finalize c attemptIndex
        (attemptObservation P attempt issues.isEmpty canonical.isSome issues) <|
      revalidated c <|
        if issues = [] then
          attemptCount c attemptIndex fun count =>
            .done (.ok (validProviderOutcome P.unicode parsed capabilityMode facts false count))
        else
          match canonical with
          | some output =>
              attemptCount c attemptIndex fun count =>
                .done (.ok (validProviderOutcome P.unicode output capabilityMode facts true count))
          | none => next issues
  | none =>
      finalize c attemptIndex (attemptObservation P attempt false false [parseIssue attempt]) <|
      revalidated c (next [])

/-- Finalize a failed call, revalidate and fall back. -/
def callFailed (capabilityMode : String) (attemptIndex : ℕ) (error : ProviderError)
    (facts : ExecutionFacts) : Execution :=
  finalize c attemptIndex (.ok (errorObservation error)) <|
  revalidated c <| attemptCount c attemptIndex <|
    fallback P c capabilityMode ("provider_" ++ error.category.value) facts

/-- Go on after a provider call. -/
def called (capabilityMode : String) (attemptIndex : ℕ) (failedFacts : ProviderError → ExecutionFacts)
    (judge : ProviderAttempt → Execution) : ProviderAnswer → Execution
  | .raised message => .done (.error (.raised message))
  | .failed error => callFailed P c capabilityMode attemptIndex error (failedFacts error)
  | .returned attempt => judge attempt

/-- Judge the answer of the repair, and fall back if it is invalid too. -/
def judgeRepair (capabilityMode : String) (facts : ExecutionFacts) (answer : ProviderAttempt) :
    Execution :=
  let facts : ExecutionFacts :=
    { facts with
      providerResponseId := (answer.providerResponseId.filter (· ≠ "")).or facts.providerResponseId
      inputTokens := facts.inputTokens + answer.inputTokens
      outputTokens := facts.outputTokens + answer.outputTokens
      latencyMs := facts.latencyMs + answer.latencyMs }
  judged P c capabilityMode 2 answer facts fun repairedIssues =>
    attemptCount c 2 <| fallback P c capabilityMode "provider_output_contract_invalid"
      (if answer.parsed.isSome then
        { facts with parseStatus := .parsed, validationErrorPaths := issuePaths repairedIssues }
      else facts)

/-- The one bounded repair of an invalid answer, then the fallback. -/
def repair (capabilityMode : String) (attempt : ProviderAttempt) (issues : List ContractIssue) :
    Execution :=
  let corrective : Corrective :=
    { invalidOutput := attempt.parsed.getD []
      issues := if issues = [] then [parseIssue attempt] else issues }
  let facts : ExecutionFacts :=
    { repairAttempted := true
      parseStatus := if attempt.parsed.isSome then .parsed else .parseFailed
      providerResponseId := attempt.providerResponseId
      inputTokens := attempt.inputTokens
      outputTokens := attempt.outputTokens
      latencyMs := attempt.latencyMs
      validationErrorPaths := issuePaths issues }
  revalidated c <| reserve c 2 .repair <| onReservation P c capabilityMode facts <|
    .call (.run (some corrective)) <| called P c capabilityMode 2
      (fun error => { facts with latencyMs := facts.latencyMs + error.latencyMs })
      (judgeRepair P c capabilityMode facts)

/-- Run a contract: provider call, validation, one repair, deterministic fallback. -/
def runContractExecution : Execution :=
  match c.provider with
  | none =>
      .call .deterministicOutput fun
        | .error message => .done (.error (.raised message))
        | .ok output =>
            match c.validate output with
            | [] =>
                match outputSize output with
                | .ok size => .done (.ok (deterministicOutcome P.unicode output size))
                | .error message => .done (.error (.raised message))
            | issues => .done (.error (.deterministicContract (issuePaths issues)))
  | some capabilityMode =>
      revalidated c <| reserve c 1 .initial <|
        onReservation P c capabilityMode { repairAttempted := false, parseStatus := .completed } <|
        .call (.run none) <| called P c capabilityMode 1
          (fun error =>
            { repairAttempted := false, parseStatus := .error, latencyMs := error.latencyMs })
          fun attempt => judged P c capabilityMode 1 attempt
            { repairAttempted := false
              parseStatus := .parsed
              providerResponseId := attempt.providerResponseId
              inputTokens := attempt.inputTokens
              outputTokens := attempt.outputTokens
              latencyMs := attempt.latencyMs }
            (repair P c capabilityMode attempt)

end

end Memorist
