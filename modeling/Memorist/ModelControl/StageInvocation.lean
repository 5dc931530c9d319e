import Memorist.Storage.Sql
import Memorist.Text.PyRepr
import Memorist.Text.RoundTrip

/-!
The calls of a model for a stage (`model_control/stage_invocation.py`,
`model_control/stage_status.py`).

* `StageRequest`, `StageResolution`, `StageCall`: a call, and what it meets;
* `StageRow`, `existing`: what is stored of a stage, and whether it is replayed;
* `attempt`, `finish`, `persistResult`: the output of a call, its result, and its storing;
* `invokeStructured`: a call.
-/

namespace Memorist.StageInvocation

variable {F : Type}

/-! ### Calls -/

/-- The statuses of a stage. -/
inductive StageStatus where
  | ok
  | abstained
  | failedOpen
  | failed
  deriving DecidableEq, Repr

/-- The text of a status. -/
def StageStatus.value : StageStatus → String
  | ok => "ok"
  | abstained => "abstained"
  | failedOpen => "failed_open"
  | failed => "failed"

/-- What an exception is an instance of. -/
inductive ExceptionBase where
  | keyError
  | typeError
  | valueError
  | other
  deriving DecidableEq, Repr

/-- An exception that is no `LeaseFenceRejected`; its text is the sanitized one. -/
structure StageException where
  base : ExceptionBase
  className : Text
  message : Text
  deriving DecidableEq, Repr

/-- `IJsonValidationError`. -/
def ijsonError (message : String) : StageException where
  base := .valueError
  className := "IJsonValidationError".toList
  message := message.toList

/-- The error of a result whose output has another hash. -/
def outputHashError : StageException where
  base := .valueError
  className := "ValueError".toList
  message := "stage output hash does not match validated output".toList

/-- The error of a result that is not replayed once it is stored. -/
def replayError : StageException where
  base := .other
  className := "RuntimeError".toList
  message := "persisted stage result failed replay validation".toList

/-- A `dict`: its keys are distinct, at any depth. -/
structure JsonObject (F : Type) where
  members : Mapping F
  dicts : Json.Dicts (.obj members)

/-- A request. -/
structure StageRequest (F : Type) where
  role : String
  stage : String
  sourceType : String
  sourceUuid : String
  inputPayload : Mapping F
  processingRunUuid : Option String := none
  workspaceUuid : Option String := none
  projectUuid : Option String := none
  sessionUuid : Option String := none
  messageUuid : Option String := none
  promptId : Option String := none
  promptVersion : Option String := none
  idempotencyKey : Option String := none

/-- The model that a role is resolved to. -/
structure StageResolution where
  effectiveRole : String
  modelProfileUuid : Option String := none
  providerType : String
  modelName : String
  scopeSource : String
  inheritanceSource : Option String := none
  fallbackReason : Option String := none
  builtIn : Bool := false
  failOpen : Bool
  deriving DecidableEq, Repr

/-- What a provider answers. -/
structure ProviderResponse (F : Type) where
  output : JsonObject F
  inputTokens : ℕ
  outputTokens : ℕ

/-- What is asked of a stage: the request, the model it is resolved to, the check of an output and the
output without a model. -/
structure Stage (F : Type) where
  request : StageRequest F
  resolution : StageResolution
  validator : Mapping F → Except StageException Unit
  deterministicOutput : Mapping F → Except StageException (JsonObject F)

/-- What a call meets: the answer of the provider, or the exception on the way to it, what the lease
fence lets pass, and its clock and uuid. -/
structure StageCall (F : Type) where
  provider : Except StageException (ProviderResponse F)
  passesBeforeProvider : Bool := true
  keepsResolution : Bool := true
  passesWrite : Bool := true
  executionUuid : String
  createdAt : String
  completedAt : String
  latencyMs : ℕ

/-! ### What is stored -/

/-- A column of JSON: a text, or a value of `JSONB`. -/
inductive Cell (F : Type) where
  | text (text : Text)
  | jsonb (value : Json F)

/-- The stores: `JSONB` reads back arrays of texts as they are. -/
structure Backend (N : Floats F) where
  store : Store
  jsonb : Text → Json F
  jsonb_strs : ∀ texts : List Text, jsonb ((Json.arr (texts.map Json.str)).print N) =
    .arr (texts.map Json.str)

/-- A row of `processing_stage_runs`. -/
structure StageRow (F : Type) where
  stageExecutionUuid : String
  processingRunUuid : Option String
  sourceType : String
  sourceUuid : String
  requestedRole : String
  effectiveRole : String
  stage : String
  modelProfileUuid : Option String
  providerType : String
  modelName : String
  promptId : Option String
  promptVersion : Option String
  inputHash : String
  outputHash : Option String
  status : Text
  calledProvider : Bool
  fallbackUsed : Bool
  scopeSource : String
  inheritanceSource : Option String
  fallbackReason : Option String
  detailSanitized : Option Text
  validationErrors : Option (Cell F)
  output : Option (Cell F)
  inputTokens : ℕ
  outputTokens : ℕ
  embeddingCount : ℕ
  latencyMs : ℕ
  idempotencyKey : String
  createdAt : String
  completedAt : Option String
  schemaVersion : ℕ

/-- A result. -/
structure StageResult (F : Type) where
  executionUuid : String
  role : String
  effectiveRole : String
  modelProfileUuid : Option String
  providerType : String
  modelName : String
  promptVersion : Option String
  inputHash : String
  outputHash : Option String
  status : StageStatus
  output : Option (Mapping F)
  detailSanitized : Option Text
  latencyMs : ℕ
  inputTokens : ℕ
  outputTokens : ℕ
  embeddingCount : ℕ := 0
  calledProvider : Bool
  fallbackUsed : Bool
  scopeSource : String
  inheritanceSource : Option String
  fallbackReason : Option String
  validationErrors : List Text
  createdAt : String
  idempotentReplay : Bool := false

/-- What is recorded of the usage of a model. -/
structure UsageEventCreate where
  role : String
  stage : String
  modelProfileUuid : Option String
  providerType : String
  modelName : String
  workspaceUuid : Option String
  projectUuid : Option String
  sessionUuid : Option String
  messageUuid : Option String
  inputTokens : ℕ
  outputTokens : ℕ
  embeddingCount : ℕ
  latencyMs : ℕ
  status : StageStatus
  errorClass : Option Text
  errorMessageSanitized : Option Text
  deriving DecidableEq, Repr

/-- What the store has of an identity: its row, and the usage recorded. -/
structure StageStore (F : Type) where
  row : Option (StageRow F) := none
  usage : List UsageEventCreate := []

/-- Why a call does not return. -/
inductive StageError where
  | leaseFence
  | raised (exception : StageException)
  deriving DecidableEq, Repr

section

variable (P : Platform) (N : Floats F)

/-! ### Replays -/

/-- `normalize_stage_status`. -/
def normalizeStageStatus (status : Text) : Option StageStatus :=
  let text := String.ofList (P.unicode.lowerText (P.unicode.strip status))
  if text = "ok" ∨ text = "success" ∨ text = "succeeded" then some .ok
  else if text = "abstained" ∨ text = "abstain" ∨ text = "disabled" then some .abstained
  else if text = "failed_open" ∨ text = "fallback" ∨ text = "degraded" then some .failedOpen
  else if text = "failed" ∨ text = "error" then some .failed
  else none

/-- A canonical hash, or the error it raises. -/
def hashIjson (value : Json F) : Except StageException String :=
  (canonicalHashJson P N value).mapError ijsonError

/-- The value of a column. -/
def readCell : Cell F → Except StageException (Json F)
  | .text text => (loadIjson P.unicode N text).mapError ijsonError
  | .jsonb (.str text) => (loadIjson P.unicode N text).mapError ijsonError
  | .jsonb value => .ok value

/-- The value of an optional column. -/
def readColumn : Option (Cell F) → Except StageException (Option (Json F))
  | some cell => (readCell P N cell).map some
  | none => .ok none

/-- The metadata of a row are those of a request. -/
def SameMetadata (request : StageRequest F) (resolution : StageResolution) (row : StageRow F) : Prop :=
  row.sourceType = request.sourceType ∧ row.sourceUuid = request.sourceUuid ∧
    row.requestedRole = request.role ∧ row.effectiveRole = resolution.effectiveRole ∧
    row.stage = request.stage ∧ row.modelProfileUuid = resolution.modelProfileUuid ∧
    row.providerType = resolution.providerType ∧ row.modelName = resolution.modelName ∧
    row.promptId = request.promptId ∧ row.promptVersion = request.promptVersion

instance (request : StageRequest F) (resolution : StageResolution) :
    DecidablePred (SameMetadata request resolution) := fun _ => by
  unfold SameMetadata
  infer_instance

/-- The output of a replayed row has the hash of the row; a row without an output has none. -/
def checkOutput (validator : Mapping F → Except StageException Unit) (outputHash : Option String) :
    Option (Mapping F) → Except StageException Bool
  | some output => do
      validator output
      let hash ← hashIjson P N (.obj output)
      return outputHash = some hash
  | none => return outputHash = none

/-- The result of a row. -/
def resultOfRow (row : StageRow F) (status : StageStatus) (output : Option (Mapping F))
    (validationErrors : List Text) : StageResult F where
  executionUuid := row.stageExecutionUuid
  role := row.requestedRole
  effectiveRole := row.effectiveRole
  modelProfileUuid := row.modelProfileUuid
  providerType := row.providerType
  modelName := row.modelName
  promptVersion := row.promptVersion
  inputHash := row.inputHash
  outputHash := row.outputHash
  status := status
  output := output
  detailSanitized := row.detailSanitized
  latencyMs := row.latencyMs
  inputTokens := row.inputTokens
  outputTokens := row.outputTokens
  embeddingCount := row.embeddingCount
  calledProvider := row.calledProvider
  fallbackUsed := row.fallbackUsed
  scopeSource := if row.scopeSource = "" then "unknown" else row.scopeSource
  inheritanceSource := row.inheritanceSource
  fallbackReason := row.fallbackReason
  validationErrors := validationErrors
  createdAt := row.createdAt

/-- The texts of the errors of a row. -/
def errorTexts : Option (Json F) → List Text
  | some (.arr items) => items.map (strValue P.unicode N)
  | _ => []

/-- The output that a column has; `none` where it has something else. -/
def outputOf : Option (Json F) → Option (Option (Mapping F))
  | some (.obj output) => some (some output)
  | none | some .null => some none
  | some _ => none

/-- The result of a row, unless it is not to be replayed. -/
def replayRow (stage : Stage F) (row : StageRow F) : Except StageException (Option (StageResult F)) := do
  let validation ← readColumn P N row.validationErrors
  let outputValue ← readColumn P N row.output
  match outputOf outputValue with
  | some output => replayOutput validation output
  | none => return none
where
  replayOutput (validation : Option (Json F)) (output : Option (Mapping F)) :
      Except StageException (Option (StageResult F)) :=
    match normalizeStageStatus P row.status with
    | none => .error (ijsonError "unknown processing stage status")
    | some status =>
        if (status = .ok ∨ status = .failedOpen) ∧ output = none then .ok none
        else if ¬SameMetadata stage.request stage.resolution row then .ok none
        else if row.schemaVersion ≠ 1 then .ok none
        else do
          let expectedInputHash ← hashIjson P N (.obj stage.request.inputPayload)
          if row.inputHash ≠ expectedInputHash then return none
          else
            let same ← checkOutput P N stage.validator row.outputHash output
            return if same then some (resultOfRow row status output (errorTexts P N validation)) else none

/-- The stored result of an identity: none too where the check of the row raises an error that tells of
a corrupt one. -/
def existing (stage : Stage F) : Option (StageRow F) → Except StageException (Option (StageResult F))
  | none => .ok none
  | some row =>
      match replayRow P N stage row with
      | .ok result => .ok result
      | .error exception => if exception.base = .other then .error exception else .ok none

/-! ### The output of a call -/

/-- What a call comes to before its result is built. -/
structure Attempt (F : Type) where
  status : StageStatus := .ok
  output : Option (JsonObject F) := none
  detail : Option Text := none
  validationErrors : List Text := []
  fallbackUsed : Bool
  inputTokens : ℕ := 0
  outputTokens : ℕ := 0

/-- A model is asked. -/
def Stage.callsProvider (stage : Stage F) : Bool :=
  stage.resolution.providerType ≠ "deterministic" ∧ stage.resolution.providerType ≠ "disabled"

/-- The output without a model, if it is accepted. -/
def Stage.fallback (stage : Stage F) : Except StageException (JsonObject F) := do
  let output ← stage.deterministicOutput stage.request.inputPayload
  stage.validator output.members
  return output

/-- The exception of a check, if it raises one. -/
def raisedBy : Except StageException Unit → Option StageException
  | .ok () => none
  | .error exception => some exception

/-- A provider is asked between two looks at the lease and at the profile. -/
def askProvider (stage : Stage F) (call : StageCall F) (begun : Attempt F) :
    Except StageError (Attempt F × Option StageException) :=
  if ¬call.passesBeforeProvider then .error .leaseFence
  else
    match call.provider with
    | .error exception => .ok (begun, some exception)
    | .ok response =>
        let received : Attempt F := { begun with
          output := some response.output
          inputTokens := response.inputTokens
          outputTokens := response.outputTokens }
        match stage.validator response.output.members with
        | .error exception => .ok (received, some exception)
        | .ok () => if call.keepsResolution then .ok (received, none) else .error .leaseFence

/-- The part of a call whose exceptions are caught. -/
def guarded (stage : Stage F) (call : StageCall F) :
    Except StageError (Attempt F × Option StageException) :=
  let resolution := stage.resolution
  let begun : Attempt F :=
    { fallbackUsed := resolution.builtIn || resolution.inheritanceSource.isSome }
  if resolution.providerType = "disabled" then
    .ok ({ begun with
      status := .abstained
      detail := some ((resolution.fallbackReason.filter (· ≠ "")).getD "role is disabled").toList },
      none)
  else if resolution.providerType = "deterministic" then
    match stage.deterministicOutput stage.request.inputPayload with
    | .error exception => .ok (begun, some exception)
    | .ok output =>
        .ok ({ begun with output := some output }, raisedBy (stage.validator output.members))
  else askProvider stage call begun

/-- What is made of a caught exception. -/
def handle (stage : Stage F) (begun : Attempt F) (exception : StageException) : Attempt F :=
  let detail := some exception.message
  let errors := [exception.className]
  if stage.resolution.failOpen then
    match stage.fallback with
    | .ok output => { begun with
        status := .failedOpen
        output := some output
        detail := detail
        validationErrors := errors
        fallbackUsed := true }
    | .error other => { begun with
        status := .failedOpen
        output := none
        detail := detail
        validationErrors := errors ++ [other.className] }
  else { begun with status := .failed, detail := detail, validationErrors := errors }

/-- What a call comes to. -/
def attempt (stage : Stage F) (call : StageCall F) : Except StageError (Attempt F) := do
  let (begun, exception) ← guarded stage call
  return exception.elim begun (handle stage begun)

/-- The hash of an output, if there is one. -/
def hashOutput : Option (Mapping F) → Except StageException (Option String)
  | some output => (hashIjson P N (.obj output)).map some
  | none => .ok none

/-- The result of a call. -/
def finish (stage : Stage F) (call : StageCall F) (attempt : Attempt F) :
    Except StageException (StageResult F) := do
  let inputHash ← hashIjson P N (.obj stage.request.inputPayload)
  let outputHash ← hashOutput P N (attempt.output.map JsonObject.members)
  return {
    executionUuid := call.executionUuid
    role := stage.request.role
    effectiveRole := stage.resolution.effectiveRole
    modelProfileUuid := stage.resolution.modelProfileUuid
    providerType := stage.resolution.providerType
    modelName := stage.resolution.modelName
    promptVersion := stage.request.promptVersion
    inputHash := inputHash
    outputHash := outputHash
    status := attempt.status
    output := attempt.output.map JsonObject.members
    detailSanitized := attempt.detail
    latencyMs := call.latencyMs
    inputTokens := attempt.inputTokens
    outputTokens := attempt.outputTokens
    calledProvider := stage.callsProvider
    fallbackUsed := attempt.fallbackUsed
    scopeSource := stage.resolution.scopeSource
    inheritanceSource := stage.resolution.inheritanceSource
    fallbackReason := stage.resolution.fallbackReason
    validationErrors := attempt.validationErrors
    createdAt := call.createdAt }

/-! ### What a call stores -/

/-- What identifies a stage, in the order of the names. -/
def identityFields (stage : Stage F) (inputHash : String) : List (String × Option String) :=
  [("effective_role", some stage.resolution.effectiveRole),
   ("input_hash", some inputHash),
   ("model_name", some stage.resolution.modelName),
   ("model_profile_uuid", stage.resolution.modelProfileUuid),
   ("prompt_id", stage.request.promptId),
   ("prompt_version", stage.request.promptVersion),
   ("provider_type", some stage.resolution.providerType),
   ("role", some stage.request.role),
   ("schema_version", some "1.0"),
   ("source_type", some stage.request.sourceType),
   ("source_uuid", some stage.request.sourceUuid),
   ("stage", some stage.request.stage)]

/-- Python's `repr` of a text or of `None`. -/
def reprOptional : Option String → Text
  | some text => reprText P.unicode text.toList
  | none => "None".toList

/-- Python's `repr` of the item of a `dict`. -/
def reprItem (item : String × Option String) : Text :=
  '(' :: (reprText P.unicode item.1.toList ++ (", ".toList ++ (reprOptional P item.2 ++ [')'])))

/-- Python's `str` of a list of items. -/
def reprItems (items : List (String × Option String)) : Text :=
  '[' :: (List.intercalate ", ".toList (items.map (reprItem P)) ++ [']'])

/-- `_stage_identity`. -/
def stageIdentity (stage : Stage F) : Except StageException String := do
  let inputHash ← hashIjson P N (.obj stage.request.inputPayload)
  return P.sha256 (reprItems P (identityFields stage inputHash))

/-- The name of what is stored of a stage. -/
def identityOf (stage : Stage F) : Except StageException String :=
  match stage.request.idempotencyKey with
  | some key => if key = "" then stageIdentity P N stage else .ok key
  | none => stageIdentity P N stage

variable {N} (B : Backend N)

/-- A text in a column of JSON. -/
def Backend.cell (text : Text) : Cell F :=
  match B.store with
  | .sqlite => .text text
  | .postgres => .jsonb (B.jsonb text)

/-- An output in a column of JSON. -/
def outputCell : Option (Mapping F) → Except StageException (Option (Cell F))
  | some output => do
      let text ← (dumpJson P.unicode N (.obj output)).mapError ijsonError
      return some (B.cell text)
  | none => .ok none

/-- `_record`: the row of an identity, of which an earlier one keeps its uuid and its time. -/
def record (stage : Stage F) (call : StageCall F) (result : StageResult F) (identity : String)
    (earlier : Option (StageRow F)) : Except StageException (StageRow F) := do
  let validationErrors ←
    (dumpJson P.unicode N (.arr (result.validationErrors.map Json.str))).mapError ijsonError
  let output ← outputCell P B result.output
  return {
    stageExecutionUuid := (earlier.map StageRow.stageExecutionUuid).getD result.executionUuid
    processingRunUuid := stage.request.processingRunUuid
    sourceType := stage.request.sourceType
    sourceUuid := stage.request.sourceUuid
    requestedRole := result.role
    effectiveRole := result.effectiveRole
    stage := stage.request.stage
    modelProfileUuid := result.modelProfileUuid
    providerType := result.providerType
    modelName := result.modelName
    promptId := stage.request.promptId
    promptVersion := stage.request.promptVersion
    inputHash := result.inputHash
    outputHash := result.outputHash
    status := result.status.value.toList
    calledProvider := result.calledProvider
    fallbackUsed := result.fallbackUsed
    scopeSource := result.scopeSource
    inheritanceSource := result.inheritanceSource
    fallbackReason := result.fallbackReason
    detailSanitized := result.detailSanitized
    validationErrors := some (B.cell validationErrors)
    output := output
    inputTokens := result.inputTokens
    outputTokens := result.outputTokens
    embeddingCount := result.embeddingCount
    latencyMs := result.latencyMs
    idempotencyKey := identity
    createdAt := (earlier.map StageRow.createdAt).getD result.createdAt
    completedAt := some call.completedAt
    schemaVersion := 1 }

/-- `_record_usage`. -/
def usageEvent (request : StageRequest F) (result : StageResult F) : UsageEventCreate where
  role := result.role
  stage := request.stage
  modelProfileUuid := result.modelProfileUuid
  providerType := result.providerType
  modelName := result.modelName
  workspaceUuid := request.workspaceUuid
  projectUuid := request.projectUuid
  sessionUuid := request.sessionUuid
  messageUuid := request.messageUuid
  inputTokens := result.inputTokens
  outputTokens := result.outputTokens
  embeddingCount := result.embeddingCount
  latencyMs := result.latencyMs
  status := result.status
  errorClass := result.validationErrors.head?
  errorMessageSanitized := result.detailSanitized

variable (N)

/-- The check of a result before it is recorded. -/
def checkResult (validator : Mapping F → Except StageException Unit) (result : StageResult F) :
    Except StageException Unit :=
  match result.output with
  | some output => do
      validator output
      let hash ← hashIjson P N (.obj output)
      Checks.require (result.outputHash = some hash) outputHashError
  | none => .ok ()

/-- The result of a call is stored as its row is replayed. -/
def storeResult (stage : Stage F) (call : StageCall F) (identity : String) (result : StageResult F)
    (store : StageStore F) : Except StageException (StageResult F × StageStore F) := do
  checkResult P N stage.validator result
  let row ← record P B stage call result identity store.row
  match ← existing P N stage (some row) with
  | some persisted =>
      return (persisted, { row := some row, usage := store.usage ++ [usageEvent stage.request result] })
  | none => throw replayError

/-- `_persist_result`. An error leaves the store as it was. -/
def persistResult (stage : Stage F) (call : StageCall F) (identity : String) (result : StageResult F)
    (store : StageStore F) : Except StageError (StageResult F × StageStore F) :=
  if ¬call.passesWrite then .error .leaseFence
  else
    match existing P N stage store.row with
    | .error exception => .error (.raised exception)
    | .ok (some stored) => .ok ({ stored with idempotentReplay := true }, store)
    | .ok none => (storeResult P N B stage call identity result store).mapError .raised

/-- `invoke_structured`: the stored result, if there is one; otherwise the one that the call comes to,
unless another call has stored its own before the write. -/
def invokeStructured (stage : Stage F) (call : StageCall F) (before store : StageStore F) :
    Except StageError (StageResult F × StageStore F) := do
  let identity ← (identityOf P N stage).mapError .raised
  match ← (existing P N stage before.row).mapError .raised with
  | some stored => return ({ stored with idempotentReplay := true }, before)
  | none =>
      let attempt ← attempt stage call
      let result ← (finish P N stage call attempt).mapError .raised
      persistResult P N B stage call identity result store

end

end Memorist.StageInvocation
