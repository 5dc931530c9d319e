import Memorist.Library.Runs
import Memorist.Library.Table
import Memorist.Semantic.Binding
import Memorist.Text.PyRepr
import Memorist.Worker.Execution

/-!
The semantic stage of a message: its execution is replayed or recorded
(`memory_worker/semantic/orchestration.py`, `memory_worker/semantic/runtime_adapters.py`,
`memory_worker/message_semantics.py`, `memory_worker/identity.py`).

* `SemanticAttempt`, `semanticKeys`: an attempt at the stage, and the names of its execution;
* `SemanticExecutionStore`: the tables of executions, in which a stage has a key of its own;
* `loadSemanticExecution`, `recordSemanticExecution`, `executeOrReplaySemantic`: the execution of
  the same name is replayed, any other one recorded;
* `SemanticExecutionStore.Sound`: a recorded execution is named after its input and its profile, and
  the run of a message has one of them (`sound_of_runs`);
* `semantic_retry_iff`: a later attempt passes exactly when it has the input and the profile of the
  one that was recorded.
-/

namespace Memorist

/-! ### Attempts and their names -/

def semanticOrchestrationVersion : String := "memorist.semantic_candidate.orchestration.v1"

def semanticCandidateAnalysisPromptId : String := "memorist.semantic_candidate_analysis"

def semanticCandidateAnalysisVersion : String := "1.1"

def semanticStage : String := "semantic_candidate_analysis"

/-- The contract of the stage: its hash, and the readers of its records. They read an object by its
members, in whatever order these come. -/
structure SemanticStageContract where
  contractHash : String
  parseInput : IJson → Except String SemanticAnalysisV1Input
  parseOutput : IJson → Except String SemanticAnalysisV1Output
  parseInput_canon : ∀ {a b : IJson}, a.canon = b.canon → parseInput a = parseInput b

/-- A profile, as it was resolved for a role. -/
abbrev ExecutionProfile := Dict String IJson

/-- What an attempt at the stage brings: the message and the run, the input, the profile, and what
the contract reports if it is executed. `tagged` says whether the normalized rows of the output meet
the constraints of their tables. -/
structure SemanticAttempt where
  processingRunUuid : String
  messageUuid : String
  importRunUuid : Option String := none
  jobUuid : Option String := none
  payload : IJson
  profile : ExecutionProfile
  outcome : ContractExecutionOutcome
  tagged : Bool := true
  now : String

section

variable (P : Platform) (C : SemanticStageContract)

/-- `stable_stage_execution_uuid`. -/
def stableStageExecutionUuid (idempotencyIdentity : String) : String :=
  P.uuid5 namespaceUrl ("memorist:stage:" ++ idempotencyIdentity)

/-- The members of a profile that bear on an execution. -/
def fingerprintFields : List String :=
  ["model_role", "role", "requested_role", "effective_role", "scope_source", "inheritance_source",
   "fallback_reason", "model_profile_uuid", "provider_type", "provider", "model_name",
   "endpoint_url", "endpoint_is_local", "secret_env_var_name", "supports_structured_output",
   "supports_json_mode", "supports_embeddings", "embedding_dimension", "is_enabled",
   "requires_privacy_acknowledgement", "privacy_acknowledged_at", "prompt_version",
   "schema_version", "updated_at"]

/-- `execution_profile_fingerprint`. -/
def executionProfileFingerprint (profile : ExecutionProfile) : String :=
  P.sha256 (IJson.obj (fingerprintFields.filterMap fun key =>
    (profile.get? key).map (field key))).dump

/-- What identifies an execution of the stage. -/
def stageMaterial (processingRunUuid messageUuid inputHash profileFingerprint : String) : IJson :=
  .obj
    [field "orchestration_version" (jsonString semanticOrchestrationVersion),
     field "processing_run_uuid" (jsonString processingRunUuid),
     field "message_uuid" (jsonString messageUuid),
     field "prompt_id" (jsonString semanticCandidateAnalysisPromptId),
     field "prompt_version" (jsonString semanticCandidateAnalysisVersion),
     field "contract_hash" (jsonString C.contractHash),
     field "input_hash" (jsonString inputHash),
     field "profile_fingerprint" (jsonString profileFingerprint)]

/-- The names of the execution of an attempt. -/
structure SemanticKeys where
  inputHash : String
  profileFingerprint : String
  stageExecutionUuid : String

/-- The names of an attempt. -/
def semanticKeys (a : SemanticAttempt) : Except String SemanticKeys := do
  let inputHash ← canonicalHashIjson P a.payload
  let profileFingerprint := executionProfileFingerprint P a.profile
  let identity ← canonicalHashIjson P
    (stageMaterial C a.processingRunUuid a.messageUuid inputHash profileFingerprint)
  pure ⟨inputHash, profileFingerprint, stableStageExecutionUuid P identity⟩

/-- `_semantic_prompt_uuid`. -/
def semanticPromptUuid (stageExecutionUuid : String) : String :=
  stableStageExecutionUuid P ("semantic-prompt:" ++ stageExecutionUuid)

/-- `_semantic_usage_uuid`. -/
def semanticUsageUuid (stageExecutionUuid : String) : String :=
  stableStageExecutionUuid P ("semantic-usage:" ++ stageExecutionUuid)

/-- The key of the stage: `semantic:{run}:{message}:{contract}`. -/
def semanticIdempotencyKey (processingRunUuid messageUuid : String) : String :=
  "semantic:" ++ processingRunUuid ++ ":" ++ messageUuid ++ ":" ++ C.contractHash

/-! ### Rows -/

/-- The first of some members of a profile that holds, as a text. -/
def ExecutionProfile.textOf (profile : ExecutionProfile) (keys : List String) (otherwise : String) :
    String :=
  (((keys.filterMap profile.get?).find? truthy).map fun value =>
    String.ofList (pyStrJson P.unicode value)).getD otherwise

/-- `_optional_string`. -/
def optionalJsonString : IJson → Option String
  | .null => none
  | .str [] => none
  | value => some (String.ofList (pyStrJson P.unicode value))

/-- What a stage was executed with. -/
structure StageTarget where
  requestedRole : String
  effectiveRole : String
  modelProfileUuid : Option String
  providerType : String
  modelName : String
  scopeSource : String
  inheritanceSource : Option String
  deriving DecidableEq

/-- The target of a profile. -/
def stageTarget (profile : ExecutionProfile) : StageTarget :=
  let providerType := profile.textOf P ["provider_type", "provider"] "deterministic"
  { requestedRole := profile.textOf P ["requested_role", "model_role"] "memory_extraction"
    effectiveRole := profile.textOf P ["effective_role", "model_role"] "memory_extraction"
    modelProfileUuid := (profile.get? "model_profile_uuid").bind (optionalJsonString P)
    providerType
    modelName := profile.textOf P ["model_name"] providerType
    scopeSource := profile.textOf P ["scope_source"] "runtime_profile"
    inheritanceSource := (profile.get? "inheritance_source").bind (optionalJsonString P) }

/-- A row of `prompt_execution_runs`. -/
structure PromptExecutionRow where
  promptExecutionUuid : String
  promptId : String
  promptVersion : String
  stage : String
  modelRole : String
  target : StageTarget
  messageUuid : String
  importRunUuid : Option String
  jobUuid : Option String
  inputHash : String
  outputHash : String
  rawOutput : IJson
  validatedOutput : IJson
  status : StageStatus
  createdAt : String

/-- A row of `processing_stage_runs`. -/
structure StageRunRow where
  stageExecutionUuid : String
  processingRunUuid : String
  jobUuid : Option String
  sourceType : String
  sourceUuid : String
  target : StageTarget
  stage : String
  promptId : String
  promptVersion : String
  contractHash : String
  profileFingerprint : String
  inputHash : String
  outputHash : String
  outcome : ContractExecutionOutcome
  idempotencyKey : String
  createdAt : String

/-- A row of `message_semantic_analyses`. -/
structure MessageSemanticRow where
  semanticAnalysisUuid : String
  messageUuid : String
  processingRunUuid : String
  promptExecutionUuid : String
  stageExecutionUuid : String
  contractHash : String
  rawTextHash : String
  createdAt : String

/-- A row of `model_usage_events`. -/
structure SemanticUsageRow where
  usageUuid : String
  inputTokens : ℤ
  outputTokens : ℤ
  createdAt : String

/-- The tables that an execution of the stage is recorded in. -/
structure SemanticExecutionStore where
  promptRuns : Table PromptExecutionRow String PromptExecutionRow.promptExecutionUuid
  stageRuns : Table StageRunRow String StageRunRow.stageExecutionUuid
  analyses : Table MessageSemanticRow String MessageSemanticRow.semanticAnalysisUuid
  usage : Table SemanticUsageRow String SemanticUsageRow.usageUuid

/-- The tables before any execution. -/
def SemanticExecutionStore.empty : SemanticExecutionStore := ⟨.empty, .empty, .empty, .empty⟩

/-! ### Replaying and recording -/

/-- How an attempt fails. -/
inductive SemanticExecutionError where
  | invalid (message : String)
  | replayIdentityConflict
  | outputMissing
  | unique (column : String)
  deriving DecidableEq

/-- A check of a record, as an error of the attempt. -/
def checked {α : Type} : Except String α → Except SemanticExecutionError α
  | .ok a => .ok a
  | .error message => .error (.invalid message)

/-- A recorded execution. -/
structure RecordedSemanticExecution where
  promptExecutionUuid : String
  stageExecutionUuid : String
  output : IJson

/-- `load_semantic_execution`, with `_recorded_execution`. -/
def loadSemanticExecution (s : SemanticExecutionStore) (keys : SemanticKeys) :
    Except SemanticExecutionError (Option RecordedSemanticExecution) :=
  let promptUuid := semanticPromptUuid P keys.stageExecutionUuid
  match s.stageRuns.get? keys.stageExecutionUuid, s.promptRuns.get? promptUuid with
  | some stage, some prompt =>
      if prompt.promptId = semanticCandidateAnalysisPromptId ∧
          prompt.promptVersion = semanticCandidateAnalysisVersion ∧ stage.stage = semanticStage then
        if prompt.inputHash ≠ keys.inputHash ∨ stage.contractHash ≠ C.contractHash then
          .error .replayIdentityConflict
        else match prompt.validatedOutput with
          | .obj members => .ok (some ⟨promptUuid, stage.stageExecutionUuid, .obj members⟩)
          | _ => .error .outputMissing
      else .ok none
  | _, _ => .ok none

/-- The row of the prompt of an attempt. -/
def promptRow (a : SemanticAttempt) (keys : SemanticKeys) (outputHash : String) :
    PromptExecutionRow where
  promptExecutionUuid := semanticPromptUuid P keys.stageExecutionUuid
  promptId := semanticCandidateAnalysisPromptId
  promptVersion := semanticCandidateAnalysisVersion
  stage := semanticStage
  modelRole := "memory_extraction"
  target := stageTarget P a.profile
  messageUuid := a.messageUuid
  importRunUuid := a.importRunUuid
  jobUuid := a.jobUuid
  inputHash := keys.inputHash
  outputHash := outputHash
  rawOutput := .obj a.outcome.output
  validatedOutput := .obj a.outcome.output
  status := a.outcome.status
  createdAt := a.now

/-- `_stage_values`. -/
def stageRow (a : SemanticAttempt) (keys : SemanticKeys) (outputHash : String) : StageRunRow where
  stageExecutionUuid := keys.stageExecutionUuid
  processingRunUuid := a.processingRunUuid
  jobUuid := a.jobUuid
  sourceType := "message"
  sourceUuid := a.messageUuid
  target := stageTarget P a.profile
  stage := semanticStage
  promptId := semanticCandidateAnalysisPromptId
  promptVersion := semanticCandidateAnalysisVersion
  contractHash := C.contractHash
  profileFingerprint := keys.profileFingerprint
  inputHash := keys.inputHash
  outputHash := outputHash
  outcome := a.outcome
  idempotencyKey := semanticIdempotencyKey C a.processingRunUuid a.messageUuid
  createdAt := a.now

def analysisNamespace : String := "7018f153-3202-5b3a-8e13-98248e397d61"

/-- `persist_message_semantics`: the analysis of a message in a run is written once. -/
def persistMessageSemantics (a : SemanticAttempt) (keys : SemanticKeys) (rawText : Text)
    (analyses : Table MessageSemanticRow String MessageSemanticRow.semanticAnalysisUuid) :
    Except SemanticExecutionError
      (Table MessageSemanticRow String MessageSemanticRow.semanticAnalysisUuid) :=
  let rawHash := P.sha256 rawText
  let analysisUuid := P.uuid5 analysisNamespace
    (a.messageUuid ++ ":" ++ a.processingRunUuid ++ ":" ++ C.contractHash ++ ":" ++ rawHash)
  if (analyses.get? analysisUuid).isSome then .ok analyses
  else if a.tagged then
    .ok (analyses.insert
      { semanticAnalysisUuid := analysisUuid
        messageUuid := a.messageUuid
        processingRunUuid := a.processingRunUuid
        promptExecutionUuid := semanticPromptUuid P keys.stageExecutionUuid
        stageExecutionUuid := keys.stageExecutionUuid
        contractHash := C.contractHash
        rawTextHash := rawHash
        createdAt := a.now })
  else .error (.unique "semantic_analysis_uuid")

/-- `record_semantic_execution`: one transaction, unless the execution is recorded already. -/
def recordSemanticExecution (s : SemanticExecutionStore) (a : SemanticAttempt) (keys : SemanticKeys)
    (rawText : Text) : Except SemanticExecutionError SemanticExecutionStore := do
  let outputHash ← checked (canonicalHashIjson P (.obj a.outcome.output))
  match ← loadSemanticExecution P C s keys with
  | some _ => pure s
  | none =>
      let promptRuns ← s.promptRuns.insertUnique (.unique "prompt_execution_uuid") []
        (promptRow P a keys outputHash)
      let stageRuns ← s.stageRuns.insertUnique (.unique "stage_execution_uuid")
        [(fun row other => row.idempotencyKey = other.idempotencyKey, .unique "idempotency_key")]
        (stageRow P C a keys outputHash)
      let analyses ← persistMessageSemantics P C a keys rawText s.analyses
      let usage := s.usage.insert ⟨semanticUsageUuid P keys.stageExecutionUuid,
        a.outcome.inputTokens, a.outcome.outputTokens, a.now⟩
      pure ⟨promptRuns, stageRuns, analyses, usage⟩

/-- What an attempt ends in. -/
inductive SemanticExecutionResult where
  | replayed (execution : RecordedSemanticExecution)
  | recorded (keys : SemanticKeys) (s : SemanticExecutionStore)

/-- The record that an attempt gets to: its output is valid and bound to its input. -/
def recordOutcome (s : SemanticExecutionStore) (a : SemanticAttempt) (keys : SemanticKeys) :
    Except SemanticExecutionError SemanticExecutionStore := do
  let semanticInput ← checked (C.parseInput a.payload)
  let output ← checked (C.parseOutput (.obj a.outcome.output))
  let _ ← checked (validateSemanticBinding P semanticInput output)
  recordSemanticExecution P C s a keys semanticInput.currentRawText

/-- `_execute_or_replay_semantic`. The contract is executed between the lookup and the record, so
that others may have written in between. -/
def executeOrReplaySemantic (s t : SemanticExecutionStore) (a : SemanticAttempt) :
    Except SemanticExecutionError SemanticExecutionResult := do
  let keys ← checked (semanticKeys P C a)
  match ← loadSemanticExecution P C s keys with
  | some execution =>
      let semanticInput ← checked (C.parseInput a.payload)
      let output ← checked (C.parseOutput execution.output)
      let _ ← checked (validateSemanticBinding P semanticInput output)
      pure (.replayed execution)
  | none =>
      let t' ← recordOutcome P C t a keys
      pure (.recorded keys t')

/-- An attempt records its execution. -/
def SemanticStageStep (s : SemanticExecutionStore) (a : SemanticAttempt) (t : SemanticExecutionStore) :
    Prop :=
  ∃ keys, semanticKeys P C a = .ok keys ∧ recordOutcome P C s a keys = .ok t

end

/-! ### What names tell -/

variable {P : Platform} {C : SemanticStageContract} {s t : SemanticExecutionStore}
  {a : SemanticAttempt} {keys : SemanticKeys}

@[simp] lemma checked_eq_ok {α : Type} {x : Except String α} {b : α} :
    checked x = .ok b ↔ x = .ok b := by
  cases x <;> simp [checked]

/-- The material of an execution tells its run, its message, its input and its profile. -/
lemma stageMaterial_inj {run run' message message' input input' profile profile' : String}
    (h : (stageMaterial C run message input profile).canon =
      (stageMaterial C run' message' input' profile').canon) :
    run = run' ∧ message = message' ∧ input = input' ∧ profile = profile' := by
  rw [stageMaterial, stageMaterial, canon_fields_inj ["orchestration_version",
    "processing_run_uuid", "message_uuid", "prompt_id", "prompt_version", "contract_hash",
    "input_hash", "profile_fingerprint"] (by simp) rfl rfl] at h
  simpa [field] using h

lemma stableStageExecutionUuid_inj (huuid : ∀ space, Function.Injective (P.uuid5 space)) :
    Function.Injective (stableStageExecutionUuid P) := by
  intro x y h
  have h := huuid _ h
  simpa [← String.toList_inj] using h

/-- The names of an attempt. -/
lemma semanticKeys_eq_ok : semanticKeys P C a = .ok keys ↔
    canonicalHashIjson P a.payload = .ok keys.inputHash ∧
      keys.profileFingerprint = executionProfileFingerprint P a.profile ∧
      ∃ identity, canonicalHashIjson P (stageMaterial C a.processingRunUuid a.messageUuid
          keys.inputHash keys.profileFingerprint) = .ok identity ∧
        keys.stageExecutionUuid = stableStageExecutionUuid P identity := by
  simp only [semanticKeys, Checks.bind_eq_ok, Checks.pure_eq_ok]
  constructor
  · rintro ⟨inputHash, hinput, identity, hidentity, rfl⟩
    exact ⟨hinput, rfl, identity, hidentity, rfl⟩
  · rintro ⟨hinput, hprofile, identity, hidentity, huuid⟩
    obtain ⟨inputHash, profileFingerprint, stageExecutionUuid⟩ := keys
    subst hprofile
    subst huuid
    exact ⟨inputHash, hinput, identity, hidentity, rfl⟩

/-! ### Recorded executions -/

/-- A recorded execution is that of an attempt of its run and its message: it is named after the
input and the profile, and its prompt holds an output that is bound to the input. -/
structure RecordedFor (P : Platform) (C : SemanticStageContract) (s : SemanticExecutionStore)
    (row : StageRunRow) : Prop where
  stage : row.stage = semanticStage
  contract : row.contractHash = C.contractHash
  key : row.idempotencyKey = semanticIdempotencyKey C row.processingRunUuid row.sourceUuid
  named : ∃ identity, canonicalHashIjson P (stageMaterial C row.processingRunUuid row.sourceUuid
      row.inputHash row.profileFingerprint) = .ok identity ∧
    row.stageExecutionUuid = stableStageExecutionUuid P identity
  prompt : ∃ prompt members, s.promptRuns.get? (semanticPromptUuid P row.stageExecutionUuid) =
      some prompt ∧
    prompt.promptId = semanticCandidateAnalysisPromptId ∧
    prompt.promptVersion = semanticCandidateAnalysisVersion ∧
    prompt.inputHash = row.inputHash ∧ prompt.validatedOutput = .obj members ∧
    ∃ payload, canonicalHashIjson P payload = .ok row.inputHash ∧
      ∃ semanticInput output report, C.parseInput payload = .ok semanticInput ∧
        C.parseOutput (.obj members) = .ok output ∧
        validateSemanticBinding P semanticInput output = .ok report

/-- The executions of the stage, of which the run of a message has one. -/
structure SemanticExecutionStore.Sound (P : Platform) (C : SemanticStageContract)
    (s : SemanticExecutionStore) : Prop where
  recorded : ∀ row ∈ s.stageRuns.rows, RecordedFor P C s row
  unique : ∀ row ∈ s.stageRuns.rows, ∀ other ∈ s.stageRuns.rows,
    row.idempotencyKey = other.idempotencyKey → row = other

/-- What is loaded for an attempt is the execution of its run and its message, input and profile. -/
lemma row_of_load (hsha : Function.Injective P.sha256)
    (huuid : ∀ space, Function.Injective (P.uuid5 space)) (hsound : s.Sound P C)
    (hkeys : semanticKeys P C a = .ok keys) {execution : RecordedSemanticExecution}
    (hload : loadSemanticExecution P C s keys = .ok (some execution)) :
    ∃ row ∈ s.stageRuns.rows, row.processingRunUuid = a.processingRunUuid ∧
      row.sourceUuid = a.messageUuid ∧ row.inputHash = keys.inputHash ∧
      row.profileFingerprint = keys.profileFingerprint := by
  unfold loadSemanticExecution at hload
  cases hstage : s.stageRuns.get? keys.stageExecutionUuid with
  | none => simp [hstage] at hload
  | some row =>
      obtain ⟨hmem, hname⟩ := Table.get?_eq_some.mp hstage
      obtain ⟨identity, hidentity, hrow⟩ := (hsound.recorded row hmem).named
      obtain ⟨-, -, identity', hidentity', hkeysName⟩ := semanticKeys_eq_ok.mp hkeys
      have hsame : identity = identity' :=
        stableStageExecutionUuid_inj huuid (hrow.symm.trans (hname.trans hkeysName))
      subst hsame
      exact ⟨row, hmem, stageMaterial_inj (canonicalHashIjson_inj hsha hidentity hidentity')⟩

/-- The execution of an attempt's run and message, input and profile is loaded, and its output is
bound to the attempt's input as well. -/
lemma load_of_row (hsha : Function.Injective P.sha256) (hsound : s.Sound P C)
    (hkeys : semanticKeys P C a = .ok keys) {row : StageRunRow} (hrow : row ∈ s.stageRuns.rows)
    (hrun : row.processingRunUuid = a.processingRunUuid) (hmessage : row.sourceUuid = a.messageUuid)
    (hinput : row.inputHash = keys.inputHash)
    (hprofile : row.profileFingerprint = keys.profileFingerprint) :
    ∃ execution, loadSemanticExecution P C s keys = .ok (some execution) ∧
      ∃ semanticInput output report, C.parseInput a.payload = .ok semanticInput ∧
        C.parseOutput execution.output = .ok output ∧
        validateSemanticBinding P semanticInput output = .ok report := by
  have hrecorded := hsound.recorded row hrow
  obtain ⟨identity, hidentity, hname⟩ := hrecorded.named
  obtain ⟨hpayload, -, identity', hidentity', hkeysName⟩ := semanticKeys_eq_ok.mp hkeys
  rw [hrun, hmessage, hinput, hprofile, hidentity', Except.ok.injEq] at hidentity
  subst hidentity
  have hstage : s.stageRuns.get? keys.stageExecutionUuid = some row := by
    rw [hkeysName, ← hname]
    exact Table.get?_of_mem hrow
  obtain ⟨prompt, members, hprompt, hid, hversion, hpromptInput, hmembers, payload, hhash,
    semanticInput, output, report, hsemantic, houtput, hreport⟩ := hrecorded.prompt
  rw [hname, ← hkeysName] at hprompt
  refine ⟨⟨semanticPromptUuid P keys.stageExecutionUuid, row.stageExecutionUuid, .obj members⟩, ?_,
    semanticInput, output, report, ?_, houtput, hreport⟩
  · simp only [loadSemanticExecution, hstage, hprompt, hid, hversion, hrecorded.stage,
      hpromptInput, hinput, hrecorded.contract, hmembers]
    simp
  · rw [← hsemantic]
    rw [hinput] at hhash
    exact C.parseInput_canon (canonicalHashIjson_inj hsha hpayload hhash)

/-- What a record that is accepted leaves: an execution of the attempt's names, which was there or is
new and the only one under its key. -/
lemma recordOutcome_eq_ok (h : recordOutcome P C s a keys = .ok t) :
    (t = s ∧ ∃ execution, loadSemanticExecution P C s keys = .ok (some execution)) ∨
      ∃ semanticInput output report outputHash,
        C.parseInput a.payload = .ok semanticInput ∧
        C.parseOutput (.obj a.outcome.output) = .ok output ∧
        validateSemanticBinding P semanticInput output = .ok report ∧
        s.promptRuns.insertUnique (SemanticExecutionError.unique "prompt_execution_uuid") []
          (promptRow P a keys outputHash) = .ok t.promptRuns ∧
        s.stageRuns.insertUnique (SemanticExecutionError.unique "stage_execution_uuid")
          [(fun row other => row.idempotencyKey = other.idempotencyKey, .unique "idempotency_key")]
          (stageRow P C a keys outputHash) = .ok t.stageRuns := by
  simp only [recordOutcome, recordSemanticExecution, Checks.bind_eq_ok, checked_eq_ok] at h
  obtain ⟨semanticInput, hinput, output, houtput, report, hreport, outputHash, -, loaded, hload,
    h⟩ := h
  cases loaded with
  | some execution =>
      rw [Checks.pure_eq_ok] at h
      exact .inl ⟨h.symm, execution, hload⟩
  | none =>
      simp only [Checks.bind_eq_ok, Checks.pure_eq_ok] at h
      obtain ⟨promptRuns, hprompt, stageRuns, hstage, analyses, -, rfl⟩ := h
      exact .inr ⟨semanticInput, output, report, outputHash, hinput, houtput, hreport, hprompt,
        hstage⟩

/-- The rows of the stage stay. -/
lemma SemanticStageStep.mono (h : SemanticStageStep P C s a t) {row : StageRunRow}
    (hrow : row ∈ s.stageRuns.rows) : row ∈ t.stageRuns.rows := by
  obtain ⟨keys, -, hrecord⟩ := h
  rcases recordOutcome_eq_ok hrecord with ⟨rfl, -⟩ | ⟨_, _, _, _, -, -, -, -, hstage⟩
  · exact hrow
  · rw [Table.rows_insertUnique hstage]
    exact List.mem_append_left _ hrow

/-- A record keeps the executions sound. -/
lemma SemanticStageStep.sound (hsound : s.Sound P C) (h : SemanticStageStep P C s a t) :
    t.Sound P C := by
  obtain ⟨keys, hkeys, hrecord⟩ := h
  rcases recordOutcome_eq_ok hrecord with
    ⟨rfl, -⟩ | ⟨semanticInput, output, report, outputHash, hinput, houtput, hreport, hprompt, hstage⟩
  · exact hsound
  have hrows := Table.rows_insertUnique hstage
  obtain ⟨-, hfree, -⟩ := Table.insertUnique_eq_ok.mp hstage
  obtain ⟨hnone, -, hprompts⟩ := Table.insertUnique_eq_ok.mp hprompt
  have hfree : ∀ row ∈ s.stageRuns.rows,
      row.idempotencyKey ≠ semanticIdempotencyKey C a.processingRunUuid a.messageUuid := by
    intro row hrow heq
    have := hfree _ List.mem_cons_self row hrow
    exact absurd heq.symm (of_decide_eq_false this)
  obtain ⟨hpayload, -, identity, hidentity, hname⟩ := semanticKeys_eq_ok.mp hkeys
  have hself : t.promptRuns.get? (semanticPromptUuid P keys.stageExecutionUuid) =
      some (promptRow P a keys outputHash) := by
    rw [hprompts]
    exact Table.get?_insert_self hnone
  constructor
  · intro row hrow
    rw [hrows] at hrow
    rcases List.mem_append.mp hrow with hold | hnew
    · have hrecorded := hsound.recorded row hold
      obtain ⟨prompt, members, hget, hrest⟩ := hrecorded.prompt
      refine { hrecorded with prompt := ⟨prompt, members, ?_, hrest⟩ }
      rcases Table.get?_insert (t := s.promptRuns) (promptRow P a keys outputHash)
        (semanticPromptUuid P row.stageExecutionUuid) with hsame | ⟨hnew, -⟩
      · rw [hprompts, hsame, hget]
      · exact absurd (hget.symm.trans hnew) (by simp)
    · obtain rfl := List.mem_singleton.mp hnew
      exact
        { stage := rfl
          contract := rfl
          key := rfl
          named := ⟨identity, hidentity, hname⟩
          prompt := ⟨_, _, hself, rfl, rfl, rfl, rfl, a.payload, hpayload, semanticInput, output,
            report, hinput, houtput, hreport⟩ }
  · intro row hrow other hother hkey
    rw [hrows] at hrow hother
    rcases List.mem_append.mp hrow with hrow | hrow <;>
      rcases List.mem_append.mp hother with hother | hother
    · exact hsound.unique row hrow other hother hkey
    · obtain rfl := List.mem_singleton.mp hother
      exact absurd hkey (hfree row hrow)
    · obtain rfl := List.mem_singleton.mp hrow
      exact absurd hkey.symm (hfree other hother)
    · rw [List.mem_singleton.mp hrow, List.mem_singleton.mp hother]

lemma sound_empty : SemanticExecutionStore.empty.Sound P C :=
  ⟨fun _ h => absurd h List.not_mem_nil, fun _ h => absurd h List.not_mem_nil⟩

lemma sound_of_runs {as : List SemanticAttempt} (h : Runs (SemanticStageStep P C) s as t)
    (hs : s.Sound P C) : t.Sound P C :=
  h.invariant (fun hsound hstep => SemanticStageStep.sound hsound hstep) hs

/-! ### Later attempts -/

/-- An attempt is accepted: it replays the recorded execution, or its own is recorded. -/
def StageAccepted (P : Platform) (C : SemanticStageContract) (s t : SemanticExecutionStore)
    (a : SemanticAttempt) : Prop :=
  ∃ result, executeOrReplaySemantic P C s t a = .ok result

/-- After an execution of a message was recorded in a run, a later attempt at the message in this run
is accepted exactly when its input and the fingerprint of its profile are those of the recorded one:
it is replayed then, and never recorded. -/
theorem semantic_retry_iff (hsha : Function.Injective P.sha256)
    (huuid : ∀ space, Function.Injective (P.uuid5 space)) {earlier meanwhile : List SemanticAttempt}
    (hs : Runs (SemanticStageStep P C) .empty earlier s) (ht : Runs (SemanticStageStep P C) s meanwhile t)
    {row : StageRunRow} (hrow : row ∈ s.stageRuns.rows)
    (hrun : row.processingRunUuid = a.processingRunUuid) (hmessage : row.sourceUuid = a.messageUuid)
    (hkeys : semanticKeys P C a = .ok keys) :
    StageAccepted P C s t a ↔
      row.inputHash = keys.inputHash ∧ row.profileFingerprint = keys.profileFingerprint := by
  have hsound := sound_of_runs hs sound_empty
  have hsound' := sound_of_runs ht hsound
  have hrow' : row ∈ t.stageRuns.rows :=
    ht.invariant (I := fun u => row ∈ u.stageRuns.rows) (fun hmem hstep => hstep.mono hmem) hrow
  -- the run and the message have one execution
  have hsame : ∀ {u : SemanticExecutionStore}, u.Sound P C → row ∈ u.stageRuns.rows →
      ∀ {execution}, loadSemanticExecution P C u keys = .ok (some execution) →
        row.inputHash = keys.inputHash ∧ row.profileFingerprint = keys.profileFingerprint := by
    intro u hu hmem execution hload
    obtain ⟨other, hother, hrun', hmessage', hinput, hprofile⟩ :=
      row_of_load hsha huuid hu hkeys hload
    have hkey : row.idempotencyKey = other.idempotencyKey := by
      rw [(hu.recorded row hmem).key, (hu.recorded other hother).key, hrun, hmessage, hrun',
        hmessage']
    obtain rfl := hu.unique row hmem other hother hkey
    exact ⟨hinput, hprofile⟩
  constructor
  · rintro ⟨result, hresult⟩
    simp only [executeOrReplaySemantic, Checks.bind_eq_ok, checked_eq_ok] at hresult
    obtain ⟨keys', hkeys', loaded, hload, hresult⟩ := hresult
    obtain rfl : keys = keys' := Except.ok.inj (hkeys.symm.trans hkeys')
    cases loaded with
    | some execution => exact hsame hsound hrow hload
    | none =>
        simp only [Checks.bind_eq_ok, Checks.pure_eq_ok] at hresult
        obtain ⟨t', hrecord, -⟩ := hresult
        rcases recordOutcome_eq_ok hrecord with
          ⟨-, execution, hload'⟩ | ⟨_, _, _, outputHash, -, -, -, -, hstage⟩
        · exact hsame hsound' hrow' hload'
        · obtain ⟨-, hfree, -⟩ := Table.insertUnique_eq_ok.mp hstage
          have hnot := of_decide_eq_false (hfree _ List.mem_cons_self row hrow')
          refine absurd ?_ hnot
          rw [(hsound'.recorded row hrow').key, hrun, hmessage]
          rfl
  · rintro ⟨hinput, hprofile⟩
    obtain ⟨execution, hload, semanticInput, output, report, hsemantic, houtput, hreport⟩ :=
      load_of_row hsha hsound hkeys hrow hrun hmessage hinput hprofile
    refine ⟨.replayed execution, ?_⟩
    simp only [executeOrReplaySemantic, Checks.bind_eq_ok, checked_eq_ok]
    refine ⟨keys, hkeys, some execution, hload, ?_⟩
    simp only [Checks.bind_eq_ok, checked_eq_ok, Checks.pure_eq_ok]
    exact ⟨semanticInput, hsemantic, output, houtput, report, hreport, trivial⟩

/-! ### A changed model -/

/-- A platform whose digests and identifiers keep what went in. -/
def keepingPlatform : Platform :=
  { latinPlatform with
    sha256 := String.ofList
    uuid5 := fun space name => space ++ name }

lemma keepingPlatform_sha256 : Function.Injective keepingPlatform.sha256 :=
  fun _ _ h => String.ofList_inj.mp h

lemma keepingPlatform_uuid5 (space : String) : Function.Injective (keepingPlatform.uuid5 space) := by
  intro a b h
  have htext : (space ++ a).toList = (space ++ b).toList := congrArg String.toList h
  simpa [← String.toList_inj] using htext

/-- A member, if it is of its type. -/
def readMember {α : Type} (read : IJson → Option α) (key : String) (value : IJson) :
    Except String α :=
  match (member? key value).bind read with
  | some found => .ok found
  | none => .error s!"{key}: Field required"

def readString : IJson → Option String
  | .str text => some (String.ofList text)
  | _ => none

def readOptionalString : IJson → Option (Option String)
  | .null => some none
  | value => (readString value).map some

def readNat : IJson → Option ℕ
  | .int i => if 0 ≤ i then some i.toNat else none
  | _ => none

def readBool : IJson → Option Bool
  | .bool b => some b
  | _ => none

/-- A list without items. -/
def readNone {α : Type} : IJson → Option (List α)
  | .arr [] => some []
  | _ => none

/-- The ranges of tokens. -/
def readSpans : IJson → Option (List Span)
  | .arr items => items.mapM fun item => do
      let start ← (member? "raw_start" item).bind readNat
      let stop ← (member? "raw_end" item).bind readNat
      return ⟨start, stop⟩
  | _ => none

/-- The record of the input of a message without context. -/
def readInput (value : IJson) : Except String SemanticAnalysisV1Input := do
  let envelope ← readMember some "text_envelope" value
  let boundary ← readMember some "boundary" value
  return {
    currentMessageUuid := ← readMember readString "current_message_uuid" value
    currentMessageVersionUuid := ← readMember readOptionalString "current_message_version_uuid" value
    currentRawText := (← readMember readString "current_raw_text" value).toList
    textEnvelope := {
      contractVersion := ← readMember readString "contract_version" envelope
      rawTextHash := ← readMember readString "raw_text_hash" envelope
      tokens := ← readMember readSpans "tokens" envelope
      contextDependencyHints := ← readMember readSpans "context_dependency_hints" envelope }
    boundedContextItems := ← readMember readNone "bounded_context_items" value
    boundary := {
      userUuid := ← readMember readString "user_uuid" boundary
      sessionUuid := ← readMember readString "session_uuid" boundary
      workspaceUuid := ← readMember readOptionalString "workspace_uuid" boundary
      projectUuid := ← readMember readOptionalString "project_uuid" boundary
      effectiveLimit := ← readMember readNat "effective_limit" boundary
      dependencyExpansion := ← readMember readBool "dependency_expansion" boundary } }

/-- The record of an output without units. -/
def readOutput (value : IJson) : Except String SemanticAnalysisV1Output := do
  let status ← readMember readString "status" value
  return {
    status := if status = "ok" then .ok else .abstain
    semanticUnits := ← readMember readNone "semantic_units" value
    references := ← readMember readNone "references" value
    relations := ← readMember readNone "relations" value }

/-- The contract, with readers of these records. -/
def greetingContract : SemanticStageContract where
  contractHash := "c"
  parseInput value := readInput value.canon
  parseOutput := readOutput
  parseInput_canon h := congrArg readInput h

/-- The input of a message without context. -/
def greetingPayload (P : Platform) : IJson :=
  .obj [field "current_message_uuid" (jsonString "m1"), field "current_message_version_uuid" .null,
    field "current_raw_text" (jsonString "hello"),
    field "text_envelope" (.obj [
      field "contract_version" (jsonString textSemanticsContractVersion),
      field "raw_text_hash" (jsonString (P.sha256 "hello".toList)),
      field "tokens" (.arr [.obj [field "raw_start" (.int 0), field "raw_end" (.int 5)]]),
      field "context_dependency_hints" (.arr [])]),
    field "bounded_context_items" (.arr []),
    field "boundary" (.obj [field "user_uuid" (jsonString "u"), field "session_uuid" (jsonString "s"),
      field "workspace_uuid" .null, field "project_uuid" .null, field "effective_limit" (.int 2),
      field "dependency_expansion" (.bool false)])]

/-- An attempt at the message with a model, which abstains. -/
def greetingAttempt (P : Platform) (modelName : String) : SemanticAttempt where
  processingRunUuid := "r1"
  messageUuid := "m1"
  payload := greetingPayload P
  profile := [("model_name", jsonString modelName)]
  outcome :=
    { output := [field "status" (jsonString "abstain"), field "warnings" (.arr []),
        field "semantic_units" (.arr []), field "references" (.arr []), field "relations" (.arr [])]
      status := .abstained, calledProvider := true
      providerOutputValid := true, canonicalized := false, repairAttempted := false
      repairSucceeded := false, fallbackUsed := false, fallbackReason := none
      capabilityMode := "json_schema", providerResponseId := none, inputTokens := 1
      outputTokens := 1, latencyMs := 1, parseStatus := .notObserved, attemptCount := 1
      validationErrorPaths := [] }
  now := "2026-01-01T00:00:00Z"

/-- The names of an attempt with a model. -/
def greetingKeys (P : Platform) (modelName : String) : SemanticKeys :=
  match semanticKeys P greetingContract (greetingAttempt P modelName) with
  | .ok keys => keys
  | .error _ => ⟨"", "", ""⟩

/-- The tables after the message was analysed with one model. -/
def greetingStore (P : Platform) : SemanticExecutionStore :=
  match recordOutcome P greetingContract .empty (greetingAttempt P "small")
      (greetingKeys P "small") with
  | .ok s => s
  | .error _ => .empty

/-- After the message was analysed with one model, an attempt with another one violates the key of
the stage. -/
theorem changed_model_violates_key :
    Runs (SemanticStageStep latinPlatform greetingContract) .empty
        [greetingAttempt latinPlatform "small"] (greetingStore latinPlatform) ∧
      (executeOrReplaySemantic latinPlatform greetingContract
        (greetingStore latinPlatform) (greetingStore latinPlatform) (greetingAttempt latinPlatform "large")).map
          (fun _ => ()) = .error (.unique "idempotency_key") :=
  ⟨Runs.refl.tail ⟨greetingKeys latinPlatform "small", rfl, rfl⟩, by decide +kernel⟩

lemma greetingKeys_small : semanticKeys keepingPlatform greetingContract
    (greetingAttempt keepingPlatform "small") = .ok (greetingKeys keepingPlatform "small") := rfl

lemma greetingStore_runs :
    Runs (SemanticStageStep keepingPlatform greetingContract) .empty
      [greetingAttempt keepingPlatform "small"] (greetingStore keepingPlatform) :=
  Runs.refl.tail ⟨_, greetingKeys_small, rfl⟩

lemma greetingStore_rows : (greetingStore keepingPlatform).stageRuns.rows ≠ [] :=
  List.ne_nil_of_length_pos (by decide +kernel)

/-- An attempt with the same model is a replay. -/
theorem semantic_retry_iff_same_model :
    StageAccepted keepingPlatform greetingContract (greetingStore keepingPlatform)
      (greetingStore keepingPlatform) (greetingAttempt keepingPlatform "small") :=
  (semantic_retry_iff keepingPlatform_sha256 keepingPlatform_uuid5 greetingStore_runs .refl
    (List.head_mem greetingStore_rows) (by decide +kernel) (by decide +kernel)
    greetingKeys_small).mpr ⟨by decide +kernel, by decide +kernel⟩

end Memorist
