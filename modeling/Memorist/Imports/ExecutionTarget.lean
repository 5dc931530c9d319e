import Memorist.Imports.Processing
import Memorist.Library.Checks

/-!
The model that an imported message is processed with (`imports/processing.py`).

* `ModelProfile`, `ModelSettings`: the profiles, and what else the execution depends on;
* `ScheduledModel`, `ExecutionTarget`, `PreparedInference`: the model as it was scheduled, as it is
  found at the execution, and as it was used;
* `hydrateExecutionModelTarget`, `requireSameExecutionTarget`: the checks of them;
* `classifyError`, `hydrate_error_classified`: an error of the target is one of the configuration.
-/

namespace Memorist

/-! ### Models -/

/-- A row of `model_profiles`. -/
structure ModelProfile where
  modelProfileUuid : String
  provider : String
  modelName : String
  role : String
  endpointUrl : Option String := none
  providerType : String := "unknown"
  endpointIsLocal : Bool := false
  supportsStructuredOutput : Bool := false
  supportsJsonMode : Bool := false
  supportsEmbeddings : Bool := false
  embeddingDimension : Option ℕ := none
  secretStrategy : String := "none"
  secretEnvVarName : Option String := none
  requiresPrivacyAcknowledgement : Bool := false
  isEnabled : Bool := true
  privacyAcknowledgedAt : Option String := none
  updatedAt : Option String := none
  schemaVersion : ℕ := 1
  deriving DecidableEq

/-- What an execution finds of the models: the profiles, the environment, and whether the
deterministic extraction may stand in for a profile. -/
structure ModelSettings where
  profiles : String → Option ModelProfile := fun _ => none
  environment : String → Option String := fun _ => none
  allowDeterministicFallback : Bool := true

/-- The columns of a processing status that name its model. -/
structure ScheduledModel where
  modelRole : Option String := none
  modelProfileUuid : Option String := none
  providerType : Option String := none
  modelName : Option String := none
  executionProfileFingerprint : Option String := none
  processingIdentityHash : Option String := none
  inputContentHash : Option String := none
  deriving DecidableEq

/-- The fields that a model is compared by. -/
structure ModelIdentity where
  modelRole : Option String
  modelProfileUuid : Option String
  providerType : Option String
  modelName : Option String
  deriving DecidableEq

/-- A model that is found at an execution, with its profile if it has one. -/
structure ExecutionTarget where
  identity : ModelIdentity
  profile : Option ModelProfile
  deriving DecidableEq

/-- What an inference says of the model and the message that it was made with. -/
structure PreparedInference where
  identity : ModelIdentity
  profileFingerprint : String
  processingIdentityHash : String
  inputContentHash : String
  deriving DecidableEq

/-- A text that is there and not empty. -/
def filled (value : Option String) : Option String := value.filter (· ≠ "")

/-! ### Checks -/

/-- An error of the target of an execution; its text is the sanitized one. -/
def targetError (message : String) : ImportError := ⟨"RuntimeError", "RuntimeError: " ++ message⟩

/-- Raise an error of the target unless a condition holds. -/
def requireTarget (condition : Prop) [Decidable condition] (message : String) :
    Except ImportError Unit := Checks.require condition (targetError message)

/-- The role that a message is processed in. -/
def ScheduledModel.operationalRole (model : ScheduledModel) : String :=
  (filled model.modelRole).getD "import_reconstruction"

/-- The kinds of providers that a profile may have. -/
def remoteProviders : List String := ["openai_compatible", "openai_compatible_llm"]

/-- The strategies that read a secret from the environment. -/
def environmentStrategies : List String := ["env_var", "environment_reference"]

section

variable (fingerprint : ExecutionTarget → String) (U : UnicodeData)

/-- `_require_scheduled_profile_fingerprint`. -/
def requireScheduledProfileFingerprint (model : ScheduledModel) (target : ExecutionTarget) :
    Except ImportError Unit :=
  requireTarget ((filled model.executionProfileFingerprint).all (· = fingerprint target))
    "scheduled model profile configuration changed"

/-- What a profile of a remote provider needs. -/
def requireRemoteProfile (settings : ModelSettings) (profile : ModelProfile) :
    Except ImportError Unit := do
  requireTarget (filled profile.endpointUrl).isSome "scheduled model profile endpoint is required"
  requireTarget (profile.supportsStructuredOutput ∨ profile.supportsJsonMode)
    "scheduled model profile structured output capability is required"
  requireTarget (profile.secretStrategy ∈ environmentStrategies →
      (filled profile.secretEnvVarName).isSome)
    "scheduled model profile secret environment variable is required"
  requireTarget (profile.secretStrategy ∈ environmentStrategies →
      (filled ((filled profile.secretEnvVarName).bind settings.environment)).isSome)
    "scheduled model profile secret environment variable is not set"
  requireTarget (profile.requiresPrivacyAcknowledgement →
      (filled profile.privacyAcknowledgedAt).isSome)
    "scheduled model profile requires privacy acknowledgement"

/-- The target of a message that is processed without a profile. -/
def deterministicTarget (role : String) : ExecutionTarget where
  identity := ⟨some role, none, some "deterministic", some "deterministic_extraction"⟩
  profile := none

/-- The kind of the provider of a profile. -/
def ModelProfile.providerKind (profile : ModelProfile) : String :=
  (filled (some profile.providerType)).getD profile.provider

/-- The target of a message that is processed with a profile. -/
def profileTarget (role : String) (profile : ModelProfile) : ExecutionTarget where
  identity := ⟨some role, some profile.modelProfileUuid, some profile.providerKind,
    some profile.modelName⟩
  profile := some profile

/-- What a profile must be to process a message that was scheduled with it. -/
def requireProfile (settings : ModelSettings) (model : ScheduledModel) (profileUuid : String)
    (profile : ModelProfile) : Except ImportError Unit := do
  requireTarget (profile.modelProfileUuid = profileUuid) "scheduled model profile identity mismatch"
  requireTarget profile.isEnabled "scheduled model profile is disabled"
  requireTarget (profile.role = model.operationalRole ∨
      model.operationalRole = "import_reconstruction" ∧ profile.role = "memory_extraction")
    "scheduled model profile role is not compatible"
  requireTarget (profile.providerKind = "deterministic" ∨ profile.providerKind ∈ remoteProviders)
    "scheduled model profile provider type is unsupported"
  requireTarget (U.strip profile.modelName.toList ≠ [])
    "scheduled model profile model name is required"
  if profile.providerKind ∈ remoteProviders then requireRemoteProfile settings profile
  requireTarget (profile.providerKind = (filled model.providerType).getD profile.providerKind)
    "scheduled model profile provider type changed"
  requireTarget (profile.modelName = (filled model.modelName).getD profile.modelName)
    "scheduled model profile model name changed"

/-- `_hydrate_execution_model_target`. -/
def hydrateExecutionModelTarget (settings : ModelSettings) (model : ScheduledModel) :
    Except ImportError ExecutionTarget :=
  match filled model.modelProfileUuid with
  | none => do
      requireTarget settings.allowDeterministicFallback
        "scheduled deterministic fallback is no longer allowed by policy"
      let target := deterministicTarget model.operationalRole
      requireScheduledProfileFingerprint fingerprint model target
      return target
  | some profileUuid =>
      match settings.profiles profileUuid with
      | none => .error (targetError "scheduled model profile is no longer available")
      | some profile => do
          requireProfile U settings model profileUuid profile
          let target := profileTarget model.operationalRole profile
          requireScheduledProfileFingerprint fingerprint model target
          return target

/-- The model that a message was scheduled with, its missing fields filled in. -/
def ScheduledModel.identity (model : ScheduledModel) : ModelIdentity where
  modelRole := some (model.modelRole.getD "import_reconstruction")
  modelProfileUuid := model.modelProfileUuid
  providerType := some (model.providerType.getD "deterministic")
  modelName := some (model.modelName.getD "deterministic_extraction")

/-- `_require_same_execution_target`. -/
def requireSameExecutionTarget (model : ScheduledModel)
    (preparedTarget commitTarget : ExecutionTarget) (prepared : PreparedInference) :
    Except ImportError Unit := do
  requireTarget (model.identity = prepared.identity ∧ prepared.identity = preparedTarget.identity ∧
      preparedTarget.identity = commitTarget.identity)
    "scheduled model profile execution identity changed"
  requireTarget (prepared.profileFingerprint = fingerprint preparedTarget ∧
      prepared.profileFingerprint = fingerprint commitTarget)
    "scheduled model profile configuration changed"
  requireTarget ((filled model.executionProfileFingerprint).all (· = prepared.profileFingerprint))
    "scheduled model profile configuration changed"
  requireTarget (model.processingIdentityHash.getD "" = prepared.processingIdentityHash ∧
      model.inputContentHash.getD "" = prepared.inputContentHash)
    "scheduled message processing identity changed"

end

/-! ### Classification -/

/-- Whether a text in lower case mentions one of several others. -/
def mentionsAny (patterns : List String) (lowered : Text) : Bool :=
  patterns.any fun pattern => pattern.toList <:+: lowered

/-- The words by which an error is one of the configuration. -/
def configurationWords : List String :=
  ["privacy acknowledgement", "secret", "scheduled model profile", "deterministic fallback"]

/-- `_classify_error`, of an error class and a text in lower case: whether it is retried. -/
def classifyLowered (errorClass : String) (lowered : Text) : String × Bool :=
  if errorClass = "TimeoutError" || errorClass = "ConnectionError" ||
      mentionsAny ["timeout"] lowered then ("retryable_network", true)
  else if mentionsAny ["429"] lowered then ("retryable_provider_429", true)
  else if mentionsAny ((List.range 100).map fun code => toString (500 + code)) lowered then
    ("retryable_provider_5xx", true)
  else if mentionsAny configurationWords lowered then ("configuration_error", false)
  else if mentionsAny ["400", "invalid request"] lowered then ("invalid_request", false)
  else ("worker_error", false)

/-- `_classify_error`. -/
def classifyError (U : UnicodeData) (error : ImportError) : String × Bool :=
  classifyLowered error.errorClass (U.lowerText error.message.toList)

section

variable {U : UnicodeData} {fingerprint : ExecutionTarget → String} {settings : ModelSettings}
variable {model : ScheduledModel} {error : ImportError}

/-- An error is put back in the queue only if its class is retried. -/
lemma isRetryable_eq : isRetryable U error = (classifyError U error).2 := by
  have hany : ∀ pattern : String, mentionsAny [pattern] (U.lowerText error.message.toList) =
      decide (pattern.toList <:+: U.lowerText error.message.toList) := fun pattern =>
    Bool.or_false _
  have hcodes : ((List.range 100).any fun code => decide ((toString (500 + code)).toList <:+:
      U.lowerText error.message.toList)) = mentionsAny ((List.range 100).map fun code =>
        toString (500 + code)) (U.lowerText error.message.toList) := by
    simp only [mentionsAny, List.any_map, Function.comp_def]
  rw [isRetryable, classifyError, classifyLowered]
  dsimp only
  rw [hcodes, ← hany "timeout", ← hany "429"]
  generalize mentionsAny ((List.range 100).map fun code => toString (500 + code))
    (U.lowerText error.message.toList) = serverError
  clear hcodes hany
  cases decide (error.errorClass = "TimeoutError") <;>
    cases decide (error.errorClass = "ConnectionError") <;>
    cases mentionsAny ["timeout"] (U.lowerText error.message.toList) <;>
    cases mentionsAny ["429"] (U.lowerText error.message.toList) <;> cases serverError <;>
    simp only [Bool.or_false, Bool.or_true, Bool.false_eq_true, if_false, if_true]
  split_ifs <;> rfl

/-- The messages of the errors of a target. -/
def targetMessages : List String :=
  ["scheduled deterministic fallback is no longer allowed by policy",
    "scheduled model profile is no longer available", "scheduled model profile identity mismatch",
    "scheduled model profile is disabled", "scheduled model profile role is not compatible",
    "scheduled model profile provider type is unsupported",
    "scheduled model profile model name is required", "scheduled model profile endpoint is required",
    "scheduled model profile structured output capability is required",
    "scheduled model profile secret environment variable is required",
    "scheduled model profile secret environment variable is not set",
    "scheduled model profile requires privacy acknowledgement",
    "scheduled model profile provider type changed", "scheduled model profile model name changed",
    "scheduled model profile configuration changed"]

lemma requireTarget_eq_error {condition : Prop} [Decidable condition] {message : String} :
    requireTarget condition message = .error error ↔ ¬condition ∧ targetError message = error :=
  Checks.require_eq_error

/-- A profile of a remote provider is refused with one of the messages. -/
lemma requireRemoteProfile_error {profile : ModelProfile}
    (h : requireRemoteProfile settings profile = .error error) :
    ∃ message ∈ targetMessages, error = targetError message := by
  simp only [requireRemoteProfile, Checks.bind_eq_error, requireTarget_eq_error] at h
  rcases h with ⟨-, rfl⟩ | ⟨-, -, ⟨-, rfl⟩ | ⟨-, -, ⟨-, rfl⟩ | ⟨-, -, ⟨-, rfl⟩ | ⟨-, -, -, rfl⟩⟩⟩⟩
  all_goals exact ⟨_, by simp [targetMessages], rfl⟩

/-- A profile is refused with one of the messages. -/
lemma requireProfile_error {profileUuid : String} {profile : ModelProfile}
    (h : requireProfile U settings model profileUuid profile = .error error) :
    ∃ message ∈ targetMessages, error = targetError message := by
  have hchanged : (do
      requireTarget (profile.providerKind = (filled model.providerType).getD profile.providerKind)
        "scheduled model profile provider type changed"
      requireTarget (profile.modelName = (filled model.modelName).getD profile.modelName)
        "scheduled model profile model name changed") = .error error →
      ∃ message ∈ targetMessages, error = targetError message := by
    intro h
    simp only [Checks.bind_eq_error, requireTarget_eq_error] at h
    rcases h with ⟨-, rfl⟩ | ⟨-, -, -, rfl⟩
    all_goals exact ⟨_, by simp [targetMessages], rfl⟩
  simp only [requireProfile, Checks.bind_eq_error, requireTarget_eq_error] at h
  rcases h with ⟨-, rfl⟩ | ⟨-, -, ⟨-, rfl⟩ | ⟨-, -, ⟨-, rfl⟩ | ⟨-, -, ⟨-, rfl⟩ | ⟨-, -, ⟨-, rfl⟩ |
    ⟨-, -, h⟩⟩⟩⟩⟩
  iterate 5 exact ⟨_, by simp [targetMessages], rfl⟩
  split_ifs at h
  · rcases Checks.bind_eq_error.mp h with h | ⟨_, -, h⟩
    · exact requireRemoteProfile_error h
    · exact hchanged h
  · exact hchanged h

/-- The errors of a target have one of the messages. -/
lemma hydrate_error
    (h : hydrateExecutionModelTarget fingerprint U settings model = .error error) :
    ∃ message ∈ targetMessages, error = targetError message := by
  have hscheduled : ∀ {target : ExecutionTarget},
      (requireScheduledProfileFingerprint fingerprint model target >>= fun _ => pure target) =
        .error error → ∃ message ∈ targetMessages, error = targetError message := by
    intro target h
    rcases Checks.bind_eq_error.mp h with h | ⟨_, _, h⟩
    · obtain ⟨-, rfl⟩ := requireTarget_eq_error.mp h
      exact ⟨_, by simp [targetMessages], rfl⟩
    · cases h
  unfold hydrateExecutionModelTarget at h
  split at h
  · rcases Checks.bind_eq_error.mp h with h | ⟨_, _, h⟩
    · obtain ⟨-, rfl⟩ := requireTarget_eq_error.mp h
      exact ⟨_, by simp [targetMessages], rfl⟩
    · exact hscheduled h
  · split at h
    · cases h
      exact ⟨_, by simp [targetMessages], rfl⟩
    · rcases Checks.bind_eq_error.mp h with h | ⟨_, _, h⟩
      · exact requireProfile_error h
      · exact hscheduled h

/-- A text without a digit of a code does not mention it. -/
lemma mentionsAny_eq_false {patterns : List String} {lowered : Text} {c : Char}
    (hpatterns : ∀ pattern ∈ patterns, c ∈ pattern.toList) (hc : c ∉ lowered) :
    mentionsAny patterns lowered = false := by
  rw [mentionsAny, List.any_eq_false]
  intro pattern hpattern hinfix
  exact hc ((of_decide_eq_true hinfix).subset (hpatterns pattern hpattern))

/-- A text that mentions no code and no timeout, but the configuration, is of the configuration. -/
lemma classifyLowered_configuration {lowered : Text} (hfour : '4' ∉ lowered) (hfive : '5' ∉ lowered)
    (htimeout : mentionsAny ["timeout"] lowered = false)
    (hwords : mentionsAny configurationWords lowered = true) :
    classifyLowered "RuntimeError" lowered = ("configuration_error", false) := by
  have htooMany : mentionsAny ["429"] lowered = false :=
    mentionsAny_eq_false (by decide) hfour
  have hcodes : mentionsAny ((List.range 100).map fun code => toString (500 + code)) lowered =
      false := mentionsAny_eq_false (by decide +kernel) hfive
  rw [classifyLowered, htimeout, htooMany, hcodes, hwords]
  rfl

/-- An error is of the configuration when its characters mention it and no code. -/
lemma targetError_classified {message : String} {text lowered : Text} (htext : message.toList = text)
    (hlowered : "RuntimeError: ".toList ++ text = lowered)
    (hchecked : lowered.all isAscii ∧ '4' ∉ lowered.map Char.toLower ∧
      '5' ∉ lowered.map Char.toLower ∧ mentionsAny ["timeout"] (lowered.map Char.toLower) = false ∧
        mentionsAny configurationWords (lowered.map Char.toLower) = true) :
    (targetError message).message.toList.all isAscii ∧ classifyLowered "RuntimeError"
      ((targetError message).message.toList.map Char.toLower) = ("configuration_error", false) := by
  have hchars : (targetError message).message.toList = lowered := by
    rw [targetError, String.toList_append, htext, hlowered]
  obtain ⟨hascii, hfour, hfive, htimeout, hwords⟩ := hchecked
  rw [hchars]
  exact ⟨hascii, classifyLowered_configuration hfour hfive htimeout hwords⟩

/-- The messages of the errors of a target are of the configuration. -/
lemma targetMessages_classified : ∀ message ∈ targetMessages,
    (targetError message).message.toList.all isAscii ∧ classifyLowered "RuntimeError"
      ((targetError message).message.toList.map Char.toLower) = ("configuration_error", false) := by
  intro message hmessage
  simp only [targetMessages, List.mem_cons, List.not_mem_nil, or_false] at hmessage
  rcases hmessage with rfl | rfl | rfl | rfl | rfl | rfl | rfl | rfl | rfl | rfl | rfl | rfl | rfl |
    rfl | rfl
  -- a literal is the text of its characters, which the check then reads
  all_goals exact targetError_classified String.toList_ofList rfl (by decide +kernel)

/-- An error of a target is one of the configuration, and is not retried. -/
theorem hydrate_error_classified (hlower : LowersAscii U)
    (h : hydrateExecutionModelTarget fingerprint U settings model = .error error) :
    classifyError U error = ("configuration_error", false) := by
  obtain ⟨message, hmessage, rfl⟩ := hydrate_error h
  obtain ⟨hascii, hclass⟩ := targetMessages_classified message hmessage
  have htext : classifyError U (targetError message) = classifyLowered "RuntimeError"
      (U.lowerText (targetError message).message.toList) := rfl
  rw [htext, lowerText_ascii hlower hascii, hclass]

end

end Memorist
