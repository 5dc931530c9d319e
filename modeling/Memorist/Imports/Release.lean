import Memorist.Imports.ExecutionTarget
import Memorist.Imports.LeaseSafety

/-!
The end of an attempt at an imported message, with the model that the message is processed with
(`ImportMessageProcessor._process_one`).

* `ClaimedMessage`, `AttemptState`: a row under its attempt, and what the attempt reads and writes;
* `MessageEffect`, `messageEffect`: the statements of an attempt, with anything done in between;
* `processMessage`: the attempt, its fences with the check of the model, and its handlers;
* `processMessage_releases`: an attempt that returns has released its message, unless the fence of
  its failure was lost; an error of the model fails the message.
-/

namespace Memorist

open Fallible

/-! ### Attempts -/

/-- A message that was claimed: its row, its scheduled model and its attempt. -/
structure ClaimedMessage where
  row : StatusRow
  model : ScheduledModel
  attempt : ImportAttempt
  owned : row.leaseOwner = some attempt.1 ∧ row.processingAttemptUuid = some attempt.2

/-- What a row says of its last failure: `error_sanitized`, `error_classification`. -/
structure ImportFailure where
  errorSanitized : String
  errorClassification : String
  deriving DecidableEq

/-- What an attempt reads and writes. -/
structure AttemptState where
  store : ImportStore
  models : ModelSettings := {}
  failures : String → Option ImportFailure := fun _ => none

/-- The model of an inference, which a fence compares with the one that is found again. -/
abbrev ExpectedTarget : Type := ExecutionTarget × PreparedInference

/-- What an attempt asks of the store and of the models. -/
inductive MessageEffect where
  | leaseFence
  | startJob
  | readModels
  | prepareMessage (target : ExecutionTarget)
  | renewLease
  | publishSuccess (expected : ExpectedTarget) (processingRunUuid : String)
  | publishFailure (expected : Option ExpectedTarget) (error : ImportError)
  | releaseClaim
  deriving DecidableEq

/-- What an effect answers, unless it raises. -/
def MessageEffect.Answer : MessageEffect → Type
  | readModels => ModelSettings
  | prepareMessage _ => PreparedInference
  | _ => Bool

/-- What an effect responds. -/
abbrev MessageEffect.Response (e : MessageEffect) : Type := Except ImportError e.Answer

/-- A part of an attempt. -/
abbrev AttemptProgram (α : Type) : Type :=
  Fallible MessageEffect MessageEffect.Answer ImportError α

/-- A pipeline: the fences that it calls, before a provider or not, and the processing run that it
ends with. -/
abbrev FencedPipeline : Type :=
  Prog Bool (fun _ => Except ImportError Unit) (Except ImportError String)

section

variable (fingerprint : ExecutionTarget → String) (U : UnicodeData) (m : ClaimedMessage)

/-- The check of the model in a fence. -/
def checkTarget (settings : ModelSettings) : Option ExpectedTarget → Except ImportError Unit
  | none => .ok ()
  | some (target, prepared) => do
      let current ← hydrateExecutionModelTarget fingerprint U settings m.model
      requireSameExecutionTarget fingerprint m.model target current prepared

/-- `require_fence`. -/
def requireTargetFence (expected : Option ExpectedTarget) (beforeProvider : Bool) :
    AttemptProgram Unit :=
  ask .leaseFence fun
    | false => raise importLeaseLost
    | true =>
        andThen (match expected with
          | none => pure ()
          | some expected => ask .readModels fun (settings : ModelSettings) =>
              .done (checkTarget fingerprint U m settings (some expected))) fun () =>
          if beforeProvider then
            ask .renewLease fun
              | false => raise importLeaseLost
              | true => pure ()
          else pure ()

/-- Run a pipeline, whose calls of the fence may raise. -/
def runFenced (fence : Bool → AttemptProgram Unit) : FencedPipeline → AttemptProgram String
  | .done result => .done result
  | .call beforeProvider k => (fence beforeProvider).bind fun response =>
      runFenced fence (k response)

/-- Mark the job of the row as running, if it has one. -/
def startAttemptJob : AttemptProgram Unit :=
  if m.row.jobUuid.isSome then
    ask .startJob fun
      | false => raise importLeaseLost
      | true => pure ()
  else pure ()

/-- An attempt up to its prepared inference. -/
def prepareAttempt : AttemptProgram ExpectedTarget :=
  andThen (requireTargetFence fingerprint U m none false) fun () =>
  andThen (startAttemptJob m) fun () =>
  ask .readModels fun (settings : ModelSettings) =>
    match hydrateExecutionModelTarget fingerprint U settings m.model with
    | .error error => raise error
    | .ok target => ask (.prepareMessage target) fun (prepared : PreparedInference) =>
        pure (target, prepared)

/-- The rest of an attempt, up to the publication of its success. -/
def concludeAttempt (expected : ExpectedTarget) (pipeline : FencedPipeline) : AttemptProgram Unit :=
  andThen (requireTargetFence fingerprint U m (some expected) false) fun () =>
  ask .readModels fun (settings : ModelSettings) =>
  andThen (.done (checkTarget fingerprint U m settings (some expected))) fun () =>
  andThen (runFenced (requireTargetFence fingerprint U m (some expected)) pipeline)
    fun processingRunUuid =>
  ask (.publishSuccess expected processingRunUuid) fun
    | false => raise importLeaseLost
    | true => pure ()

/-- What is done about an error: release the claim of a lost lease, or publish the failure. -/
def handleError (expected : Option ExpectedTarget) (error : ImportError) : AttemptProgram Unit :=
  if error.errorClass = importLeaseLost.errorClass then ask .releaseClaim fun _ => pure ()
  else ask (.publishFailure expected error) fun _ => pure ()

/-- `_process_one`. -/
def processMessage (pipeline : ExpectedTarget → FencedPipeline) : AttemptProgram Unit :=
  Fallible.attempt (prepareAttempt fingerprint U m) fun
    | .error error => handleError none error
    | .ok expected =>
        Fallible.attempt (concludeAttempt fingerprint U m expected (pipeline expected)) fun
          | .error error => handleError (some expected) error
          | .ok () => pure ()

/-! ### Statements -/

/-- A publication, in one transaction with its fence. -/
def publishes (s : AttemptState) (expected : Option ExpectedTarget) (publication : Publication)
    (failure : Option ImportFailure) (answer : Bool) (t : AttemptState) : Prop :=
  (answer = true → checkTarget fingerprint U m s.models expected = .ok ()) ∧
    importAnswers U s.store (.publish m.row.statusUuid m.attempt publication) answer t.store ∧
    t.models = s.models ∧
    t.failures =
      if answer then Function.update s.failures m.row.statusUuid failure else s.failures

/-- What a statement answers and does. -/
def messageAnswers (leaseSeconds : ℕ) (s : AttemptState) :
    (e : MessageEffect) → e.Answer → AttemptState → Prop
  | .leaseFence, answer, t =>
      importAnswers U s.store (.leaseFence m.row.statusUuid m.attempt) answer s.store ∧ t = s
  | .startJob, answer, t =>
      (answer = true → importAnswers U s.store (.leaseFence m.row.statusUuid m.attempt) true
        s.store) ∧ t = s
  | .readModels, answer, t => answer = s.models ∧ t = s
  | .prepareMessage _, _, t => t = s
  | .renewLease, answer, t => ∃ store,
      importAnswers U s.store (.renewLease m.row.statusUuid m.attempt leaseSeconds) answer store ∧
        t = { s with store }
  | .publishSuccess expected processingRunUuid, answer, t =>
      publishes fingerprint U m s (some expected) (.succeeded processingRunUuid) none answer t
  | .publishFailure expected error, answer, t =>
      publishes fingerprint U m s expected (failureTransition U m.row error)
        (some ⟨error.message, (classifyError U error).1⟩) answer t
  | .releaseClaim, answer, t => ∃ store,
      importAnswers U s.store (.releaseClaim m.row.statusUuid m.attempt) answer store ∧
        t = { s with store }

/-- What an effect does after whatever the others did: it answers, or it raises and nothing changes;
a statement does not raise that the lease is lost. -/
def messageEffect (leaseSeconds : ℕ) (others : AttemptState → AttemptState → Prop)
    (s : AttemptState) (e : MessageEffect) (response : e.Response) (t : AttemptState) : Prop :=
  ∃ s', others s s' ∧
    match response with
    | .ok answer => messageAnswers fingerprint U m leaseSeconds s' e answer t
    | .error error => t = s' ∧ error.errorClass ≠ importLeaseLost.errorClass

end

/-! ### Release -/

/-- The attempt owns the row no more. -/
def ClaimedMessage.IsReleased (m : ClaimedMessage) (s : AttemptState) : Prop :=
  ∀ row ∈ s.store.statuses.table.get? m.row.statusUuid, ¬row.isOwned m.attempt

/-- The effects that an attempt performed. -/
abbrev AttemptTrace : Type := List (Performed MessageEffect.Response)

/-- The failure of an attempt was to be published, and its fence refused it. -/
def FailureUnpublished (es : AttemptTrace) : Prop :=
  ∃ expected error, es.getLast? = some ⟨.publishFailure expected error, .ok false⟩

/-- A handler of an attempt raised. -/
def HandlerRaised (es : AttemptTrace) (error : ImportError) : Prop :=
  es.getLast? = some ⟨.releaseClaim, .error error⟩ ∨
    ∃ expected error', es.getLast? = some ⟨.publishFailure expected error', .error error⟩

/-- An attempt has released its message when it returns, unless its failure was not published. -/
def Releases (m : ClaimedMessage) (es : AttemptTrace) (answer : Except ImportError Unit)
    (t : AttemptState) : Prop :=
  match answer with
  | .ok () => m.IsReleased t ∨ FailureUnpublished es
  | .error error => HandlerRaised es error

section

variable {fingerprint : ExecutionTarget → String} {U : UnicodeData} {m : ClaimedMessage}
variable {leaseSeconds : ℕ} {others : AttemptState → AttemptState → Prop}
variable {es : AttemptTrace} {s t : AttemptState}

/-- A publication that passes its fence changes the row. -/
lemma publishes_applied {expected : Option ExpectedTarget} {publication : Publication}
    {failure : Option ImportFailure}
    (h : publishes fingerprint U m s expected publication failure true t) :
    ∃ row finished, s.store.statuses.table.get? m.row.statusUuid = some row ∧
      t.store.statuses.table.get? m.row.statusUuid = some (row.published publication finished) := by
  obtain ⟨-, hpublish, -⟩ := h
  obtain ⟨row, now, finished, hrow, -, -, -, -, hrow'⟩ :=
    publish_applied (U := U) (s := s.store) hpublish
  exact ⟨row, finished, hrow, hrow'⟩

/-- A row whose attempt has ended is owned no more. -/
lemma not_isOwned_published {publication : Publication} {finished : Timestamp} {row : StatusRow}
    {attempt : ImportAttempt} : ¬(row.published publication finished).isOwned attempt := by
  intro h
  obtain ⟨hrunning, -⟩ := StatusRow.isOwned_iff.mp h
  cases publication <;> exact absurd hrunning (by simp [StatusRow.published])

lemma publishes_released {expected : Option ExpectedTarget} {publication : Publication}
    {failure : Option ImportFailure}
    (h : publishes fingerprint U m s expected publication failure true t) : m.IsReleased t := by
  obtain ⟨row, finished, -, hrow'⟩ := publishes_applied h
  intro row' hget
  rw [hrow'] at hget
  obtain rfl := Option.mem_some_iff.mp hget
  exact not_isOwned_published

lemma releaseClaim_released {answer : Bool}
    (h : messageAnswers fingerprint U m leaseSeconds s .releaseClaim answer t) :
    m.IsReleased t := by
  obtain ⟨store, ⟨-, rfl⟩, rfl⟩ := h
  intro row hrow howned
  simp only [ImportStore.releaseClaim, StatusTable.updateWhere, Table.get?_updateWhere,
    Option.mem_def, Option.map_eq_some_iff] at hrow
  obtain ⟨row₀, hrow₀, rfl⟩ := hrow
  split_ifs at howned with howner
  · obtain ⟨hrunning, -⟩ := StatusRow.isOwned_iff.mp howned
    exact absurd hrunning (by simp [StatusRow.released])
  · refine howner ?_
    rw [ImportStore.ownedRow, howned, Table.key_of_get? hrow₀]
    simp

/-- What is done about an error ends as an attempt may. -/
lemma safe_handleError {expected : Option ExpectedTarget} {error : ImportError} :
    Prog.Safe (messageEffect fingerprint U m leaseSeconds others) (fun _ _ => True) (Releases m)
      es s (handleError expected error) := by
  rw [handleError]
  split_ifs
  · refine safe_ask.mpr ⟨trivial, fun answer t heffect => ?_, fun raised t heffect => ?_⟩
    · obtain ⟨s', -, hanswer⟩ := heffect
      exact .inl (releaseClaim_released hanswer)
    · exact .inl List.getLast?_concat
  · refine safe_ask.mpr ⟨trivial, fun (answer : Bool) t heffect => ?_, fun raised t heffect => ?_⟩
    · obtain ⟨s', -, hanswer⟩ := heffect
      cases answer with
      | true => exact .inl (publishes_released hanswer)
      | false => exact .inr ⟨expected, error, List.getLast?_concat⟩
    · exact .inr ⟨expected, error, List.getLast?_concat⟩

/-- An attempt that finishes has published its success. -/
lemma safe_concludeAttempt {expected : ExpectedTarget} {pipeline : FencedPipeline} :
    Prog.Safe (messageEffect fingerprint U m leaseSeconds others) (fun _ _ => True)
      (fun _ answer t => answer = .ok () → m.IsReleased t) es s
      (concludeAttempt fingerprint U m expected pipeline) := by
  refine safe_andThen_last (fun _ es s => ?_) fun error es t h => nomatch h
  refine safe_ask.mpr ⟨trivial, fun settings s _ => ?_, fun error t _ h => nomatch h⟩
  refine safe_andThen_last (fun _ es s => ?_) fun error es t h => nomatch h
  refine safe_andThen_last (fun processingRunUuid es s => ?_) fun error es t h => nomatch h
  refine safe_ask.mpr ⟨trivial, fun (answer : Bool) t heffect => ?_, fun error t _ h => nomatch h⟩
  obtain ⟨s', -, hanswer⟩ := heffect
  cases answer with
  | true => exact fun _ => publishes_released hanswer
  | false => exact fun h => nomatch h

/-- However an attempt begins and goes on, it ends as it may. -/
lemma safe_processMessage {pipeline : ExpectedTarget → FencedPipeline} :
    Prog.Safe (messageEffect fingerprint U m leaseSeconds others) (fun _ _ => True) (Releases m)
      es s (processMessage fingerprint U m pipeline) := by
  refine Prog.Safe.bind (Prog.Safe.of_append fun fs answer t => ?_)
  cases answer with
  | error error => exact safe_handleError
  | ok expected =>
      refine Prog.Safe.bind (safe_concludeAttempt.imp fun es answer t hanswer => ?_)
      cases answer with
      | error error => exact safe_handleError
      | ok _ => exact .inl (hanswer rfl)

/-! ### Errors of the model -/

/-- An error of the model, before its inference was prepared, is what the attempt fails with. -/
def FailsConfiguration (fingerprint : ExecutionTarget → String) (U : UnicodeData)
    (m : ClaimedMessage) (es : AttemptTrace) (t : AttemptState) : Prop :=
  ∀ settings error, ⟨.readModels, .ok settings⟩ ∈ es →
    hydrateExecutionModelTarget fingerprint U settings m.model = .error error →
    (∀ x ∈ es, ∀ target, x.1 ≠ .prepareMessage target) →
      ∃ response, es.getLast? = some ⟨.publishFailure none error, response⟩ ∧
        (response = .ok true →
          (∃ row ∈ t.store.statuses.table.get? m.row.statusUuid, row.status = .failed) ∧
            t.failures m.row.statusUuid = some ⟨error.message, "configuration_error"⟩)

/-- An error of the model is final, and one of the configuration. -/
lemma failureTransition_hydrate {settings : ModelSettings} {error : ImportError}
    (hlower : LowersAscii U)
    (herror : hydrateExecutionModelTarget fingerprint U settings m.model = .error error) :
    failureTransition U m.row error = .failed ∧
      (classifyError U error).1 = "configuration_error" := by
  have hclass := hydrate_error_classified hlower herror
  rw [failureTransition, isRetryable_eq, hclass]
  exact ⟨rfl, rfl⟩

/-- A row that fails by an error of its model. -/
lemma publishes_configuration {settings : ModelSettings} {error : ImportError}
    (hlower : LowersAscii U)
    (herror : hydrateExecutionModelTarget fingerprint U settings m.model = .error error)
    (h : publishes fingerprint U m s none (failureTransition U m.row error)
      (some ⟨error.message, (classifyError U error).1⟩) true t) :
    (∃ row ∈ t.store.statuses.table.get? m.row.statusUuid, row.status = .failed) ∧
      t.failures m.row.statusUuid = some ⟨error.message, "configuration_error"⟩ := by
  obtain ⟨hfailed, hclass⟩ := failureTransition_hydrate hlower herror
  rw [hfailed, hclass] at h
  obtain ⟨row, finished, -, hrow'⟩ := publishes_applied h
  refine ⟨⟨_, hrow', rfl⟩, ?_⟩
  rw [h.2.2.2, if_pos rfl, Function.update_self]

/-- The class of the errors of a model is not that of a lost lease. -/
lemma hydrate_error_class {settings : ModelSettings} {error : ImportError}
    (herror : hydrateExecutionModelTarget fingerprint U settings m.model = .error error) :
    error.errorClass ≠ importLeaseLost.errorClass := by
  obtain ⟨message, -, rfl⟩ := hydrate_error herror
  exact (by decide : "RuntimeError" ≠ "ImportLeaseLost")

/-- Once an inference is prepared there is nothing to show. -/
lemma failsConfiguration_of_prepared {target : ExecutionTarget}
    {response : (MessageEffect.prepareMessage target).Response}
    (h : ⟨.prepareMessage target, response⟩ ∈ es) : FailsConfiguration fingerprint U m es t :=
  fun _ _ _ _ hnone => absurd rfl (hnone _ h target)

/-- The models were not read. -/
def Unread (es : AttemptTrace) : Prop := ∀ settings, ⟨.readModels, .ok settings⟩ ∉ es

/-- Before the models are read there is nothing to show. -/
lemma failsConfiguration_of_unread (h : Unread es) : FailsConfiguration fingerprint U m es t :=
  fun settings _ hmem => absurd hmem (h settings)

lemma Unread.concat (h : Unread es) {x : Performed MessageEffect.Response}
    (hx : ∀ settings, x ≠ ⟨.readModels, .ok settings⟩) : Unread (es ++ [x]) := by
  intro settings hmem
  rcases List.mem_append.mp hmem with hold | hnew
  · exact h settings hold
  · exact hx settings (List.mem_singleton.mp hnew).symm

/-- An error before the models are read is none of the model. -/
lemma safe_handleError_unread {expected : Option ExpectedTarget} {error : ImportError}
    (h : Unread es) :
    Prog.Safe (messageEffect fingerprint U m leaseSeconds others) (fun _ _ => True)
      (fun es _ t => FailsConfiguration fingerprint U m es t) es s
      (handleError expected error) := by
  rw [handleError]
  split_ifs
  · exact safe_ask.mpr ⟨trivial,
      fun _ t _ => failsConfiguration_of_unread (h.concat fun _ => by simp),
      fun _ t _ => failsConfiguration_of_unread (h.concat fun _ => by simp)⟩
  · exact safe_ask.mpr ⟨trivial,
      fun _ t _ => failsConfiguration_of_unread (h.concat fun _ => by simp),
      fun _ t _ => failsConfiguration_of_unread (h.concat fun _ => by simp)⟩

/-- An error of the models that were read is what the attempt fails with. -/
lemma safe_handleError_hydrate {settings : ModelSettings} {error : ImportError}
    (hlower : LowersAscii U) (h : Unread es)
    (herror : hydrateExecutionModelTarget fingerprint U settings m.model = .error error) :
    Prog.Safe (messageEffect fingerprint U m leaseSeconds others) (fun _ _ => True)
      (fun es _ t => FailsConfiguration fingerprint U m es t) (es ++ [⟨.readModels, .ok settings⟩])
      s (handleError none error) := by
  -- the models that the trace has read are the ones that the error comes from
  have hread : ∀ {settings' error' response}, ⟨.readModels, .ok settings'⟩ ∈
      es ++ [⟨.readModels, .ok settings⟩] ++ [⟨.publishFailure none error, response⟩] →
        hydrateExecutionModelTarget fingerprint U settings' m.model = .error error' →
          error' = error := by
    intro settings' error' response hmem herror'
    rcases List.mem_append.mp hmem with hmem | hmem
    · rcases List.mem_append.mp hmem with hmem | hmem
      · exact absurd hmem (h settings')
      · cases List.mem_singleton.mp hmem
        exact Except.error.inj (herror'.symm.trans herror)
    · cases List.mem_singleton.mp hmem
  rw [handleError, if_neg (hydrate_error_class herror)]
  refine safe_ask.mpr ⟨trivial, fun (answer : Bool) t heffect => ?_, fun raised t _ => ?_⟩
  · intro settings' error' hmem herror' _
    obtain rfl := hread hmem herror'
    refine ⟨.ok answer, List.getLast?_concat, fun htrue => ?_⟩
    cases htrue
    obtain ⟨s', -, hanswer⟩ := heffect
    exact publishes_configuration hlower herror hanswer
  · intro settings' error' hmem herror' _
    obtain rfl := hread hmem herror'
    exact ⟨.error raised, List.getLast?_concat, fun h => nomatch h⟩

/-- The first fence of an attempt reads no models. -/
lemma safe_firstFence (h : Unread es) :
    Prog.Safe (messageEffect fingerprint U m leaseSeconds others) (fun _ _ => True)
      (fun es _ _ => Unread es) es s (requireTargetFence fingerprint U m none false) := by
  refine safe_ask.mpr ⟨trivial, fun (answer : Bool) t _ => ?_,
    fun _ t _ => h.concat fun _ => by simp⟩
  have hafter : Unread (es ++ [⟨.leaseFence, .ok answer⟩]) := h.concat fun _ => by simp
  cases answer with
  | true => exact hafter
  | false => exact hafter

/-- The start of a job reads no models. -/
lemma safe_startJob (h : Unread es) :
    Prog.Safe (messageEffect fingerprint U m leaseSeconds others) (fun _ _ => True)
      (fun es _ _ => Unread es) es s (startAttemptJob m) := by
  rw [startAttemptJob]
  split_ifs
  · refine safe_ask.mpr ⟨trivial, fun (answer : Bool) t _ => ?_,
      fun _ t _ => h.concat fun _ => by simp⟩
    have hafter : Unread (es ++ [⟨.startJob, .ok answer⟩]) := h.concat fun _ => by simp
    cases answer with
    | true => exact hafter
    | false => exact hafter
  · exact h

/-- An attempt fails by the errors of its model. -/
lemma safe_processMessage_configuration (hlower : LowersAscii U)
    {pipeline : ExpectedTarget → FencedPipeline} :
    Prog.Safe (messageEffect fingerprint U m leaseSeconds others) (fun _ _ => True)
      (fun es _ t => FailsConfiguration fingerprint U m es t) [] s
      (processMessage fingerprint U m pipeline) := by
  refine Prog.Safe.bind (safe_andThen ((safe_firstFence fun _ => List.not_mem_nil).imp
    fun es answer s hunread => ⟨fun _ _ => ?_, fun error _ => safe_handleError_unread hunread⟩))
  refine safe_andThen ((safe_startJob hunread).imp
    fun es answer s hunread => ⟨fun _ _ => ?_, fun error _ => safe_handleError_unread hunread⟩)
  refine safe_ask.mpr ⟨trivial, fun settings s _ => ?_, fun error s _ =>
    safe_handleError_unread (hunread.concat fun _ => by simp)⟩
  cases htarget : hydrateExecutionModelTarget fingerprint U settings m.model with
  | error error => exact safe_handleError_hydrate hlower hunread htarget
  | ok target =>
      have hprepared : ∀ {es : AttemptTrace} {response} {s : AttemptState}
          {p : AttemptProgram Unit}, Prog.Safe
            (messageEffect fingerprint U m leaseSeconds others) (fun _ _ => True)
            (fun es _ t => FailsConfiguration fingerprint U m es t)
            (es ++ [⟨.prepareMessage target, response⟩]) s p := fun {es response s p} =>
        Prog.Safe.of_append fun fs _ _ => failsConfiguration_of_prepared
          (List.mem_append_left fs (List.mem_append_right es List.mem_cons_self))
      exact safe_ask.mpr ⟨trivial, fun _ _ _ => hprepared, fun _ _ _ => hprepared⟩

/-- An attempt that returns has released its message, unless the fence was lost by which its failure
was to be published; it raises only out of its handlers. An error of the model, before its inference
is prepared, is published as a failure of the configuration while the fence holds. -/
theorem processMessage_releases (hlower : LowersAscii U)
    {pipeline : ExpectedTarget → FencedPipeline} {answer : Except ImportError Unit}
    (hexec : Prog.Exec (messageEffect fingerprint U m leaseSeconds others) s
      (processMessage fingerprint U m pipeline) es (.done answer) t) :
    Releases m es answer t ∧ FailsConfiguration fingerprint U m es t := by
  have hreleases := (@safe_processMessage _ _ _ _ others [] s pipeline).exec hexec
  have hconfiguration := (safe_processMessage_configuration hlower).exec hexec
  exact ⟨hreleases, hconfiguration⟩

end

/-! ### Messages that stay in processing -/

/-- However an attempt ends, it has released its message. -/
def AlwaysReleases (fingerprint : ExecutionTarget → String) (U : UnicodeData) : Prop :=
  ∀ (m : ClaimedMessage) (leaseSeconds : ℕ) (others : AttemptState → AttemptState → Prop)
    (pipeline : ExpectedTarget → FencedPipeline) (s t : AttemptState) (es : AttemptTrace)
    (answer : Except ImportError Unit),
    Prog.Exec (messageEffect fingerprint U m leaseSeconds others) s
      (processMessage fingerprint U m pipeline) es (.done answer) t → m.IsReleased t

/-- A claimed message that was scheduled with a model. -/
def leasedMessage (model : ScheduledModel) : ClaimedMessage where
  row := leasedStatus
  model := model
  attempt := ("w1", "a1")
  owned := ⟨rfl, rfl⟩

/-- What a model without a profile is published to fail with. -/
def missingProfile : ImportError := targetError "scheduled model profile is no longer available"

/-- A message whose profile is gone fails, and is not tried again. -/
theorem processMessage_releases_missing :
    let m := leasedMessage { modelProfileUuid := some "p1" }
    let es : AttemptTrace := [⟨.leaseFence, .ok true⟩, ⟨.readModels, .ok {}⟩,
      ⟨.publishFailure none missingProfile, .ok true⟩]
    let t : AttemptState :=
      { store := leasedStore.publish 6 "s1" ("w1", "a1") .failed
        failures := Function.update (fun _ => none) "s1"
          (some ⟨missingProfile.message, "configuration_error"⟩) }
    Releases m es (.ok ()) t ∧ FailsConfiguration (fun _ => "f") basicLatin m es t := by
  intro m es t
  have hlower : LowersAscii basicLatin := fun _ _ => rfl
  have hfence : leasedStore.leaseFence 5 "s1" ("w1", "a1") = true := by decide
  have herror : hydrateExecutionModelTarget (fun _ => "f") basicLatin {} m.model =
      .error missingProfile := rfl
  obtain ⟨hfailed, hclass⟩ := failureTransition_hydrate hlower herror
  have hpublish : publishes (fun _ => "f") basicLatin m { store := leasedStore } none
      (failureTransition basicLatin m.row missingProfile)
      (some ⟨missingProfile.message, (classifyError basicLatin missingProfile).1⟩) true t := by
    rw [hfailed, hclass]
    exact ⟨fun _ => rfl, ⟨5, 6, hfence.symm, (if_pos hfence).symm⟩, rfl, rfl⟩
  have hexec : Prog.Exec (messageEffect (fun _ => "f") basicLatin m 60 Eq)
      { store := leasedStore } (processMessage (fun _ => "f") basicLatin m fun _ => .done (.ok "run"))
      es (.done (.ok ())) t := .call ⟨_, rfl, ⟨⟨5, hfence.symm⟩, rfl⟩, rfl⟩ (.call ⟨_, rfl, rfl, rfl⟩
        (.call ⟨_, rfl, hpublish⟩ (.refl t _)))
  exact processMessage_releases hlower hexec

/-- What the inference of a message fails with. -/
def failedInference : ImportError := ⟨"RuntimeError", "RuntimeError: no answer"⟩

/-- A message whose lease expires before its failure is published stays in processing. -/
theorem not_alwaysReleases : ¬AlwaysReleases (fun _ => "f") basicLatin := by
  intro h
  have hfence : leasedStore.leaseFence 5 "s1" ("w1", "a1") = true := by decide
  have hexpired : leasedStore.leaseFence 11 "s1" ("w1", "a1") = false := by decide
  have hpublish : publishes (fun _ => "f") basicLatin (leasedMessage {}) { store := leasedStore }
      none (failureTransition basicLatin leasedStatus failedInference)
      (some ⟨failedInference.message, (classifyError basicLatin failedInference).1⟩) false
      { store := leasedStore } :=
    ⟨fun h => (nomatch h), ⟨11, 11, hexpired.symm,
      (if_neg (Bool.eq_false_iff.mp hexpired)).symm⟩, rfl, rfl⟩
  have hexec : Prog.Exec (messageEffect (fun _ => "f") basicLatin (leasedMessage {}) 60 Eq)
      { store := leasedStore }
      (processMessage (fun _ => "f") basicLatin (leasedMessage {}) fun _ => .done (.ok "run"))
      [⟨.leaseFence, .ok true⟩, ⟨.readModels, .ok {}⟩,
        ⟨.prepareMessage (deterministicTarget "import_reconstruction"), .error failedInference⟩,
        ⟨.publishFailure none failedInference, .ok false⟩]
      (.done (.ok ())) { store := leasedStore } :=
    .call ⟨_, rfl, ⟨⟨5, hfence.symm⟩, rfl⟩, rfl⟩ (.call ⟨_, rfl, rfl, rfl⟩
      (.call ⟨_, rfl, rfl, by decide⟩ (.call ⟨_, rfl, hpublish⟩ (.refl _ _))))
  exact h _ _ _ _ _ _ _ _ hexec leasedStatus rfl (by decide)

end Memorist
