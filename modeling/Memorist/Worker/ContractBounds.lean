import Memorist.Worker.Attempts

/-!
What an execution does between its start and its end, whatever the provider, the validator, the
lease and the deterministic output answer (`memory_worker/execution.py`).

* `contractDiscipline`: an execution does nothing once a revalidation has failed, and calls the
  provider only when admitted;
* `OutcomeFacts`, `Reports`: what an outcome says, and what a failure says of a lost lease;
* `History`, `keepsContract_admitted`, `keepsContract_judged`: each stretch of an execution keeps
  the discipline, with the answers received so far;
* `contract_execution_bounded`: **at most two admitted provider calls, a valid output, and the
  tokens of the answers received.**
-/

namespace Memorist

/-! ### What an execution has done -/

/-- The effects that an execution has performed. -/
abbrev ContractTrace : Type := List (Performed ContractEffect.Response)

/-- Whether an effect is a provider call. -/
def isRun (performed : Performed ContractEffect.Response) : Bool :=
  match performed.1 with
  | .run _ => true
  | _ => false

/-- The answer that an effect received from the provider. -/
def returned? : Performed ContractEffect.Response → Option ProviderAttempt
  | ⟨.run _, .returned attempt⟩ => some attempt
  | _ => none

/-- The answers of the provider, in order. -/
def returnedAttempts (effects : ContractTrace) : List ProviderAttempt :=
  effects.filterMap returned?

/-- No revalidation has failed. -/
def Calm (effects : ContractTrace) : Prop :=
  ∀ message, (⟨.revalidate, .error message⟩ : Performed ContractEffect.Response) ∉ effects

/-- The kind of a provider call. -/
def callKind (corrective : Option Corrective) : AttemptKind :=
  if corrective.isNone then .initial else .repair

/-- The effects that admit a provider call: the lease is revalidated where there is one, and the
attempt is reserved where attempts are audited. -/
def admission (c : ContractExecution) (corrective : Option Corrective) : ContractTrace :=
  (if c.revalidates then [⟨.revalidate, .ok ()⟩] else []) ++
    if c.attemptAudit.isSome then
      [⟨.insertAttempt (callIndex corrective) (callKind corrective), .inserted⟩]
    else []

/-- An execution does nothing once a revalidation has failed, and calls the provider when admitted,
first for an answer and then for its repair. -/
def contractDiscipline (c : ContractExecution) :
    Discipline ContractEffect.Response ContractTrace where
  requires effects e := Calm effects ∧ ∀ corrective, e = .run corrective →
    admission c corrective <:+ effects ∧ effects.countP isRun + 1 = callIndex corrective
  after effects e r := effects ++ [⟨e, r⟩]

/-- What an outcome says after the effects: its output is valid, it is the last answer of the
provider up to the status alias or the deterministic output, and its tokens are those of the
answers. -/
structure OutcomeFacts (c : ContractExecution) (effects : ContractTrace)
    (outcome : ContractExecutionOutcome) : Prop where
  calm : Calm effects
  valid : c.validate outcome.output = []
  provider : outcome.providerOutputValid = true → ∃ attempt parsed,
    (returnedAttempts effects).getLast? = some attempt ∧ attempt.parsed = some parsed ∧
      outcome.output =
        if outcome.canonicalized then Dict.set parsed "status".toList (.str "ok".toList) else parsed
  deterministic : outcome.providerOutputValid = false →
    (⟨.deterministicOutput, .ok outcome.output⟩ : Performed ContractEffect.Response) ∈ effects
  inputTokens :
    outcome.inputTokens = ((returnedAttempts effects).map ProviderAttempt.inputTokens).sum
  outputTokens : if c.provider.isSome then
      outcome.outputTokens = ((returnedAttempts effects).map ProviderAttempt.outputTokens).sum
    else ∃ size, outputSize outcome.output = .ok size ∧ outcome.outputTokens = size

/-- What a result says after the effects; a failed revalidation is what the caller sees. -/
def Reports (c : ContractExecution) (effects : ContractTrace) :
    Except ExecutionFailure ContractExecutionOutcome → Prop
  | .ok outcome => OutcomeFacts c effects outcome
  | .error failure => ∀ message,
      (⟨.revalidate, .error message⟩ : Performed ContractEffect.Response) ∈ effects →
        failure = .raised message

/-- An execution keeps the discipline, and its result says what it did. -/
def KeepsContract (c : ContractExecution) (effects : ContractTrace) (execution : Execution) :
    Prop :=
  Prog.Keeps (contractDiscipline c) (Reports c) effects execution

/-! ### Histories -/

/-- The effects so far: no revalidation failed, and the provider was called so often and gave the
answers. -/
structure History (effects : ContractTrace) (answers : List ProviderAttempt) (calls : ℕ) :
    Prop where
  calm : Calm effects
  answers_eq : returnedAttempts effects = answers
  calls_eq : effects.countP isRun = calls

/-- What was observed adds the tokens of the answers up. -/
structure FactsMatch (facts : ExecutionFacts) (answers : List ProviderAttempt) : Prop where
  inputTokens : facts.inputTokens = (answers.map ProviderAttempt.inputTokens).sum
  outputTokens : facts.outputTokens = (answers.map ProviderAttempt.outputTokens).sum

section

variable {c : ContractExecution} {effects : ContractTrace} {answers : List ProviderAttempt}
  {calls : ℕ}

lemma history_nil : History [] [] 0 := ⟨fun _ => List.not_mem_nil, rfl, rfl⟩

lemma Calm.append (h : Calm effects) {x : Performed ContractEffect.Response}
    (hx : ∀ message, x ≠ ⟨.revalidate, .error message⟩) : Calm (effects ++ [x]) := by
  intro message hmem
  rcases List.mem_append.mp hmem with hmem | hmem
  · exact h message hmem
  · exact hx message (List.mem_singleton.mp hmem).symm

/-- An effect that is no provider call and no failed revalidation adds nothing to the history. -/
lemma History.append (h : History effects answers calls) {x : Performed ContractEffect.Response}
    (hx : ∀ message, x ≠ ⟨.revalidate, .error message⟩) (hrun : isRun x = false)
    (hreturned : returned? x = none) : History (effects ++ [x]) answers calls where
  calm := h.calm.append hx
  answers_eq := by
    rw [returnedAttempts, List.filterMap_append, ← returnedAttempts, h.answers_eq]
    simp [hreturned]
  calls_eq := by
    rw [List.countP_append, h.calls_eq]
    simp [hrun]

/-- A provider call adds its answer to the history. -/
lemma History.run (h : History effects answers calls) (corrective : Option Corrective)
    (answer : ProviderAnswer) :
    History (effects ++ [⟨.run corrective, answer⟩])
      (answers ++ (returned? ⟨.run corrective, answer⟩).toList) (calls + 1) where
  calm := h.calm.append fun _ hx => by cases hx
  answers_eq := by
    rw [returnedAttempts, List.filterMap_append, ← returnedAttempts, h.answers_eq]
    cases hreturned : returned? ⟨.run corrective, answer⟩ <;> simp [hreturned]
  calls_eq := by
    rw [List.countP_append, h.calls_eq]
    rfl

/-- What was observed adds the tokens of the answers received up. -/
lemma History.tokens (h : History effects answers calls) {facts : ExecutionFacts}
    (hfacts : FactsMatch facts answers) : FactsMatch facts (returnedAttempts effects) := by
  rw [h.answers_eq]
  exact hfacts

/-- An execution may fail while no revalidation has. -/
lemma keepsContract_error (h : History effects answers calls) {failure : ExecutionFailure} :
    KeepsContract c effects (.done (.error failure)) :=
  fun message hmem => absurd hmem (h.calm message)

/-! ### The stretches of an execution -/

variable {P : Platform} {capabilityMode reason : String} {facts : ExecutionFacts}

lemma keepsContract_revalidated (h : History effects answers calls) {next : Execution}
    (hnext : ∀ effects', History effects' answers calls →
      (c.revalidates = true → [⟨.revalidate, .ok ()⟩] <:+ effects') →
        KeepsContract c effects' next) :
    KeepsContract c effects (revalidated c next) := by
  rw [revalidated]
  split_ifs with hrevalidates
  · refine ⟨⟨h.calm, fun _ he => by cases he⟩, fun r => ?_⟩
    cases r with
    | error message =>
        -- the invalidation is the failure that the caller sees
        intro other hmem
        rcases List.mem_append.mp hmem with hmem | hmem
        · exact absurd hmem (h.calm other)
        · cases List.mem_singleton.mp hmem
          rfl
    | ok _ =>
        exact hnext _ (h.append (fun _ hx => by cases hx) rfl rfl)
          fun _ => List.suffix_append _ _
  · exact hnext effects h fun hr => absurd hr hrevalidates

lemma keepsContract_attemptCount (h : History effects answers calls) {unaudited : ℕ}
    {next : ℕ → Execution}
    (hnext : ∀ effects' count, History effects' answers calls →
      KeepsContract c effects' (next count)) :
    KeepsContract c effects (attemptCount c unaudited next) := by
  rw [attemptCount]
  split
  · exact hnext effects _ h
  · exact ⟨⟨h.calm, fun _ he => by cases he⟩, fun count =>
      hnext _ count (h.append (fun _ hx => by cases hx) rfl rfl)⟩

lemma keepsContract_finalize (h : History effects answers calls) {attemptIndex : ℕ}
    {observed : Except String AttemptObservation} {next : Execution}
    (hnext : ∀ effects', History effects' answers calls → KeepsContract c effects' next) :
    KeepsContract c effects (finalize c attemptIndex observed next) := by
  unfold finalize
  split
  · exact hnext effects h
  · split
    · exact keepsContract_error h
    · exact ⟨⟨h.calm, fun _ he => by cases he⟩, fun _ =>
        hnext _ (h.append (fun _ hx => by cases hx) rfl rfl)⟩

/-- A fallback reports the deterministic output, if it is valid. -/
lemma keepsContract_fallback (h : History effects answers calls) (hprovider : c.provider.isSome)
    (hfacts : FactsMatch facts answers) {count : ℕ} :
    KeepsContract c effects (fallback P c capabilityMode reason facts count) := by
  rw [fallback]
  split_ifs
  · refine ⟨⟨h.calm, fun _ he => by cases he⟩, fun r => ?_⟩
    have hhistory := h.append (x := ⟨.deterministicOutput, r⟩) (fun _ hx => by cases hx) rfl rfl
    cases r with
    | error message => exact keepsContract_error hhistory
    | ok output =>
        dsimp only
        split
        · rename_i hvalid
          exact
            { calm := hhistory.calm
              valid := hvalid
              provider := fun hvalid => absurd hvalid (by simp [fallbackOutcome])
              deterministic := fun _ => List.mem_append_right _ (List.mem_singleton_self _)
              inputTokens := (hhistory.tokens hfacts).inputTokens
              outputTokens := by
                rw [if_pos hprovider]
                exact (hhistory.tokens hfacts).outputTokens }
        · exact keepsContract_error hhistory
  · exact keepsContract_error h

lemma keepsContract_refused (h : History effects answers calls) (hprovider : c.provider.isSome)
    (hfacts : FactsMatch facts answers) {reservation : Reservation} :
    KeepsContract c effects (refused P c capabilityMode reservation facts) := by
  have hrefused : FactsMatch { facts with parseStatus := reservation.parseStatus } answers :=
    ⟨hfacts.inputTokens, hfacts.outputTokens⟩
  refine keepsContract_revalidated h fun _ h _ => keepsContract_attemptCount h fun _ _ h => ?_
  exact keepsContract_fallback h hprovider hrefused

/-- A provider call comes after a revalidation and a reservation; a refused one falls back. -/
lemma keepsContract_admitted (h : History effects answers calls) (hprovider : c.provider.isSome)
    (hfacts : FactsMatch facts answers) {corrective : Option Corrective}
    (hcalls : calls + 1 = callIndex corrective) {next : ProviderAnswer → Execution}
    (hnext : ∀ effects' answer,
      History effects' (answers ++ (returned? ⟨.run corrective, answer⟩).toList) (calls + 1) →
        KeepsContract c effects' (next answer)) :
    KeepsContract c effects (revalidated c <|
      reserve c (callIndex corrective) (callKind corrective) <|
        onReservation P c capabilityMode facts <| .call (.run corrective) next) := by
  have hrun : ∀ effects', History effects' answers calls → admission c corrective <:+ effects' →
      KeepsContract c effects' (.call (.run corrective) next) := by
    intro effects' h' hadmitted
    refine ⟨⟨h'.calm, fun corrective' he => ?_⟩, fun answer => hnext _ answer (h'.run _ answer)⟩
    cases he
    exact ⟨hadmitted, by rw [h'.calls_eq, hcalls]⟩
  refine keepsContract_revalidated h fun effects' h' hrevalidated => ?_
  have hlease : (if c.revalidates then [⟨.revalidate, .ok ()⟩] else [] : ContractTrace) <:+
      effects' := by
    split_ifs with hrevalidates
    · exact hrevalidated hrevalidates
    · exact List.nil_suffix
  cases haudit : c.attemptAudit with
  | none =>
      rw [reserve, haudit]
      refine hrun effects' h' ?_
      rw [admission, haudit, Option.isSome_none, if_neg Bool.false_ne_true, List.append_nil]
      exact hlease
  | some frozen =>
      rw [reserve, haudit]
      refine ⟨⟨h'.calm, fun _ he => by cases he⟩, fun r => ?_⟩
      have hinsert := h'.append
        (x := ⟨.insertAttempt (callIndex corrective) (callKind corrective), r⟩)
        (fun _ hx => by cases hx) rfl rfl
      cases r with
      | inserted =>
          refine hrun _ hinsert ?_
          rw [admission, haudit, Option.isSome_some, if_pos rfl]
          obtain ⟨before, rfl⟩ := hlease
          exact ⟨before, (List.append_assoc _ _ _).symm⟩
      | violation => exact keepsContract_error hinsert
      | conflict =>
          refine ⟨⟨hinsert.calm, fun _ he => by cases he⟩, fun existing => ?_⟩
          have hselect := hinsert.append
            (x := ⟨.selectAttempt (callIndex corrective), existing⟩) (fun _ hx => by cases hx) rfl rfl
          dsimp only
          split
          · exact keepsContract_refused hselect hprovider hfacts
          · exact keepsContract_refused hselect hprovider hfacts

/-- The status alias changes the status alone, and its result is valid. -/
lemma canonicalize_eq_some {U : UnicodeData} {validate : JsonObject → List ContractIssue}
    {output candidate : JsonObject} (h : canonicalize U validate output = some candidate) :
    candidate = Dict.set output "status".toList (.str "ok".toList) ∧ validate candidate = [] := by
  rw [canonicalize] at h
  split at h
  · dsimp only at h
    split_ifs at h with _ hvalid
    obtain rfl := Option.some_inj.mp h
    exact ⟨rfl, hvalid⟩
  · exact absurd h (by simp)

/-- A valid answer is the outcome; an invalid one is left to what follows. -/
lemma keepsContract_judged (h : History effects answers calls) (hprovider : c.provider.isSome)
    (hfacts : FactsMatch facts answers) {attempt : ProviderAttempt}
    (hlast : answers.getLast? = some attempt) {attemptIndex : ℕ}
    {next : List ContractIssue → Execution}
    (hnext : ∀ effects' issues, History effects' answers calls →
      KeepsContract c effects' (next issues)) :
    KeepsContract c effects (judged P c capabilityMode attemptIndex attempt facts next) := by
  have hdone : ∀ {effects' parsed output count} {canonicalized : Bool},
      History effects' answers calls → attempt.parsed = some parsed → c.validate output = [] →
      output = (if canonicalized then Dict.set parsed "status".toList (.str "ok".toList)
        else parsed) →
      KeepsContract c effects' (.done (.ok
        (validProviderOutcome P.unicode output capabilityMode facts canonicalized count))) := by
    intro effects' parsed output count canonicalized h' hparsed hvalid houtput
    exact
      { calm := h'.calm
        valid := hvalid
        provider := fun _ => ⟨attempt, parsed, by rw [h'.answers_eq, hlast], hparsed, houtput⟩
        deterministic := fun hinvalid => absurd hinvalid (by simp [validProviderOutcome])
        inputTokens := (h'.tokens hfacts).inputTokens
        outputTokens := by
          rw [if_pos hprovider]
          exact (h'.tokens hfacts).outputTokens }
  rw [judged]
  split
  · rename_i parsed hparsed
    refine keepsContract_finalize h fun _ h => keepsContract_revalidated h fun _ h _ => ?_
    split_ifs with hissues
    · exact keepsContract_attemptCount h fun _ _ h => hdone h hparsed hissues rfl
    · split
      · rename_i output hcanonical
        obtain ⟨houtput, hvalid⟩ := canonicalize_eq_some hcanonical
        exact keepsContract_attemptCount h fun _ _ h => hdone h hparsed hvalid houtput
      · exact hnext _ _ h
  · exact keepsContract_finalize h fun _ h => keepsContract_revalidated h fun _ h _ => hnext _ _ h

lemma keepsContract_callFailed (h : History effects answers calls)
    (hprovider : c.provider.isSome) (hfacts : FactsMatch facts answers) {attemptIndex : ℕ}
    {error : ProviderError} :
    KeepsContract c effects (callFailed P c capabilityMode attemptIndex error facts) := by
  refine keepsContract_finalize h fun _ h => keepsContract_revalidated h fun _ h _ => ?_
  exact keepsContract_attemptCount h fun _ _ h => keepsContract_fallback h hprovider hfacts

/-- A failed call falls back, and an answer is judged. -/
lemma keepsContract_called (hprovider : c.provider.isSome) {corrective : Option Corrective}
    {answer : ProviderAnswer}
    (h : History effects (answers ++ (returned? ⟨.run corrective, answer⟩).toList) calls)
    {attemptIndex : ℕ} {failedFacts : ProviderError → ExecutionFacts}
    (hfacts : ∀ error, FactsMatch (failedFacts error) answers) {judge : ProviderAttempt → Execution}
    (hjudge : ∀ attempt, History effects (answers ++ [attempt]) calls →
      KeepsContract c effects (judge attempt)) :
    KeepsContract c effects (called P c capabilityMode attemptIndex failedFacts judge answer) := by
  cases answer with
  | raised message => exact keepsContract_error h
  | failed error =>
      have hanswers : History effects answers calls := by
        rw [← List.append_nil answers]
        exact h
      exact keepsContract_callFailed hanswers hprovider (hfacts error)
  | returned attempt => exact hjudge attempt h

/-- The repair is judged as the answer was, and then the fallback remains. -/
lemma keepsContract_judgeRepair (hprovider : c.provider.isSome) {answer : ProviderAttempt}
    (h : History effects (answers ++ [answer]) calls) (hfacts : FactsMatch facts answers) :
    KeepsContract c effects (judgeRepair P c capabilityMode facts answer) := by
  have hsum {facts' : ExecutionFacts} (hin : facts'.inputTokens = facts.inputTokens + answer.inputTokens)
      (hout : facts'.outputTokens = facts.outputTokens + answer.outputTokens) :
      FactsMatch facts' (answers ++ [answer]) := by
    constructor
    · simp [hin, hfacts.inputTokens]
    · simp [hout, hfacts.outputTokens]
  rw [judgeRepair]
  refine keepsContract_judged h hprovider (hsum rfl rfl) (by simp) fun _ issues h => ?_
  refine keepsContract_attemptCount h fun _ _ h => keepsContract_fallback h hprovider ?_
  split_ifs <;> exact hsum rfl rfl

lemma keepsContract_repair (hprovider : c.provider.isSome) {attempt : ProviderAttempt}
    (h : History effects [attempt] 1) (issues : List ContractIssue) :
    KeepsContract c effects (repair P c capabilityMode attempt issues) := by
  rw [repair]
  refine keepsContract_admitted h hprovider ⟨by simp, by simp⟩ rfl fun _ answer h => ?_
  refine keepsContract_called hprovider h (fun error => ⟨by simp, by simp⟩) fun answer h => ?_
  exact keepsContract_judgeRepair hprovider h ⟨by simp, by simp⟩

variable (P c) in
/-- An execution does nothing once a revalidation has failed, calls the provider when admitted, and
its result says what it did. -/
theorem keepsContract_runContractExecution : KeepsContract c [] (runContractExecution P c) := by
  cases hprovider : c.provider with
  | none =>
      rw [runContractExecution, hprovider]
      refine ⟨⟨history_nil.calm, fun _ he => by cases he⟩, fun r => ?_⟩
      have h := history_nil.append (x := ⟨.deterministicOutput, r⟩) (fun _ hx => by cases hx) rfl rfl
      cases r with
      | error message => exact keepsContract_error h
      | ok output =>
          dsimp only
          split
          · rename_i hvalid
            split
            · rename_i size hsize
              exact
                { calm := h.calm
                  valid := hvalid
                  provider := fun hvalid => absurd hvalid (by simp [deterministicOutcome])
                  deterministic := fun _ => List.mem_append_right _ (List.mem_singleton_self _)
                  inputTokens := rfl
                  outputTokens := by
                    rw [hprovider]
                    exact ⟨size, hsize, rfl⟩ }
            · exact keepsContract_error h
          · exact keepsContract_error h
  | some capabilityMode =>
      have hsome : c.provider.isSome := by rw [hprovider]; rfl
      rw [runContractExecution, hprovider]
      refine keepsContract_admitted history_nil hsome ⟨rfl, rfl⟩ rfl fun _ answer h => ?_
      refine keepsContract_called hsome h (fun _ => ⟨rfl, rfl⟩) fun attempt h => ?_
      exact keepsContract_judged h hsome ⟨by simp, by simp⟩ rfl fun _ issues h =>
        keepsContract_repair hsome h issues

/-! ### The guarantee -/

lemma foldl_contractDiscipline (effects performed : ContractTrace) :
    performed.foldl (fun effects x => (contractDiscipline c).after effects x.1 x.2) effects =
      effects ++ performed := by
  induction performed generalizing effects with
  | nil => exact (List.append_nil effects).symm
  | cons x performed ih =>
      rw [List.foldl_cons, ih]
      exact List.append_assoc _ _ _

/-- Calls that come in the order of their attempts number at most two. -/
lemma countP_isRun_le {performed : ContractTrace}
    (h : ∀ before corrective answer after, performed = before ++ ⟨.run corrective, answer⟩ :: after →
      before.countP isRun + 1 = callIndex corrective) : performed.countP isRun ≤ 2 := by
  induction performed using List.reverseRecOn with
  | nil => exact Nat.zero_le 2
  | append_singleton performed x ih =>
      rw [List.countP_append, List.countP_singleton]
      by_cases hrun : isRun x = true
      · obtain ⟨e, answer⟩ := x
        cases e with
        | run corrective =>
            have hcalls := h performed corrective answer [] rfl
            have hindex : callIndex corrective ≤ 2 := by
              rw [callIndex]
              split_ifs <;> omega
            rw [if_pos hrun]
            omega
        | _ => exact absurd hrun Bool.false_ne_true
      · rw [if_neg hrun, Nat.add_zero]
        refine ih fun before corrective answer after heq => h before corrective answer (after ++ [x]) ?_
        rw [heq, List.append_assoc, List.cons_append]

/-- Whatever its surroundings answer, an execution calls the provider at most twice, each time right
after its lease was revalidated and its attempt reserved; a failed revalidation ends it and is what
the caller sees; and an outcome says what was done. -/
theorem contract_execution_bounded {q : Execution}
    (ht : Prog.Trace (runContractExecution P c) effects q) :
    effects.countP isRun ≤ 2 ∧
      (∀ before corrective answer after, effects = before ++ ⟨.run corrective, answer⟩ :: after →
        admission c corrective <:+ before) ∧
      (∀ before message after, effects = before ++ ⟨.revalidate, .error message⟩ :: after →
        after = [] ∧ q = .done (.error (.raised message))) ∧
      ∀ outcome, q = .done (.ok outcome) → OutcomeFacts c effects outcome := by
  have hkeeps := keepsContract_runContractExecution c P
  have hend := Prog.Keeps.trace hkeeps ht
  rw [foldl_contractDiscipline, List.nil_append] at hend
  have hadmitted : ∀ before corrective answer after,
      effects = before ++ ⟨.run corrective, answer⟩ :: after →
        admission c corrective <:+ before ∧ before.countP isRun + 1 = callIndex corrective := by
    rintro before corrective answer after rfl
    have hrequires := Prog.Keeps.requires hkeeps ht
    rw [foldl_contractDiscipline, List.nil_append] at hrequires
    exact hrequires.2 corrective rfl
  refine ⟨countP_isRun_le fun before corrective answer after heq =>
    (hadmitted before corrective answer after heq).2, fun before corrective answer after heq =>
      (hadmitted before corrective answer after heq).1, ?_, ?_⟩
  · rintro before message after rfl
    have hmem : (⟨.revalidate, .error message⟩ : Performed ContractEffect.Response) ∈
        before ++ [⟨.revalidate, .error message⟩] :=
      List.mem_append_right _ (List.mem_singleton_self _)
    -- any effect after the failure would have been performed although the lease was lost
    have hlast : after = [] := by
      cases after with
      | nil => rfl
      | cons x after =>
          rw [List.append_cons] at ht
          have hrequires := Prog.Keeps.requires hkeeps ht
          rw [foldl_contractDiscipline, List.nil_append] at hrequires
          exact absurd hmem (hrequires.1 message)
    subst hlast
    refine ⟨rfl, ?_⟩
    cases q with
    | call e k => exact absurd hmem (hend.1.1 message)
    | done result =>
        cases result with
        | ok outcome => exact absurd hmem (OutcomeFacts.calm hend message)
        | error failure => rw [hend message hmem]
  · rintro outcome rfl
    exact hend

end

/-- An execution with a lease and without an audit. -/
def plainExecution (provider : Option String) : ContractExecution where
  provider := provider
  validate := fun _ => []
  revalidates := true
  allowFallback := true
  attemptAudit := none

/-- An answer of five tokens. -/
def plainAttempt : ProviderAttempt where
  parsed := some []
  parseError := none
  inputTokens := 3
  outputTokens := 5
  latencyMs := 7
  providerResponseId := none
  httpStatus := some 200

/-- A valid answer is the outcome, with its tokens. -/
theorem contract_execution_bounded_plain : ∃ effects outcome,
    Prog.Trace (runContractExecution latinPlatform (plainExecution (some "json"))) effects
        (.done (.ok outcome)) ∧
      effects.countP isRun = 1 ∧ OutcomeFacts (plainExecution (some "json")) effects outcome := by
  have ht : Prog.Trace (runContractExecution latinPlatform (plainExecution (some "json")))
      [⟨.revalidate, .ok ()⟩, ⟨.run none, .returned plainAttempt⟩, ⟨.revalidate, .ok ()⟩]
      (.done (.ok (validProviderOutcome latinPlatform.unicode [] "json"
        { repairAttempted := false, parseStatus := .parsed, inputTokens := 3, outputTokens := 5
          latencyMs := 7 } false 1))) :=
    .call _ (.call _ (.call _ (.refl _)))
  obtain ⟨-, -, -, hfacts⟩ := contract_execution_bounded ht
  exact ⟨_, _, ht, rfl, hfacts _ rfl⟩

/-- Without a provider the output tokens are the number of records, though no answer was
received. -/
theorem tokens_count_records_without_provider : ¬∀ (P : Platform) (c : ContractExecution)
    (effects : ContractTrace) (outcome : ContractExecutionOutcome),
    Prog.Trace (runContractExecution P c) effects (.done (.ok outcome)) →
      outcome.outputTokens =
        ((returnedAttempts effects).map ProviderAttempt.outputTokens).sum := by
  intro h
  have ht : Prog.Trace (runContractExecution latinPlatform (plainExecution none))
      [⟨.deterministicOutput, .ok [field "items" (.arr [.null])]⟩]
      (.done (.ok (deterministicOutcome latinPlatform.unicode [field "items" (.arr [.null])] 1))) :=
    .call _ (.refl _)
  exact absurd (h _ _ _ _ ht) (by decide)

end Memorist
