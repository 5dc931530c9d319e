import Memorist.ModelControl.StageInvocation

/-!
The calls of a stage that fails open.

* `Replays`, `existing_eq_some_iff`: what a stored row is replayed as;
* `Stopped`, `Answers`, `attempt_cases`: a call is stopped by the lease fence, or comes to an answer;
* `failsOpen_iff`: the calls that fail open.
-/

namespace Memorist.StageInvocation

variable {F : Type} {P : Platform} {N : Floats F} {B : Backend N}
variable {stage : Stage F} {call : StageCall F}

/-! ### Statuses -/

/-- The database knows the lower case and the whitespace of ASCII. -/
structure ReadsAscii (U : UnicodeData) : Prop where
  lower : LowersAscii U
  space : ∀ c, isAscii c → U.isspace c = isAsciiSpace c

/-- A text without whitespace is stripped to itself. -/
lemma strip_of_forall {U : UnicodeData} {text : Text} (h : ∀ c ∈ text, U.isspace c = false) :
    U.strip text = text := by
  have hleft : ∀ t : Text, (∀ c ∈ t, U.isspace c = false) → U.lstrip t = t := by
    intro t ht
    cases t with
    | nil => rfl
    | cons c t =>
        rw [UnicodeData.lstrip, List.dropWhile_cons_of_neg]
        rw [ht c List.mem_cons_self]
        exact Bool.false_ne_true
  have hreverse : ∀ c ∈ text.reverse, U.isspace c = false := fun c hc => h c (List.mem_reverse.mp hc)
  rw [UnicodeData.strip, hleft text h, hleft _ hreverse, List.reverse_reverse]

lemma value_all (status : StageStatus) :
    status.value.toList.all fun c => isAscii c && !isAsciiSpace c && c.toLower == c := by
  cases status <;> decide

/-- A status is read back from its text. -/
lemma normalizeStageStatus_value (hascii : ReadsAscii P.unicode) (status : StageStatus) :
    normalizeStageStatus P status.value.toList = some status := by
  have hall : ∀ c ∈ status.value.toList, (isAscii c ∧ isAsciiSpace c = false) ∧ c.toLower = c := by
    intro c hc
    have := List.all_eq_true.mp (value_all status) c hc
    rwa [Bool.and_eq_true, Bool.and_eq_true, Bool.not_eq_true', beq_iff_eq] at this
  have hstrip : P.unicode.strip status.value.toList = status.value.toList :=
    strip_of_forall fun c hc => (hascii.space c (hall c hc).1.1).trans (hall c hc).1.2
  have htext : status.value.toList.all isAscii := List.all_eq_true.mpr fun c hc => (hall c hc).1.1
  have hsame : status.value.toList.map Char.toLower = status.value.toList :=
    (List.map_congr_left fun c hc => (hall c hc).2).trans (List.map_id _)
  rw [normalizeStageStatus, hstrip, lowerText_ascii hascii.lower htext, hsame, String.ofList_toList]
  cases status <;> decide

/-! ### Replayed rows -/

lemma hashIjson_eq_ok {value : Json F} {hash : String} :
    hashIjson P N value = .ok hash ↔ canonicalHashJson P N value = .ok hash := by
  rw [hashIjson, Checks.mapError_eq_ok]

lemma hashOutput_some {output : Mapping F} {outputHash : Option String} :
    hashOutput P N (some output) = .ok outputHash ↔
      ∃ hash, hashIjson P N (.obj output) = .ok hash ∧ some hash = outputHash := by
  rw [hashOutput]
  cases hashIjson P N (.obj output) <;> simp [Except.map]

/-- An output passes the check of its row when the validator accepts it and the row has its hash. -/
lemma checkOutput_eq_true_iff {validator : Mapping F → Except StageException Unit}
    {outputHash : Option String} {output : Option (Mapping F)} :
    checkOutput P N validator outputHash output = .ok true ↔
      (∀ members, output = some members → validator members = .ok ()) ∧
        hashOutput P N output = .ok outputHash := by
  cases output with
  | none =>
      rw [checkOutput, Checks.pure_eq_ok, decide_eq_true_iff, hashOutput, Except.ok.injEq, eq_comm]
      exact (and_iff_right fun members h => absurd h (Option.some_ne_none members).symm).symm
  | some output =>
      rw [checkOutput, Checks.check_bind_eq_ok, Checks.bind_eq_ok, hashOutput_some]
      refine and_congr ⟨fun h members heq => Option.some.inj heq ▸ h, fun h => h output rfl⟩ ?_
      refine exists_congr fun hash => and_congr_right fun _ => ?_
      rw [Checks.pure_eq_ok, decide_eq_true_iff, eq_comm]

variable (P N) in
/-- What a row is replayed as. -/
structure Replays (stage : Stage F) (row : StageRow F) (status : StageStatus)
    (output : Option (Mapping F)) (errors : List Text) : Prop where
  errors_eq : ∃ validation, readColumn P N row.validationErrors = .ok validation ∧
    errorTexts P N validation = errors
  output_eq : ∃ value, readColumn P N row.output = .ok value ∧ outputOf value = some output
  status_eq : normalizeStageStatus P row.status = some status
  output_ne_none : status = .ok ∨ status = .failedOpen → output ≠ none
  same : SameMetadata stage.request stage.resolution row
  version : row.schemaVersion = 1
  input : hashIjson P N (.obj stage.request.inputPayload) = .ok row.inputHash
  checked : checkOutput P N stage.validator row.outputHash output = .ok true

lemma existing_eq_some {row : StageRow F} {result : StageResult F} :
    existing P N stage (some row) = .ok (some result) ↔ replayRow P N stage row = .ok (some result) := by
  rw [existing]
  cases replayRow P N stage row with
  | ok replayed => rfl
  | error exception =>
      dsimp only
      split_ifs <;> simp

lemma replayOutput_eq_some {row : StageRow F} {validation : Option (Json F)}
    {output : Option (Mapping F)} {result : StageResult F} :
    replayRow.replayOutput P N stage row validation output = .ok (some result) ↔
      ∃ status, normalizeStageStatus P row.status = some status ∧
        (status = .ok ∨ status = .failedOpen → output ≠ none) ∧
        SameMetadata stage.request stage.resolution row ∧ row.schemaVersion = 1 ∧
        hashIjson P N (.obj stage.request.inputPayload) = .ok row.inputHash ∧
        checkOutput P N stage.validator row.outputHash output = .ok true ∧
        result = resultOfRow row status output (errorTexts P N validation) := by
  rw [replayRow.replayOutput]
  cases hstatus : normalizeStageStatus P row.status with
  | none => simp
  | some status =>
      dsimp only
      by_cases hnone : (status = .ok ∨ status = .failedOpen) ∧ output = none
      · rw [if_pos hnone]
        refine iff_of_false (by simp) ?_
        rintro ⟨_, heq, hsome, -⟩
        exact hsome (Option.some.inj heq ▸ hnone.1) hnone.2
      rw [if_neg hnone]
      have hsome : status = .ok ∨ status = .failedOpen → output ≠ none := fun h heq => hnone ⟨h, heq⟩
      by_cases hsame : SameMetadata stage.request stage.resolution row
      swap
      · rw [if_pos hsame]
        simp [hsame]
      rw [if_neg (not_not.mpr hsame)]
      by_cases hversion : row.schemaVersion = 1
      swap
      · rw [if_pos hversion]
        simp [hversion]
      rw [if_neg (not_not.mpr hversion), Checks.bind_eq_ok]
      constructor
      · rintro ⟨hash, hhash, hrest⟩
        by_cases hinput : row.inputHash = hash
        swap
        · rw [if_pos hinput] at hrest
          simp at hrest
        rw [if_neg (not_not.mpr hinput), Checks.bind_eq_ok] at hrest
        obtain ⟨same, hsame', hresult⟩ := hrest
        cases same with
        | false => simp at hresult
        | true =>
            rw [if_pos rfl, Checks.pure_eq_ok, Option.some.injEq] at hresult
            exact ⟨status, rfl, hsome, hsame, hversion, hinput ▸ hhash, hsame', hresult.symm⟩
      · rintro ⟨_, heq, -, -, -, hhash, hchecked, rfl⟩
        obtain rfl := Option.some.inj heq
        refine ⟨_, hhash, ?_⟩
        rw [if_neg (not_not.mpr rfl), hchecked]
        rfl

/-- What an identity is replayed as. -/
theorem existing_eq_some_iff {row : StageRow F} {result : StageResult F} :
    existing P N stage (some row) = .ok (some result) ↔ ∃ status output errors,
      Replays P N stage row status output errors ∧ result = resultOfRow row status output errors := by
  rw [existing_eq_some, replayRow, Checks.bind_eq_ok]
  constructor
  · rintro ⟨validation, hvalidation, hrest⟩
    obtain ⟨value, hvalue, hrest⟩ := Checks.bind_eq_ok.mp hrest
    cases houtput : outputOf value with
    | none =>
        rw [houtput] at hrest
        simp at hrest
    | some output =>
        rw [houtput] at hrest
        obtain ⟨status, hstatus, hsome, hsame, hversion, hinput, hchecked, rfl⟩ :=
          replayOutput_eq_some.mp hrest
        exact ⟨status, output, _, ⟨⟨_, hvalidation, rfl⟩, ⟨_, hvalue, houtput⟩, hstatus, hsome, hsame,
          hversion, hinput, hchecked⟩, rfl⟩
  · rintro ⟨status, output, errors, h, rfl⟩
    obtain ⟨validation, hvalidation, rfl⟩ := h.errors_eq
    obtain ⟨value, hvalue, houtput⟩ := h.output_eq
    refine ⟨validation, hvalidation, Checks.bind_eq_ok.mpr ⟨value, hvalue, ?_⟩⟩
    rw [houtput]
    exact replayOutput_eq_some.mpr ⟨status, h.status_eq, h.output_ne_none, h.same, h.version, h.input,
      h.checked, rfl⟩

/-! ### Answers -/

/-- The provider answers with an output that is accepted. -/
def Answered (stage : Stage F) (call : StageCall F) (response : ProviderResponse F) : Prop :=
  stage.callsProvider ∧ call.provider = .ok response ∧
    stage.validator response.output.members = .ok ()

/-- The lease fence stops a call before its result is built. -/
def Stopped (stage : Stage F) (call : StageCall F) : Prop :=
  stage.callsProvider ∧ (call.passesBeforeProvider = false ∨
    (∃ response, Answered stage call response) ∧ call.keepsResolution = false)

/-- The output of a call: that of the provider if it is accepted, or else the one without a model. -/
def Answers (stage : Stage F) (call : StageCall F) (output : JsonObject F) : Prop :=
  (∃ response, Answered stage call response ∧ response.output = output) ∨
    stage.resolution.providerType ≠ "disabled" ∧ (¬∃ response, Answered stage call response) ∧
      stage.fallback = .ok output

/-- An attempt of a call that is not stopped. -/
structure Comes (stage : Stage F) (call : StageCall F) (attempt : Attempt F) : Prop where
  not_stopped : ¬Stopped stage call
  not_failed : attempt.status ≠ .failed
  abstained : attempt.status = .abstained ↔ stage.resolution.providerType = "disabled"
  output_eq : ∀ output, attempt.output = some output ↔ Answers stage call output

lemma callsProvider_iff : stage.callsProvider = true ↔
    stage.resolution.providerType ≠ "deterministic" ∧ stage.resolution.providerType ≠ "disabled" := by
  rw [Stage.callsProvider, decide_eq_true_iff]

lemma fallback_eq_ok {output : JsonObject F} : stage.fallback = .ok output ↔
    stage.deterministicOutput stage.request.inputPayload = .ok output ∧
      stage.validator output.members = .ok () := by
  rw [Stage.fallback, Checks.bind_eq_ok]
  constructor
  · rintro ⟨found, hfound, hrest⟩
    obtain ⟨hvalid, heq⟩ := Checks.check_bind_eq_ok.mp hrest
    exact Checks.pure_eq_ok.mp heq ▸ ⟨hfound, hvalid⟩
  · rintro ⟨hfound, hvalid⟩
    exact ⟨output, hfound, Checks.check_bind_eq_ok.mpr ⟨hvalid, rfl⟩⟩

/-- A caught exception leads to the output without a model. -/
lemma handle_spec (hopen : stage.resolution.failOpen = true) (begun : Attempt F)
    (exception : StageException) : (handle stage begun exception).status = .failedOpen ∧
      ∀ output, (handle stage begun exception).output = some output ↔ stage.fallback = .ok output := by
  rw [handle, if_pos hopen]
  cases stage.fallback with
  | ok output => exact ⟨rfl, fun other => by simp⟩
  | error other => exact ⟨rfl, fun output => by simp⟩

/-- A call whose provider gives no output that is accepted comes to the output without a model. -/
lemma comes_handle (hopen : stage.resolution.failOpen = true)
    (hdisabled : stage.resolution.providerType ≠ "disabled")
    (hnone : ¬∃ response, Answered stage call response) (hstopped : ¬Stopped stage call)
    (begun : Attempt F) (exception : StageException) :
    Comes stage call (handle stage begun exception) := by
  obtain ⟨hstatus, houtput⟩ := handle_spec hopen begun exception
  refine ⟨hstopped, by rw [hstatus]; decide, ?_, fun output => ?_⟩
  · rw [hstatus]
    exact iff_of_false (by decide) hdisabled
  · rw [houtput, Answers]
    constructor
    · exact fun h => .inr ⟨hdisabled, hnone, h⟩
    · rintro (⟨response, hresponse, -⟩ | ⟨-, -, h⟩)
      · exact absurd ⟨response, hresponse⟩ hnone
      · exact h

lemma attempt_eq {begun : Attempt F} {exception : Option StageException}
    (h : guarded stage call = .ok (begun, exception)) :
    attempt stage call = .ok (exception.elim begun (handle stage begun)) := by
  rw [attempt, h]
  rfl

lemma attempt_error {error : StageError} (h : guarded stage call = .error error) :
    attempt stage call = .error error := by
  rw [attempt, h]
  rfl

/-- A stage without a model. -/
lemma attempt_deterministic (hopen : stage.resolution.failOpen = true)
    (hprovider : stage.resolution.providerType = "deterministic") :
    ∃ a, attempt stage call = .ok a ∧ Comes stage call a := by
  have hdisabled : stage.resolution.providerType ≠ "disabled" := by
    rw [hprovider]
    decide
  have hcalls : ¬stage.callsProvider = true := fun h => (callsProvider_iff.mp h).1 hprovider
  have hnone : ¬∃ response, Answered stage call response := fun ⟨_, h⟩ => hcalls h.1
  have hstopped : ¬Stopped stage call := fun h => hcalls h.1
  have hguarded := guarded.eq_1 stage call
  dsimp only at hguarded
  rw [if_neg hdisabled, if_pos hprovider] at hguarded
  cases hfound : stage.deterministicOutput stage.request.inputPayload with
  | error exception =>
      rw [hfound] at hguarded
      exact ⟨_, attempt_eq hguarded, comes_handle hopen hdisabled hnone hstopped _ _⟩
  | ok found =>
      rw [hfound] at hguarded
      dsimp only at hguarded
      cases hvalid : stage.validator found.members with
      | error exception =>
          rw [hvalid] at hguarded
          exact ⟨_, attempt_eq hguarded, comes_handle hopen hdisabled hnone hstopped _ exception⟩
      | ok u =>
          rw [hvalid] at hguarded
          refine ⟨_, attempt_eq hguarded, hstopped, nofun, ?_, fun output => ?_⟩
          · exact iff_of_false nofun hdisabled
          · have hfallback : stage.fallback = .ok found := fallback_eq_ok.mpr ⟨hfound, hvalid⟩
            change some found = some output ↔ _
            rw [Answers, hfallback, Option.some.injEq, Except.ok.injEq]
            constructor
            · exact fun h => .inr ⟨hdisabled, hnone, h⟩
            · rintro (⟨response, hresponse, -⟩ | ⟨-, -, h⟩)
              · exact absurd ⟨response, hresponse⟩ hnone
              · exact h

/-- A stage whose role is disabled. -/
lemma attempt_disabled (hprovider : stage.resolution.providerType = "disabled") :
    ∃ a, attempt stage call = .ok a ∧ Comes stage call a := by
  have hcalls : ¬stage.callsProvider = true := fun h => (callsProvider_iff.mp h).2 hprovider
  have hguarded := guarded.eq_1 stage call
  dsimp only at hguarded
  rw [if_pos hprovider] at hguarded
  refine ⟨_, attempt_eq hguarded, fun h => hcalls h.1, nofun, ?_, fun output => ?_⟩
  · exact iff_of_true rfl hprovider
  · change none = some output ↔ _
    refine iff_of_false nofun ?_
    rintro (⟨response, hresponse, -⟩ | ⟨hdisabled, -⟩)
    · exact hcalls hresponse.1
    · exact hdisabled hprovider

/-- A stage whose model is asked. -/
lemma attempt_provider (hopen : stage.resolution.failOpen = true ∨ ∃ response, Answered stage call response)
    (hcalls : stage.callsProvider = true) :
    attempt stage call = .error .leaseFence ∧ Stopped stage call ∨
      ∃ a, attempt stage call = .ok a ∧ Comes stage call a := by
  obtain ⟨hdeterministic, hdisabled⟩ := callsProvider_iff.mp hcalls
  have hguarded := guarded.eq_1 stage call
  dsimp only at hguarded
  rw [if_neg hdisabled, if_neg hdeterministic, askProvider] at hguarded
  cases hpasses : call.passesBeforeProvider with
  | false =>
      rw [hpasses, if_pos Bool.false_ne_true] at hguarded
      exact .inl ⟨attempt_error hguarded, hcalls, .inl hpasses⟩
  | true =>
      rw [hpasses, if_neg (not_not.mpr rfl)] at hguarded
      have hnot : ¬call.passesBeforeProvider = false := by
        rw [hpasses]
        decide
      cases hprovider : call.provider with
      | error exception =>
          rw [hprovider] at hguarded
          have hnone : ¬∃ response, Answered stage call response := fun ⟨response, h⟩ =>
            nomatch hprovider.symm.trans h.2.1
          have hstopped : ¬Stopped stage call := fun h => h.2.elim hnot fun h => hnone h.1
          exact .inr ⟨_, attempt_eq hguarded,
            comes_handle (hopen.resolve_right hnone) hdisabled hnone hstopped _ _⟩
      | ok response =>
          rw [hprovider] at hguarded
          dsimp only at hguarded
          have hsame : ∀ other, Answered stage call other → other = response := fun other h =>
            Except.ok.inj (h.2.1.symm.trans hprovider)
          cases hvalid : stage.validator response.output.members with
          | error exception =>
              rw [hvalid] at hguarded
              have hnone : ¬∃ other, Answered stage call other := by
                rintro ⟨other, h⟩
                have hother := h.2.2
                rw [hsame other h, hvalid] at hother
                cases hother
              have hstopped : ¬Stopped stage call := fun h => h.2.elim hnot fun h => hnone h.1
              exact .inr ⟨_, attempt_eq hguarded,
                comes_handle (hopen.resolve_right hnone) hdisabled hnone hstopped _ _⟩
          | ok u =>
              rw [hvalid] at hguarded
              dsimp only at hguarded
              have hanswered : Answered stage call response := ⟨hcalls, hprovider, hvalid⟩
              cases hkeeps : call.keepsResolution with
              | false =>
                  rw [hkeeps, if_neg Bool.false_ne_true] at hguarded
                  exact .inl ⟨attempt_error hguarded, hcalls, .inr ⟨⟨response, hanswered⟩, hkeeps⟩⟩
              | true =>
                  rw [hkeeps, if_pos rfl] at hguarded
                  refine .inr ⟨_, attempt_eq hguarded, ?_, nofun, ?_, fun output => ?_⟩
                  · rintro ⟨-, h | ⟨-, h⟩⟩
                    · exact hnot h
                    · exact Bool.noConfusion (h.symm.trans hkeeps)
                  · exact iff_of_false nofun hdisabled
                  · change some response.output = some output ↔ _
                    rw [Option.some.injEq, Answers]
                    constructor
                    · exact fun h => .inl ⟨response, hanswered, h⟩
                    · rintro (⟨other, h, rfl⟩ | ⟨-, hnone, -⟩)
                      · rw [hsame other h]
                      · exact absurd ⟨response, hanswered⟩ hnone

/-- A call of a stage that fails open is stopped, or comes to its answer. -/
theorem attempt_cases (hopen : stage.resolution.failOpen = true) (call : StageCall F) :
    attempt stage call = .error .leaseFence ∧ Stopped stage call ∨
      ∃ a, attempt stage call = .ok a ∧ Comes stage call a := by
  by_cases hdisabled : stage.resolution.providerType = "disabled"
  · exact .inr (attempt_disabled hdisabled)
  by_cases hdeterministic : stage.resolution.providerType = "deterministic"
  · exact .inr (attempt_deterministic hopen hdeterministic)
  · exact attempt_provider (.inl hopen) (callsProvider_iff.mpr ⟨hdeterministic, hdisabled⟩)

/-! ### Results -/

lemma exists_hash_iff {value : Json F} :
    (∃ hash, hashIjson P N value = .ok hash) ↔ ValidJson P.unicode N none value := by
  constructor
  · rintro ⟨hash, hhash⟩
    exact (canonicalHashJson_eq_ok.mp (hashIjson_eq_ok.mp hhash)).1
  · exact fun h => ⟨_, hashIjson_eq_ok.mpr (canonicalHashJson_eq_ok.mpr ⟨h, rfl⟩)⟩

/-- The result of an attempt. -/
structure Finished (P : Platform) (N : Floats F) (stage : Stage F) (attempt : Attempt F)
    (result : StageResult F) : Prop where
  input : hashIjson P N (.obj stage.request.inputPayload) = .ok result.inputHash
  outputHash : hashOutput P N result.output = .ok result.outputHash
  output_eq : result.output = attempt.output.map JsonObject.members
  status_eq : result.status = attempt.status
  role_eq : result.role = stage.request.role
  resolved : result.effectiveRole = stage.resolution.effectiveRole ∧
    result.modelProfileUuid = stage.resolution.modelProfileUuid ∧
    result.providerType = stage.resolution.providerType ∧
    result.modelName = stage.resolution.modelName
  tokens : result.inputTokens = attempt.inputTokens ∧ result.outputTokens = attempt.outputTokens

lemma finished {attempt : Attempt F} {result : StageResult F}
    (h : finish P N stage call attempt = .ok result) : Finished P N stage attempt result := by
  rw [finish] at h
  obtain ⟨inputHash, hinput, h⟩ := Checks.bind_eq_ok.mp h
  obtain ⟨outputHash, houtput, h⟩ := Checks.bind_eq_ok.mp h
  obtain rfl := Checks.pure_eq_ok.mp h
  exact ⟨hinput, houtput, rfl, rfl, rfl, ⟨rfl, rfl, rfl, rfl⟩, rfl, rfl⟩

/-- A call has a result when its input and its output are valid. -/
lemma exists_finish_iff {attempt : Attempt F} :
    (∃ result, finish P N stage call attempt = .ok result) ↔
      ValidJson P.unicode N none (.obj stage.request.inputPayload) ∧
        ∀ output, attempt.output = some output → ValidJson P.unicode N none (.obj output.members) := by
  constructor
  · rintro ⟨result, hresult⟩
    have h := finished hresult
    refine ⟨exists_hash_iff.mp ⟨_, h.input⟩, fun output houtput => ?_⟩
    have hhash := h.outputHash
    rw [h.output_eq, houtput, Option.map_some, hashOutput_some] at hhash
    obtain ⟨hash, hhash, -⟩ := hhash
    exact exists_hash_iff.mp ⟨hash, hhash⟩
  · rintro ⟨hinput, houtput⟩
    obtain ⟨inputHash, hinput⟩ := exists_hash_iff.mpr hinput
    have hhash : ∃ outputHash, hashOutput P N (attempt.output.map JsonObject.members) = .ok outputHash := by
      cases hattempt : attempt.output with
      | none => exact ⟨none, rfl⟩
      | some output =>
          obtain ⟨hash, hhash⟩ := exists_hash_iff.mpr (houtput output hattempt)
          exact ⟨some hash, hashOutput_some.mpr ⟨hash, hhash, rfl⟩⟩
    obtain ⟨outputHash, hhash⟩ := hhash
    exact ⟨_, Checks.bind_eq_ok.mpr ⟨inputHash, hinput, Checks.bind_eq_ok.mpr ⟨outputHash, hhash, rfl⟩⟩⟩

/-! ### Recorded rows -/

lemma sortKeys_strs (texts : List Text) :
    sortKeys (F := F) (.arr (texts.map Json.str)) = .arr (texts.map Json.str) := by
  rw [sortKeys_arr, List.map_map]
  rfl

/-- The errors of a result are read back. -/
lemma readCell_strs (texts : List Text) :
    readCell P N (B.cell ((Json.arr (texts.map Json.str)).print N)) =
      .ok (.arr (texts.map Json.str)) := by
  rw [Backend.cell]
  cases B.store with
  | postgres =>
      dsimp only
      rw [B.jsonb_strs, readCell]
      nofun
  | sqlite =>
      have hitem : ∀ item ∈ texts.map (Json.str (F := F)), ∃ text, item = .str text := fun item hmem => by
        obtain ⟨text, -, rfl⟩ := List.mem_map.mp hmem
        exact ⟨text, rfl⟩
      have hwell : Json.WellFormed N (.arr (texts.map Json.str)) := .arr fun item hmem => by
        obtain ⟨text, rfl⟩ := hitem item hmem
        exact .str text
      have hvalid : ValidJson P.unicode N none (.arr (texts.map Json.str)) :=
        validJson_arr.mpr fun item hmem => by
          obtain ⟨text, rfl⟩ := hitem item hmem
          rfl
      have hload := loadIjson_dumpJson hwell (dumpJson_eq_ok.mpr ⟨hvalid, rfl⟩)
      rw [sortKeys_strs] at hload
      dsimp only
      rw [readCell, hload]
      rfl

/-- The row of a result. -/
structure Recorded (P : Platform) (B : Backend N) (stage : Stage F) (result : StageResult F)
    (row : StageRow F) : Prop where
  errors_eq : readColumn P N row.validationErrors =
    .ok (some (.arr (result.validationErrors.map Json.str)))
  output_eq : row.output =
    result.output.map fun output => B.cell ((sortKeys (.obj output)).print N)
  status_eq : row.status = result.status.value.toList
  same : SameMetadata stage.request stage.resolution row
  version : row.schemaVersion = 1
  hashes : row.inputHash = result.inputHash ∧ row.outputHash = result.outputHash
  tokens : row.inputTokens = result.inputTokens ∧ row.outputTokens = result.outputTokens

/-- A result is recorded. -/
lemma exists_record {attempt : Attempt F} {result : StageResult F}
    (h : Finished P N stage attempt result) (identity : String) (earlier : Option (StageRow F)) :
    ∃ row, record P B stage call result identity earlier = .ok row ∧ Recorded P B stage result row := by
  have hvalid : ValidJson P.unicode N none (.arr (result.validationErrors.map Json.str)) :=
    validJson_arr.mpr fun item hmem => by
      obtain ⟨text, -, rfl⟩ := List.mem_map.mp hmem
      rfl
  have hdump {value : Json F} (hvalue : ValidJson P.unicode N none value) :
      (dumpJson P.unicode N value).mapError ijsonError = .ok ((sortKeys value).print N) :=
    Checks.mapError_eq_ok.mpr (dumpJson_eq_ok.mpr ⟨hvalue, rfl⟩)
  have herrors := hdump hvalid
  have houtput : outputCell P B result.output =
      .ok (result.output.map fun output => B.cell ((sortKeys (.obj output)).print N)) := by
    cases hresult : result.output with
    | none => rfl
    | some output =>
        have hhash := h.outputHash
        rw [hresult, hashOutput_some] at hhash
        obtain ⟨hash, hhash, -⟩ := hhash
        rw [outputCell, hdump (exists_hash_iff.mp ⟨hash, hhash⟩)]
        rfl
  refine ⟨_, Checks.bind_eq_ok.mpr ⟨_, herrors, Checks.bind_eq_ok.mpr ⟨_, houtput, rfl⟩⟩,
    ?_, rfl, rfl, ?_, rfl, ⟨rfl, rfl⟩, rfl, rfl⟩
  · rw [sortKeys_strs]
    change (readCell P N _).map some = _
    rw [readCell_strs]
    rfl
  · obtain ⟨heffective, hprofile, hprovider, hmodel⟩ := h.resolved
    exact ⟨rfl, rfl, h.role_eq, heffective, rfl, hprofile, hprovider, hmodel, rfl, rfl⟩

variable (P B) in
/-- An output is read back from the store as one of the same hash, which is accepted too. -/
def Storable (validator : Mapping F → Except StageException Unit) (output : JsonObject F) : Prop :=
  ∃ members hash, readCell P N (B.cell ((sortKeys (.obj output.members)).print N)) = .ok (.obj members) ∧
    validator members = .ok () ∧ hashIjson P N (.obj output.members) = .ok hash ∧
      hashIjson P N (.obj members) = .ok hash

lemma readColumn_some {cell : Cell F} {value : Option (Json F)} :
    readColumn P N (some cell) = .ok value ↔ ∃ read, readCell P N cell = .ok read ∧ some read = value := by
  rw [readColumn]
  cases readCell P N cell <;> simp [Except.map]

/-- A result with an output is replayed once it is stored when its output is storable. -/
lemma exists_existing_of_some (hascii : ReadsAscii P.unicode) {attempt : Attempt F}
    {result : StageResult F} {row : StageRow F} {output : JsonObject F}
    (hfinished : Finished P N stage attempt result) (hrow : Recorded P B stage result row)
    (houtput : attempt.output = some output) :
    (∃ persisted, existing P N stage (some row) = .ok (some persisted)) ↔
      Storable P B stage.validator output := by
  have hresult : result.output = some output.members := by
    rw [hfinished.output_eq, houtput, Option.map_some]
  have hcolumn : row.output = some (B.cell ((sortKeys (.obj output.members)).print N)) := by
    rw [hrow.output_eq, hresult, Option.map_some]
  have hhash := hfinished.outputHash
  rw [hresult, hashOutput_some] at hhash
  obtain ⟨hash, hhash, heq⟩ := hhash
  have hrowhash : row.outputHash = some hash := hrow.hashes.2.trans heq.symm
  constructor
  · rintro ⟨persisted, h⟩
    obtain ⟨status, found, errors, h, -⟩ := existing_eq_some_iff.mp h
    obtain ⟨value, hvalue, hfound⟩ := h.output_eq
    rw [hcolumn, readColumn_some] at hvalue
    obtain ⟨read, hread, rfl⟩ := hvalue
    obtain ⟨haccepted, hchecked⟩ := checkOutput_eq_true_iff.mp h.checked
    rw [hrowhash] at hchecked
    cases found with
    | none => cases hchecked
    | some members =>
        obtain ⟨other, hother, hsome⟩ := hashOutput_some.mp hchecked
        obtain rfl := Option.some.inj hsome
        cases read with
        | obj read =>
            obtain rfl := Option.some.inj (Option.some.inj hfound)
            exact ⟨read, other, hread, haccepted read rfl, hhash, hother⟩
        | _ => cases hfound
  · rintro ⟨members, hash', hread, haccepted, hhash', hmembers⟩
    obtain rfl := Except.ok.inj (hhash.symm.trans hhash')
    refine ⟨_, existing_eq_some_iff.mpr ⟨result.status, some members, _, ⟨⟨_, hrow.errors_eq, rfl⟩,
      ⟨some (.obj members), ?_, rfl⟩, ?_, fun _ => Option.some_ne_none members, hrow.same, hrow.version,
      hrow.hashes.1 ▸ hfinished.input, ?_⟩, rfl⟩⟩
    · rw [hcolumn]
      exact readColumn_some.mpr ⟨_, hread, rfl⟩
    · rw [hrow.status_eq]
      exact normalizeStageStatus_value hascii _
    · rw [checkOutput_eq_true_iff, hrowhash]
      exact ⟨fun other h => Option.some.inj h ▸ haccepted, hashOutput_some.mpr ⟨hash, hmembers, rfl⟩⟩

/-- A result without an output is replayed once it is stored when it is an abstention or a failure. -/
lemma exists_existing_of_none (hascii : ReadsAscii P.unicode) {attempt : Attempt F}
    {result : StageResult F} {row : StageRow F}
    (hfinished : Finished P N stage attempt result) (hrow : Recorded P B stage result row)
    (houtput : attempt.output = none) :
    (∃ persisted, existing P N stage (some row) = .ok (some persisted)) ↔
      ¬(attempt.status = .ok ∨ attempt.status = .failedOpen) := by
  have hresult : result.output = none := by
    rw [hfinished.output_eq, houtput, Option.map_none]
  have hcolumn : row.output = none := by
    rw [hrow.output_eq, hresult, Option.map_none]
  have hstatus : normalizeStageStatus P row.status = some attempt.status := by
    rw [hrow.status_eq, hfinished.status_eq]
    exact normalizeStageStatus_value hascii _
  constructor
  · rintro ⟨persisted, h⟩ hok
    obtain ⟨status, found, errors, h, -⟩ := existing_eq_some_iff.mp h
    obtain rfl := Option.some.inj (h.status_eq.symm.trans hstatus)
    obtain ⟨value, hvalue, hfound⟩ := h.output_eq
    rw [hcolumn] at hvalue
    obtain rfl := Except.ok.inj hvalue
    exact h.output_ne_none hok (Option.some.inj hfound).symm
  · intro hok
    have hhash := hfinished.outputHash
    rw [hresult] at hhash
    refine ⟨_, existing_eq_some_iff.mpr ⟨attempt.status, none, _, ⟨⟨_, hrow.errors_eq, rfl⟩,
      ⟨none, ?_, rfl⟩, hstatus, fun h => absurd h hok, hrow.same, hrow.version,
      hrow.hashes.1 ▸ hfinished.input, ?_⟩, rfl⟩⟩
    · rw [hcolumn]
      rfl
    · rw [checkOutput_eq_true_iff, hrow.hashes.2]
      exact ⟨nofun, hhash⟩

/-! ### Failing open -/

variable (P N) in
/-- A result is a good one: its status is none of a failure, its output is accepted and has its hash,
and the store has it. -/
structure Settled (stage : Stage F) (row : Option (StageRow F)) (result : StageResult F) : Prop where
  status : result.status = .ok ∨ result.status = .abstained ∨ result.status = .failedOpen
  accepted : ∀ output, result.output = some output → stage.validator output = .ok ()
  hashed : hashOutput P N result.output = .ok result.outputHash
  stored : existing P N stage row = .ok (some { result with idempotentReplay := false })

variable (P N) in
/-- A call ends with a good result, unless the lease fence stops it. -/
def EndsOpen (stage : Stage F) : Except StageError (StageResult F × StageStore F) → Prop
  | .error .leaseFence => True
  | .error (.raised _) => False
  | .ok (result, store) => Settled P N stage store.row result

variable (P B) in
/-- A call fails open: it raises no error but that of the lease fence, and returns a good result. -/
def FailsOpen (stage : Stage F) (call : StageCall F) (before store : StageStore F) : Prop :=
  (∀ exception, invokeStructured P N B stage call before store ≠ .error (.raised exception)) ∧
    ∀ result store', invokeStructured P N B stage call before store = .ok (result, store') →
      Settled P N stage store'.row result

lemma failsOpen_iff_endsOpen {before store : StageStore F} : FailsOpen P B stage call before store ↔
    EndsOpen P N stage (invokeStructured P N B stage call before store) := by
  rw [FailsOpen]
  generalize invokeStructured P N B stage call before store = outcome
  cases outcome with
  | error error =>
      cases error with
      | leaseFence => simp [EndsOpen]
      | raised exception => simp [EndsOpen]
  | ok outcome =>
      obtain ⟨result, after⟩ := outcome
      simp [EndsOpen]

variable (P N) in
/-- A stored row is replayed, and not as a failure. -/
def ReplaysWell (stage : Stage F) (row : Option (StageRow F)) : Prop :=
  ∃ result, existing P N stage row = .ok (some result) ∧ result.status ≠ .failed

variable (P N) in
/-- The input and the answer of a call have a canonical hash. -/
def Hashable (stage : Stage F) (call : StageCall F) : Prop :=
  ValidJson P.unicode N none (.obj stage.request.inputPayload) ∧
    ∀ output, Answers stage call output → ValidJson P.unicode N none (.obj output.members)

variable (P B) in
/-- The write of a call finds a row to replay, or stores the answer. -/
def Keepable (stage : Stage F) (call : StageCall F) (row : Option (StageRow F)) : Prop :=
  ReplaysWell P N stage row ∨ existing P N stage row = .ok none ∧
    (stage.resolution.providerType = "disabled" ∨
      ∃ output, Answers stage call output ∧ Storable P B stage.validator output)

lemma status_ne_failed {status : StageStatus} : status ≠ .failed ↔
    status = .ok ∨ status = .abstained ∨ status = .failedOpen := by
  cases status <;> decide

/-- A replayed result is a good one unless it is a failure. -/
lemma settled_iff {row : Option (StageRow F)} {result : StageResult F}
    (h : existing P N stage row = .ok (some result)) :
    result.idempotentReplay = false ∧ (Settled P N stage row result ↔ result.status ≠ .failed) := by
  cases row with
  | none => cases h
  | some row =>
      obtain ⟨status, output, errors, hreplays, rfl⟩ := existing_eq_some_iff.mp h
      obtain ⟨haccepted, hhash⟩ := checkOutput_eq_true_iff.mp hreplays.checked
      refine ⟨rfl, fun hsettled => status_ne_failed.mpr hsettled.status, fun hstatus => ?_⟩
      exact ⟨status_ne_failed.mp hstatus, haccepted, hhash, h⟩

lemma settled_replay_iff {row : Option (StageRow F)} {result : StageResult F}
    (h : existing P N stage row = .ok (some result)) :
    Settled P N stage row { result with idempotentReplay := true } ↔ ReplaysWell P N stage row := by
  obtain ⟨hreplay, hsettled⟩ := settled_iff h
  have hsame : { result with idempotentReplay := false } = result := by
    rw [← hreplay]
  have hwell : ReplaysWell P N stage row ↔ result.status ≠ .failed := by
    refine ⟨?_, fun hstatus => ⟨result, h, hstatus⟩⟩
    rintro ⟨other, hother, hstatus⟩
    rwa [← Option.some.inj (Except.ok.inj (h.symm.trans hother))] at hstatus
  rw [hwell, ← hsettled]
  constructor
  · exact fun hgood => ⟨hgood.status, hgood.accepted, hgood.hashed, hsame.symm ▸ h⟩
  · exact fun hgood => ⟨hgood.status, hgood.accepted, hgood.hashed, hgood.stored⟩

lemma accepted_of_answers {output : JsonObject F} (h : Answers stage call output) :
    stage.validator output.members = .ok () := by
  rcases h with ⟨response, hresponse, rfl⟩ | ⟨-, -, hfallback⟩
  · exact hresponse.2.2
  · exact (fallback_eq_ok.mp hfallback).2

lemma not_answers_of_disabled (h : stage.resolution.providerType = "disabled") (output : JsonObject F) :
    ¬Answers stage call output := by
  rintro (⟨response, hresponse, -⟩ | ⟨hdisabled, -⟩)
  · exact (callsProvider_iff.mp hresponse.1).2 h
  · exact hdisabled h

lemma checkResult_eq_ok {attempt : Attempt F} {result : StageResult F} (hcomes : Comes stage call attempt)
    (hfinished : Finished P N stage attempt result) :
    checkResult P N stage.validator result = .ok () := by
  rw [checkResult]
  have hhash := hfinished.outputHash
  rw [hfinished.output_eq] at hhash ⊢
  cases houtput : attempt.output with
  | none => rfl
  | some output =>
      rw [houtput, Option.map_some, hashOutput_some] at hhash
      obtain ⟨hash, hhash, heq⟩ := hhash
      rw [Option.map_some, Checks.check_bind_eq_ok]
      refine ⟨accepted_of_answers ((hcomes.output_eq output).mp houtput), ?_⟩
      exact Checks.bind_eq_ok.mpr ⟨hash, hhash, Checks.require_eq_ok.mpr heq.symm⟩

/-- The result of a call is replayed once it is stored when the role is disabled or the answer is
storable. -/
lemma exists_existing_iff (hascii : ReadsAscii P.unicode) {attempt : Attempt F}
    {result : StageResult F} {row : StageRow F} (hcomes : Comes stage call attempt)
    (hfinished : Finished P N stage attempt result) (hrow : Recorded P B stage result row) :
    (∃ persisted, existing P N stage (some row) = .ok (some persisted)) ↔
      stage.resolution.providerType = "disabled" ∨
        ∃ output, Answers stage call output ∧ Storable P B stage.validator output := by
  cases houtput : attempt.output with
  | some output =>
      rw [exists_existing_of_some hascii hfinished hrow houtput]
      have hanswers := (hcomes.output_eq output).mp houtput
      constructor
      · exact fun h => .inr ⟨output, hanswers, h⟩
      · rintro (hdisabled | ⟨other, hother, h⟩)
        · exact absurd hanswers (not_answers_of_disabled hdisabled output)
        · have hsame := houtput.symm.trans ((hcomes.output_eq other).mpr hother)
          exact Option.some.inj hsame ▸ h
  | none =>
      rw [exists_existing_of_none hascii hfinished hrow houtput, ← hcomes.abstained]
      have hnone : ¬∃ output, Answers stage call output ∧ Storable P B stage.validator output := by
        rintro ⟨output, hanswers, -⟩
        cases houtput.symm.trans ((hcomes.output_eq output).mpr hanswers)
      rw [or_iff_left hnone]
      have hfailed := hcomes.not_failed
      cases hstatus : attempt.status with
      | failed => exact absurd hstatus hfailed
      | _ => decide

/-- A stored result is a good one. -/
lemma settled_of_recorded (hascii : ReadsAscii P.unicode) {attempt : Attempt F}
    {result persisted : StageResult F} {row : StageRow F} (hcomes : Comes stage call attempt)
    (hfinished : Finished P N stage attempt result) (hrow : Recorded P B stage result row)
    (h : existing P N stage (some row) = .ok (some persisted)) :
    Settled P N stage (some row) persisted := by
  refine (settled_iff h).2.mpr ?_
  obtain ⟨status, output, errors, hreplays, rfl⟩ := existing_eq_some_iff.mp h
  have hstatus : normalizeStageStatus P row.status = some result.status := by
    rw [hrow.status_eq]
    exact normalizeStageStatus_value hascii _
  obtain rfl := Option.some.inj (hstatus.symm.trans hreplays.status_eq)
  exact hfinished.status_eq ▸ hcomes.not_failed

lemma endsOpen_storeResult_iff (hascii : ReadsAscii P.unicode) {attempt : Attempt F}
    {result : StageResult F} (hcomes : Comes stage call attempt)
    (hfinished : Finished P N stage attempt result) (identity : String) (store : StageStore F) :
    EndsOpen P N stage ((storeResult P N B stage call identity result store).mapError .raised) ↔
      (stage.resolution.providerType = "disabled" ∨
        ∃ output, Answers stage call output ∧ Storable P B stage.validator output) := by
  obtain ⟨row, hrecord, hrow⟩ := exists_record hfinished identity store.row
  rw [← exists_existing_iff hascii hcomes hfinished hrow, storeResult,
    checkResult_eq_ok hcomes hfinished, Checks.ok_bind, hrecord, Checks.ok_bind]
  cases hexisting : existing P N stage (some row) with
  | error exception => exact iff_of_false id fun ⟨persisted, h⟩ => nomatch h
  | ok replayed =>
      cases replayed with
      | none => exact iff_of_false id fun ⟨persisted, h⟩ => nomatch h
      | some persisted =>
          refine iff_of_true ?_ ⟨persisted, rfl⟩
          exact settled_of_recorded hascii hcomes hfinished hrow hexisting

lemma endsOpen_persistResult_iff (hascii : ReadsAscii P.unicode) {attempt : Attempt F}
    {result : StageResult F} (hcomes : Comes stage call attempt)
    (hfinished : Finished P N stage attempt result) (identity : String) (store : StageStore F) :
    EndsOpen P N stage (persistResult P N B stage call identity result store) ↔
      (call.passesWrite = true → Keepable P B stage call store.row) := by
  rw [persistResult]
  by_cases hpasses : call.passesWrite = true
  swap
  · rw [if_pos hpasses]
    exact iff_of_true trivial fun h => absurd h hpasses
  rw [if_neg (not_not.mpr hpasses), Keepable, ReplaysWell]
  refine Iff.trans ?_ (forall_prop_of_true hpasses).symm
  cases hexisting : existing P N stage store.row with
  | error exception => simp [EndsOpen]
  | ok replayed =>
      cases replayed with
      | some stored =>
          refine (settled_replay_iff hexisting).trans ?_
          rw [ReplaysWell, hexisting]
          simp
      | none =>
          refine (endsOpen_storeResult_iff hascii hcomes hfinished identity store).trans ?_
          simp

lemma exists_identity_iff : (∃ identity, identityOf P N stage = .ok identity) ↔
    (∃ key, stage.request.idempotencyKey = some key ∧ key ≠ "") ∨
      ValidJson P.unicode N none (.obj stage.request.inputPayload) := by
  have hstage : (∃ identity, stageIdentity P N stage = .ok identity) ↔
      ValidJson P.unicode N none (.obj stage.request.inputPayload) := by
    rw [← exists_hash_iff, stageIdentity]
    cases hashIjson P N (.obj stage.request.inputPayload) with
    | error exception => simp
    | ok hash => exact iff_of_true ⟨_, rfl⟩ ⟨hash, rfl⟩
  rw [identityOf]
  cases hkey : stage.request.idempotencyKey with
  | none => simpa using hstage
  | some key =>
      dsimp only
      by_cases hempty : key = ""
      · rw [if_pos hempty, hstage]
        simp [hempty]
      · rw [if_neg hempty]
        exact iff_of_true ⟨key, rfl⟩ (.inl ⟨key, rfl, hempty⟩)

/-- A call that finds no row to replay. -/
lemma endsOpen_of_none (hascii : ReadsAscii P.unicode)
    (hopen : stage.resolution.failOpen = true) (identity : String) (store : StageStore F) :
    EndsOpen P N stage (do
      let attempt ← attempt stage call
      let result ← (finish P N stage call attempt).mapError .raised
      persistResult P N B stage call identity result store) ↔
      (Stopped stage call ∨ Hashable P N stage call ∧
        (call.passesWrite = true → Keepable P B stage call store.row)) := by
  rcases attempt_cases hopen call with ⟨hattempt, hstopped⟩ | ⟨a, hattempt, hcomes⟩
  · rw [hattempt]
    exact iff_of_true trivial (.inl hstopped)
  rw [hattempt, Checks.ok_bind, or_iff_right hcomes.not_stopped]
  have hhashable : (∃ result, finish P N stage call a = .ok result) ↔ Hashable P N stage call := by
    rw [exists_finish_iff, Hashable]
    refine and_congr_right fun _ => forall_congr' fun output => ?_
    rw [hcomes.output_eq]
  rw [← hhashable]
  cases hfinish : finish P N stage call a with
  | error exception => exact iff_of_false id fun ⟨⟨_, h⟩, _⟩ => nomatch h
  | ok result =>
      refine (endsOpen_persistResult_iff hascii hcomes (finished hfinish) identity store).trans ?_
      exact (and_iff_right ⟨result, rfl⟩).symm

/-- A call of a stage that fails open does so exactly when its identity can be named and a stored row is
replayed, not as a failure, or, where none is replayed, the lease fence stops the call or the input and
the answer have a canonical hash and the write finds a row to replay or has an answer, which is read
back as it was accepted. -/
theorem failsOpen_iff (hascii : ReadsAscii P.unicode)
    (hopen : stage.resolution.failOpen = true) (before store : StageStore F) :
    FailsOpen P B stage call before store ↔
      ((∃ key, stage.request.idempotencyKey = some key ∧ key ≠ "") ∨
        ValidJson P.unicode N none (.obj stage.request.inputPayload)) ∧
      (ReplaysWell P N stage before.row ∨ existing P N stage before.row = .ok none ∧
        (Stopped stage call ∨ Hashable P N stage call ∧
          (call.passesWrite = true → Keepable P B stage call store.row))) := by
  rw [← exists_identity_iff, failsOpen_iff_endsOpen, invokeStructured]
  cases hidentity : identityOf P N stage with
  | error exception => exact iff_of_false id fun ⟨⟨_, h⟩, _⟩ => nomatch h
  | ok identity =>
      refine Iff.trans ?_ (and_iff_right ⟨identity, rfl⟩).symm
      cases hexisting : existing P N stage before.row with
      | error exception => simp [EndsOpen, ReplaysWell, hexisting, Except.mapError]
      | ok replayed =>
          cases replayed with
          | some stored =>
              refine (settled_replay_iff hexisting).trans ?_
              simp
          | none =>
              refine (endsOpen_of_none hascii hopen identity store).trans ?_
              simp [ReplaysWell, hexisting]

/-! ### A compaction -/

/-- A SQLite store. -/
def tenthsBackend : Backend tenths where
  store := .sqlite
  jsonb := fun text => (Json.read tenths text).getD .null
  jsonb_strs := fun texts => by
    have hwell : Json.WellFormed tenths (.arr (texts.map Json.str)) := .arr fun item hmem => by
      obtain ⟨text, -, rfl⟩ := List.mem_map.mp hmem
      exact .str text
    rw [Json.read_print hwell]
    rfl

/-- An object with no items, and another member. -/
def noItems (score : ℤ) : JsonObject ℕ where
  members := [("items".toList, .arr []), ("score".toList, .int score)]
  dicts := .obj rfl (by
    intro m hm
    simp only [List.mem_cons, List.not_mem_nil, or_false] at hm
    rcases hm with rfl | rfl
    · exact .arr nofun
    · exact .int score)

/-- The compaction of a block whose model is asked: an output has items. -/
def compactionStage : Stage ℕ where
  request :=
    { role := "block_compaction", stage := "block_compaction", sourceType := "memory_block"
      sourceUuid := "block-1", inputPayload := [] }
  resolution :=
    { effectiveRole := "block_compaction", providerType := "openai_compatible", modelName := "m"
      scopeSource := "global", failOpen := true }
  validator := fun output =>
    match output.find? fun m => m.1 = "items".toList with
    | some (_, .arr _) => .ok ()
    | _ => .error
        { base := .valueError, className := "ValueError".toList
          message := "block compaction requires items".toList }
  deterministicOutput := fun _ => .ok (noItems 0)

/-- A call whose provider does this. -/
def compactionCall (provider : Except StageException (ProviderResponse ℕ)) : StageCall ℕ where
  provider := provider
  executionUuid := "run-1"
  createdAt := "t0"
  completedAt := "t1"
  latencyMs := 7

/-- A provider that does not answer. -/
def timeout : StageException where
  base := .other
  className := "TimeoutError".toList
  message := "timed out".toList

lemma readsAscii_latinPlatform : ReadsAscii latinPlatform.unicode where
  lower := fun _ _ => rfl
  space := fun _ _ => rfl

lemma not_answered_timeout (response : ProviderResponse ℕ) :
    ¬Answered compactionStage (compactionCall (.error timeout)) response :=
  fun h => nomatch h.2.1

theorem failsOpen_iff_timeout :
    FailsOpen latinPlatform tenthsBackend compactionStage (compactionCall (.error timeout)) {} {} := by
  have hopen : compactionStage.resolution.failOpen = true := rfl
  have hiff := @failsOpen_iff ℕ latinPlatform tenths tenthsBackend compactionStage
    (compactionCall (.error timeout)) readsAscii_latinPlatform hopen {} {}
  refine hiff.mpr ⟨.inr (by decide), .inr ⟨rfl, .inr ?_⟩⟩
  have hnone : ¬∃ response, Answered compactionStage (compactionCall (.error timeout)) response :=
    fun ⟨response, h⟩ => not_answered_timeout response h
  have hanswers : Answers compactionStage (compactionCall (.error timeout)) (noItems 0) :=
    .inr ⟨by decide, hnone, rfl⟩
  refine ⟨⟨by decide, ?_⟩, fun _ => .inr ⟨rfl, .inr ⟨noItems 0, hanswers, ?_⟩⟩⟩
  · rintro output (⟨response, hresponse, -⟩ | ⟨-, -, houtput⟩)
    · exact absurd ⟨response, hresponse⟩ hnone
    · obtain rfl := Except.ok.inj houtput
      decide
  · exact ⟨_, _, rfl, rfl, rfl, rfl⟩

/-- An answer with a number that JSON does not keep is accepted, and then raises an error. -/
theorem not_failsOpen_unsafe_integer : ¬∀ (stage : Stage ℕ) (call : StageCall ℕ)
    (before store : StageStore ℕ), stage.resolution.failOpen = true →
      FailsOpen latinPlatform tenthsBackend stage call before store := by
  intro h
  have hopen : compactionStage.resolution.failOpen = true := rfl
  have hcall := h compactionStage
    (compactionCall (.ok ⟨noItems 9007199254740992, 12, 3⟩)) {} {} hopen
  exact hcall.1 _ rfl

end Memorist.StageInvocation
