import Memorist.Storage.WriteActor

/-!
What the single writer of the store promises of failed and of repeated writes.

* `changesNothing_iff`: a submission that is answered with an error committed nothing, as long as
  what it commits is recorded and in time;
* `commits_of_retries`: a caller that tries again until it has a result applies its command once;
* `atMostOnce_of_runs`: the effects under a key are committed once, as long as what is committed is
  recorded and no other kind of command uses the key.
-/

namespace Memorist

/-! ### A store that counts -/

/-- The result of a command that counts. -/
def counted (command : WriteCommand) : WriteResult :=
  ⟨command.commandType, none, none, .obj [], false, 0, 0⟩

/-- A command that counts up. -/
def counts (command : WriteCommand) (db : ℕ) (answer : Except ExecuteError WriteResult) (db' : ℕ) :
    Prop :=
  answer = .ok (counted command) ∧ db' = db + 1

/-- Answers of the statements when all goes well; to count takes a tick of the clock. -/
def countRespond (tick : ℕ) (s : ActorState ℕ) (command : WriteCommand) :
    (e : ActorEffect) → e.Response × ActorState ℕ
  | .clock => (s.db * tick, s)
  | .lookup key commandType =>
      (.ok ((s.records.get? key).filter fun row => row.commandType = commandType), s)
  | .validateReplay => (.ok (), s)
  | .execute => (.ok (counted command), { s with db := s.db + 1 })
  | .record row => (.ok (), { s with records := s.records.insert row })

/-- A submission when all goes well, and the store after it. -/
def submitCount (tick : ℕ) (command : WriteCommand) (s : ActorState ℕ) :
    Submission × ActorState ℕ :=
  let ended := Prog.eval (fun s e => countRespond tick s command e) s
    (executeEnvelope basicLatin command 0)
  (⟨command, 0, ended.1, some ended.2.1⟩, ended.2.2)

/-- A store that has counted nothing. -/
def uncounted : ActorState ℕ := ⟨0, .empty⟩

lemma atomic_counts : Atomic counts := fun h => absurd h.1 (by simp)

lemma submitCount_step (tick : ℕ) (command : WriteCommand) (s : ActorState ℕ) :
    SubmissionStep counts basicLatin s (submitCount tick command s).1
      (submitCount tick command s).2 := by
  refine ⟨_, Prog.exec_eval (fun s e => ?_) s _, rfl⟩
  cases e with
  | clock => exact rfl
  | lookup key commandType => exact ⟨rfl, .inl rfl⟩
  | validateReplay => exact rfl
  | execute => exact ⟨rfl, rfl, rfl⟩
  | record row => exact .inl ⟨rfl, rfl⟩

section

variable {σ : Type} {executes : WriteCommand → σ → Except ExecuteError WriteResult → σ → Prop}
variable {U : UnicodeData} {s t : ActorState σ} {run : Submission} {runs : List Submission}

/-- A submission commits the effects of its command once at most. -/
lemma SubmissionStep.commits_le (hatomic : Atomic executes)
    (hstep : SubmissionStep executes U s run t) : run.commits ≤ 1 := by
  have houtcome := outcome_of_step hatomic hstep
  obtain ⟨command, submittedAt, performed, result⟩ := run
  unfold Submission.commits
  cases houtcome with
  | untouched hcommits => exact hcommits.le.trans zero_le_one
  | replayed hcommits => exact hcommits.le.trans zero_le_one
  | unrecorded _ hcommits => exact hcommits.le
  | recorded _ hcommits => exact hcommits.le

/-! ### Failed writes -/

/-- What a submission commits is recorded and in time. -/
def Submission.Settles (run : Submission) : Prop :=
  run.commits ≠ 0 → Recorded run.command run.performed ∧ ¬ Late run.command run.performed

/-- A submission that is answered with an error leaves the store as it was. -/
def Submission.ChangesNothing (run : Submission) (s t : ActorState σ) : Prop :=
  (∃ error, run.result = some (.error error)) → run.commits = 0 ∧ t = s

/-- An error means that nothing was committed, exactly if what is committed is recorded and in
time. -/
theorem changesNothing_iff (hatomic : Atomic executes) (hstep : SubmissionStep executes U s run t)
    (hanswered : run.result ≠ none) : run.ChangesNothing s t ↔ run.Settles := by
  have houtcome := outcome_of_step hatomic hstep
  obtain ⟨command, submittedAt, performed, result⟩ := run
  obtain ⟨answer, hanswer⟩ := Option.ne_none_iff_exists'.mp hanswered
  obtain rfl : result = some answer := hanswer
  unfold Submission.ChangesNothing Submission.Settles Submission.commits
  cases houtcome with
  | untouched hcommits => simp [hcommits]
  | replayed hcommits => simp [hcommits]
  | unrecorded _ hcommits hrecorded hresult =>
      cases answer with
      | ok r => exact absurd rfl (hresult r)
      | error error => simp [hcommits, hrecorded]
  | recorded _ hcommits hrecorded herror hresult =>
      cases answer with
      | ok r => simp [hcommits, hrecorded, (hresult r rfl).1]
      | error error => simp [hcommits, hrecorded, herror error rfl]

/-- A command in time changes nothing if it is answered with an error. -/
theorem submitCount_changesNothing_iff :
    (submitCount 40000000000 ⟨"count", none, 1, 30000, false⟩ uncounted).1.ChangesNothing uncounted
        (submitCount 40000000000 ⟨"count", none, 1, 30000, false⟩ uncounted).2 ↔
      (submitCount 40000000000 ⟨"count", none, 1, 30000, false⟩ uncounted).1.Settles :=
  changesNothing_iff atomic_counts (submitCount_step _ _ _) (by simp [submitCount])

/-- A command that takes forty seconds is applied and answered with an error. -/
theorem late_submission_changes_store : ¬ ∀ run t, SubmissionStep counts basicLatin uncounted run t →
    run.ChangesNothing uncounted t := by
  intro h
  have hnothing := h _ _ (submitCount_step 40000000000 ⟨"count", none, 1, 30000, false⟩ uncounted)
  have hcommits := (hnothing ⟨_, rfl⟩).1
  exact absurd hcommits (by decide +kernel)

/-- A submission that is answered with an error committed nothing, as long as it settles. -/
lemma SubmissionStep.commits_eq_zero (hatomic : Atomic executes)
    (hstep : SubmissionStep executes U s run t) (hsettles : run.Settles) {error : String}
    (herror : run.result = some (.error error)) : run.commits = 0 := by
  have houtcome := outcome_of_step hatomic hstep
  obtain ⟨command, submittedAt, performed, result⟩ := run
  obtain rfl : result = some (.error error) := herror
  unfold Submission.Settles Submission.commits at hsettles
  unfold Submission.commits
  cases houtcome with
  | untouched hcommits => exact hcommits
  | unrecorded _ hcommits hrecorded => exact absurd (hsettles (by simp [hcommits])).1 hrecorded
  | recorded _ hcommits _ hlate =>
      exact absurd (hlate error rfl) (hsettles (by simp [hcommits])).2

/-- A caller that submits a command again after each error has it applied once at most. -/
theorem commits_of_retries (hatomic : Atomic executes)
    (hruns : Runs (fun s run t => SubmissionStep executes U s run t ∧ run.Settles) s runs t)
    (herrors : ∀ run ∈ runs.dropLast, ∃ error, run.result = some (.error error)) :
    (runs.map Submission.commits).sum ≤ 1 := by
  cases hruns with
  | refl => exact Nat.zero_le 1
  | tail h hstep =>
      rename_i u es run
      rw [List.dropLast_concat] at herrors
      have hfailed : (es.map Submission.commits).sum = 0 := by
        clear hstep
        induction h with
        | refl => rfl
        | tail _ hstep ih =>
            rename_i u es run _
            obtain ⟨error, herror⟩ := herrors run (by simp)
            rw [List.map_append, List.sum_append,
              ih fun run hrun => herrors run (List.mem_append_left _ hrun)]
            simpa using hstep.1.commits_eq_zero hatomic hstep.2 herror
      rw [List.map_append, List.sum_append, hfailed]
      simpa using hstep.1.commits_le hatomic

/-- A command that was too heavy is submitted again with less weight. -/
theorem count_of_lighter_retry :
    let first := submitCount 0 ⟨"count", none, 100000, 30000, false⟩ uncounted
    let second := submitCount 0 ⟨"count", none, 1, 30000, false⟩ first.2
    ([first.1, second.1].map Submission.commits).sum ≤ 1 := by
  intro first second
  have hsettles : second.1.Settles := by
    refine fun _ => ⟨fun hkey => absurd rfl hkey, ?_⟩
    rintro ⟨now, started, ended, hreadings, hlate⟩
    have hzero : second.1.performed.filterMap reading? = [0, 0, 0] := by decide
    obtain ⟨rfl, rfl, rfl⟩ : 0 = now ∧ 0 = started ∧ 0 = ended := by
      simpa using hzero.symm.trans hreadings
    exact absurd hlate (by decide)
  exact commits_of_retries atomic_counts
    ((Runs.refl.tail ⟨submitCount_step .., fun hne => absurd rfl hne⟩).tail
      ⟨submitCount_step .., hsettles⟩)
    (List.forall_mem_singleton.mpr ⟨_, rfl⟩)

/-! ### Repeated writes -/

/-- A submission of a command of a kind under a key. -/
def Submission.Carries (key commandType : String) (run : Submission) : Prop :=
  run.command.idempotencyKey = some key ∧ run.command.commandType = commandType

instance (key commandType : String) (run : Submission) : Decidable (run.Carries key commandType) :=
  inferInstanceAs (Decidable (_ ∧ _))

/-- The result of a submission is the recorded one: as it was recorded, or as it is given again. -/
structure WriteResult.Returns (result : WriteResult) (row : IdempotencyRow) : Prop where
  targetType : result.targetType = row.targetType
  targetUuid : result.targetUuid = row.targetUuid
  result : row.result = result.result.canon ∨ result.result = markDuplicate row.result

/-- A submission whose commit under the key, if it makes one, is recorded, and that finds no other
kind of command's record there. -/
def KeyedStep (executes : WriteCommand → σ → Except ExecuteError WriteResult → σ → Prop)
    (U : UnicodeData) (key commandType : String) (s : ActorState σ) (run : Submission)
    (t : ActorState σ) : Prop :=
  SubmissionStep executes U s run t ∧ (run.Carries key commandType → run.commits ≠ 0 →
    Recorded run.command run.performed ∧
      ∀ row, s.records.get? key = some row → row.commandType = commandType)

/-- How often the effects under a key were committed. -/
def commitsUnder (key commandType : String) (runs : List Submission) : ℕ :=
  ((runs.filter fun run => run.Carries key commandType).map Submission.commits).sum

/-- A record stands for a commit under the key, and each result is that of the record. -/
structure AtMostOnce (key commandType : String) (runs : List Submission) (s : ActorState σ) :
    Prop where
  commits : commitsUnder key commandType runs ≤ 1
  recorded : commitsUnder key commandType runs ≠ 0 →
    ∃ row, s.records.get? key = some row ∧ row.commandType = commandType
  returns : ∀ run ∈ runs, run.Carries key commandType → ∀ result, run.result = some (.ok result) →
    ∃ row, s.records.get? key = some row ∧ row.commandType = commandType ∧ result.Returns row

section

variable {key commandType : String}

lemma commitsUnder_concat (runs : List Submission) (run : Submission) :
    commitsUnder key commandType (runs ++ [run]) =
      commitsUnder key commandType runs + if run.Carries key commandType then run.commits else 0 := by
  unfold commitsUnder
  rw [List.filter_append, List.map_append, List.sum_append]
  by_cases hcarries : run.Carries key commandType <;> simp [hcarries]

lemma Submission.Carries.key?_eq (h : run.Carries key commandType) (hkey : key ≠ "") :
    run.command.key? = some key := by
  rw [WriteCommand.key?, h.1]
  simp [hkey]

/-- A result that is given again is the recorded one. -/
lemma returns_replay (row : IdempotencyRow) (waitMs transactionMs : ℕ) :
    (row.replay.timed waitMs transactionMs).Returns row := ⟨rfl, rfl, .inr rfl⟩

/-- The first result is the recorded one. -/
lemma returns_idempotencyRow (command : WriteCommand) (result : WriteResult)
    (waitMs transactionMs : ℕ) :
    (result.timed waitMs transactionMs).Returns (idempotencyRow key command result) :=
  ⟨rfl, rfl, .inl rfl⟩

/-- A submission keeps the records that are there. -/
lemma SubmissionStep.get?_of_some (hatomic : Atomic executes)
    (hstep : SubmissionStep executes U s run t) {row : IdempotencyRow}
    (hrow : s.records.get? key = some row) : t.records.get? key = some row := by
  have houtcome := outcome_of_step hatomic hstep
  obtain ⟨command, submittedAt, performed, result⟩ := run
  cases houtcome with
  | untouched | replayed | unrecorded => exact hrow
  | recorded =>
      unfold recordsAfter
      split
      · exact hrow
      · exact Table.get?_insert_of_some hrow _

/-- A submission under the key commits nothing and answers with the record, if with any result; or
it commits, with no record before and its own after. -/
lemma KeyedStep.cases (hatomic : Atomic executes) (hkey : key ≠ "")
    (hstep : KeyedStep executes U key commandType s run t) (hcarries : run.Carries key commandType) :
    run.commits = 0 ∧ (∀ result, run.result = some (.ok result) →
        ∃ row, t.records.get? key = some row ∧ row.commandType = commandType ∧
          result.Returns row) ∨
      run.commits = 1 ∧ s.records.get? key = none ∧
        ∃ row, t.records.get? key = some row ∧ row.commandType = commandType ∧
          ∀ result, run.result = some (.ok result) → result.Returns row := by
  obtain ⟨hstep, hguard⟩ := hstep
  have hguard := hguard hcarries
  have hkey? := hcarries.key?_eq hkey
  have houtcome := outcome_of_step hatomic hstep
  obtain ⟨command, submittedAt, performed, result⟩ := run
  obtain ⟨-, rfl⟩ := hcarries
  unfold Submission.commits at hguard ⊢
  cases houtcome with
  | untouched hcommits hresult =>
      exact .inl ⟨hcommits, fun r hr => absurd hr (hresult r)⟩
  | @replayed _ row _ _ hcommits hkey' hrow htype =>
      obtain rfl := Option.some_inj.mp (hkey?.symm.trans hkey')
      refine .inl ⟨hcommits, fun r hr => ⟨row, hrow, htype, ?_⟩⟩
      cases hr
      exact returns_replay row _ _
  | unrecorded _ hcommits hrecorded => exact absurd (hguard (by simp [hcommits])).1 hrecorded
  | @recorded committed _ db hunseen hcommits hrecorded herror hresult =>
      have hnone : s.records.get? key = none := by
        rcases hrow : s.records.get? key with _ | row
        · rfl
        · have hfilter := hunseen key hkey?
          rw [hrow, Option.filter_eq_none_iff] at hfilter
          exact absurd ((hguard (by simp [hcommits])).2 row hrow) (by simpa using hfilter row rfl)
      refine .inr ⟨hcommits, hnone, idempotencyRow key command committed, ?_, rfl, fun r hr => ?_⟩
      · rw [recordsAfter, hkey?]
        exact Table.get?_insert_self hnone
      · obtain ⟨-, waitMs, transactionMs, rfl⟩ := hresult r hr
        exact returns_idempotencyRow command committed waitMs transactionMs

/-- A submission keeps the invariant. -/
lemma AtMostOnce.step (hatomic : Atomic executes) (hkey : key ≠ "")
    (h : AtMostOnce key commandType runs s)
    (hstep : KeyedStep executes U key commandType s run t) :
    AtMostOnce key commandType (runs ++ [run]) t := by
  have hkeeps : ∀ row, s.records.get? key = some row → t.records.get? key = some row :=
    fun row => hstep.1.get?_of_some hatomic
  have hreturns : ∀ run ∈ runs, run.Carries key commandType → ∀ result,
      run.result = some (.ok result) → ∃ row, t.records.get? key = some row ∧
        row.commandType = commandType ∧ result.Returns row := fun run hrun hcarries result hresult =>
    let ⟨row, hrow, hrest⟩ := h.returns run hrun hcarries result hresult
    ⟨row, hkeeps row hrow, hrest⟩
  by_cases hcarries : run.Carries key commandType
  · rcases hstep.cases hatomic hkey hcarries with
      ⟨hcommits, hresult⟩ | ⟨hcommits, hnone, row, hrow, htype, hresult⟩
    · have hcount : commitsUnder key commandType (runs ++ [run]) = commitsUnder key commandType runs := by
        rw [commitsUnder_concat, if_pos hcarries, hcommits, Nat.add_zero]
      refine ⟨hcount ▸ h.commits, fun hne => ?_, fun run' hrun' => ?_⟩
      · obtain ⟨row, hrow, htype⟩ := h.recorded (hcount ▸ hne)
        exact ⟨row, hkeeps row hrow, htype⟩
      · rcases List.mem_append.mp hrun' with hold | hnew
        · exact hreturns run' hold
        · obtain rfl := List.mem_singleton.mp hnew
          exact fun _ => hresult
    · -- a commit before would have left a record
      have hzero : commitsUnder key commandType runs = 0 := by
        by_contra hne
        obtain ⟨row', hrow', -⟩ := h.recorded hne
        exact absurd (hnone.symm.trans hrow') (by simp)
      refine ⟨?_, fun _ => ⟨row, hrow, htype⟩, fun run' hrun' => ?_⟩
      · rw [commitsUnder_concat, if_pos hcarries, hzero, hcommits]
      · rcases List.mem_append.mp hrun' with hold | hnew
        · exact hreturns run' hold
        · obtain rfl := List.mem_singleton.mp hnew
          exact fun _ result hr => ⟨row, hrow, htype, hresult result hr⟩
  · have hcount : commitsUnder key commandType (runs ++ [run]) = commitsUnder key commandType runs := by
      rw [commitsUnder_concat, if_neg hcarries, Nat.add_zero]
    refine ⟨hcount ▸ h.commits, fun hne => ?_, fun run' hrun' hcarries' => ?_⟩
    · obtain ⟨row, hrow, htype⟩ := h.recorded (hcount ▸ hne)
      exact ⟨row, hkeeps row hrow, htype⟩
    · rcases List.mem_append.mp hrun' with hold | hnew
      · exact hreturns run' hold hcarries'
      · obtain rfl := List.mem_singleton.mp hnew
        exact absurd hcarries' hcarries

/-- The effects under a key are committed once at most, and every result is the recorded one. -/
theorem atMostOnce_of_runs (hatomic : Atomic executes) (hkey : key ≠ "")
    (hruns : Runs (KeyedStep executes U key commandType) s runs t) :
    AtMostOnce key commandType runs t := by
  induction hruns with
  | refl => exact ⟨Nat.zero_le 1, fun hne => absurd rfl hne, by simp⟩
  | tail _ hstep ih => exact ih.step hatomic hkey hstep

end

/-- A command under the key `k`. -/
def keyed (commandType : String) : WriteCommand := ⟨commandType, some "k", 1, 30000, false⟩

/-- A command that is submitted twice under its key. -/
theorem keyed_atMostOnce :
    let first := submitCount 0 (keyed "b") uncounted
    AtMostOnce "k" "b" [first.1, (submitCount 0 (keyed "b") first.2).1]
      (submitCount 0 (keyed "b") first.2).2 :=
  atMostOnce_of_runs atomic_counts (by decide)
    (Runs.tail
      (Runs.refl.tail ⟨submitCount_step 0 (keyed "b") uncounted, fun _ _ =>
        ⟨fun _ => by decide +kernel, fun row hrow => absurd hrow (by simp [uncounted])⟩⟩)
      ⟨submitCount_step 0 (keyed "b") _, fun _ hne => absurd hne (by decide +kernel)⟩)

/-- After a command of another kind under the key, a command is applied each time it comes. -/
theorem other_command_type_reexecutes : ¬ ∀ runs t,
    Runs (SubmissionStep counts basicLatin) uncounted runs t → AtMostOnce "k" "b" runs t := by
  intro h
  have hruns := ((Runs.refl.tail (submitCount_step 0 (keyed "a") uncounted)).tail
    (submitCount_step 0 (keyed "b") _)).tail (submitCount_step 0 (keyed "b") _)
  exact absurd (h _ _ hruns).commits (by decide +kernel)

end

end Memorist
