import Memorist.Worker.Execution

/-!
Executions that share an idempotency identity.

* `attemptDiscipline`, `keepsAttempts_runContractExecution`: an execution calls the provider
  only for attempts it has reserved, and no more once a reservation was refused;
* `attemptEffect`, `AttemptStep`: executions side by side on the rows of the audit;
* `calls_at_most_once`, `attemptEffect_advance`: what they keep between them;
* `attempts_at_most_once`: each attempt calls the provider at most once, its row leaves
  `unknown_completion` at most once and rests once completed, and a refused execution settles
  without the provider.
-/

namespace Memorist

/-! ### What an execution may do -/

/-- The attempt of a provider call: the first, or the repair. -/
def callIndex (corrective : Option Corrective) : ℕ := if corrective.isNone then 1 else 2

/-- What an execution holds: the attempts it has reserved and not called, whether it was refused,
and the deterministic output or the failure it has received. -/
structure Held where
  reserved : Multiset ℕ := 0
  refused : Bool := false
  output : Option JsonObject := none
  raised : Option String := none

/-- An execution calls the provider for attempts it has reserved, and not once it was refused. -/
def attemptDiscipline : Discipline ContractEffect.Response Held where
  requires held
    | .run corrective => callIndex corrective ∈ held.reserved ∧ held.refused = false
    | _ => True
  after held
    | .insertAttempt attemptIndex _, .inserted =>
        { held with reserved := attemptIndex ::ₘ held.reserved }
    | .insertAttempt _ _, .conflict => { held with refused := true }
    | .run corrective, _ => { held with reserved := held.reserved.erase (callIndex corrective) }
    | .revalidate, .error message => { held with raised := some message }
    | .deterministicOutput, .error message => { held with raised := some message }
    | .deterministicOutput, .ok output => { held with output := some output }
    | _, _ => held

/-- How a refused execution may end: with the deterministic output, validated, or because no
fallback is allowed, the output is invalid, or a revalidation or the output itself failed. -/
def Settled (c : ContractExecution) (held : Held) :
    Except ExecutionFailure ContractExecutionOutcome → Prop
  | .ok outcome => outcome.fallbackUsed = true ∧ held.output = some outcome.output ∧
      c.validate outcome.output = []
  | .error (.noDeterministicFallback _) => c.allowFallback = false
  | .error (.deterministicContract paths) => ∃ output, held.output = some output ∧
      c.validate output ≠ [] ∧ paths = issuePaths (c.validate output)
  | .error (.raised message) => held.raised = some message

/-- An execution keeps the discipline, and settles as it may if it was refused. -/
def KeepsAttempts (c : ContractExecution) (held : Held) (execution : Execution) : Prop :=
  Prog.Keeps attemptDiscipline (fun held result => held.refused = true → Settled c held result)
    held execution

section

variable {P : Platform} {c : ContractExecution} {held : Held} {capabilityMode reason : String}

lemma keepsAttempts_revalidated {next : Execution} (h : KeepsAttempts c held next) :
    KeepsAttempts c held (revalidated c next) := by
  rw [revalidated]
  split_ifs
  · refine ⟨trivial, fun r => ?_⟩
    cases r with
    | error message => exact fun _ => rfl
    | ok _ => exact h
  · exact h

lemma keepsAttempts_attemptCount {unaudited : ℕ} {next : ℕ → Execution}
    (h : ∀ count, KeepsAttempts c held (next count)) :
    KeepsAttempts c held (attemptCount c unaudited next) := by
  rw [attemptCount]
  split
  · exact h _
  · exact ⟨trivial, h⟩

lemma keepsAttempts_finalize (hheld : held.refused = false) {attemptIndex : ℕ}
    {observed : Except String AttemptObservation} {next : Execution}
    (h : KeepsAttempts c held next) :
    KeepsAttempts c held (finalize c attemptIndex observed next) := by
  unfold finalize
  split
  · exact h
  · split
    · exact fun hrefused => absurd (hheld ▸ hrefused) (by simp)
    · exact ⟨trivial, fun _ => h⟩

lemma keepsAttempts_fallback {facts : ExecutionFacts} {count : ℕ} :
    KeepsAttempts c held (fallback P c capabilityMode reason facts count) := by
  rw [fallback]
  split_ifs with hallowed
  · refine ⟨trivial, fun r => ?_⟩
    cases r with
    | error message => exact fun _ => rfl
    | ok output =>
        dsimp only
        split
        · rename_i hvalid
          exact fun _ => ⟨rfl, rfl, hvalid⟩
        · rename_i hinvalid
          exact fun _ => ⟨output, rfl, hinvalid, rfl⟩
  · exact fun _ => Bool.eq_false_iff.mpr hallowed

lemma keepsAttempts_refused {reservation : Reservation} {facts : ExecutionFacts} :
    KeepsAttempts c held (refused P c capabilityMode reservation facts) :=
  keepsAttempts_revalidated (keepsAttempts_attemptCount fun _ => keepsAttempts_fallback)

lemma keepsAttempts_judged (hheld : held.refused = false) {attemptIndex : ℕ}
    {attempt : ProviderAttempt} {facts : ExecutionFacts} {next : List ContractIssue → Execution}
    (h : ∀ issues, KeepsAttempts c held (next issues)) :
    KeepsAttempts c held (judged P c capabilityMode attemptIndex attempt facts next) := by
  have hdone : ∀ outcome, KeepsAttempts c held (.done (.ok outcome)) :=
    fun _ hrefused => absurd (hheld ▸ hrefused) (by simp)
  rw [judged]
  split
  · refine keepsAttempts_finalize hheld (keepsAttempts_revalidated ?_)
    split_ifs
    · exact keepsAttempts_attemptCount fun _ => hdone _
    · split
      · exact keepsAttempts_attemptCount fun _ => hdone _
      · exact h _
  · exact keepsAttempts_finalize hheld (keepsAttempts_revalidated (h _))

lemma keepsAttempts_callFailed (hheld : held.refused = false) {attemptIndex : ℕ}
    {error : ProviderError} {facts : ExecutionFacts} :
    KeepsAttempts c held (callFailed P c capabilityMode attemptIndex error facts) :=
  keepsAttempts_finalize hheld
    (keepsAttempts_revalidated (keepsAttempts_attemptCount fun _ => keepsAttempts_fallback))

/-- A reservation that is granted is held; one that is refused refuses the execution. -/
lemma keepsAttempts_reserve (haudit : c.attemptAudit.isSome) (hheld : held.refused = false)
    {attemptIndex : ℕ} {kind : AttemptKind} {facts : ExecutionFacts} {granted : Execution}
    (h : KeepsAttempts c { held with reserved := attemptIndex ::ₘ held.reserved } granted) :
    KeepsAttempts c held
      (reserve c attemptIndex kind (onReservation P c capabilityMode facts granted)) := by
  obtain ⟨frozen, hfrozen⟩ := Option.isSome_iff_exists.mp haudit
  rw [reserve, hfrozen]
  refine ⟨trivial, fun r => ?_⟩
  cases r with
  | inserted => exact h
  | violation => exact fun hr => absurd (hheld ▸ hr) (by simp)
  | conflict =>
      refine ⟨trivial, fun existing => ?_⟩
      dsimp only
      split
      · exact keepsAttempts_refused
      · exact keepsAttempts_refused

/-- A call uses its reservation up. -/
lemma keepsAttempts_run (hheld : held.refused = false) {corrective : Option Corrective}
    {next : ProviderAnswer → Execution}
    (h : ∀ rest : Held, rest.refused = false → ∀ answer, KeepsAttempts c rest (next answer)) :
    KeepsAttempts c { held with reserved := callIndex corrective ::ₘ held.reserved }
      (.call (.run corrective) next) := by
  refine ⟨⟨Multiset.mem_cons_self _ _, hheld⟩, fun answer => h _ ?_ answer⟩
  exact hheld

lemma keepsAttempts_called (hheld : held.refused = false) {attemptIndex : ℕ}
    {failedFacts : ProviderError → ExecutionFacts} {judge : ProviderAttempt → Execution}
    (h : ∀ attempt, KeepsAttempts c held (judge attempt)) (answer : ProviderAnswer) :
    KeepsAttempts c held (called P c capabilityMode attemptIndex failedFacts judge answer) := by
  cases answer with
  | raised message => exact fun hrefused => absurd (hheld ▸ hrefused) (by simp)
  | failed error => exact keepsAttempts_callFailed hheld
  | returned attempt => exact h attempt

lemma keepsAttempts_judgeRepair (hheld : held.refused = false) {facts : ExecutionFacts}
    (answer : ProviderAttempt) :
    KeepsAttempts c held (judgeRepair P c capabilityMode facts answer) := by
  rw [judgeRepair]
  refine keepsAttempts_judged hheld fun issues => ?_
  exact keepsAttempts_attemptCount fun _ => keepsAttempts_fallback

lemma keepsAttempts_repair (haudit : c.attemptAudit.isSome) (hheld : held.refused = false)
    {attempt : ProviderAttempt} {issues : List ContractIssue} :
    KeepsAttempts c held (repair P c capabilityMode attempt issues) := by
  rw [repair]
  refine keepsAttempts_revalidated (keepsAttempts_reserve haudit hheld ?_)
  exact keepsAttempts_run hheld fun _ hrest answer =>
    keepsAttempts_called hrest (fun answer => keepsAttempts_judgeRepair hrest answer) answer

/-- An audited execution calls the provider only for attempts it has reserved, never once it was
refused, and settles as a refused execution may. -/
theorem keepsAttempts_runContractExecution (haudit : c.attemptAudit.isSome) :
    KeepsAttempts c {} (runContractExecution P c) := by
  rw [runContractExecution]
  split
  · refine ⟨trivial, fun r => ?_⟩
    cases r with
    | error message => exact fun _ => rfl
    | ok output =>
        dsimp only
        split
        · split <;> exact fun hr => absurd hr (by simp [attemptDiscipline])
        · exact fun hr => absurd hr (by simp [attemptDiscipline])
  · have hheld : ({} : Held).refused = false := rfl
    refine keepsAttempts_revalidated (keepsAttempts_reserve haudit hheld ?_)
    exact keepsAttempts_run hheld fun _ hrest answer => keepsAttempts_called hrest
      (fun _ => keepsAttempts_judged hrest fun _ => keepsAttempts_repair haudit hrest) answer

end

/-! ### Executions that share an identity -/

/-- What the effects do to the rows of the audit; the provider, the lease and the deterministic
output answer as they please. -/
def attemptEffect (P : Platform) (frozen : FrozenProviderExecution) (rows : List AttemptRow) :
    (e : ContractEffect) → e.Response → List AttemptRow → Prop
  | .insertAttempt attemptIndex kind, answer, rows' =>
      ∃ now, insertAttempt P frozen attemptIndex kind now rows = (answer, rows')
  | .selectAttempt attemptIndex, answer, rows' =>
      answer = selectAttempt frozen attemptIndex rows ∧ rows' = rows
  | .countAttempts, answer, rows' => answer = countAttempts frozen rows ∧ rows' = rows
  | .finalizeAttempt attemptIndex observed, _, rows' =>
      ∃ now, rows' = finalizeAttempt frozen attemptIndex observed now rows
  | _, _, rows' => rows' = rows

/-- The executions that share an identity, each with its own arguments. -/
def SharesIdentity (P : Platform) (frozen : FrozenProviderExecution) (execution : Execution) :
    Prop :=
  ∃ c : ContractExecution, c.attemptAudit = some frozen ∧ execution = runContractExecution P c

/-- A step of the executions that share an identity. -/
abbrev AttemptStep (P : Platform) (frozen : FrozenProviderExecution) :=
  PoolStep (attemptEffect P frozen) (SharesIdentity P frozen)

/-- A provider call of an attempt. -/
def isCall (attemptIndex : ℕ) (performed : Performed ContractEffect.Response) : Bool :=
  match performed.1 with
  | .run corrective => callIndex corrective = attemptIndex
  | _ => false

/-- The row of an attempt leaves `unknown_completion`. -/
def LeavesUnknown (frozen : FrozenProviderExecution) (rows rows' : List AttemptRow)
    (attemptIndex : ℕ) : Prop :=
  ∃ row row', attemptRow frozen rows attemptIndex = some row ∧
    attemptRow frozen rows' attemptIndex = some row' ∧
    row.observed.transportStatus = .unknownCompletion ∧
    row'.observed.transportStatus ≠ .unknownCompletion

/-- Each row stays, or was not completed and is completed now. -/
def RowsAdvance (frozen : FrozenProviderExecution) (rows rows' : List AttemptRow) : Prop :=
  ∀ i row, attemptRow frozen rows i = some row → attemptRow frozen rows' i = some row ∨
    row.completedAt = none ∧
      ∃ row', attemptRow frozen rows' i = some row' ∧ row'.completedAt ≠ none

/-- The calls of an attempt, made or still held, number at most one, and none without its row. -/
def CallsAccounted (frozen : FrozenProviderExecution) (rows : List AttemptRow)
    (held : Multiset Held) (performed : List (Performed ContractEffect.Response)) : Prop :=
  ∀ i, (held.map Held.reserved).sum.count i + performed.countP (isCall i) ≤
    if (attemptRow frozen rows i).isSome then 1 else 0

section

variable {P : Platform} {frozen : FrozenProviderExecution} {rows rows' : List AttemptRow}

lemma RowsAdvance.refl (rows : List AttemptRow) : RowsAdvance frozen rows rows :=
  fun _ _ h => .inl h

lemma RowsAdvance.trans {rows₁ rows₂ rows₃ : List AttemptRow} (h₁ : RowsAdvance frozen rows₁ rows₂)
    (h₂ : RowsAdvance frozen rows₂ rows₃) : RowsAdvance frozen rows₁ rows₃ := by
  intro i row hrow
  rcases h₁ i row hrow with hsame | ⟨hopen, row', hrow', hclosed⟩
  · exact h₂ i row hsame
  · rcases h₂ i row' hrow' with hsame | ⟨hopen', -⟩
    · exact .inr ⟨hopen, row', hsame, hclosed⟩
    · exact absurd hopen' hclosed

/-- Every effect lets the rows advance. -/
lemma attemptEffect_advance {e : ContractEffect} {answer : e.Response}
    (h : attemptEffect P frozen rows e answer rows') : RowsAdvance frozen rows rows' := by
  cases e with
  | insertAttempt attemptIndex kind =>
      obtain ⟨now, hinsert⟩ := h
      intro i row hrow
      have := attemptRow_insertAttempt P attemptIndex kind now hrow
      rw [hinsert] at this
      exact .inl this
  | finalizeAttempt attemptIndex observed =>
      obtain ⟨now, rfl⟩ := h
      intro i row hrow
      rw [attemptRow_finalizeAttempt, hrow, Option.map_some]
      split_ifs with hmatch
      · exact .inr ⟨hmatch.2.2, _, rfl, by simp⟩
      · exact .inl rfl
  | selectAttempt attemptIndex =>
      obtain ⟨-, rfl⟩ := h
      exact .refl _
  | countAttempts =>
      obtain ⟨-, rfl⟩ := h
      exact .refl _
  | revalidate => exact h ▸ .refl _
  | run corrective => exact h ▸ .refl _
  | deterministicOutput => exact h ▸ .refl _

lemma RowsAdvance.isSome (h : RowsAdvance frozen rows rows') {i : ℕ}
    (hrow : (attemptRow frozen rows i).isSome) : (attemptRow frozen rows' i).isSome := by
  obtain ⟨row, hrow⟩ := Option.isSome_iff_exists.mp hrow
  rcases h i row hrow with hsame | ⟨-, row', hrow', -⟩
  · rw [hsame]; rfl
  · rw [hrow']; rfl

lemma countP_isCall_append {i : ℕ} {performed : List (Performed ContractEffect.Response)}
    {x : Performed ContractEffect.Response} :
    (performed ++ [x]).countP (isCall i) =
      performed.countP (isCall i) + if isCall i x then 1 else 0 := by
  rw [List.countP_append, List.countP_singleton]

/-- An effect that neither reserves nor calls keeps the account. -/
lemma CallsAccounted.of_advance {g g' : Held} {held : Multiset Held}
    {performed : List (Performed ContractEffect.Response)} {x : Performed ContractEffect.Response}
    (h : CallsAccounted frozen rows (g ::ₘ held) performed) (hg : g'.reserved = g.reserved)
    (hx : ∀ i, isCall i x = false) (hrows : RowsAdvance frozen rows rows') :
    CallsAccounted frozen rows' (g' ::ₘ held) (performed ++ [x]) := by
  intro i
  have hi := h i
  rw [Multiset.map_cons, Multiset.sum_cons] at hi ⊢
  rw [hg, countP_isCall_append, hx i]
  refine le_trans (by simpa using hi) ?_
  split_ifs with hsome hsome'
  · exact le_rfl
  · exact absurd (hrows.isSome hsome) hsome'
  · exact Nat.zero_le _
  · exact le_rfl

/-- Every effect that an execution may perform keeps the account. -/
lemma CallsAccounted.step {g : Held} {held : Multiset Held}
    {performed : List (Performed ContractEffect.Response)} {e : ContractEffect} {answer : e.Response}
    (h : CallsAccounted frozen rows (g ::ₘ held) performed)
    (hallowed : attemptDiscipline.requires g e)
    (heffect : attemptEffect P frozen rows e answer rows') :
    CallsAccounted frozen rows' (attemptDiscipline.after g e answer ::ₘ held)
      (performed ++ [⟨e, answer⟩]) := by
  have hadvance := attemptEffect_advance heffect
  cases e with
  | insertAttempt attemptIndex kind =>
      cases answer with
      | inserted =>
          obtain ⟨now, hinsert⟩ := heffect
          have hinserted : (insertAttempt P frozen attemptIndex kind now rows).1 = .inserted := by
            rw [hinsert]
          obtain ⟨hnone, hsome⟩ := attemptRow_inserted hinserted
          rw [hinsert] at hsome
          intro i
          have hi := h i
          rw [Multiset.map_cons, Multiset.sum_cons] at hi ⊢
          rw [countP_isCall_append]
          simp only [attemptDiscipline, isCall, Multiset.cons_add, Bool.false_eq_true, if_false,
            add_zero]
          rw [Multiset.count_cons]
          by_cases hindex : i = attemptIndex
          · subst hindex
            rw [hnone, Option.isSome_none, if_neg Bool.false_ne_true, Multiset.count_add] at hi
            rw [hsome, Option.isSome_some, if_pos rfl, if_pos rfl, Multiset.count_add]
            omega
          · rw [if_neg hindex]
            refine le_trans (by simpa using hi) ?_
            split_ifs with h₁ h₂
            · exact le_rfl
            · exact absurd (hadvance.isSome h₁) h₂
            · exact Nat.zero_le _
            · exact le_rfl
      | conflict => exact h.of_advance rfl (fun _ => rfl) hadvance
      | violation => exact h.of_advance rfl (fun _ => rfl) hadvance
  | run corrective =>
      obtain ⟨hmem, -⟩ := hallowed
      obtain rfl := heffect
      intro i
      have hi := h i
      rw [Multiset.map_cons, Multiset.sum_cons] at hi ⊢
      rw [countP_isCall_append]
      refine le_trans ?_ hi
      simp only [attemptDiscipline, isCall, Multiset.count_add]
      by_cases hindex : callIndex corrective = i
      · subst hindex
        have := Multiset.count_pos.mpr hmem
        rw [Multiset.count_erase_self]
        simp
        omega
      · rw [Multiset.count_erase_of_ne (Ne.symm hindex)]
        simp [hindex]
  | revalidate =>
      cases answer with
      | error message => exact h.of_advance rfl (fun _ => rfl) hadvance
      | ok _ => exact h.of_advance rfl (fun _ => rfl) hadvance
  | deterministicOutput =>
      cases answer with
      | error message => exact h.of_advance rfl (fun _ => rfl) hadvance
      | ok output => exact h.of_advance rfl (fun _ => rfl) hadvance
  | selectAttempt attemptIndex => exact h.of_advance rfl (fun _ => rfl) hadvance
  | countAttempts => exact h.of_advance rfl (fun _ => rfl) hadvance
  | finalizeAttempt attemptIndex observed => exact h.of_advance rfl (fun _ => rfl) hadvance

/-- However executions that share an identity interleave and crash, each attempt calls the provider
at most once. -/
theorem calls_at_most_once {labels : List (Option (Performed ContractEffect.Response))}
    {pool : Pool (List AttemptRow) ContractEffect ContractEffect.Response
      (Except ExecutionFailure ContractExecutionOutcome)}
    (hruns : Runs (AttemptStep P frozen) ⟨rows, 0⟩ labels pool) (i : ℕ) :
    labels.reduceOption.countP (isCall i) ≤ 1 := by
  have hstarts : ∀ execution, SharesIdentity P frozen execution →
      Prog.Keeps attemptDiscipline (fun _ _ => True) {} execution := by
    rintro _ ⟨c, haudit, rfl⟩
    exact (keepsAttempts_runContractExecution (by rw [haudit]; rfl)).imp fun _ _ _ => trivial
  have hinit : CallsAccounted frozen rows 0 [] := fun i => by simp
  obtain ⟨held, -, haccount⟩ := PoolStep.invariant attemptDiscipline {} hstarts
    (I := CallsAccounted frozen) (fun h i => by simpa using h i)
    (fun h i => le_trans (by simp) (h i)) CallsAccounted.step hinit hruns
  refine le_trans (Nat.le_add_left _ _) ((haccount i).trans ?_)
  split_ifs <;> simp

/-- A row that leaves `unknown_completion` is completed by it. -/
lemma LeavesUnknown.completed {i : ℕ} (hleaves : LeavesUnknown frozen rows rows' i)
    (hadvance : RowsAdvance frozen rows rows') :
    ∃ row', attemptRow frozen rows' i = some row' ∧ row'.completedAt ≠ none ∧
      row'.observed.transportStatus ≠ .unknownCompletion := by
  obtain ⟨row, row', hrow, hrow', hunknown, hknown⟩ := hleaves
  rcases hadvance i row hrow with hsame | ⟨-, row'', hrow'', hclosed⟩
  · rw [hsame, Option.some_inj] at hrow'
    exact absurd (hrow' ▸ hunknown) hknown
  · rw [hrow'', Option.some_inj] at hrow'
    exact ⟨row'', hrow'', hclosed, hrow' ▸ hknown⟩

/-- A completed row rests while the rows advance. -/
lemma RowsAdvance.completed {i : ℕ} {row : AttemptRow} (h : RowsAdvance frozen rows rows')
    (hrow : attemptRow frozen rows i = some row) (hclosed : row.completedAt ≠ none) :
    attemptRow frozen rows' i = some row :=
  (h i row hrow).resolve_right fun hopen => hclosed hopen.1

end

/-! ### Refused executions -/

section

variable {P : Platform} {c : ContractExecution}

/-- What an execution holds after it has performed effects. -/
def heldAfter (performed : List (Performed ContractEffect.Response)) : Held :=
  performed.foldl (fun held x => attemptDiscipline.after held x.1 x.2) {}

lemma refused_after {held : Held} (h : held.refused = true) (x : Performed ContractEffect.Response) :
    (attemptDiscipline.after held x.1 x.2).refused = true := by
  obtain ⟨e, answer⟩ := x
  cases e with
  | insertAttempt attemptIndex kind => cases answer <;> first | exact h | rfl
  | revalidate => cases answer <;> exact h
  | deterministicOutput => cases answer <;> exact h
  | run corrective => exact h
  | selectAttempt attemptIndex => exact h
  | countAttempts => exact h
  | finalizeAttempt attemptIndex observed => exact h

lemma refused_foldl {held : Held} (h : held.refused = true)
    (performed : List (Performed ContractEffect.Response)) :
    (performed.foldl (fun held x => attemptDiscipline.after held x.1 x.2) held).refused = true := by
  induction performed generalizing held with
  | nil => exact h
  | cons x _ ih => exact ih (refused_after h x)

/-- A refusal is final. -/
lemma refused_heldAfter (es fs : List (Performed ContractEffect.Response)) (i : ℕ)
    (kind : AttemptKind) :
    (heldAfter (es ++ (⟨.insertAttempt i kind, .conflict⟩ :
      Performed ContractEffect.Response) :: fs)).refused = true := by
  rw [heldAfter, List.foldl_append, List.foldl_cons]
  exact refused_foldl rfl fs

/-- An execution whose reservation is refused calls the provider no more and settles. -/
theorem refused_settles (haudit : c.attemptAudit.isSome)
    {es fs : List (Performed ContractEffect.Response)} {i : ℕ} {kind : AttemptKind} {q : Execution}
    (ht : Prog.Trace (runContractExecution P c) (es ++ ⟨.insertAttempt i kind, .conflict⟩ :: fs) q) :
    (∀ x ∈ fs, ∀ j, isCall j x = false) ∧
      ∀ result, q = .done result →
        Settled c (heldAfter (es ++ ⟨.insertAttempt i kind, .conflict⟩ :: fs)) result := by
  have hkeeps := keepsAttempts_runContractExecution (P := P) haudit
  refine ⟨fun x hx j => ?_, ?_⟩
  · obtain ⟨before, after, rfl⟩ := List.append_of_mem hx
    rw [← List.cons_append, ← List.append_assoc] at ht
    have hallowed := hkeeps.requires ht
    obtain ⟨e, answer⟩ := x
    cases e with
    | run corrective =>
        have hrefused : (heldAfter _).refused = false := hallowed.2
        exact absurd ((refused_heldAfter es before i kind).symm.trans hrefused) (by simp)
    | _ => rfl
  · rintro result rfl
    exact hkeeps.trace ht (refused_heldAfter es fs i kind)

end

/-! ### The guarantee -/

section

variable {P : Platform} {frozen : FrozenProviderExecution} {rows : List AttemptRow}

/-- However executions that share an identity interleave and crash: each attempt calls the provider
at most once; a completed row rests; a row leaves `unknown_completion` at most once; and a refused
execution calls the provider no more and settles. -/
theorem attempts_at_most_once {labels : List (Option (Performed ContractEffect.Response))}
    {pool : Pool (List AttemptRow) ContractEffect ContractEffect.Response
      (Except ExecutionFailure ContractExecutionOutcome)}
    (hruns : Runs (AttemptStep P frozen) ⟨rows, 0⟩ labels pool) :
    (∀ i, labels.reduceOption.countP (isCall i) ≤ 1) ∧
      (∀ labels' pool', Runs (AttemptStep P frozen) pool labels' pool' → ∀ i row,
        attemptRow frozen pool.shared i = some row → row.completedAt ≠ none →
          attemptRow frozen pool'.shared i = some row) ∧
      (∀ label pool₁ labels' pool₂ label' pool₃, AttemptStep P frozen pool label pool₁ →
        Runs (AttemptStep P frozen) pool₁ labels' pool₂ → AttemptStep P frozen pool₂ label' pool₃ →
          ∀ i, LeavesUnknown frozen pool.shared pool₁.shared i →
            ¬ LeavesUnknown frozen pool₂.shared pool₃.shared i) ∧
      ∀ c : ContractExecution, c.attemptAudit = some frozen → ∀ es i kind fs q,
        Prog.Trace (runContractExecution P c) (es ++ ⟨.insertAttempt i kind, .conflict⟩ :: fs) q →
          (∀ x ∈ fs, ∀ j, isCall j x = false) ∧ ∀ result, q = .done result →
            Settled c (heldAfter (es ++ ⟨.insertAttempt i kind, .conflict⟩ :: fs)) result := by
  have hadvance : ∀ {a b : Pool (List AttemptRow) ContractEffect ContractEffect.Response
      (Except ExecutionFailure ContractExecutionOutcome)} {labels},
      Runs (AttemptStep P frozen) a labels b → RowsAdvance frozen a.shared b.shared :=
    fun h => PoolStep.shared_rel (r := RowsAdvance frozen) .refl .trans attemptEffect_advance h
  refine ⟨calls_at_most_once hruns, ?_, ?_, ?_⟩
  · intro labels' pool' hruns' i row hrow hclosed
    exact (hadvance hruns').completed hrow hclosed
  · intro label pool₁ labels' pool₂ label' pool₃ hstep hruns' _ i hleaves hleaves'
    obtain ⟨row, hrow, hclosed, hknown⟩ :=
      hleaves.completed (hadvance (Runs.refl.tail hstep))
    obtain ⟨row₂, _, hrow₂, -, hunknown, -⟩ := hleaves'
    rw [(hadvance hruns').completed hrow hclosed, Option.some_inj] at hrow₂
    exact hknown (hrow₂ ▸ hunknown)
  · intro c haudit es i kind fs q ht
    exact refused_settles (by rw [haudit]; rfl) ht

end

/-- The identity of a stage. -/
def sampleFrozen : FrozenProviderExecution := ⟨"stage", "identity"⟩

/-- An audited execution with a provider, a lease and a fallback, which accepts every output. -/
def sampleExecution : ContractExecution where
  provider := some "json"
  validate := fun _ => []
  revalidates := true
  allowFallback := true
  attemptAudit := some sampleFrozen

/-- An execution revalidates, reserves its first attempt, calls the provider and crashes. -/
theorem attempts_at_most_once_called : ∃ labels pool,
    Runs (AttemptStep latinPlatform sampleFrozen) ⟨[], 0⟩ labels pool ∧
      labels.reduceOption.countP (isCall 1) = 1 ∧
      ∀ i, labels.reduceOption.countP (isCall i) ≤ 1 := by
  have hreserved : Runs (AttemptStep latinPlatform sampleFrozen) ⟨[], 0⟩ _ _ :=
    ((Runs.refl.tail (PoolStep.start ⟨sampleExecution, rfl, rfl⟩)).tail
      (PoolStep.act (e := ContractEffect.revalidate) (r := (.ok () : Except String Unit)) rfl)).tail
      (PoolStep.act (e := ContractEffect.insertAttempt 1 .initial) (r := Inserted.inserted)
        ⟨"12:00", rfl⟩)
  have hcalled := (hreserved.tail (PoolStep.act (e := ContractEffect.run none)
    (r := ProviderAnswer.raised "connection reset") rfl)).tail PoolStep.stop
  exact ⟨_, _, hcalled, rfl, (attempts_at_most_once hcalled).1⟩

/-- A first execution crashes after its reservation; the next is refused and, though a fallback is
allowed and valid, raises because the lease is lost. -/
theorem refused_raises_with_fallback : ∃ labels rows q,
    Runs (AttemptStep latinPlatform sampleFrozen) ⟨[], 0⟩ labels ⟨rows, {q}⟩ ∧
      (⟨.insertAttempt 1 .initial, .conflict⟩ : Performed ContractEffect.Response) ∈
        labels.reduceOption ∧
      Prog.Trace (runContractExecution latinPlatform sampleExecution)
        [⟨.revalidate, .ok ()⟩, ⟨.insertAttempt 1 .initial, .conflict⟩, ⟨.selectAttempt 1, some none⟩,
          ⟨.revalidate, .error "memory processing lease is no longer owned"⟩] q ∧
      sampleExecution.allowFallback = true ∧ (∀ output, sampleExecution.validate output = []) ∧
      q = .done (.error (.raised "memory processing lease is no longer owned")) := by
  have hreserved : Runs (AttemptStep latinPlatform sampleFrozen) ⟨[], 0⟩ _ _ :=
    ((Runs.refl.tail (PoolStep.start ⟨sampleExecution, rfl, rfl⟩)).tail
      (PoolStep.act (e := ContractEffect.revalidate) (r := (.ok () : Except String Unit)) rfl)).tail
      (PoolStep.act (e := ContractEffect.insertAttempt 1 .initial) (r := Inserted.inserted)
        ⟨"12:00", rfl⟩)
  have hrefused := (((hreserved.tail PoolStep.stop).tail
    (PoolStep.start ⟨sampleExecution, rfl, rfl⟩)).tail
      (PoolStep.act (e := ContractEffect.revalidate) (r := (.ok () : Except String Unit)) rfl)).tail
      (PoolStep.act (e := ContractEffect.insertAttempt 1 .initial) (r := Inserted.conflict)
        ⟨"12:01", rfl⟩)
  have hraised := (hrefused.tail (PoolStep.act (e := ContractEffect.selectAttempt 1)
    (r := (some none : Option (Option String))) ⟨rfl, rfl⟩)).tail
      (PoolStep.act (e := ContractEffect.revalidate)
        (r := (.error "memory processing lease is no longer owned" : Except String Unit)) rfl)
  refine ⟨_, _, _, hraised, ?_, ?_, rfl, fun _ => rfl, rfl⟩
  · simp [List.reduceOption]
  · exact .call _ (.call _ (.call _ (.call _ (.refl _))))

end Memorist
