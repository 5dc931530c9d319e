import Memorist.Governance.Confirmation

/-!
Erasure and retries.

* `AdapterCall.fails`: an adapter raises, reports an exception or does not verify;
* `safe_quarantineAll`, `safe_eraseAll`, `safe_executeRequest_ready`: what an execution does to the
  request and its receipts, by what the adapters answer;
* `Undisturbed`: no failure while erasing, and neither a retry nor a confirmation after the end;
* `erasure_converges`: runs of such actions end with everything erased, and stay there;
* `failed_erasure_is_final`: an execution in which an adapter fails cannot be retried.
-/

namespace Memorist

variable {σ : Type} {adapterStep : σ → (call : AdapterCall) → call.Response → σ → Prop}
variable {others : σ → σ → Prop} {P : Platform} {requestUuid : String}

/-! ### Failures -/

/-- Whether a call fails: the adapter raises, reports an exception or does not verify. -/
def AdapterCall.fails : (call : AdapterCall) → call.Response → Bool
  | quarantine _ _, .error _ => true
  | quarantine _ _, .ok _ => false
  | erase _ _, .error _ => true
  | erase _ _, .ok result => result.exceptions ≠ []
  | verify _ _, .error _ => true
  | verify _ _, .ok result => !result.passed

/-- Whether a call comes before anything is erased. -/
def AdapterCall.isQuarantine : AdapterCall → Bool
  | quarantine _ _ => true
  | _ => false

/-- No erasure or verification fails. -/
def ErasesCleanly (es : List (Performed PrivacyEffect.Response)) : Prop :=
  ∀ (call : AdapterCall) (r : call.Response),
    (⟨.adapter call, r⟩ : Performed PrivacyEffect.Response) ∈ es → call.isQuarantine = false →
      call.fails r = false

/-- No adapter fails. -/
def NoneFails (es : List (Performed PrivacyEffect.Response)) : Prop :=
  ∀ (call : AdapterCall) (r : call.Response),
    (⟨.adapter call, r⟩ : Performed PrivacyEffect.Response) ∈ es → call.fails r = false

lemma NoneFails.erasesCleanly {es : List (Performed PrivacyEffect.Response)} (h : NoneFails es) :
    ErasesCleanly es := fun call r hmem _ => h call r hmem

/-- An adapter erased its records without error, and verified them. -/
def ErasedBy (es : List (Performed PrivacyEffect.Response)) (records : List PrivacyRecord)
    (adapter : AdapterName) : Prop :=
  ∃ (result : ErasureResult) (verification : VerificationResult),
    (⟨.adapter (.erase adapter (adapterRecords adapter records)), .ok result⟩ :
      Performed PrivacyEffect.Response) ∈ es ∧ result.exceptions = [] ∧
    (⟨.adapter (.verify adapter (adapterRecords adapter records)), .ok verification⟩ :
      Performed PrivacyEffect.Response) ∈ es ∧ verification.passed = true

/-- A receipt says that every adapter erased and verified. -/
def Receipt.Clean (receipt : Receipt) : Prop :=
  receipt.outcome.exceptions = [] ∧ ∀ adapter ∈ adapters, ∃ verification,
    receipt.outcome.verification.get? adapter = some verification ∧ verification.passed = true

/-! ### An execution -/

/-- The request, its items and receipts. -/
def PrivacyState.rows (s : PrivacyState σ) :
    Option PrivacyRequestRow × List PrivacyRecord × List Receipt :=
  (s.request, s.items, s.receipts)

/-- An effect leaves the items, and the receipts if it is quiet. -/
lemma rows_of_effect {s t : PrivacyState σ} {e : PrivacyEffect} {r : e.Response}
    (he : privacyEffect adapterStep others s e r t) :
    t.items = s.items ∧ (e.isQuiet = true → t.receipts = s.receipts) := by
  obtain ⟨world, -, he⟩ := he
  cases e with
  | getReceipt | getRequest | update | listItems =>
      obtain ⟨-, rfl⟩ := he
      exact ⟨rfl, fun _ => rfl⟩
  | now | recover =>
      obtain rfl := he
      exact ⟨rfl, fun _ => rfl⟩
  | adapter call =>
      obtain ⟨_, -, rfl⟩ := he
      exact ⟨rfl, fun _ => rfl⟩
  | createReceipt fingerprint outcome =>
      obtain ⟨-, -, rfl⟩ := he
      exact ⟨rfl, fun h => absurd h (by simp [PrivacyEffect.isQuiet])⟩

/-- A run leaves the items, and the receipts if it is quiet. -/
lemma rows_of_exec {s t : PrivacyState σ} {p q : PrivacyProgram}
    {es : List (Performed PrivacyEffect.Response)}
    (hexec : Prog.Exec (privacyEffect adapterStep others) s p es q t) :
    t.items = s.items ∧ (Quiet es → t.receipts = s.receipts) := by
  induction hexec with
  | refl => exact ⟨rfl, fun _ => rfl⟩
  | call he _ ih =>
      obtain ⟨hitems, hreceipts⟩ := rows_of_effect he
      refine ⟨ih.1.trans hitems, fun hquiet => ?_⟩
      rw [quiet_cons] at hquiet
      exact (ih.2 hquiet.2).trans (hreceipts hquiet.1)

/-- Quarantine changes no row of the request, and ends with an error if an adapter fails. -/
lemma safe_quarantineAll {records : List PrivacyRecord} {names : List AdapterName}
    {es : List (Performed PrivacyEffect.Response)} {s : PrivacyState σ} :
    Prog.Safe (privacyEffect adapterStep others) (fun _ _ => True)
      (fun fs result t => t.rows = s.rows ∧ es ⊆ fs ∧ (NoneFails fs → result = .ok ()))
      es s (quarantineAll records names) := by
  induction names generalizing es s with
  | nil => exact ⟨rfl, List.Subset.refl _, fun _ => rfl⟩
  | cons adapter names ih =>
      refine ⟨trivial, ?_⟩
      rintro answer t ⟨_, _, _, -, rfl⟩
      cases answer with
      | error message =>
          refine ⟨rfl, by simp, fun h => ?_⟩
          exact absurd (h (.quarantine adapter (adapterRecords adapter records)) (.error message)
            (by simp)) (by simp [AdapterCall.fails])
      | ok u =>
          refine ih.imp ?_
          rintro fs result t ⟨hrows, hsub, hok⟩
          exact ⟨hrows, fun x hx => hsub (by simp [hx]), hok⟩

/-- What the erasures of some adapters come to, if none of them fails. -/
def ErasedAll (fs : List (Performed PrivacyEffect.Response)) (records : List PrivacyRecord)
    (names : List AdapterName) (before after : ErasureOutcome) : Prop :=
  after.exceptions = before.exceptions ∧
    (∀ adapter ∈ names, ErasedBy fs records adapter ∧ ∃ verification,
      after.verification.get? adapter = some verification ∧ verification.passed = true) ∧
    ∀ adapter ∉ names, after.verification.get? adapter = before.verification.get? adapter

/-- Erasure changes no row of the request, and erases everything if no adapter fails. -/
lemma safe_eraseAll {records : List PrivacyRecord} {names : List AdapterName}
    {outcome : ErasureOutcome} {es : List (Performed PrivacyEffect.Response)}
    {s : PrivacyState σ} :
    Prog.Safe (privacyEffect adapterStep others) (fun _ _ => True)
      (fun fs result t => t.rows = s.rows ∧ es ⊆ fs ∧
        (ErasesCleanly fs → ErasedAll fs records names outcome result))
      es s (eraseAll records names outcome) := by
  induction names generalizing outcome es s with
  | nil => exact ⟨rfl, List.Subset.refl _, fun _ => ⟨rfl, by simp, fun _ _ => rfl⟩⟩
  | cons adapter names ih =>
      refine ⟨trivial, ?_⟩
      rintro answer t ⟨_, _, _, -, rfl⟩
      cases answer with
      | error message =>
          refine ih.imp ?_
          rintro fs result t ⟨hrows, hsub, -⟩
          refine ⟨hrows, fun x hx => hsub (by simp [hx]), fun hclean => ?_⟩
          exact absurd (hclean (.erase adapter (adapterRecords adapter records)) (.error message)
            (hsub (by simp)) rfl) (by simp [AdapterCall.fails])
      | ok erased =>
          refine ⟨trivial, ?_⟩
          rintro answer t ⟨_, _, _, -, rfl⟩
          cases answer with
          | error message =>
              refine ih.imp ?_
              rintro fs result t ⟨hrows, hsub, -⟩
              refine ⟨hrows, fun x hx => hsub (by simp [hx]), fun hclean => ?_⟩
              exact absurd (hclean (.verify adapter (adapterRecords adapter records))
                (.error message) (hsub (by simp)) rfl) (by simp [AdapterCall.fails])
          | ok verification =>
              refine ih.imp ?_
              rintro fs result t ⟨hrows, hsub, hrest⟩
              refine ⟨hrows, fun x hx => hsub (by simp [hx]), fun hclean => ?_⟩
              obtain ⟨hexceptions, hnames, hkept⟩ := hrest hclean
              have herased := hclean (.erase adapter (adapterRecords adapter records)) (.ok erased)
                (hsub (by simp)) rfl
              have hpassed := hclean (.verify adapter (adapterRecords adapter records))
                (.ok verification) (hsub (by simp)) rfl
              simp only [AdapterCall.fails, ne_eq, decide_eq_false_iff_not, not_not,
                Bool.not_eq_false'] at herased hpassed
              refine ⟨?_, ?_, ?_⟩
              · rw [hexceptions]
                simp [ErasureOutcome.verified, ErasureOutcome.erased, herased]
              · rw [List.forall_mem_cons]
                refine ⟨⟨⟨erased, verification, hsub (by simp), herased, hsub (by simp), hpassed⟩, ?_⟩,
                  hnames⟩
                by_cases hmem : adapter ∈ names
                · exact (hnames adapter hmem).2
                · refine ⟨verification, ?_, hpassed⟩
                  rw [hkept adapter hmem]
                  simp [ErasureOutcome.verified, ErasureOutcome.erased]
              · intro other hother
                rw [List.mem_cons, not_or] at hother
                rw [hkept other hother.2]
                simp [ErasureOutcome.verified, ErasureOutcome.erased, Ne.symm hother.1]

lemma ErasesCleanly.mono {es fs : List (Performed PrivacyEffect.Response)}
    (h : ErasesCleanly fs) (hsub : es ⊆ fs) : ErasesCleanly es :=
  fun call r hmem => h call r (hsub hmem)

lemma ErasedAll.mono {es fs : List (Performed PrivacyEffect.Response)}
    {records : List PrivacyRecord} {names : List AdapterName} {before after : ErasureOutcome}
    (h : ErasedAll es records names before after) (hsub : es ⊆ fs) :
    ErasedAll fs records names before after := by
  refine ⟨h.1, fun adapter hadapter => ?_, h.2.2⟩
  obtain ⟨⟨result, verification, herase, hclean, hverify, hpassed⟩, hnoted⟩ := h.2.1 adapter hadapter
  exact ⟨⟨result, verification, hsub herase, hclean, hsub hverify, hpassed⟩, hnoted⟩

/-- The digest of a receipt is always found. -/
lemma exists_fingerprint (P : Platform) (requestUuid : String) (request : PrivacyRequestRow) :
    ∃ fingerprint, canonicalHashIjson P (fingerprintMaterial P requestUuid request) =
      .ok fingerprint := by
  refine ⟨_, canonicalHashIjson_eq_ok.mpr ⟨?_, rfl⟩⟩
  rw [fingerprintMaterial, validValue_fields ["privacy_request_uuid", "target_type",
    "target_uuid_hash"] (by decide +kernel) rfl]
  simp [field]

/-- How an execution may leave a request that has no receipt: an adapter failed in quarantine, and
there is none still, or a receipt is written and the request settled as it says. -/
def Executed (request : PrivacyRequestRow) (s : PrivacyState σ)
    (fs : List (Performed PrivacyEffect.Response)) (result : Except String PrivacyResult)
    (t : PrivacyState σ) : Prop :=
  ¬NoneFails fs ∧ t.request = some { request with status := .executing } ∧
      t.receipts = s.receipts ∨
    ∃ receipt, result = .ok (.receipt receipt) ∧ t.receipts = s.receipts ++ [receipt] ∧
      (ErasesCleanly fs → ErasedAll fs s.items adapters {} receipt.outcome) ∧
      ∃ row, t.request = some row ∧
        row.status = if receipt.outcome.exceptions = [] then .completed else .partialFailure

/-- An execution of a request that is to be executed and has no receipt. -/
lemma safe_executeRequest_ready (es : List (Performed PrivacyEffect.Response))
    {request : PrivacyRequestRow} {s : PrivacyState σ} (hs : s.request = some request) (hstatus : request.status.executable = true)
    (hreceipts : s.receipts = []) :
    Prog.Safe (privacyEffect adapterStep others) (fun _ _ => True)
      (fun fs result t => t.items = s.items ∧ Executed request s fs result t) es s
      (executeRequest P requestUuid) := by
  obtain ⟨_, items, receipts, world⟩ := s
  dsimp only at hs hreceipts
  subst hs hreceipts
  refine ⟨trivial, ?_⟩
  rintro _ t ⟨_, _, rfl, rfl⟩
  refine ⟨trivial, ?_⟩
  rintro _ t ⟨_, _, rfl, rfl⟩
  dsimp only
  rw [hstatus, if_neg (by simp)]
  refine ⟨trivial, ?_⟩
  rintro _ t ⟨_, _, rfl, rfl⟩
  refine ⟨trivial, ?_⟩
  rintro _ t ⟨_, _, rfl, rfl⟩
  refine Prog.Safe.bind (safe_quarantineAll.imp ?_)
  rintro fs result t ⟨hrows, -, hok⟩
  obtain ⟨_, _, _, _⟩ := t
  simp only [PrivacyState.rows, Option.map_some, Prod.mk.injEq] at hrows
  obtain ⟨rfl, rfl, rfl⟩ := hrows
  cases result with
  | error message => exact ⟨rfl, .inl ⟨fun h => absurd (hok h) (by simp), rfl, rfl⟩⟩
  | ok u =>
      refine Prog.Safe.bind (safe_eraseAll.imp ?_)
      rintro fs outcome t ⟨hrows, -, hclean⟩
      obtain ⟨_, _, _, _⟩ := t
      simp only [PrivacyState.rows, Prod.mk.injEq] at hrows
      obtain ⟨rfl, rfl, rfl⟩ := hrows
      obtain ⟨fingerprint, hfingerprint⟩ := exists_fingerprint P requestUuid request
      have hall := fun gs (hsub : fs ⊆ gs) (hgs : ErasesCleanly gs) =>
        (hclean (hgs.mono hsub)).mono hsub
      rw [settleRequest, hfingerprint]
      refine ⟨trivial, ?_⟩
      rintro receipt t ⟨_, _, -, houtcome, rfl⟩
      dsimp only
      rw [← houtcome] at hall ⊢
      split_ifs with hexceptions
      · refine ⟨trivial, ?_⟩
        rintro completedAt t ⟨_, _, rfl⟩
        refine ⟨trivial, ?_⟩
        rintro _ t ⟨_, _, rfl, rfl⟩
        refine ⟨rfl, .inr ⟨receipt, rfl, rfl, hall _ fun x hx => by simp [hx], _, rfl, ?_⟩⟩
        rw [if_pos hexceptions]
        rfl
      · refine ⟨trivial, ?_⟩
        rintro _ t ⟨_, _, rfl, rfl⟩
        refine ⟨rfl, .inr ⟨receipt, rfl, rfl, hall _ fun x hx => by simp [hx], _, rfl, ?_⟩⟩
        rw [if_neg hexceptions]
        rfl

/-- A retry of a request that has no receipt. -/
lemma safe_retryRequest {request : PrivacyRequestRow} {s : PrivacyState σ}
    (hs : s.request = some request) (hreceipts : s.receipts = []) :
    Prog.Safe (privacyEffect adapterStep others) (fun _ _ => True)
      (fun fs result t => t.items = s.items ∧
        Executed { request with status := .partialFailure } s fs result t) []
      s (retryRequest P requestUuid) := by
  refine ⟨trivial, ?_⟩
  rintro _ t ⟨_, _, rfl, rfl⟩
  dsimp only
  rw [hs]
  exact safe_executeRequest_ready _ rfl rfl hreceipts

/-! ### Runs without failures -/

/-- A confirmed request that has no receipt. -/
def Open (s : PrivacyState σ) : Prop :=
  ∃ row, s.request = some row ∧ row.status.executable = true ∧ s.receipts = []

/-- A completed request, with a receipt that says so. -/
def Closed (s : PrivacyState σ) : Prop :=
  s.status? = some .completed ∧ ∃ receipt, s.receipts = [receipt] ∧ receipt.Clean

/-- Each adapter erased in the run, without error, and verified. -/
def ActionRun.ErasedAll (run : ActionRun) (records : List PrivacyRecord) : Prop :=
  ∀ adapter ∈ adapters, ErasedBy run.performed records adapter

/-- The run ends, no adapter fails in it to erase or verify, and once the request is completed it is
neither a retry nor a confirmation. -/
structure Undisturbed (s : PrivacyState σ) (run : ActionRun) : Prop where
  finished : run.result.isSome = true
  clean : ErasesCleanly run.performed
  settled : s.status? = some .completed → run.action ≠ .retry ∧
    ∀ confirmationToken, run.action = .confirm confirmationToken → ∀ result,
      run.result ≠ some (.ok result)

/-- An undisturbed action. -/
def UndisturbedStep
    (effect : PrivacyState σ → (e : PrivacyEffect) → e.Response → PrivacyState σ → Prop)
    (P : Platform) (requestUuid : String) (s : PrivacyState σ) (run : ActionRun)
    (t : PrivacyState σ) : Prop :=
  ActionStep effect P requestUuid s run t ∧ Undisturbed s run

/-- An execution without a failed erasure leaves the request open, because a quarantine failed, or
closes it with everything erased. -/
lemma open_or_closed_of_executed {request : PrivacyRequestRow} {s t : PrivacyState σ}
    {fs : List (Performed PrivacyEffect.Response)} {result : Except String PrivacyResult}
    (hreceipts : s.receipts = []) (hclean : ErasesCleanly fs)
    (h : Executed request s fs result t) :
    ¬NoneFails fs ∧ Open t ∨ Closed t ∧ ∀ adapter ∈ adapters, ErasedBy fs s.items adapter := by
  rcases h with ⟨hfails, hrequest, hnone⟩ | ⟨receipt, -, hone, hall, row, hrow, hstatus⟩
  · exact .inl ⟨hfails, _, hrequest, rfl, hnone.trans hreceipts⟩
  · obtain ⟨hexceptions, herased, -⟩ := hall hclean
    rw [hreceipts, List.nil_append] at hone
    refine .inr ⟨⟨?_, receipt, hone, hexceptions, fun adapter hadapter => (herased _ hadapter).2⟩,
      fun adapter hadapter => (herased _ hadapter).1⟩
    rw [PrivacyState.status?, hrow, Option.map_some, hstatus, if_pos hexceptions]

/-- An execution or a retry of an open request. -/
lemma execute_open {s t : PrivacyState σ} {run : ActionRun} (hs : Open s)
    (haction : run.action = .execute ∨ run.action = .retry) (hrun : run.result.isSome = true)
    (hclean : ErasesCleanly run.performed)
    (hstep : ActionStep (privacyEffect adapterStep others) P requestUuid s run t) :
    ¬NoneFails run.performed ∧ Open t ∨ Closed t ∧ run.ErasedAll s.items := by
  obtain ⟨row, hrow, hstatus, hreceipts⟩ := hs
  obtain ⟨q, hexec, hresult⟩ := hstep
  rcases haction with haction | haction <;> rw [haction] at hexec
  · rcases (safe_executeRequest_ready [] hrow hstatus hreceipts).outcome hexec with
      ⟨hnone, -⟩ | ⟨result, -, -, hexecuted⟩
    · exact absurd hrun (by rw [hresult, hnone]; simp)
    · exact open_or_closed_of_executed hreceipts hclean hexecuted
  · rcases (safe_retryRequest hrow hreceipts).outcome hexec with
      ⟨hnone, -⟩ | ⟨result, -, -, hexecuted⟩
    · exact absurd hrun (by rw [hresult, hnone]; simp)
    · exact open_or_closed_of_executed hreceipts hclean hexecuted

/-- A confirmation of the request, as it leaves it and its receipts. -/
lemma confirm_rows {s t : PrivacyState σ} {run : ActionRun} {row : PrivacyRequestRow}
    {confirmationToken : String} (hs : s.request = some row)
    (haction : run.action = .confirm confirmationToken)
    (hstep : ActionStep (privacyEffect adapterStep others) P requestUuid s run t) :
    t.receipts = s.receipts ∧ (t.request = some row ∨ (∃ result, run.result = some (.ok result)) ∧
      ∃ confirmedAt, t.request = some ((RequestUpdate.confirmed confirmedAt).apply row)) := by
  obtain ⟨q, hexec, hresult⟩ := hstep
  rw [haction, PrivacyAction.program] at hexec
  split_ifs at hexec
  · generalize hperformed : run.performed = es at hexec
    cases hexec
    exact ⟨rfl, .inl hs⟩
  · have hreceipts := (rows_of_exec hexec).2
    rcases (safe_confirmRequest hs).outcome hexec with
      ⟨-, hquiet, hrequest⟩ | ⟨_, hq, hquiet, hrequest | ⟨-, -, result, rfl, hconfirmed⟩⟩
    · exact ⟨hreceipts hquiet, .inl hrequest⟩
    · exact ⟨hreceipts hquiet, .inl hrequest⟩
    · exact ⟨hreceipts hquiet, .inr ⟨⟨result, hresult.trans hq⟩, hconfirmed⟩⟩

/-- Recovery, as it leaves the request and its receipts. -/
lemma recover_rows {s t : PrivacyState σ} {run : ActionRun} {row : PrivacyRequestRow}
    (hs : s.request = some row) (haction : run.action = .recover)
    (hstep : ActionStep (privacyEffect adapterStep others) P requestUuid s run t) :
    t.receipts = s.receipts ∧ (t.request = some row ∨ t.request = some (recoverPrivacyRequest row)) := by
  obtain ⟨q, hexec, -⟩ := hstep
  rw [haction] at hexec
  have hsafe : Prog.Safe (privacyEffect adapterStep others)
      (fun _ t => t.receipts = s.receipts ∧ t.request = some row)
      (fun _ _ t => t.receipts = s.receipts ∧ t.request = some (recoverPrivacyRequest row)) []
      s (PrivacyAction.recover.program P requestUuid) := by
    refine ⟨⟨rfl, hs⟩, ?_⟩
    rintro _ t ⟨_, _, rfl⟩
    exact ⟨rfl, by simp [hs]⟩
  rcases hsafe.outcome hexec with ⟨-, hreceipts, hrequest⟩ | ⟨_, -, hreceipts, hrequest⟩
  · exact ⟨hreceipts, .inl hrequest⟩
  · exact ⟨hreceipts, .inr hrequest⟩

lemma executable_recover {row : PrivacyRequestRow} (h : row.status.executable = true) :
    (recoverPrivacyRequest row).status.executable = true := by
  rw [recoverPrivacyRequest]
  split_ifs
  · rfl
  · exact h

/-- An open request stays open or is closed by the run that erased everything. -/
lemma open_step {s t : PrivacyState σ} {run : ActionRun} (hs : Open s)
    (hstep : UndisturbedStep (privacyEffect adapterStep others) P requestUuid s run t) :
    Open t ∨ Closed t ∧ run.ErasedAll s.items := by
  obtain ⟨hstep, hfinished, hclean, -⟩ := hstep
  have hopen := hs
  obtain ⟨row, hrow, hstatus, hreceipts⟩ := hs
  rcases haction : run.action with confirmationToken | _ | _ | _
  · obtain ⟨hkept, hrequest | ⟨-, confirmedAt, hrequest⟩⟩ := confirm_rows hrow haction hstep
    · exact .inl ⟨row, hrequest, hstatus, hkept.trans hreceipts⟩
    · exact .inl ⟨_, hrequest, rfl, hkept.trans hreceipts⟩
  · rcases execute_open hopen (.inl haction) hfinished hclean hstep with ⟨-, h⟩ | h
    · exact .inl h
    · exact .inr h
  · rcases execute_open hopen (.inr haction) hfinished hclean hstep with ⟨-, h⟩ | h
    · exact .inl h
    · exact .inr h
  · obtain ⟨hkept, hrequest | hrequest⟩ := recover_rows hrow haction hstep
    · exact .inl ⟨row, hrequest, hstatus, hkept.trans hreceipts⟩
    · exact .inl ⟨_, hrequest, executable_recover hstatus, hkept.trans hreceipts⟩

/-- A closed request stays closed, with its receipt. -/
lemma closed_step {s t : PrivacyState σ} {run : ActionRun} (hs : Closed s)
    (hstep : UndisturbedStep (privacyEffect adapterStep others) P requestUuid s run t) :
    Closed t ∧ t.receipts = s.receipts := by
  obtain ⟨hstep, -, -, hsettled⟩ := hstep
  obtain ⟨hstatus, receipt, hreceipts, hclean⟩ := hs
  obtain ⟨hretry, hconfirm⟩ := hsettled hstatus
  obtain ⟨row, hrow, hcompleted⟩ := Option.map_eq_some_iff.mp hstatus
  have hclosed : ∀ {t : PrivacyState σ}, t.receipts = s.receipts → t.request = some row →
      Closed t ∧ t.receipts = s.receipts := fun hkept hrequest =>
    ⟨⟨by rw [PrivacyState.status?, hrequest, Option.map_some, hcompleted], receipt,
      hkept.trans hreceipts, hclean⟩, hkept⟩
  rcases haction : run.action with confirmationToken | _ | _ | _
  · obtain ⟨hkept, hrequest | ⟨⟨result, hresult⟩, -⟩⟩ := confirm_rows hrow haction hstep
    · exact hclosed hkept hrequest
    · exact absurd hresult (hconfirm _ haction result)
  · obtain ⟨q, hexec, -⟩ := hstep
    rw [haction] at hexec
    have hsafe : Prog.Safe (privacyEffect adapterStep others) (fun _ t => t.rows = s.rows)
        (fun _ _ t => t.rows = s.rows) [] s (executeRequest P requestUuid) := by
      refine ⟨rfl, ?_⟩
      rintro found t ⟨_, _, rfl, rfl⟩
      simp [hreceipts, PrivacyState.rows]
    have hrows : t.rows = s.rows := by
      rcases hsafe.outcome hexec with ⟨-, h⟩ | ⟨_, -, h⟩
      · exact h
      · exact h
    simp only [PrivacyState.rows, Prod.mk.injEq] at hrows
    exact hclosed hrows.2.2 (hrows.1.trans hrow)
  · exact absurd haction hretry
  · obtain ⟨hkept, hrequest | hrequest⟩ := recover_rows hrow haction hstep
    · exact hclosed hkept hrequest
    · refine hclosed hkept (hrequest.trans ?_)
      rw [recoverPrivacyRequest, hcompleted]
      simp

/-- What a request comes to under steps of some kind: a completed one was erased by every adapter,
one that is not completed is completed by a retry in which no adapter fails, and a completed one
stays so, with a receipt that says what was done. -/
structure Converges (step : PrivacyState σ → ActionRun → PrivacyState σ → Prop)
    (runs : List ActionRun) (s : PrivacyState σ) : Prop where
  erased : s.status? = some .completed →
    ∀ adapter ∈ adapters, ∃ run ∈ runs, ErasedBy run.performed s.items adapter
  retry : s.status? ≠ some .completed → ∀ run t, step s run t → run.action = .retry →
    NoneFails run.performed → t.status? = some .completed ∧ run.ErasedAll s.items
  stays : s.status? = some .completed → (∃ receipt, s.receipts = [receipt] ∧ receipt.Clean) ∧
    ∀ further t, Runs step s further t → t.status? = some .completed ∧ t.receipts = s.receipts

lemma Open.not_completed {s : PrivacyState σ} (h : Open s) : s.status? ≠ some .completed := by
  obtain ⟨row, hrow, hstatus, -⟩ := h
  rw [PrivacyState.status?, hrow, Option.map_some]
  rintro h
  rw [Option.some_inj.mp h] at hstatus
  exact absurd hstatus (by decide)

lemma items_of_step {s t : PrivacyState σ} {run : ActionRun}
    (h : ActionStep (privacyEffect adapterStep others) P requestUuid s run t) : t.items = s.items := by
  obtain ⟨q, hexec, -⟩ := h
  exact (rows_of_exec hexec).1

/-- After undisturbed actions a confirmed request is open, or closed with everything erased. -/
lemma open_or_closed_of_runs {s₀ s : PrivacyState σ} {runs : List ActionRun} (hs₀ : Open s₀)
    (hruns : Runs (UndisturbedStep (privacyEffect adapterStep others) P requestUuid) s₀ runs s) :
    Open s ∨ Closed s ∧ ∃ run ∈ runs, run.ErasedAll s.items := by
  induction hruns with
  | refl => exact .inl hs₀
  | @tail t u runs run _ hstep ih =>
      have hitems := items_of_step hstep.1
      rcases ih with hopen | ⟨hclosed, earlier, hmem, herased⟩
      · rcases open_step hopen hstep with hopen | ⟨hclosed, herased⟩
        · exact .inl hopen
        · exact .inr ⟨hclosed, run, by simp, hitems ▸ herased⟩
      · exact .inr ⟨(closed_step hclosed hstep).1, earlier, by simp [hmem], hitems ▸ herased⟩

/-- **Convergence**: undisturbed actions erase everything, a failed quarantine is retried, and what
is completed stays so. -/
theorem erasure_converges {request : PrivacyRequestRow} {s₀ s : PrivacyState σ}
    {runs : List ActionRun} (hrequest : s₀.request = some request)
    (hconfirmed : request.status = .confirmed) (hreceipts : s₀.receipts = [])
    (hruns : Runs (UndisturbedStep (privacyEffect adapterStep others) P requestUuid) s₀ runs s) :
    Converges (UndisturbedStep (privacyEffect adapterStep others) P requestUuid) runs s := by
  have hs₀ : Open s₀ := ⟨request, hrequest, by rw [hconfirmed]; rfl, hreceipts⟩
  rcases open_or_closed_of_runs hs₀ hruns with hopen | ⟨hclosed, run, hmem, herased⟩
  · refine ⟨fun h => absurd h hopen.not_completed, ?_, fun h => absurd h hopen.not_completed⟩
    intro _ run t ⟨hstep, hrun⟩ haction hnone
    rcases execute_open hopen (.inr haction) hrun.finished hrun.clean hstep with
      ⟨hfails, -⟩ | ⟨hclosed, herased⟩
    · exact absurd hnone hfails
    · exact ⟨hclosed.1, herased⟩
  · refine ⟨fun _ adapter hadapter => ⟨run, hmem, herased adapter hadapter⟩,
      fun h => absurd hclosed.1 h, fun _ => ⟨hclosed.2, fun further t hfurther => ?_⟩⟩
    have hkept := hfurther.invariant (I := fun t => Closed t ∧ t.receipts = s.receipts)
      (fun h hstep => ⟨(closed_step h.1 hstep).1, (closed_step h.1 hstep).2.trans h.2⟩)
      ⟨hclosed, rfl⟩
    exact ⟨hkept.1.1, hkept.2⟩

/-! ### Runs with failures -/

/-- A request with a receipt that is not completed. -/
def Stuck (s : PrivacyState σ) : Prop :=
  (∃ receipt, s.receipts.head? = some receipt) ∧ ∃ row, s.request = some row ∧
    row.status ≠ .completed

/-- With a receipt an execution only returns it. -/
lemma safe_executeRequest_stuck {s : PrivacyState σ} (hs : Stuck s)
    (es : List (Performed PrivacyEffect.Response)) :
    Prog.Safe (privacyEffect adapterStep others) (fun _ t => Stuck t) (fun _ _ t => Stuck t) es s
      (executeRequest P requestUuid) := by
  refine ⟨hs, ?_⟩
  rintro found t ⟨_, _, rfl, rfl⟩
  obtain ⟨receipt, hreceipt⟩ := hs.1
  dsimp only
  rw [hreceipt]
  exact hs

lemma stuck_step {s t : PrivacyState σ} {run : ActionRun} (hs : Stuck s)
    (hstep : ActionStep (privacyEffect adapterStep others) P requestUuid s run t) : Stuck t := by
  have hstuck := hs
  obtain ⟨⟨receipt, hreceipt⟩, row, hrow, hstatus⟩ := hs
  rcases haction : run.action with confirmationToken | _ | _ | _
  · obtain ⟨hkept, hrequest | ⟨-, confirmedAt, hrequest⟩⟩ := confirm_rows hrow haction hstep
    · exact ⟨⟨receipt, hkept ▸ hreceipt⟩, row, hrequest, hstatus⟩
    · exact ⟨⟨receipt, hkept ▸ hreceipt⟩, _, hrequest, by simp [RequestUpdate.apply]⟩
  · obtain ⟨q, hexec, -⟩ := hstep
    rw [haction] at hexec
    rcases (safe_executeRequest_stuck hstuck []).outcome hexec with ⟨-, h⟩ | ⟨_, -, h⟩
    · exact h
    · exact h
  · obtain ⟨q, hexec, -⟩ := hstep
    rw [haction] at hexec
    have hsafe : Prog.Safe (privacyEffect adapterStep others) (fun _ t => Stuck t)
        (fun _ _ t => Stuck t) [] s (retryRequest P requestUuid) := by
      refine ⟨hstuck, ?_⟩
      rintro _ t ⟨_, _, rfl, rfl⟩
      dsimp only
      rw [hrow]
      refine safe_executeRequest_stuck ?_ _
      exact ⟨⟨receipt, hreceipt⟩, RequestUpdate.partialFailure.apply row, rfl,
        by simp [RequestUpdate.apply]⟩
    rcases hsafe.outcome hexec with ⟨-, h⟩ | ⟨_, -, h⟩
    · exact h
    · exact h
  · obtain ⟨hkept, hrequest | hrequest⟩ := recover_rows hrow haction hstep
    · exact ⟨⟨receipt, hkept ▸ hreceipt⟩, row, hrequest, hstatus⟩
    · refine ⟨⟨receipt, hkept ▸ hreceipt⟩, _, hrequest, ?_⟩
      rw [recoverPrivacyRequest]
      split_ifs
      · simp
      · exact hstatus

/-- An execution in which an adapter fails to erase is final: its receipt keeps every later action
from erasing, and the request is never completed. -/
theorem failed_erasure_is_final {s t : PrivacyState σ} {runs : List ActionRun} (hs : Stuck s)
    (hruns : Runs (ActionStep (privacyEffect adapterStep others) P requestUuid) s runs t) :
    t.status? ≠ some .completed := by
  obtain ⟨-, row, hrow, hstatus⟩ := hruns.invariant (I := Stuck) stuck_step hs
  rw [PrivacyState.status?, hrow, Option.map_some]
  exact fun h => hstatus (Option.some_inj.mp h)

/-! ### A hot cache that cannot be written -/

/-- The request for a memory, confirmed. -/
def confirmedState : PrivacyState Unit :=
  { forgetState with
    request := some { forgetRequest with status := .confirmed, confirmedAt := some second } }

/-- Adapters of which the hot cache raises. -/
def hotCacheRaises : Unit → (call : AdapterCall) → call.Response × Unit
  | _, .erase .hotCache _ => (.error "OperationalError", ())
  | _, .quarantine _ _ => (.ok (), ())
  | _, .erase _ _ => (.ok {}, ())
  | _, .verify _ _ => (.ok { passed := true }, ())

/-- The execution in which the hot cache raises. -/
def failedExecution : ActionRun × PrivacyState Unit :=
  runAction second hotCacheRaises latinPlatform "r1" confirmedState .execute

lemma failedExecution_step : ActionStep (privacyEffect (fun _ _ _ _ => True) Eq) latinPlatform "r1" confirmedState
    failedExecution.1 failedExecution.2 :=
  runAction_step (fun _ => rfl) (fun _ _ => trivial) _ _

lemma noneFails_runWilling (s : PrivacyState Unit) (action : PrivacyAction) :
    NoneFails (runWilling s action).1.performed := by
  intro call r hmem
  obtain ⟨t, rfl⟩ := Prog.exists_of_mem_eval hmem
  cases call <;> rfl

/-- The confirmed request is executed: no adapter fails and it is completed. -/
theorem erasure_converges_forget :
    Converges (UndisturbedStep (privacyEffect (fun _ _ _ _ => True) Eq) latinPlatform "r1")
      [(runWilling confirmedState .execute).1] (runWilling confirmedState .execute).2 := by
  refine erasure_converges rfl rfl rfl (Runs.refl.tail ⟨runWilling_step _ _, rfl, ?_, ?_⟩)
  · exact (noneFails_runWilling _ _).erasesCleanly
  · exact fun h => absurd h (by decide)

/-- After an execution in which the hot cache raised, a retry does not complete the request. -/
theorem failed_erasure_is_final_retried :
    (runWilling failedExecution.2 .retry).2.status? ≠ some .completed :=
  failed_erasure_is_final ⟨⟨_, rfl⟩, _, rfl, by decide⟩
    (Runs.refl.tail (runWilling_step failedExecution.2 .retry))

/-- After an execution in which the hot cache raised, a retry in which no adapter fails returns the
old receipt and erases nothing. -/
theorem retry_does_not_converge : ¬∀ (request : PrivacyRequestRow) (s₀ s : PrivacyState Unit)
    (runs : List ActionRun), s₀.request = some request → request.status = .confirmed →
    s₀.receipts = [] →
    Runs (fun s run t => ActionStep (privacyEffect (fun _ _ _ _ => True) Eq) latinPlatform "r1" s run t ∧
      run.result.isSome = true) s₀ runs s →
    Converges (fun s run t => ActionStep (privacyEffect (fun _ _ _ _ => True) Eq) latinPlatform "r1" s run t ∧
      run.result.isSome = true) runs s := by
  intro h
  have hconverges := h _ confirmedState _ _ rfl rfl rfl
    (Runs.refl.tail ⟨failedExecution_step, rfl⟩)
  obtain ⟨hcompleted, -⟩ := hconverges.retry (by decide) _ _
    ⟨runWilling_step failedExecution.2 .retry, rfl⟩ rfl (noneFails_runWilling _ _)
  exact absurd hcompleted (by decide)

end Memorist
