import Memorist.Governance.Privacy

/-!
Erasure and confirmation.

* `Confirms`: a confirmation with the token of the request and before its expiry, which succeeded;
* `Unconfirmed.step`: until then a request stays at its preview, unless it is retried;
* `erases_after_confirmation`: unless it is retried first, a request is confirmed before an adapter
  quarantines or erases;
* `retry_erases_unconfirmed`: a retry erases without a confirmation.
-/

namespace Memorist

variable {σ : Type} {adapterStep : σ → (call : AdapterCall) → call.Response → σ → Prop}
variable {others : σ → σ → Prop} {P : Platform} {requestUuid : String}

/-- Whether a call changes what is stored. -/
def AdapterCall.Changes : AdapterCall → Prop
  | quarantine _ _ | erase _ _ => True
  | verify _ _ => False

/-- An adapter quarantined or erased in the run. -/
def ActionRun.Erases (run : ActionRun) : Prop :=
  ∃ (call : AdapterCall) (r : call.Response),
    (⟨.adapter call, r⟩ : Performed PrivacyEffect.Response) ∈ run.performed ∧ call.Changes

/-- The run is a confirmation with the token of the request, before its expiry, that succeeded. -/
structure Confirms (P : Platform) (request : PrivacyRequestRow) (run : ActionRun) : Prop where
  token : ∃ confirmationToken, run.action = .confirm confirmationToken ∧
    request.confirmationTokenHash = hashToken P confirmationToken
  inTime : ∃ expiresAt, request.confirmationExpiresAt = some expiresAt ∧
    ∃ now : Timestamp, (⟨.now, now⟩ : Performed PrivacyEffect.Response) ∈ run.performed ∧
      now ≤ expiresAt
  succeeded : ∃ result, run.result = some (.ok result)

/-- Each retry comes after a confirmation. -/
def RetriesConfirmed (P : Platform) (request : PrivacyRequestRow) (runs : List ActionRun) : Prop :=
  ∀ before run after, runs = before ++ run :: after → run.action = .retry →
    ∃ earlier ∈ before, Confirms P request earlier

/-- Until it is confirmed the request stays at its preview. -/
def Unconfirmed (P : Platform) (request : PrivacyRequestRow) (runs : List ActionRun)
    (s : PrivacyState σ) : Prop :=
  (∃ run ∈ runs, Confirms P request run) ∨ s.request = some request

/-- Whether an effect leaves adapters and receipts alone. -/
def PrivacyEffect.isQuiet : PrivacyEffect → Bool
  | adapter _ | createReceipt _ _ => false
  | _ => true

/-- No adapter is called and no receipt written. -/
def Quiet (es : List (Performed PrivacyEffect.Response)) : Prop := ∀ x ∈ es, x.1.isQuiet = true

@[simp] lemma quiet_nil : Quiet [] := fun _ h => absurd h List.not_mem_nil

@[simp] lemma quiet_cons {x : Performed PrivacyEffect.Response}
    {es : List (Performed PrivacyEffect.Response)} :
    Quiet (x :: es) ↔ x.1.isQuiet = true ∧ Quiet es := List.forall_mem_cons

/-- A confirmation leaves the request as it was, or is in time and with its token. -/
lemma safe_confirmRequest {request : PrivacyRequestRow} {confirmationToken : String}
    {s : PrivacyState σ} (hs : s.request = some request) :
    Prog.Safe (privacyEffect adapterStep others) (fun es t => Quiet es ∧ t.request = some request)
      (fun es result t => Quiet es ∧ (t.request = some request ∨
        request.confirmationTokenHash = hashToken P confirmationToken ∧
        (∃ expiresAt, request.confirmationExpiresAt = some expiresAt ∧ ∃ now : Timestamp,
          (⟨.now, now⟩ : Performed PrivacyEffect.Response) ∈ es ∧ now ≤ expiresAt) ∧
        ∃ row, result = .ok row ∧ ∃ confirmedAt,
          t.request = some ((RequestUpdate.confirmed confirmedAt).apply request))) []
      s (confirmRequest P requestUuid confirmationToken) := by
  refine ⟨⟨quiet_nil, hs⟩, ?_⟩
  rintro _ t ⟨_, _, rfl, rfl⟩
  simp only [hs]
  split_ifs with hhash
  · exact ⟨by simp [PrivacyEffect.isQuiet], .inl rfl⟩
  split
  · exact ⟨by simp [PrivacyEffect.isQuiet], .inl rfl⟩
  rename_i expiresAt hexpires
  refine ⟨⟨by simp [PrivacyEffect.isQuiet], rfl⟩, ?_⟩
  rintro now t ⟨_, _, rfl⟩
  dsimp only
  split_ifs with hlate
  · exact ⟨by simp [PrivacyEffect.isQuiet], .inl rfl⟩
  refine ⟨⟨by simp [PrivacyEffect.isQuiet], rfl⟩, ?_⟩
  rintro confirmedAt t ⟨_, _, rfl⟩
  refine ⟨⟨by simp [PrivacyEffect.isQuiet], rfl⟩, ?_⟩
  rintro _ t ⟨_, _, rfl, rfl⟩
  refine ⟨by simp [PrivacyEffect.isQuiet], .inr ⟨not_not.mp hhash, ?_, _, rfl, _, rfl⟩⟩
  exact ⟨expiresAt, hexpires, now, by simp, not_lt.mp hlate⟩

/-- A request that is not to be executed is left alone, and no adapter is called. -/
lemma safe_executeRequest {request : PrivacyRequestRow} {s : PrivacyState σ}
    (hs : s.request = some request) (hstatus : request.status.executable = false) :
    Prog.Safe (privacyEffect adapterStep others) (fun es t => Quiet es ∧ t.request = some request)
      (fun es _ t => Quiet es ∧ t.request = some request) []
      s (executeRequest P requestUuid) := by
  refine ⟨⟨quiet_nil, hs⟩, ?_⟩
  rintro found t ⟨_, _, -, rfl⟩
  cases found with
  | some receipt => exact ⟨by simp [PrivacyEffect.isQuiet], hs⟩
  | none =>
      refine ⟨⟨by simp [PrivacyEffect.isQuiet], hs⟩, ?_⟩
      rintro _ t ⟨_, _, rfl, rfl⟩
      simp [hs, hstatus, PrivacyEffect.isQuiet]

/-- A request at its preview is not recovered. -/
lemma safe_recover {request : PrivacyRequestRow} {s : PrivacyState σ}
    (hpreview : request.status = .preview) (hs : s.request = some request) :
    Prog.Safe (privacyEffect adapterStep others) (fun es t => Quiet es ∧ t.request = some request)
      (fun es _ t => Quiet es ∧ t.request = some request) []
      s (PrivacyAction.recover.program P requestUuid) := by
  refine ⟨⟨quiet_nil, hs⟩, ?_⟩
  rintro _ t ⟨_, _, rfl⟩
  simp [hs, recoverPrivacyRequest, hpreview, PrivacyEffect.isQuiet]

/-- An unconfirmed request that is not retried stays at its preview or is confirmed by the run, and
no adapter is called. -/
lemma unconfirmed_step {request : PrivacyRequestRow} {s t : PrivacyState σ} {run : ActionRun}
    (hpreview : request.status = .preview) (hs : s.request = some request)
    (hretry : run.action ≠ .retry) (hstep : ActionStep (privacyEffect adapterStep others) P requestUuid s run t) :
    Quiet run.performed ∧ (t.request = some request ∨ Confirms P request run) := by
  obtain ⟨action, performed, result⟩ := run
  obtain ⟨q, hexec, hresult⟩ := hstep
  dsimp only at hexec hresult hretry ⊢
  cases action with
  | confirm confirmationToken =>
      rw [PrivacyAction.program] at hexec
      split_ifs at hexec
      · cases hexec
        exact ⟨quiet_nil, .inl hs⟩
      · rcases (safe_confirmRequest hs).outcome hexec with
          ⟨-, hquiet, hrequest⟩ | ⟨_, hq, hquiet, hrequest | ⟨htoken, hnow, row, rfl, -⟩⟩
        · exact ⟨hquiet, .inl hrequest⟩
        · exact ⟨hquiet, .inl hrequest⟩
        · exact ⟨hquiet, .inr ⟨⟨_, rfl, htoken⟩, hnow, row, hresult.trans hq⟩⟩
  | execute =>
      rcases (safe_executeRequest hs (by rw [hpreview]; rfl)).outcome hexec with
        ⟨-, hquiet, hrequest⟩ | ⟨_, -, hquiet, hrequest⟩
      · exact ⟨hquiet, .inl hrequest⟩
      · exact ⟨hquiet, .inl hrequest⟩
  | retry => exact absurd rfl hretry
  | recover =>
      rcases (safe_recover hpreview hs).outcome hexec with
        ⟨-, hquiet, hrequest⟩ | ⟨_, -, hquiet, hrequest⟩
      · exact ⟨hquiet, .inl hrequest⟩
      · exact ⟨hquiet, .inl hrequest⟩

lemma Quiet.not_erases {run : ActionRun} (h : Quiet run.performed) : ¬run.Erases :=
  fun ⟨_, _, hmem, _⟩ => absurd (h _ hmem) (by simp [PrivacyEffect.isQuiet])

/-- After a run in which each retry comes after a confirmation the request is confirmed or at its
preview. -/
lemma unconfirmed_of_runs {request : PrivacyRequestRow} {s₀ s : PrivacyState σ}
    {runs : List ActionRun} (hpreview : request.status = .preview)
    (hs₀ : s₀.request = some request)
    (hruns : Runs (ActionStep (privacyEffect adapterStep others) P requestUuid) s₀ runs s)
    (hretry : RetriesConfirmed P request runs) : Unconfirmed P request runs s := by
  induction hruns with
  | refl => exact .inr hs₀
  | @tail t u runs run hruns hstep ih =>
      have hearlier : RetriesConfirmed P request runs := fun before r after hsplit =>
        hretry before r (after ++ [run]) (by rw [hsplit]; simp)
      rcases ih hearlier with ⟨r, hr, hconfirms⟩ | hrequest
      · exact .inl ⟨r, List.mem_append_left _ hr, hconfirms⟩
      · by_cases haction : run.action = .retry
        · obtain ⟨r, hr, hconfirms⟩ := hretry runs run [] rfl haction
          exact .inl ⟨r, List.mem_append_left _ hr, hconfirms⟩
        · rcases (unconfirmed_step hpreview hrequest haction hstep).2 with hrequest | hconfirms
          · exact .inr hrequest
          · exact .inl ⟨run, by simp, hconfirms⟩

/-- **Erasure after confirmation**: in a run whose retries each come after a confirmation, no
adapter quarantines or erases before a confirmation with the token and before its expiry. -/
theorem erases_after_confirmation {request : PrivacyRequestRow} {s₀ s : PrivacyState σ}
    {runs : List ActionRun} (hpreview : request.status = .preview)
    (hs₀ : s₀.request = some request)
    (hruns : Runs (ActionStep (privacyEffect adapterStep others) P requestUuid) s₀ runs s)
    (hretry : RetriesConfirmed P request runs) :
    ∀ before run after, runs = before ++ run :: after → run.Erases →
      ∃ earlier ∈ before, Confirms P request earlier := by
  rintro before run after rfl herases
  rw [show before ++ run :: after = (before ++ [run]) ++ after by simp] at hruns
  obtain ⟨u, hruns, -⟩ := hruns.exists_mid
  obtain ⟨t, hbefore, hlast⟩ := hruns.exists_mid
  have hstep := hlast.of_singleton
  have hearlier : RetriesConfirmed P request before := fun first r rest hsplit =>
    hretry first r (rest ++ run :: after) (by rw [hsplit]; simp)
  rcases unconfirmed_of_runs hpreview hs₀ hbefore hearlier with hconfirmed | hrequest
  · exact hconfirmed
  · by_cases haction : run.action = .retry
    · exact hretry before run after rfl haction
    · obtain ⟨hquiet, -⟩ := unconfirmed_step hpreview hrequest haction hstep
      exact absurd herases hquiet.not_erases

/-! ### A request for a memory -/

/-- A request to forget a memory, at its preview. -/
def forgetRequest : PrivacyRequestRow where
  targetType := "memory"
  targetUuid := "m1"
  confirmationTokenHash := hashToken latinPlatform "confirm-r1"
  confirmationExpiresAt := some (3600 * second)

/-- The request with its item. -/
def forgetState : PrivacyState Unit where
  request := forgetRequest
  items := [⟨.sqlite, .memory, "m1", "quarantine_redact"⟩]
  receipts := []
  world := ()

/-- Adapters that do what they are asked. -/
def willing : Unit → (call : AdapterCall) → call.Response × Unit
  | _, .quarantine _ _ => (.ok (), ())
  | _, .erase _ _ => (.ok {}, ())
  | _, .verify _ _ => (.ok { passed := true }, ())

/-- An action on the request, with adapters that do what they are asked. -/
def runWilling (s : PrivacyState Unit) (action : PrivacyAction) : ActionRun × PrivacyState Unit :=
  runAction second willing latinPlatform "r1" s action

lemma runWilling_step (s : PrivacyState Unit) (action : PrivacyAction) :
    ActionStep (privacyEffect (fun _ _ _ _ => True) Eq) latinPlatform "r1" s (runWilling s action).1
      (runWilling s action).2 :=
  runAction_step (fun _ => rfl) (fun _ _ => trivial) s action

/-- The request is confirmed and executed: the confirmation comes first. -/
theorem erases_after_confirmation_forget :
    ∃ earlier ∈ [(runWilling forgetState (.confirm "confirm-r1")).1],
      Confirms latinPlatform forgetRequest earlier := by
  have hruns := (Runs.refl.tail (runWilling_step forgetState (.confirm "confirm-r1"))).tail
    (runWilling_step (runWilling forgetState (.confirm "confirm-r1")).2 .execute)
  refine erases_after_confirmation rfl rfl hruns ?_ _ _ [] rfl ?_
  · intro before run after hsplit haction
    have hmem : run ∈ before ++ run :: after := by simp
    rw [← hsplit] at hmem
    simp only [List.nil_append, List.cons_append, List.mem_cons, List.not_mem_nil, or_false] at hmem
    rcases hmem with rfl | rfl <;> cases haction
  · exact ⟨.quarantine .sqliteCanonical forgetState.items, .ok (),
      List.mem_of_getElem? (i := 4) rfl, trivial⟩

/-- A retry erases at once a request that no one has confirmed. -/
theorem retry_erases_unconfirmed : ¬∀ (request : PrivacyRequestRow) (s₀ s : PrivacyState Unit)
    (runs : List ActionRun), request.status = .preview → s₀.request = some request →
    Runs (ActionStep (privacyEffect (fun _ _ _ _ => True) Eq) latinPlatform "r1") s₀ runs s →
    ∀ before run after, runs = before ++ run :: after → run.Erases →
      ∃ earlier ∈ before, Confirms latinPlatform request earlier := by
  intro h
  have hruns := Runs.refl.tail (runWilling_step forgetState .retry)
  have herases : (runWilling forgetState .retry).1.Erases :=
    ⟨.erase .sqliteCanonical forgetState.items, .ok {}, List.mem_of_getElem? (i := 13) rfl, trivial⟩
  obtain ⟨earlier, hmem, -⟩ := h forgetRequest forgetState _ _ rfl rfl hruns [] _ [] rfl herases
  exact absurd hmem List.not_mem_nil

end Memorist
