import Memorist.Governance.Erased
import Memorist.Governance.Retry
import Memorist.Memory.VersionChain

/-!
What is left of its target when a privacy request becomes completed.

* `undisturbedEffect`: the other operations leave nothing unlisted before the erasure and nothing
  unredacted after it;
* `safe_eraseAll_redacted`, `safe_settleRequest_redacted`: what the steps of an execution keep;
* `completed_redacted`: **then the target is redacted when the request becomes completed**;
* `completed_with_content`: a correction between the preview and the execution leaves its version.
-/

namespace Memorist

section

variable {τ : Type} {others : ErasureWorld τ → ErasureWorld τ → Prop}
variable {P : Platform} {requestUuid : String} {target : ErasureTarget} {uuid : String}
variable {items : List PrivacyRecord}

/-- An effect, after other operations that do not disturb the erasure: when the canonical adapter
erases, the target's content is listed among the items, and while the request is executing a
redacted target stays redacted. -/
def undisturbedEffect (others : ErasureWorld τ → ErasureWorld τ → Prop) (P : Platform)
    (requestUuid : String) (target : ErasureTarget) (uuid : String) (items : List PrivacyRecord)
    (s : PrivacyState (ErasureWorld τ)) (e : PrivacyEffect) (r : e.Response)
    (t : PrivacyState (ErasureWorld τ)) : Prop :=
  ∃ world, others s.world world ∧
    (∀ records, e = .adapter (.erase .sqliteCanonical records) →
      world.store.Listed target uuid items) ∧
    (s.status? = some .executing → s.world.store.TargetRedacted target uuid →
      world.store.TargetRedacted target uuid) ∧
    privacyStatement (canonicalStep P.unicode requestUuid) { s with world := world } e r t

lemma undisturbedEffect.effect {s t : PrivacyState (ErasureWorld τ)} {e : PrivacyEffect}
    {r : e.Response} (h : undisturbedEffect others P requestUuid target uuid items s e r t) :
    privacyEffect (canonicalStep P.unicode requestUuid) others s e r t := by
  obtain ⟨world, hothers, -, -, he⟩ := h
  exact ⟨world, hothers, he⟩

/-- The request is being executed with the items. -/
def Executing (items : List PrivacyRecord) (s : PrivacyState (ErasureWorld τ)) : Prop :=
  s.status? = some .executing ∧ s.items = items

/-- The target is redacted, unless an adapter raised. -/
def RedactedOrRaised (target : ErasureTarget) (uuid : String) (outcome : ErasureOutcome)
    (s : PrivacyState (ErasureWorld τ)) : Prop :=
  outcome.exceptions = [] → s.world.store.TargetRedacted target uuid

/-- The request is not completed. -/
def NotCompleted (_ : List (Performed PrivacyEffect.Response))
    (s : PrivacyState (ErasureWorld τ)) : Prop := s.status? ≠ some .completed

lemma Executing.notCompleted {s : PrivacyState (ErasureWorld τ)} (h : Executing items s)
    (es : List (Performed PrivacyEffect.Response)) : NotCompleted es s := by
  rw [NotCompleted, h.1]
  simp

/-- What a call of another adapter keeps. -/
lemma executing_adapter {s t : PrivacyState (ErasureWorld τ)} {call : AdapterCall}
    {r : (PrivacyEffect.adapter call).Response} (hs : Executing items s)
    (he : undisturbedEffect others P requestUuid target uuid items s (.adapter call) r t)
    (hcall : ∀ world world' : ErasureWorld τ,
      canonicalStep P.unicode requestUuid world call r world' → world'.store = world.store) :
    Executing items t ∧
      (s.world.store.TargetRedacted target uuid → t.world.store.TargetRedacted target uuid) := by
  obtain ⟨world, -, -, hkept, world', hstep, rfl⟩ := he
  refine ⟨hs, fun hredacted => ?_⟩
  rw [hcall world world' hstep]
  exact hkept hs.1 hredacted

/-- Quarantine leaves the request executing. -/
lemma safe_quarantineAll_executing {records : List PrivacyRecord} {names : List AdapterName}
    {es : List (Performed PrivacyEffect.Response)} {s : PrivacyState (ErasureWorld τ)}
    (hs : Executing items s) :
    Prog.Safe (undisturbedEffect others P requestUuid target uuid items) NotCompleted
      (fun _ _ t => Executing items t) es s (quarantineAll records names) := by
  induction names generalizing es s with
  | nil => exact hs
  | cons adapter names ih =>
      refine ⟨hs.notCompleted es, ?_⟩
      rintro answer t ⟨_, -, -, -, _, -, rfl⟩
      cases answer with
      | error message => exact hs
      | ok u => exact ih hs

/-- Once the target is redacted or an adapter has raised, the other adapters keep it so. -/
lemma safe_eraseAll_others {records : List PrivacyRecord} {names : List AdapterName}
    (hnames : .sqliteCanonical ∉ names) {outcome : ErasureOutcome}
    {es : List (Performed PrivacyEffect.Response)} {s : PrivacyState (ErasureWorld τ)}
    (hs : Executing items s) (hredacted : RedactedOrRaised target uuid outcome s) :
    Prog.Safe (undisturbedEffect others P requestUuid target uuid items) NotCompleted
      (fun _ outcome t => Executing items t ∧ RedactedOrRaised target uuid outcome t) es s
      (eraseAll records names outcome) := by
  induction names generalizing outcome es s with
  | nil => exact ⟨hs, hredacted⟩
  | cons adapter names ih =>
      have hne : adapter ≠ .sqliteCanonical := fun h => hnames (by simp [h])
      have hrest : .sqliteCanonical ∉ names := fun h => hnames (by simp [h])
      refine ⟨hs.notCompleted es, fun answer t he => ?_⟩
      obtain ⟨ht, hkept⟩ := executing_adapter hs he fun world world' hstep => by
        cases adapter <;> first | exact absurd rfl hne | exact hstep
      cases answer with
      | error message =>
          refine ih hrest ht fun hnone => ?_
          exact absurd hnone (by simp [ErasureOutcome.raised])
      | ok result =>
          refine ⟨ht.notCompleted _, fun answer u he' => ?_⟩
          obtain ⟨hu, hkept'⟩ := executing_adapter ht he' fun world world' hstep => by
            cases adapter <;> first | exact absurd rfl hne | exact hstep
          cases answer with
          | error message =>
              refine ih hrest hu fun hnone => ?_
              exact absurd hnone (by simp [ErasureOutcome.raised])
          | ok verification =>
              refine ih hrest hu fun hnone => hkept' (hkept (hredacted ?_))
              simp only [ErasureOutcome.erased, ErasureOutcome.verified,
                List.append_eq_nil_iff] at hnone
              exact hnone.1

/-- After all adapters have had their turn the target is redacted or an adapter has raised. -/
lemma safe_eraseAll_redacted {es : List (Performed PrivacyEffect.Response)}
    {s : PrivacyState (ErasureWorld τ)} (hs : Executing items s) :
    Prog.Safe (undisturbedEffect others P requestUuid target uuid items) NotCompleted
      (fun _ outcome t => Executing items t ∧ RedactedOrRaised target uuid outcome t) es s
      (eraseAll items adapters {}) := by
  refine ⟨hs.notCompleted es, ?_⟩
  rintro answer t ⟨world, -, hlisted, -, world', hstep, rfl⟩
  have hothers : AdapterName.sqliteCanonical ∉ adapters.tail := by decide
  have ht : Executing items { s with world := world' } := hs
  rcases hstep with ⟨erased, retained, store, rfl, herase, rfl⟩ | ⟨⟨error, rfl⟩, -⟩
  · -- the canonical adapter comes first and redacts what is listed
    have hredacted := CanonicalStore.targetRedacted_of_listed (hlisted _ rfl) herase
    refine ⟨ht.notCompleted _, ?_⟩
    rintro answer u ⟨world, -, -, hkept, world', ⟨-, rfl⟩, rfl⟩
    have hu : Executing items { s with world := world' } := hs
    cases answer with
    | error message =>
        exact safe_eraseAll_others hothers hu fun hnone =>
          absurd hnone (by simp [ErasureOutcome.raised])
    | ok verification =>
        exact safe_eraseAll_others hothers hu fun _ => hkept hs.1 hredacted
  · exact safe_eraseAll_others hothers ht fun hnone =>
      absurd hnone (by simp [ErasureOutcome.raised])

/-- The request is settled as completed only if the target is redacted. -/
lemma safe_settleRequest_redacted {request : PrivacyRequestRow} {outcome : ErasureOutcome}
    {es : List (Performed PrivacyEffect.Response)} {s : PrivacyState (ErasureWorld τ)}
    (hs : Executing items s) (hredacted : RedactedOrRaised target uuid outcome s) :
    Prog.Safe (undisturbedEffect others P requestUuid target uuid items) NotCompleted
      (fun _ _ t => t.status? = some .completed → t.world.store.TargetRedacted target uuid) es s
      (settleRequest P requestUuid request outcome) := by
  unfold settleRequest
  split
  · exact fun hcompleted => absurd hcompleted (hs.notCompleted es)
  refine ⟨hs.notCompleted es, ?_⟩
  rintro (receipt : Receipt) t ⟨world, -, -, hkept, -, -, rfl⟩
  have ht : Executing items
      { s with world := world, receipts := s.receipts ++ [receipt] } := hs
  dsimp only
  split_ifs with hnone
  · refine ⟨ht.notCompleted es, ?_⟩
    rintro now u ⟨world', -, -, hkept', rfl⟩
    refine ⟨ht.notCompleted es, ?_⟩
    rintro found v ⟨world'', -, -, hkept'', -, rfl⟩
    have hdone := hkept'' hs.1 (hkept' hs.1 (hkept hs.1 (hredacted hnone)))
    cases found with
    | none => exact fun _ => hdone
    | some row => exact fun _ => hdone
  · refine ⟨ht.notCompleted es, ?_⟩
    rintro found u ⟨world', -, -, -, -, rfl⟩
    have hsettled : ∀ row : Option PrivacyRequestRow,
        (row.map ((RequestUpdate.settled .partialFailure none).apply ·)).map
          PrivacyRequestRow.status ≠ some .completed := by
      rintro (_ | row) <;> simp [RequestUpdate.apply]
    cases found with
    | none => exact fun h => absurd h (hsettled _)
    | some row => exact fun h => absurd h (hsettled _)

/-- An execution of a request that is not completed completes it only if the target is redacted. -/
lemma safe_executeRequest_redacted {es : List (Performed PrivacyEffect.Response)}
    {s : PrivacyState (ErasureWorld τ)} (hs : s.status? ≠ some .completed)
    (hitems : s.items = items) :
    Prog.Safe (undisturbedEffect others P requestUuid target uuid items) NotCompleted
      (fun _ _ t => t.status? = some .completed → t.world.store.TargetRedacted target uuid) es s
      (executeRequest P requestUuid) := by
  obtain ⟨request, items', receipts, world₀⟩ := s
  obtain rfl : items' = items := hitems
  refine ⟨hs, ?_⟩
  rintro found t ⟨_, -, -, -, -, rfl⟩
  cases found with
  | some receipt => exact fun hcompleted => absurd hcompleted hs
  | none =>
      refine ⟨hs, ?_⟩
      rintro (found : Option PrivacyRequestRow) t ⟨_, -, -, -, rfl, rfl⟩
      cases found with
      | none => exact fun hcompleted => absurd hcompleted hs
      | some row =>
          dsimp only
          split_ifs with hstatus
          · exact fun hcompleted => absurd hcompleted hs
          refine ⟨hs, ?_⟩
          rintro found t ⟨world, -, -, -, rfl, rfl⟩
          have hexecuting : ∀ world : ErasureWorld τ, Executing items'
              ⟨some (RequestUpdate.executing.apply row), items', receipts, world⟩ :=
            fun world => ⟨rfl, rfl⟩
          refine ⟨(hexecuting world).notCompleted es, ?_⟩
          rintro found t ⟨world', -, -, -, rfl, rfl⟩
          refine Prog.Safe.bind ?_
          refine (safe_quarantineAll_executing (hexecuting world')).imp fun es result t ht => ?_
          cases result with
          | error message => exact fun hcompleted => absurd hcompleted (ht.notCompleted es)
          | ok u =>
              refine Prog.Safe.bind ?_
              refine (safe_eraseAll_redacted ht).imp fun es outcome t ht => ?_
              exact safe_settleRequest_redacted ht.1 ht.2

/-- A confirmation completes nothing. -/
lemma safe_confirmRequest_redacted {confirmationToken : String}
    {es : List (Performed PrivacyEffect.Response)} {s : PrivacyState (ErasureWorld τ)}
    (hs : s.status? ≠ some .completed) :
    Prog.Safe (undisturbedEffect others P requestUuid target uuid items) NotCompleted
      (fun _ _ t => t.status? = some .completed → t.world.store.TargetRedacted target uuid) es s
      (confirmRequest P requestUuid confirmationToken) := by
  refine ⟨hs, ?_⟩
  rintro found t ⟨_, -, -, -, -, rfl⟩
  cases found with
  | none => exact fun hcompleted => absurd hcompleted hs
  | some row =>
      simp only
      split_ifs with hhash
      · exact fun hcompleted => absurd hcompleted hs
      split
      · exact fun hcompleted => absurd hcompleted hs
      refine ⟨hs, ?_⟩
      rintro now t ⟨_, -, -, -, rfl⟩
      dsimp only
      split_ifs with hlate
      · exact fun hcompleted => absurd hcompleted hs
      refine ⟨hs, ?_⟩
      rintro confirmedAt t ⟨_, -, -, -, rfl⟩
      refine ⟨hs, ?_⟩
      rintro found t ⟨_, -, -, -, -, rfl⟩
      have hconfirmed : ∀ row : Option PrivacyRequestRow,
          (row.map ((RequestUpdate.confirmed confirmedAt).apply ·)).map
            PrivacyRequestRow.status ≠ some .completed := by
        rintro (_ | row) <;> simp [RequestUpdate.apply]
      cases found with
      | none => exact fun h => absurd h (hconfirmed _)
      | some row => exact fun h => absurd h (hconfirmed _)

/-- An action that makes a request completed leaves its target redacted. -/
lemma redacted_of_step {s t : PrivacyState (ErasureWorld τ)} {run : ActionRun}
    (hs : s.status? ≠ some .completed) (hitems : s.items = items)
    (hstep : ActionStep (undisturbedEffect others P requestUuid target uuid items) P requestUuid
      s run t)
    (ht : t.status? = some .completed) : t.world.store.TargetRedacted target uuid := by
  obtain ⟨q, hexec, -⟩ := hstep
  have hsafe : Prog.Safe (undisturbedEffect others P requestUuid target uuid items) NotCompleted
      (fun _ _ t => t.status? = some .completed → t.world.store.TargetRedacted target uuid) [] s
      (run.action.program P requestUuid) := by
    rcases run with ⟨action, performed, result⟩
    cases action with
    | confirm confirmationToken =>
        dsimp only [PrivacyAction.program]
        split_ifs
        · exact fun hcompleted => absurd hcompleted hs
        · exact safe_confirmRequest_redacted hs
    | execute => exact safe_executeRequest_redacted hs hitems
    | retry =>
        refine ⟨hs, ?_⟩
        rintro found t ⟨_, -, -, -, -, rfl⟩
        have hsettled : ∀ row : Option PrivacyRequestRow,
            (row.map (RequestUpdate.partialFailure.apply ·)).map
              PrivacyRequestRow.status ≠ some .completed := by
          rintro (_ | row) <;> simp [RequestUpdate.apply]
        cases found with
        | none => exact fun h => absurd h (hsettled _)
        | some row => exact safe_executeRequest_redacted (hsettled _) hitems
    | recover =>
        refine ⟨hs, ?_⟩
        rintro found t ⟨_, -, -, -, rfl⟩ hcompleted
        refine absurd hcompleted ?_
        obtain ⟨_ | row, items', receipts, world⟩ := s
        · exact hs
        · simp only [PrivacyState.status?, Option.map_some] at hs ⊢
          unfold recoverPrivacyRequest
          split_ifs
          · simp
          · exact hs
  rcases hsafe.outcome hexec with ⟨-, hnot⟩ | ⟨_, -, hdone⟩
  · exact absurd ht hnot
  · exact hdone ht

/-- **Completed erasure leaves no content.** In every run of confirmations, executions, retries and
recoveries whose steps the other operations do not disturb, the target is redacted when the request
becomes completed. -/
theorem completed_redacted {s₀ s t : PrivacyState (ErasureWorld τ)} {runs : List ActionRun}
    {run : ActionRun}
    (hruns : Runs (ActionStep (undisturbedEffect others P requestUuid target uuid s₀.items) P
      requestUuid) s₀ runs s)
    (hstep : ActionStep (undisturbedEffect others P requestUuid target uuid s₀.items) P requestUuid
      s run t)
    (hbefore : s.status? ≠ some .completed) (hafter : t.status? = some .completed) :
    t.world.store.TargetRedacted target uuid := by
  refine redacted_of_step hbefore ?_ hstep hafter
  -- no action changes the items
  refine hruns.invariant (I := fun s => s.items = s₀.items) ?_ rfl
  rintro a run b ha ⟨q, hexec, -⟩
  exact (rows_of_exec (hexec.mono undisturbedEffect.effect)).1.trans ha

end

/-! ### The store alone -/

/-- The adapters when none of them fails and the others find nothing to erase. -/
def answerCanonical (U : UnicodeData) (requestUuid : String) (world : ErasureWorld Unit) :
    (call : AdapterCall) → call.Response × ErasureWorld Unit
  | .quarantine .sqliteCanonical records =>
      (.ok (), { world with store := world.store.quarantine records })
  | .erase .sqliteCanonical records => match world.store.erase U requestUuid records with
      | .ok store => (.ok {}, { world with store := store })
      | .error error => (.error error, world)
  | .verify .sqliteCanonical records => (.ok (world.store.verify records), world)
  | .quarantine _ _ => (.ok (), world)
  | .erase _ _ => (.ok {}, world)
  | .verify _ _ => (.ok ⟨true, []⟩, world)

lemma answerCanonical_step {U : UnicodeData} {requestUuid : String} (world : ErasureWorld Unit)
    (call : AdapterCall) :
    canonicalStep U requestUuid world call (answerCanonical U requestUuid world call).1
      (answerCanonical U requestUuid world call).2 := by
  cases call with
  | quarantine adapter records => cases adapter <;> first | exact .inl ⟨rfl, rfl⟩ | rfl
  | erase adapter records =>
      cases adapter
      case sqliteCanonical =>
        dsimp only [answerCanonical]
        split
        case h_1 store herase => exact .inl ⟨[], [], store, rfl, herase, rfl⟩
        case h_2 error herase => exact .inr ⟨⟨error, rfl⟩, rfl⟩
      all_goals rfl
  | verify adapter records =>
      cases adapter
      case sqliteCanonical => exact ⟨.inl rfl, rfl⟩
      all_goals rfl

/-- What is listed stays listed. -/
lemma listed_answerCanonical {U : UnicodeData} {requestUuid : String} {target : ErasureTarget}
    {uuid : String} {items : List PrivacyRecord} {world : ErasureWorld Unit}
    (h : world.store.Listed target uuid items) (call : AdapterCall) :
    (answerCanonical U requestUuid world call).2.store.Listed target uuid items := by
  cases call with
  | quarantine adapter records => cases adapter <;> first | exact h.quarantine | exact h
  | erase adapter records =>
      cases adapter
      case sqliteCanonical =>
        dsimp only [answerCanonical]
        split
        case h_1 store herase => exact h.erase herase
        case h_2 => exact h
      all_goals exact h
  | verify adapter records => cases adapter <;> exact h

/-- What happens to a request when no other operation comes between. -/
def runAlone (P : Platform) (requestUuid : String) (s : PrivacyState (ErasureWorld Unit))
    (action : PrivacyAction) : ActionRun × PrivacyState (ErasureWorld Unit) :=
  runAction 1 (answerCanonical P.unicode requestUuid) P requestUuid s action

/-- With no other operation between, a request whose target is listed is not disturbed. -/
lemma runAlone_step {P : Platform} {requestUuid : String} {target : ErasureTarget} {uuid : String}
    {items : List PrivacyRecord} {s : PrivacyState (ErasureWorld Unit)}
    (hs : s.world.store.Listed target uuid items) (action : PrivacyAction) :
    ActionStep (undisturbedEffect Eq P requestUuid target uuid items) P requestUuid s
        (runAlone P requestUuid s action).1 (runAlone P requestUuid s action).2 ∧
      (runAlone P requestUuid s action).2.world.store.Listed target uuid items := by
  have hkeep : ∀ (s : PrivacyState (ErasureWorld Unit)) (e : PrivacyEffect),
      s.world.store.Listed target uuid items →
      undisturbedEffect Eq P requestUuid target uuid items s e
          (s.respond 1 (answerCanonical P.unicode requestUuid) e).1
          (s.respond 1 (answerCanonical P.unicode requestUuid) e).2 ∧
        (s.respond 1 (answerCanonical P.unicode requestUuid) e).2.world.store.Listed target uuid
          items := by
    intro s e hlisted
    have hbefore : ∀ records : List PrivacyRecord,
        e = .adapter (.erase .sqliteCanonical records) → s.world.store.Listed target uuid items :=
      fun _ _ => hlisted
    cases e with
    | adapter call =>
        exact ⟨⟨s.world, rfl, hbefore, fun _ h => h, _, answerCanonical_step _ call, rfl⟩,
          listed_answerCanonical hlisted call⟩
    | createReceipt fingerprint outcome =>
        exact ⟨⟨s.world, rfl, hbefore, fun _ h => h, rfl, rfl, rfl⟩, hlisted⟩
    | now => exact ⟨⟨s.world, rfl, hbefore, fun _ h => h, rfl⟩, hlisted⟩
    | recover => exact ⟨⟨s.world, rfl, hbefore, fun _ h => h, rfl⟩, hlisted⟩
    | _ => exact ⟨⟨s.world, rfl, hbefore, fun _ h => h, rfl, rfl⟩, hlisted⟩
  obtain ⟨hexec, hend⟩ := Prog.exec_eval_of_invariant hkeep hs (action.program P requestUuid)
  exact ⟨⟨_, hexec, rfl⟩, hend⟩

/-! ### A memory of a drink -/

/-- A store that remembers what the user drinks. -/
def teaWorld : ErasureWorld Unit where
  store :=
    { conversations := ⟨.empty, .empty, .empty, .empty, .empty⟩
      memories := MemoryStore.run basicLatin (MemoryStore.drinkCommands.take 1)
      evidence := .empty
      evidenceLinks := [] }
  rest := ()

/-- The preview of a request to forget it. -/
def forgetTea : PrivacyState (ErasureWorld Unit) :=
  previewRequest latinPlatform "r1" "memory" (some "m1") 0 [] teaWorld

lemma listed_forgetTea : teaWorld.store.Listed .memory "m1" forgetTea.items := by
  refine CanonicalStore.Listed.preview (CanonicalStore.listed_discover rfl rfl (by decide) ?_)
  intro row hrow
  cases row with
  | memoryVersion row =>
      have hnames : ∀ row ∈ teaWorld.store.memories.versions.rows, row.memoryVersionUuid ≠ "" := by
        decide
      exact hnames row hrow.1
  | message row => exact hrow.elim
  | messageVersion row => exact hrow.elim
  | textUnit row => exact hrow.elim

/-- The request after its confirmation. -/
def confirmedTea : ActionRun × PrivacyState (ErasureWorld Unit) :=
  runAlone latinPlatform "r1" forgetTea (.confirm (confirmationToken "r1"))

/-- Confirmed and executed at once, the request leaves no content of the memory. -/
theorem completed_redacted_tea :
    (runAlone latinPlatform "r1" confirmedTea.2 .execute).2.world.store.TargetRedacted .memory
      "m1" := by
  obtain ⟨hconfirm, hlisted⟩ := runAlone_step (P := latinPlatform) (s := forgetTea)
    listed_forgetTea (.confirm (confirmationToken "r1"))
  exact completed_redacted (Runs.refl.tail hconfirm) (runAlone_step hlisted .execute).1
    (by decide) (by decide)

/-- Other operations on the memories: any number of consolidations, corrections and undos. -/
def Corrections : ErasureWorld Unit → ErasureWorld Unit → Prop :=
  Relation.ReflTransGen fun world world' => ∃ command, world' =
    { world with
      store := { world.store with memories := world.store.memories.after basicLatin command } }

/-- The store after the user has confirmed the drink. -/
def correctedWorld : ErasureWorld Unit :=
  { teaWorld with
    store :=
      { teaWorld.store with
        memories := teaWorld.store.memories.after basicLatin MemoryStore.confirmDrink } }

/-- The confirmation of the request, after the correction of the memory. -/
def lateConfirmation : ActionRun × PrivacyState (ErasureWorld Unit) :=
  runAlone latinPlatform "r1" { forgetTea with world := correctedWorld }
    (.confirm (confirmationToken "r1"))

/-- The execution after it. -/
def lateExecution : ActionRun × PrivacyState (ErasureWorld Unit) :=
  runAlone latinPlatform "r1" lateConfirmation.2 .execute

/-- Other operations before the first effect of an action belong to it. -/
lemma actionStep_after {τ : Type} {others : ErasureWorld τ → ErasureWorld τ → Prop}
    (htrans : ∀ {a b c}, others a b → others b c → others a c) {P : Platform} {requestUuid : String}
    {s t : PrivacyState (ErasureWorld τ)} {run : ActionRun} {world : ErasureWorld τ}
    (hothers : others s.world world) (hperformed : run.performed ≠ [])
    (h : ActionStep (privacyEffect (canonicalStep P.unicode requestUuid) others) P requestUuid
      { s with world := world } run t) :
    ActionStep (privacyEffect (canonicalStep P.unicode requestUuid) others) P requestUuid s run
      t := by
  obtain ⟨q, hexec, hresult⟩ := h
  refine ⟨q, ?_, hresult⟩
  generalize run.action.program P requestUuid = p at hexec
  generalize run.performed = es at hexec hperformed
  cases hexec with
  | refl => exact absurd rfl hperformed
  | call he hrest =>
      obtain ⟨world', hothers', he⟩ := he
      exact .call ⟨world', htrans hothers hothers', he⟩ hrest

/-- An action with corrections before it. -/
lemma runAlone_corrections (s : PrivacyState (ErasureWorld Unit)) (action : PrivacyAction) :
    ActionStep (privacyEffect (canonicalStep basicLatin "r1") Corrections) latinPlatform "r1" s
      (runAlone latinPlatform "r1" s action).1 (runAlone latinPlatform "r1" s action).2 :=
  runAction_step (fun _ => Relation.ReflTransGen.refl) answerCanonical_step s action

lemma corrections_correctedWorld : Corrections forgetTea.world correctedWorld := by
  have hworld : forgetTea.world = teaWorld := rfl
  rw [hworld]
  exact Relation.ReflTransGen.single ⟨MemoryStore.confirmDrink, rfl⟩

lemma lateConfirmation_performed : lateConfirmation.1.performed.length ≠ 0 := by decide

lemma lateConfirmation_step :
    ActionStep (privacyEffect (canonicalStep basicLatin "r1") Corrections) latinPlatform "r1"
      forgetTea lateConfirmation.1 lateConfirmation.2 := by
  have hperformed : lateConfirmation.1.performed ≠ [] := fun h =>
    lateConfirmation_performed (List.length_eq_zero_iff.mpr h)
  have hstep : ActionStep (privacyEffect (canonicalStep basicLatin "r1") Corrections)
      latinPlatform "r1" { forgetTea with world := correctedWorld } lateConfirmation.1
      lateConfirmation.2 := by
    rw [lateConfirmation]
    exact runAlone_corrections _ _
  refine actionStep_after (P := latinPlatform) (s := forgetTea) ?_ corrections_correctedWorld
    hperformed hstep
  exact Relation.ReflTransGen.trans

/-- The version of the correction is not among the records that are erased. -/
lemma lateExecution_keeps : ∃ version ∈ lateExecution.2.world.store.memories.versions.rows,
    version.memoryUuid = "m1" ∧ version.normalizedText = "tea".toList := by
  decide

/-- A version that a correction writes between the preview and the execution keeps its content when
the request is completed. -/
theorem completed_with_content : ¬∀ (s t : PrivacyState (ErasureWorld Unit))
    (runs : List ActionRun) (run : ActionRun),
    Runs (ActionStep (privacyEffect (canonicalStep basicLatin "r1") Corrections) latinPlatform "r1")
      forgetTea runs s →
    ActionStep (privacyEffect (canonicalStep basicLatin "r1") Corrections) latinPlatform "r1"
      s run t →
    s.status? ≠ some .completed → t.status? = some .completed →
    t.world.store.TargetRedacted .memory "m1" := by
  intro h
  have hbefore : lateConfirmation.2.status? ≠ some .completed := by decide
  have hafter : lateExecution.2.status? = some .completed := by decide
  have hredacted := h _ _ _ _ (Runs.refl.tail lateConfirmation_step)
    (runAlone_corrections lateConfirmation.2 .execute) hbefore hafter
  obtain ⟨version, hversion, howner, htext⟩ := lateExecution_keeps
  have herased : version.normalizedText = erasedText :=
    (hredacted (.memoryVersion version) ⟨hversion, howner⟩).1
  rw [htext] at herased
  exact absurd herased (by decide)

end Memorist
