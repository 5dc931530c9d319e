import Memorist.Library.Runs
import Memorist.ModelControl.FailOpen
import Memorist.Text.ReprText

/-!
Calls of a stage beside one another.

* `reprItems_inj`: stages of one identity replay the same rows;
* `Phase`, `StageRun`, `Step`: calls that look up a row, ask the provider, look again under a lock and
  store their result, each after any other;
* `invokeStructured_eq`: a call is these four steps;
* `Accounts`, `StageRun.Invariant`: the steps that record the tokens that the provider spent;
* `oneResult_of_runs`: calls return one result, and the tokens are accounted for.
-/

namespace Memorist.StageInvocation

variable {F : Type} {P : Platform} {N : Floats F} {B : Backend N}

/-! ### Identities -/

lemma reprOptional_append_inj {v w : Option String} {x y : Text}
    (h : reprOptional P v ++ x = reprOptional P w ++ y) : v = w ∧ x = y := by
  have hnone : ∀ (text : String) (x y : Text), reprText P.unicode text.toList ++ x ≠ "None".toList ++ y :=
    fun text x y => reprText_ne_cons (by decide) _ _ _
  cases v with
  | none =>
      cases w with
      | none => exact ⟨rfl, List.append_cancel_left h⟩
      | some text => exact absurd h.symm (hnone text y x)
  | some text =>
      cases w with
      | none => exact absurd h (hnone text x y)
      | some other =>
          obtain ⟨htext, hxy⟩ := reprText_append_inj h
          exact ⟨congrArg some (String.toList_inj.mp htext), hxy⟩

lemma reprItem_append_inj {a b : String × Option String} {x y : Text}
    (h : reprItem P a ++ x = reprItem P b ++ y) : a = b ∧ x = y := by
  obtain ⟨key, v⟩ := a
  obtain ⟨key', w⟩ := b
  rw [reprItem, reprItem, List.cons_append, List.cons_append, List.cons.injEq] at h
  simp only [List.append_assoc] at h
  obtain ⟨hkey, hvalue⟩ := reprText_append_inj h.2
  obtain ⟨rfl, hend⟩ := reprOptional_append_inj (List.append_cancel_left hvalue)
  obtain rfl := String.toList_inj.mp hkey
  exact ⟨rfl, List.append_cancel_left hend⟩

/-- Two lists of items of one length have different texts. -/
lemma reprItems_inj {items others : List (String × Option String)}
    (hlength : items.length = others.length) (h : reprItems P items = reprItems P others) :
    items = others := by
  rw [reprItems, reprItems, List.cons.injEq] at h
  replace h := h.2
  induction items generalizing others with
  | nil => exact (List.length_eq_zero_iff.mp hlength.symm).symm
  | cons a items ih =>
      cases others with
      | nil => cases hlength
      | cons b others =>
          have htail : items.length = others.length := Nat.succ.inj hlength
          cases items with
          | nil =>
              obtain rfl := List.length_eq_zero_iff.mp htail.symm
              rw [List.map_singleton, List.map_singleton, List.intercalate_singleton,
                List.intercalate_singleton] at h
              rw [(reprItem_append_inj h).1]
          | cons a' items =>
              cases others with
              | nil => cases htail
              | cons b' others =>
                  rw [List.map_cons, List.map_cons, List.map_cons, List.map_cons,
                    List.intercalate_cons_cons, List.intercalate_cons_cons, List.append_assoc,
                    List.append_assoc, List.append_assoc, List.append_assoc] at h
                  obtain ⟨rfl, hrest⟩ := reprItem_append_inj h
                  rw [ih htail (List.append_cancel_left hrest)]

variable (P N) in
/-- Stages with the same of what an identity is made of. -/
structure SameStage (stage other : Stage F) : Prop where
  fields : ∀ hash, identityFields stage hash = identityFields other hash
  input : hashIjson P N (.obj stage.request.inputPayload) =
    hashIjson P N (.obj other.request.inputPayload)

/-- The identity of a request is its own key. -/
def Keyed (stage : Stage F) : Prop := ∃ key, stage.request.idempotencyKey = some key ∧ key ≠ ""

lemma identityOf_of_not_keyed {stage : Stage F} (h : ¬Keyed stage) :
    identityOf P N stage = stageIdentity P N stage := by
  rw [identityOf]
  cases hkey : stage.request.idempotencyKey with
  | none => rfl
  | some key =>
      dsimp only
      rw [if_pos]
      by_contra hempty
      exact h ⟨key, hkey, hempty⟩

/-- Computed identities tell stages apart. -/
lemma sameStage_of_identity (hP : Function.Injective P.sha256) {stage other : Stage F}
    (hstage : ¬Keyed stage) (hother : ¬Keyed other) {identity : String}
    (h : identityOf P N stage = .ok identity) (h' : identityOf P N other = .ok identity) :
    SameStage P N stage other := by
  rw [identityOf_of_not_keyed hstage, stageIdentity, Checks.bind_eq_ok] at h
  rw [identityOf_of_not_keyed hother, stageIdentity, Checks.bind_eq_ok] at h'
  obtain ⟨hash, hhash, h⟩ := h
  obtain ⟨hash', hhash', h'⟩ := h'
  have htext := hP ((Checks.pure_eq_ok.mp h).trans (Checks.pure_eq_ok.mp h').symm)
  have hlength : (identityFields stage hash).length = (identityFields other hash').length := rfl
  have hfields := reprItems_inj hlength htext
  have hsame : hash = hash' := by
    simp only [identityFields, List.cons.injEq, Prod.mk.injEq, Option.some.injEq] at hfields
    exact hfields.2.1.2
  obtain rfl := hsame
  refine ⟨fun other' => ?_, hhash.trans hhash'.symm⟩
  simp only [identityFields, List.cons.injEq, Prod.mk.injEq, Option.some.injEq, true_and] at hfields ⊢
  exact ⟨hfields.1, hfields.2⟩

lemma SameStage.sameMetadata {stage other : Stage F} (h : SameStage P N stage other) (row : StageRow F) :
    SameMetadata stage.request stage.resolution row ↔
      SameMetadata other.request other.resolution row := by
  have hfields := h.fields ""
  simp only [identityFields, List.cons.injEq, Prod.mk.injEq, Option.some.injEq, true_and,
    and_true] at hfields
  obtain ⟨heffective, hmodel, hprofile, hprompt, hversion, hprovider, hrole, htype, huuid, hstage⟩ :=
    hfields
  rw [SameMetadata, SameMetadata, heffective, hmodel, hprofile, hprompt, hversion, hprovider, hrole,
    htype, huuid, hstage]

/-- Stages of one identity replay the same rows. -/
lemma existing_eq_of_sameStage {stage other : Stage F} (h : SameStage P N stage other)
    (hvalidator : stage.validator = other.validator) (row : Option (StageRow F)) :
    existing P N stage row = existing P N other row := by
  cases row with
  | none => rfl
  | some row =>
      have houtput : ∀ validation output, replayRow.replayOutput P N stage row validation output =
          replayRow.replayOutput P N other row validation output := fun validation output => by
        simp only [replayRow.replayOutput, h.sameMetadata row, h.input, hvalidator]
      simp only [existing, replayRow, houtput]

/-! ### Steps -/

/-- Where a call stands: it has not begun, it asks the provider, it holds a result, it is to write it,
with the row of its identity locked or not, or it has ended. -/
inductive Phase (F : Type) where
  | waiting
  | asking (identity : String)
  | holding (identity : String) (result : StageResult F)
  | writing (identity : String) (result : StageResult F) (locked : Bool)
  | returned (result : StageResult F)
  | raised (error : StageError)

variable (P N) in
/-- A call looks for the stored result of its identity. -/
def lookup (stage : Stage F) (store : StageStore F) : Phase F :=
  match identityOf P N stage with
  | .error exception => .raised (.raised exception)
  | .ok identity =>
      match existing P N stage store.row with
      | .error exception => .raised (.raised exception)
      | .ok (some stored) => .returned { stored with idempotentReplay := true }
      | .ok none => .asking identity

variable (P N) in
/-- A call comes to a result. -/
def answer (stage : Stage F) (call : StageCall F) (identity : String) : Phase F :=
  match attempt stage call with
  | .error error => .raised error
  | .ok attempt =>
      match finish P N stage call attempt with
      | .error exception => .raised (.raised exception)
      | .ok result => .holding identity result

variable (B) in
/-- What the transaction of a write keeps from others: a row that is there, and with SQLite also one
that is not. -/
def Backend.locks (row : Option (StageRow F)) : Bool :=
  match B.store with
  | .sqlite => true
  | .postgres => row.isSome

variable (P B) in
/-- A call looks again before it writes. -/
def recheck (stage : Stage F) (call : StageCall F) (identity : String) (result : StageResult F)
    (store : StageStore F) : Phase F :=
  if ¬call.passesWrite then .raised .leaseFence
  else
    match existing P N stage store.row with
    | .error exception => .raised (.raised exception)
    | .ok (some stored) => .returned { stored with idempotentReplay := true }
    | .ok none => .writing identity result (B.locks store.row)

variable (P B) in
/-- A call stores its result. -/
def write (stage : Stage F) (call : StageCall F) (identity : String) (result : StageResult F)
    (store : StageStore F) : Phase F × StageStore F :=
  match storeResult P N B stage call identity result store with
  | .error exception => (.raised (.raised exception), store)
  | .ok (persisted, stored) => (.returned persisted, stored)

/-- How a call has ended. -/
def Phase.outcome (store : StageStore F) : Phase F → Option (Except StageError (StageResult F × StageStore F))
  | .returned result => some (.ok (result, store))
  | .raised error => some (.error error)
  | _ => none

/-- A call is a look at what is stored, an answer, another look and a write. -/
lemma invokeStructured_eq (stage : Stage F) (call : StageCall F) (before store : StageStore F) :
    some (invokeStructured P N B stage call before store) =
      match lookup P N stage before with
      | .asking identity =>
          match answer P N stage call identity with
          | .holding identity result =>
              match recheck P B stage call identity result store with
              | .writing identity result _ =>
                  let written := write P B stage call identity result store
                  written.1.outcome written.2
              | phase => phase.outcome store
          | phase => phase.outcome before
      | phase => phase.outcome before := by
  rw [invokeStructured, lookup]
  cases identityOf P N stage with
  | error exception => rfl
  | ok identity =>
      cases existing P N stage before.row with
      | error exception => rfl
      | ok replayed =>
          cases replayed with
          | some stored => rfl
          | none =>
              dsimp only [answer]
              cases hattempt : attempt stage call with
              | error error => simp [Except.mapError, Phase.outcome]
              | ok a =>
                  dsimp only
                  cases hfinish : finish P N stage call a with
                  | error exception => simp [Except.mapError, Phase.outcome, hfinish]
                  | ok result =>
                      simp only [Except.mapError, Checks.ok_bind, hfinish, persistResult, recheck]
                      by_cases hpasses : call.passesWrite = true
                      · rw [if_neg (not_not.mpr hpasses), if_neg (not_not.mpr hpasses)]
                        cases existing P N stage store.row with
                        | error exception => rfl
                        | ok found =>
                            cases found with
                            | some stored => rfl
                            | none =>
                                dsimp only [write]
                                cases storeResult P N B stage call identity result store <;> rfl
                      · rw [if_pos hpasses, if_pos hpasses]
                        rfl

/-- The response that a call receives. -/
def responseOf (stage : Stage F) (call : StageCall F) : Option (ProviderResponse F) :=
  if stage.callsProvider ∧ call.passesBeforeProvider then call.provider.toOption else none

variable {ι : Type} [DecidableEq ι]

/-- Calls of one identity: what is stored of it, where each call stands, which ones have asked the
provider, and what it has answered. -/
structure StageRun (ι F : Type) where
  store : StageStore F
  phase : ι → Phase F
  asked : List ι
  received : List (ProviderResponse F)

/-- No call has begun. -/
def StageRun.start (store : StageStore F) : StageRun ι F where
  store := store
  phase := fun _ => .waiting
  asked := []
  received := []

/-- A call has the row locked. -/
def Phase.locking : Phase F → Bool
  | .writing _ _ locked => locked
  | _ => false

/-- No other call has the row locked. -/
def StageRun.Free (s : StageRun ι F) (i : ι) : Prop := ∀ j ≠ i, (s.phase j).locking = false

variable (P B) in
/-- One call goes on. The transaction of a write waits for a lock that another one has. -/
inductive Step (stage : ι → Stage F) (call : ι → StageCall F) :
    StageRun ι F → ι → StageRun ι F → Prop
  | looks {s : StageRun ι F} {i : ι} (h : s.phase i = .waiting) :
      Step stage call s i
        { s with phase := Function.update s.phase i (lookup P N (stage i) s.store) }
  | answers {s : StageRun ι F} {i : ι} {identity : String} (h : s.phase i = .asking identity) :
      Step stage call s i
        { s with
          phase := Function.update s.phase i (answer P N (stage i) (call i) identity)
          asked :=
            if (stage i).callsProvider ∧ (call i).passesBeforeProvider then i :: s.asked else s.asked
          received := (responseOf (stage i) (call i)).toList ++ s.received }
  | checks {s : StageRun ι F} {i : ι} {identity : String} {result : StageResult F}
      (h : s.phase i = .holding identity result) (hfree : s.Free i) :
      Step stage call s i
        { s with
          phase := Function.update s.phase i
            (recheck P B (stage i) (call i) identity result s.store) }
  | writes {s : StageRun ι F} {i : ι} {identity : String} {result : StageResult F} {locked : Bool}
      (h : s.phase i = .writing identity result locked) (hfree : s.Free i) :
      Step stage call s i
        { s with
          store := (write P B (stage i) (call i) identity result s.store).2
          phase := Function.update s.phase i
            (write P B (stage i) (call i) identity result s.store).1 }

/-! ### One result -/

/-- A second look finds a row to replay, or none. -/
lemma recheck_cases (stage : Stage F) (call : StageCall F) (identity : String) (result : StageResult F)
    (store : StageStore F) :
    (∃ stored, existing P N stage store.row = .ok (some stored) ∧
      recheck P B stage call identity result store = .returned { stored with idempotentReplay := true }) ∨
    (existing P N stage store.row = .ok none ∧
      recheck P B stage call identity result store =
        .writing identity result (B.locks store.row)) ∨
    ∃ error, recheck P B stage call identity result store = .raised error := by
  rw [recheck]
  by_cases hpasses : call.passesWrite = true
  · rw [if_neg (not_not.mpr hpasses)]
    cases existing P N stage store.row with
    | error exception => exact .inr (.inr ⟨_, rfl⟩)
    | ok found =>
        cases found with
        | some stored => exact .inl ⟨stored, rfl, rfl⟩
        | none => exact .inr (.inl ⟨rfl, rfl⟩)
  · rw [if_pos hpasses]
    exact .inr (.inr ⟨_, rfl⟩)

/-- What is written is replayed. -/
lemma storeResult_facts {stage : Stage F} {call : StageCall F} {identity : String}
    {result persisted : StageResult F} {store stored : StageStore F}
    (h : storeResult P N B stage call identity result store = .ok (persisted, stored)) :
    existing P N stage stored.row = .ok (some persisted) ∧
      stored.usage = store.usage ++ [usageEvent stage.request result] := by
  rw [storeResult, Checks.check_bind_eq_ok, Checks.bind_eq_ok] at h
  obtain ⟨-, row, -, h⟩ := h
  obtain ⟨found, hfound, h⟩ := Checks.bind_eq_ok.mp h
  cases found with
  | none => cases h
  | some found =>
      obtain ⟨rfl, rfl⟩ := Prod.mk.inj (Except.ok.inj h)
      exact ⟨hfound, rfl⟩

/-- A write ends a call: with its result, which the row replays from then on, or with an error, and
then nothing is written. -/
lemma write_cases (stage : Stage F) (call : StageCall F) (identity : String) (result : StageResult F)
    (store : StageStore F) :
    (∃ persisted, (write P B stage call identity result store).1 = .returned persisted ∧
      existing P N stage (write P B stage call identity result store).2.row = .ok (some persisted) ∧
      (write P B stage call identity result store).2.usage =
        store.usage ++ [usageEvent stage.request result]) ∨
    (∃ error, (write P B stage call identity result store).1 = .raised error) ∧
      (write P B stage call identity result store).2 = store := by
  rw [write]
  cases hstored : storeResult P N B stage call identity result store with
  | error exception => exact .inr ⟨⟨_, rfl⟩, rfl⟩
  | ok outcome =>
      obtain ⟨persisted, stored⟩ := outcome
      exact .inl ⟨persisted, rfl, storeResult_facts hstored⟩

/-- A row that is replayed still is, after a write. -/
lemma existing_write {stage other : Stage F}
    (hsame : ∀ row, existing P N stage row = existing P N other row) {call : StageCall F}
    {identity : String} {result : StageResult F} {store : StageStore F}
    (h : ∃ stored, existing P N other store.row = .ok (some stored)) :
    ∃ stored, existing P N other (write P B stage call identity result store).2.row =
      .ok (some stored) := by
  rcases write_cases stage call identity result store with ⟨persisted, -, hrow, -⟩ | ⟨-, hstore⟩
  · exact ⟨persisted, (hsame _).symm.trans hrow⟩
  · rw [hstore]
    exact h

/-- Two results are of one execution. -/
def SameResult (a b : StageResult F) : Prop :=
  a.executionUuid = b.executionUuid ∧ a.status = b.status ∧ a.output = b.output

/-- The result that a call has and has not stored. -/
def Phase.held : Phase F → Option (StageResult F)
  | .holding _ result => some result
  | .writing _ result _ => some result
  | _ => none

variable {stage : ι → Stage F} {call : ι → StageCall F} {s t : StageRun ι F} {i j : ι}

variable (P N) in
/-- What each step keeps: a returned result is replayed, a held one is that of its call, a call that
asked the provider has its answer, and a locked row is one that is not replayed. -/
structure StageRun.Invariant (stage : ι → Stage F) (call : ι → StageCall F) (s : StageRun ι F) :
    Prop where
  replayed : ∀ i result, s.phase i = .returned result → ∃ stored,
    existing P N (stage i) s.store.row = .ok (some stored) ∧ SameResult result stored
  held : ∀ i result, (s.phase i).held = some result → ∃ a,
    attempt (stage i) (call i) = .ok a ∧ finish P N (stage i) (call i) a = .ok result
  asked : ∀ i ∈ s.asked, s.phase i ≠ .waiting ∧ ∀ identity, s.phase i ≠ .asking identity
  locked : ∀ i identity result, s.phase i = .writing identity result true →
    existing P N (stage i) s.store.row = .ok none

omit [DecidableEq ι] in
lemma StageRun.invariant_start (store : StageStore F) :
    (StageRun.start store : StageRun ι F).Invariant P N stage call where
  replayed := fun _ _ h => by cases h
  held := fun _ _ h => by cases h
  asked := fun _ h => absurd h List.not_mem_nil
  locked := fun _ _ _ h => by cases h

lemma lookup_cases (stage : Stage F) (store : StageStore F) :
    (∃ result, existing P N stage store.row = .ok (some result) ∧
      lookup P N stage store = .returned { result with idempotentReplay := true }) ∨
    (∃ identity, existing P N stage store.row = .ok none ∧ lookup P N stage store = .asking identity) ∨
    ∃ error, lookup P N stage store = .raised error := by
  rw [lookup]
  cases identityOf P N stage with
  | error exception => exact .inr (.inr ⟨_, rfl⟩)
  | ok identity =>
      cases existing P N stage store.row with
      | error exception => exact .inr (.inr ⟨_, rfl⟩)
      | ok replayed =>
          cases replayed with
          | none => exact .inr (.inl ⟨identity, rfl, rfl⟩)
          | some result => exact .inl ⟨result, rfl, rfl⟩

lemma answer_cases (stage : Stage F) (call : StageCall F) (identity : String) :
    (∃ a result, attempt stage call = .ok a ∧ finish P N stage call a = .ok result ∧
      answer P N stage call identity = .holding identity result) ∨
    ∃ error, answer P N stage call identity = .raised error := by
  rw [answer]
  cases hattempt : attempt stage call with
  | error error => exact .inr ⟨_, rfl⟩
  | ok a =>
      dsimp only
      cases hfinish : finish P N stage call a with
      | error exception => exact .inr ⟨_, rfl⟩
      | ok result => exact .inl ⟨a, result, rfl, hfinish, rfl⟩

/-- The phase of a call after a step of it, or of another one. -/
lemma update_eq {phase : ι → Phase F} {p q : Phase F} (h : Function.update phase i p j = q) :
    j = i ∧ p = q ∨ j ≠ i ∧ phase j = q := by
  by_cases hj : j = i
  · rw [hj, Function.update_self] at h
    exact .inl ⟨hj, h⟩
  · rw [Function.update_of_ne hj] at h
    exact .inr ⟨hj, h⟩

/-- The invariant after a call goes on and what is stored stays as it is. -/
lemma StageRun.Invariant.update (hs : s.Invariant P N stage call) {p : Phase F} {asked : List ι}
    {received : List (ProviderResponse F)}
    (hreturned : ∀ result, p = .returned result → ∃ stored,
      existing P N (stage i) s.store.row = .ok (some stored) ∧ SameResult result stored)
    (hheld : ∀ result, p.held = some result → ∃ a,
      attempt (stage i) (call i) = .ok a ∧ finish P N (stage i) (call i) a = .ok result)
    (hasked : ∀ j ∈ asked, j ≠ i ∧ j ∈ s.asked ∨
      j = i ∧ p ≠ .waiting ∧ ∀ identity, p ≠ .asking identity)
    (hlocked : ∀ identity result, p = .writing identity result true →
      existing P N (stage i) s.store.row = .ok none) :
    StageRun.Invariant P N stage call
      { s with phase := Function.update s.phase i p, asked := asked, received := received } := by
  refine ⟨fun j result hj => ?_, fun j result hj => ?_, fun j hj => ?_, fun j identity result hj => ?_⟩
  · rcases update_eq hj with ⟨rfl, hp⟩ | ⟨-, hp⟩
    · exact hreturned result hp
    · exact hs.replayed j result hp
  · dsimp only at hj
    by_cases hji : j = i
    · rw [hji, Function.update_self] at hj
      exact hji ▸ hheld result hj
    · rw [Function.update_of_ne hji] at hj
      exact hs.held j result hj
  · dsimp only
    rcases hasked j hj with ⟨hne, hold⟩ | ⟨rfl, hp⟩
    · rw [Function.update_of_ne hne]
      exact hs.asked j hold
    · rw [Function.update_self]
      exact hp
  · rcases update_eq hj with ⟨rfl, hp⟩ | ⟨-, hp⟩
    · exact hlocked identity result hp
    · exact hs.locked j identity result hp

/-- A step keeps the invariant, if what it writes without a lock replaces no row that is replayed. -/
lemma Step.invariant (hsame : ∀ i j row, existing P N (stage i) row = existing P N (stage j) row)
    (h : Step P B stage call s i t) (hclean : ∀ identity result,
      s.phase i = .writing identity result false → existing P N (stage i) s.store.row = .ok none)
    (hs : s.Invariant P N stage call) : t.Invariant P N stage call := by
  cases h with
  | looks hphase =>
      have hasked : ∀ j ∈ s.asked, j ≠ i ∧ j ∈ s.asked := fun j hj =>
        ⟨fun heq => (hs.asked j hj).1 (heq ▸ hphase), hj⟩
      rcases lookup_cases (stage i) s.store with ⟨found, hfound, heq⟩ | ⟨_, -, heq⟩ | ⟨_, heq⟩
      · refine hs.update (fun result hp => ?_) (fun result hp => ?_) (fun j hj => .inl (hasked j hj))
          fun _ _ hp => by cases heq.symm.trans hp
        · obtain rfl := Phase.returned.inj (heq.symm.trans hp)
          exact ⟨found, hfound, rfl, rfl, rfl⟩
        · rw [heq] at hp
          cases hp
      all_goals
        refine hs.update (fun result hp => ?_) (fun result hp => ?_) (fun j hj => .inl (hasked j hj))
          fun _ _ hp => by cases heq.symm.trans hp
        · cases heq.symm.trans hp
        · rw [heq] at hp
          cases hp
  | @answers identity hphase =>
      have hold : i ∉ s.asked := fun hi => (hs.asked i hi).2 identity hphase
      have hasked : ∀ j ∈ (if (stage i).callsProvider ∧ (call i).passesBeforeProvider then i :: s.asked
          else s.asked), j ≠ i ∧ j ∈ s.asked ∨ j = i := by
        intro j hj
        by_cases hji : j = i
        · exact .inr hji
        · split_ifs at hj
          · exact .inl ⟨hji, (List.mem_cons.mp hj).resolve_left hji⟩
          · exact .inl ⟨hji, hj⟩
      rcases answer_cases (stage i) (call i) identity with ⟨a, found, ha, hfound, heq⟩ | ⟨_, heq⟩
      all_goals
        rw [heq]
        refine hs.update (fun result hp => by cases hp) (fun result hp => ?_)
          (fun j hj => (hasked j hj).imp_right fun hji => ⟨hji, ?_, fun other hp => by cases hp⟩)
          fun _ _ hp => by cases hp
      · obtain rfl := Option.some.inj hp
        exact ⟨a, ha, hfound⟩
      · exact fun hp => by cases hp
      · cases hp
      · exact fun hp => by cases hp
  | @checks identity held hphase hfree =>
      have hasked : ∀ j ∈ s.asked, j ≠ i ∧ j ∈ s.asked ∨ j = i := fun j hj =>
        (ne_or_eq j i).imp_left fun hne => ⟨hne, hj⟩
      rcases @recheck_cases F P N B (stage i) (call i) identity held s.store with
        ⟨found, hfound, heq⟩ | ⟨hnone, heq⟩ | ⟨_, heq⟩
      all_goals
        rw [heq]
        refine hs.update (fun result hp => ?_) (fun result hp => ?_)
          (fun j hj => (hasked j hj).imp_right fun hji => ⟨hji, ?_, fun other hp => by cases hp⟩)
          fun other result hp => ?_
      · obtain rfl := Phase.returned.inj hp
        exact ⟨found, hfound, rfl, rfl, rfl⟩
      · cases hp
      · exact fun hp => by cases hp
      · cases hp
      · cases hp
      · obtain rfl := Option.some.inj hp
        exact hs.held i held (congrArg Phase.held hphase)
      · exact fun hp => by cases hp
      · exact hnone
      · cases hp
      · cases hp
      · exact fun hp => by cases hp
      · cases hp
  | @writes identity held locked hphase hfree =>
      have hnone : existing P N (stage i) s.store.row = .ok none := by
        cases locked with
        | false => exact hclean identity held hphase
        | true => exact hs.locked i identity held hphase
      have hended : ∀ j result, s.phase j ≠ .returned result := fun j result hj => by
        obtain ⟨stored, hstored, -⟩ := hs.replayed j result hj
        cases (hstored.symm.trans (hsame j i _)).trans hnone
      have hwritten := @write_cases F P N B (stage i) (call i) identity held s.store
      refine ⟨fun j result hj => ?_, fun j result hj => ?_, fun j hj => ?_, fun j other result hj => ?_⟩
      · rcases update_eq hj with ⟨rfl, hp⟩ | ⟨-, hp⟩
        · rcases hwritten with ⟨persisted, heq, hrow, -⟩ | ⟨⟨_, heq⟩, -⟩
          · obtain rfl := Phase.returned.inj (heq.symm.trans hp)
            exact ⟨persisted, hrow, rfl, rfl, rfl⟩
          · cases heq.symm.trans hp
        · exact absurd hp (hended j result)
      · dsimp only at hj
        by_cases hji : j = i
        · rw [hji, Function.update_self] at hj
          rcases hwritten with ⟨_, heq, -⟩ | ⟨⟨_, heq⟩, -⟩
          all_goals
            rw [heq] at hj
            cases hj
        · rw [Function.update_of_ne hji] at hj
          exact hs.held j result hj
      · by_cases hji : j = i
        · subst hji
          dsimp only
          rw [Function.update_self]
          rcases hwritten with ⟨_, heq, -⟩ | ⟨⟨_, heq⟩, -⟩
          all_goals
            rw [heq]
            exact ⟨fun hp => (by cases hp), fun _ hp => (by cases hp)⟩
        · dsimp only
          rw [Function.update_of_ne hji]
          exact hs.asked j hj
      · rcases update_eq hj with ⟨rfl, hp⟩ | ⟨hne, hp⟩
        · rcases hwritten with ⟨_, heq, -⟩ | ⟨⟨_, heq⟩, -⟩
          all_goals cases heq.symm.trans hp
        · have hunlocked := hfree j hne
          rw [hp] at hunlocked
          cases hunlocked

omit [DecidableEq ι] in
/-- Calls return one result. -/
lemma StageRun.Invariant.sameResult
    (hsame : ∀ i j row, existing P N (stage i) row = existing P N (stage j) row)
    (hs : s.Invariant P N stage call) {result other : StageResult F}
    (hi : s.phase i = .returned result) (hj : s.phase j = .returned other) :
    SameResult result other := by
  obtain ⟨stored, hstored, huuid, hstatus, houtput⟩ := hs.replayed i result hi
  obtain ⟨found, hfound, huuid', hstatus', houtput'⟩ := hs.replayed j other hj
  rw [hsame j i, hstored] at hfound
  obtain rfl := Option.some.inj (Except.ok.inj hfound)
  exact ⟨huuid.trans huuid'.symm, hstatus.trans hstatus'.symm, houtput.trans houtput'.symm⟩

/-- A call that begins after another one has returned does not ask the provider. -/
lemma not_asked_of_returned
    (hsame : ∀ i j row, existing P N (stage i) row = existing P N (stage j) row)
    (hs : s.Invariant P N stage call) {result : StageResult F} (hj : s.phase j = .returned result)
    (hi : s.phase i = .waiting) {fs : List ι} (h : Runs (Step P B stage call) s fs t) :
    i ∉ t.asked := by
  obtain ⟨stored, hstored, -⟩ := hs.replayed j result hj
  have hkept : (∃ stored, existing P N (stage j) t.store.row = .ok (some stored)) ∧ i ∉ t.asked ∧
      ∀ identity, t.phase i ≠ .asking identity := by
    refine h.invariant (I := fun u => (∃ stored, existing P N (stage j) u.store.row = .ok (some stored)) ∧
      i ∉ u.asked ∧ ∀ identity, u.phase i ≠ .asking identity) ?_ ⟨⟨stored, hstored⟩, ?_, ?_⟩
    · rintro u k v ⟨hrow, hasked, hasking⟩ hstep
      cases hstep with
      | looks hphase =>
          refine ⟨hrow, hasked, fun identity hnew => ?_⟩
          rcases update_eq hnew with ⟨rfl, hp⟩ | ⟨-, hp⟩
          · rcases lookup_cases (stage i) u.store with ⟨_, -, heq⟩ | ⟨_, hnone, -⟩ | ⟨_, heq⟩
            · cases heq.symm.trans hp
            · obtain ⟨replayed, hreplayed⟩ := hrow
              rw [hsame i j, hreplayed] at hnone
              cases hnone
            · cases heq.symm.trans hp
          · exact hasking identity hp
      | @answers identity hphase =>
          have hne : i ≠ k := fun heq => hasking identity (heq ▸ hphase)
          refine ⟨hrow, ?_, fun other hnew => ?_⟩
          · dsimp only
            split_ifs
            · exact fun hmem => hasked ((List.mem_cons.mp hmem).resolve_left hne)
            · exact hasked
          · rcases update_eq hnew with ⟨heq, -⟩ | ⟨-, hp⟩
            · exact hne heq
            · exact hasking other hp
      | @checks identity held hphase hfree =>
          refine ⟨hrow, hasked, fun other hnew => ?_⟩
          rcases update_eq hnew with ⟨-, hp⟩ | ⟨-, hp⟩
          · rcases @recheck_cases F P N B (stage k) (call k) identity held u.store with
              ⟨_, -, heq⟩ | ⟨-, heq⟩ | ⟨_, heq⟩
            all_goals cases heq.symm.trans hp
          · exact hasking other hp
      | @writes identity held locked hphase hfree =>
          refine ⟨existing_write (hsame k j) hrow, hasked, fun other hnew => ?_⟩
          rcases update_eq hnew with ⟨-, hp⟩ | ⟨-, hp⟩
          · rcases @write_cases F P N B (stage k) (call k) identity held u.store with
              ⟨_, heq, -⟩ | ⟨⟨_, heq⟩, -⟩
            all_goals cases heq.symm.trans hp
          · exact hasking other hp
    · exact fun hmem => (hs.asked i hmem).1 hi
    · exact fun identity heq => by cases hi.symm.trans heq
  exact hkept.2.1

/-! ### Tokens -/

/-- The tokens of a response: of its input and of its output. -/
def ProviderResponse.tokens (response : ProviderResponse F) : ℕ × ℕ :=
  (response.inputTokens, response.outputTokens)

/-- The tokens of a result. -/
def StageResult.tokens (result : StageResult F) : ℕ × ℕ := (result.inputTokens, result.outputTokens)

/-- The tokens of a usage event. -/
def UsageEventCreate.tokens (event : UsageEventCreate) : ℕ × ℕ :=
  (event.inputTokens, event.outputTokens)

/-- The tokens that a call has received and not recorded yet. -/
def Phase.pending (p : Phase F) : ℕ × ℕ := (p.held.map StageResult.tokens).getD 0

/-- The tokens that a call receives. -/
def tokensOf (stage : Stage F) (call : StageCall F) : ℕ × ℕ :=
  ((responseOf stage call).map ProviderResponse.tokens).getD 0

variable (P N) in
/-- The call of a response with tokens comes to a result. -/
def CanAnswer (stage : Stage F) (call : StageCall F) : Prop :=
  ∀ response, responseOf stage call = some response → response.tokens ≠ 0 →
    (stage.resolution.failOpen = true ∨ Answered stage call response) ∧ Hashable P N stage call

variable (P N) in
/-- The result of a response with tokens may be written: the fence lets it, and it finds no other. -/
def CanCheck (stage : Stage F) (call : StageCall F) (row : Option (StageRow F)) : Prop :=
  ∀ response, responseOf stage call = some response → response.tokens ≠ 0 →
    call.passesWrite = true ∧ existing P N stage row = .ok none

variable (P B) in
/-- The result of a response with tokens is recorded. -/
def CanWrite (stage : Stage F) (call : StageCall F) : Prop :=
  ∀ response, responseOf stage call = some response → response.tokens ≠ 0 →
    (stage.resolution.failOpen = true ∨ Answered stage call response) ∧
      ∃ output, Answers stage call output ∧ Storable P B stage.validator output

variable (P B) in
/-- A step loses no tokens, and a write without a lock finds no row of another call. -/
structure Accounts (stage : ι → Stage F) (call : ι → StageCall F) (s : StageRun ι F) (i : ι) :
    Prop where
  answers : ∀ identity, s.phase i = .asking identity → CanAnswer P N (stage i) (call i)
  checks : ∀ identity result, s.phase i = .holding identity result →
    CanCheck P N (stage i) (call i) s.store.row
  writes : ∀ identity result locked, s.phase i = .writing identity result locked →
    CanWrite P B (stage i) (call i)
  unlocked : ∀ identity result, s.phase i = .writing identity result false →
    existing P N (stage i) s.store.row = .ok none

lemma handle_tokens (stage : Stage F) (begun : Attempt F) (exception : StageException) :
    (handle stage begun exception).inputTokens = begun.inputTokens ∧
      (handle stage begun exception).outputTokens = begun.outputTokens := by
  rw [handle]
  split_ifs
  · cases stage.fallback <;> exact ⟨rfl, rfl⟩
  · exact ⟨rfl, rfl⟩

lemma guarded_tokens {stage : Stage F} {call : StageCall F} {begun : Attempt F}
    {exception : Option StageException} (h : guarded stage call = .ok (begun, exception)) :
    (begun.inputTokens, begun.outputTokens) = tokensOf stage call := by
  have hguarded := guarded.eq_1 stage call
  dsimp only at hguarded
  rw [tokensOf, responseOf]
  by_cases hdisabled : stage.resolution.providerType = "disabled"
  · have hcalls : ¬(stage.callsProvider = true ∧ call.passesBeforeProvider = true) := fun hcalls =>
      (callsProvider_iff.mp hcalls.1).2 hdisabled
    rw [if_pos hdisabled, h] at hguarded
    obtain ⟨rfl, -⟩ := Prod.mk.inj (Except.ok.inj hguarded)
    rw [if_neg hcalls]
    rfl
  by_cases hdeterministic : stage.resolution.providerType = "deterministic"
  · have hcalls : ¬(stage.callsProvider = true ∧ call.passesBeforeProvider = true) := fun hcalls =>
      (callsProvider_iff.mp hcalls.1).1 hdeterministic
    rw [if_neg hdisabled, if_pos hdeterministic, h] at hguarded
    rw [if_neg hcalls]
    cases hfound : stage.deterministicOutput stage.request.inputPayload with
    | error other =>
        rw [hfound] at hguarded
        obtain ⟨rfl, -⟩ := Prod.mk.inj (Except.ok.inj hguarded)
        rfl
    | ok output =>
        rw [hfound] at hguarded
        obtain ⟨rfl, -⟩ := Prod.mk.inj (Except.ok.inj hguarded)
        rfl
  have hcalls : stage.callsProvider = true := callsProvider_iff.mpr ⟨hdeterministic, hdisabled⟩
  rw [if_neg hdisabled, if_neg hdeterministic, askProvider, h] at hguarded
  cases hpasses : call.passesBeforeProvider with
  | false =>
      rw [hpasses, if_pos Bool.false_ne_true] at hguarded
      cases hguarded
  | true =>
      rw [hpasses, if_neg (not_not.mpr rfl)] at hguarded
      rw [if_pos ⟨hcalls, rfl⟩]
      cases hprovider : call.provider with
      | error other =>
          rw [hprovider] at hguarded
          obtain ⟨rfl, -⟩ := Prod.mk.inj (Except.ok.inj hguarded)
          rfl
      | ok response =>
          rw [hprovider] at hguarded
          dsimp only at hguarded
          cases hvalid : stage.validator response.output.members with
          | error other =>
              rw [hvalid] at hguarded
              obtain ⟨rfl, -⟩ := Prod.mk.inj (Except.ok.inj hguarded)
              rfl
          | ok u =>
              rw [hvalid] at hguarded
              dsimp only at hguarded
              split_ifs at hguarded
              obtain ⟨rfl, -⟩ := Prod.mk.inj (Except.ok.inj hguarded)
              rfl

/-- An attempt keeps the tokens of the response it received. -/
lemma attempt_tokens {stage : Stage F} {call : StageCall F} {a : Attempt F}
    (h : attempt stage call = .ok a) : (a.inputTokens, a.outputTokens) = tokensOf stage call := by
  cases hguarded : guarded stage call with
  | error error =>
      rw [attempt_error hguarded] at h
      cases h
  | ok outcome =>
      obtain ⟨begun, exception⟩ := outcome
      rw [attempt_eq hguarded] at h
      obtain rfl := Except.ok.inj h
      rw [← guarded_tokens hguarded]
      cases exception with
      | none => rfl
      | some exception =>
          obtain ⟨hinput, houtput⟩ := handle_tokens stage begun exception
          exact Prod.ext hinput houtput

/-- A call that receives a response comes to an answer. -/
lemma comes_of_response {stage : Stage F} {call : StageCall F} {response : ProviderResponse F}
    (hkeeps : call.keepsResolution = true) (hresponse : responseOf stage call = some response)
    (hopen : stage.resolution.failOpen = true ∨ Answered stage call response) :
    ∃ a, attempt stage call = .ok a ∧ Comes stage call a := by
  rw [responseOf] at hresponse
  split_ifs at hresponse with hasks
  rcases attempt_provider (hopen.imp_right fun h => ⟨response, h⟩) hasks.1 with ⟨-, hstopped⟩ | h
  · rcases hstopped.2 with hpasses | ⟨-, hchanged⟩
    · exact Bool.noConfusion (hpasses.symm.trans hasks.2)
    · exact Bool.noConfusion (hchanged.symm.trans hkeeps)
  · exact h

/-- A call receives no tokens, or a response with some. -/
lemma tokensOf_cases (stage : Stage F) (call : StageCall F) : tokensOf stage call = 0 ∨
    ∃ response, responseOf stage call = some response ∧ response.tokens ≠ 0 := by
  rw [tokensOf]
  cases responseOf stage call with
  | none => exact .inl rfl
  | some response => exact (eq_or_ne response.tokens 0).imp_right fun hne => ⟨response, rfl, hne⟩

/-- A call holds the tokens that it receives. -/
lemma answer_pending {stage : Stage F} {call : StageCall F} (hkeeps : call.keepsResolution = true)
    (h : CanAnswer P N stage call) (identity : String) :
    (answer P N stage call identity).pending = tokensOf stage call := by
  rcases answer_cases stage call identity with ⟨a, result, hattempt, hfinish, heq⟩ | ⟨error, heq⟩
  · obtain ⟨hinput, houtput⟩ := (finished hfinish).tokens
    rw [heq, ← attempt_tokens hattempt]
    exact Prod.ext hinput houtput
  · rcases tokensOf_cases stage call with hzero | ⟨response, hresponse, htokens⟩
    · rw [heq, hzero]
      rfl
    obtain ⟨hopen, hinput, houtput⟩ := h response hresponse htokens
    obtain ⟨a, hattempt, hcomes⟩ := comes_of_response hkeeps hresponse hopen
    obtain ⟨result, hresult⟩ := (@exists_finish_iff F P N stage call a).mpr
      ⟨hinput, fun output hout => houtput output ((hcomes.output_eq output).mp hout)⟩
    rw [answer, hattempt] at heq
    dsimp only at heq
    rw [hresult] at heq
    cases heq

/-- A second look that loses no tokens keeps those of its result. -/
lemma recheck_pending {stage : Stage F} {call : StageCall F} {a : Attempt F} {result : StageResult F}
    {store : StageStore F} (hattempt : attempt stage call = .ok a)
    (hfinish : finish P N stage call a = .ok result) (h : CanCheck P N stage call store.row)
    (identity : String) :
    (recheck P B stage call identity result store).pending = result.tokens := by
  have htokens : result.tokens = tokensOf stage call := by
    rw [← attempt_tokens hattempt]
    exact Prod.ext (finished hfinish).tokens.1 (finished hfinish).tokens.2
  rcases tokensOf_cases stage call with hzero | ⟨response, hresponse, hne⟩
  · rw [hzero] at htokens
    rcases @recheck_cases F P N B stage call identity result store with
      ⟨_, -, heq⟩ | ⟨-, heq⟩ | ⟨_, heq⟩
    · rw [heq, htokens]
      rfl
    · rw [heq]
      rfl
    · rw [heq, htokens]
      rfl
  · obtain ⟨hpasses, hnone⟩ := h response hresponse hne
    rw [recheck, if_neg (not_not.mpr hpasses), hnone]
    rfl

/-- A result whose answer is storable is stored. -/
lemma write_of_storable (hascii : ReadsAscii P.unicode) {stage : Stage F} {call : StageCall F}
    {a : Attempt F} {result : StageResult F} {store : StageStore F} (hcomes : Comes stage call a)
    (hfinished : Finished P N stage a result)
    (hstorable : ∃ output, Answers stage call output ∧ Storable P B stage.validator output)
    (identity : String) : (write P B stage call identity result store).2.usage =
      store.usage ++ [usageEvent stage.request result] := by
  obtain ⟨row, hrecord, hrow⟩ := @exists_record F P N B stage call a result hfinished identity store.row
  obtain ⟨persisted, hpersisted⟩ :=
    (exists_existing_iff hascii hcomes hfinished hrow).mpr (.inr hstorable)
  rw [write, storeResult, checkResult_eq_ok hcomes hfinished, Checks.ok_bind, hrecord, Checks.ok_bind,
    hpersisted]
  rfl

/-- A write that loses no tokens records those of its result. -/
lemma write_tokens (hascii : ReadsAscii P.unicode) {stage : Stage F} {call : StageCall F}
    (hkeeps : call.keepsResolution = true) {a : Attempt F} {result : StageResult F}
    {store : StageStore F} (hattempt : attempt stage call = .ok a)
    (hfinish : finish P N stage call a = .ok result) (h : CanWrite P B stage call)
    (identity : String) : ∃ events, (write P B stage call identity result store).2.usage =
      store.usage ++ events ∧ (events.map UsageEventCreate.tokens).sum = result.tokens := by
  have hfinished := finished hfinish
  have htokens : result.tokens = tokensOf stage call := by
    rw [← attempt_tokens hattempt]
    exact Prod.ext hfinished.tokens.1 hfinished.tokens.2
  rcases tokensOf_cases stage call with hzero | ⟨response, hresponse, hne⟩
  · rw [hzero] at htokens
    rcases @write_cases F P N B stage call identity result store with ⟨-, -, -, husage⟩ | ⟨-, hstore⟩
    · refine ⟨_, husage, ?_⟩
      rw [List.map_singleton, List.sum_singleton]
      rfl
    · exact ⟨[], by rw [hstore, List.append_nil], htokens.symm⟩
  · obtain ⟨hopen, hstorable⟩ := h response hresponse hne
    obtain ⟨b, hb, hcomes⟩ := comes_of_response hkeeps hresponse hopen
    obtain rfl := Except.ok.inj (hattempt.symm.trans hb)
    refine ⟨_, write_of_storable hascii hcomes hfinished hstorable identity, ?_⟩
    rw [List.map_singleton, List.sum_singleton]
    rfl

/-! ### Runs -/

variable [Fintype ι]

/-- The tokens recorded and those still pending are the tokens received. -/
def StageRun.Balanced (usage : List UsageEventCreate) (s : StageRun ι F) : Prop :=
  ∃ events, s.store.usage = usage ++ events ∧
    (events.map UsageEventCreate.tokens).sum + ∑ i, (s.phase i).pending =
      (s.received.map ProviderResponse.tokens).sum

/-- What a step of one call does to what is pending. -/
lemma sum_pending_update (phase : ι → Phase F) (i : ι) (p : Phase F) :
    (∑ j, (Function.update phase i p j).pending) + (phase i).pending =
      (∑ j, (phase j).pending) + p.pending := by
  have hrest : ∑ j ∈ Finset.univ.erase i, (Function.update phase i p j).pending =
      ∑ j ∈ Finset.univ.erase i, (phase j).pending :=
    Finset.sum_congr rfl fun j hj => by rw [Function.update_of_ne (Finset.ne_of_mem_erase hj)]
  rw [← Finset.add_sum_erase _ _ (Finset.mem_univ i), ← Finset.add_sum_erase _ _ (Finset.mem_univ i),
    Function.update_self, hrest]
  abel

lemma lookup_pending (stage : Stage F) (store : StageStore F) :
    (lookup P N stage store).pending = 0 := by
  rcases lookup_cases stage store with ⟨_, -, heq⟩ | ⟨_, -, heq⟩ | ⟨_, heq⟩
  all_goals
    rw [heq]
    rfl

lemma write_pending (stage : Stage F) (call : StageCall F) (identity : String)
    (result : StageResult F) (store : StageStore F) :
    (write P B stage call identity result store).1.pending = 0 := by
  rw [write]
  cases storeResult P N B stage call identity result store <;> rfl

/-- A step that loses no tokens keeps the balance. -/
lemma Step.balanced (hascii : ReadsAscii P.unicode) (hkeeps : ∀ i, (call i).keepsResolution = true)
    {usage : List UsageEventCreate} (h : Step P B stage call s i t) (haccounts : Accounts P B stage call s i)
    (hinvariant : s.Invariant P N stage call) (hs : s.Balanced usage) : t.Balanced usage := by
  obtain ⟨events, husage, hsum⟩ := hs
  cases h with
  | looks hphase =>
      refine ⟨events, husage, ?_⟩
      have hupdate := sum_pending_update s.phase i (lookup P N (stage i) s.store)
      rw [lookup_pending, hphase] at hupdate
      rw [← hsum]
      exact congrArg _ hupdate
  | @answers identity hphase =>
      refine ⟨events, husage, ?_⟩
      have hupdate := sum_pending_update s.phase i (answer P N (stage i) (call i) identity)
      rw [answer_pending (hkeeps i) (haccounts.answers identity hphase), hphase] at hupdate
      have hzero : (Phase.asking identity : Phase F).pending = 0 := rfl
      rw [hzero, add_zero] at hupdate
      have hreceived : (((responseOf (stage i) (call i)).toList ++ s.received).map
          ProviderResponse.tokens).sum =
            tokensOf (stage i) (call i) + (s.received.map ProviderResponse.tokens).sum := by
        rw [List.map_append, List.sum_append, tokensOf]
        cases responseOf (stage i) (call i) <;> simp
      dsimp only
      rw [hupdate, hreceived, ← hsum]
      abel
  | @checks identity result hphase hfree =>
      obtain ⟨a, hattempt, hfinish⟩ := hinvariant.held i result (congrArg Phase.held hphase)
      refine ⟨events, husage, ?_⟩
      have hupdate := sum_pending_update s.phase i
        (recheck P B (stage i) (call i) identity result s.store)
      have hheld : (Phase.holding identity result).pending = result.tokens := rfl
      rw [recheck_pending hattempt hfinish (haccounts.checks identity result hphase), hphase,
        hheld] at hupdate
      rw [← hsum]
      exact congrArg _ (add_right_cancel hupdate)
  | @writes identity result locked hphase hfree =>
      obtain ⟨a, hattempt, hfinish⟩ := hinvariant.held i result (congrArg Phase.held hphase)
      obtain ⟨more, hmore, htokens⟩ := write_tokens hascii (hkeeps i) hattempt hfinish
        (haccounts.writes identity result locked hphase) identity
      refine ⟨events ++ more, ?_, ?_⟩
      · dsimp only
        rw [hmore, husage, List.append_assoc]
      · have hupdate := sum_pending_update s.phase i
          (write P B (stage i) (call i) identity result s.store).1
        have hheld : (Phase.writing identity result locked).pending = result.tokens := rfl
        rw [write_pending, hphase, hheld, add_zero] at hupdate
        dsimp only
        rw [List.map_append, List.sum_append, htokens, ← hsum, ← hupdate]
        abel

variable (P B) in
/-- Calls that have returned have returned one result, a call that begins after one has returned does
not ask the provider, and where no result waits to be stored the tokens recorded since are those
received. -/
structure OneResult (stage : ι → Stage F) (call : ι → StageCall F) (store : StageStore F)
    (s : StageRun ι F) : Prop where
  same : ∀ i j result other, s.phase i = .returned result → s.phase j = .returned other →
    SameResult result other
  unasked : ∀ i j result fs t, s.phase j = .returned result → s.phase i = .waiting →
    Runs (Step P B stage call) s fs t → i ∉ t.asked
  accounted : (∀ i, (s.phase i).held = none) →
    ∃ events, s.store.usage = store.usage ++ events ∧
      (events.map UsageEventCreate.tokens).sum = (s.received.map ProviderResponse.tokens).sum

/-- Calls of one identity, whose resolution stays as it is, have one result and account for their tokens
in every run in whose steps no response with tokens raises an error past the provider or meets a stored
row, and no write without a lock replaces one, if they bring one validator and a key of their own names
one content. -/
theorem oneResult_of_runs (hP : Function.Injective P.sha256) (hascii : ReadsAscii P.unicode)
    {identity : String} (hidentity : ∀ i, identityOf P N (stage i) = .ok identity)
    (hkeeps : ∀ i, (call i).keepsResolution = true)
    (hvalidator : ∀ i j, (stage i).validator = (stage j).validator)
    (hkeyed : ∀ i j, Keyed (stage i) → SameStage P N (stage i) (stage j))
    {store : StageStore F} {es : List ι}
    (h : Runs (fun s i t => Step P B stage call s i t ∧ Accounts P B stage call s i)
      (.start store) es s) : OneResult P B stage call store s := by
  have hstages : ∀ i j, SameStage P N (stage i) (stage j) := by
    intro i j
    by_cases hi : Keyed (stage i)
    · exact hkeyed i j hi
    by_cases hj : Keyed (stage j)
    · have hback := hkeyed j i hj
      exact ⟨fun hash => (hback.fields hash).symm, hback.input.symm⟩
    · exact sameStage_of_identity hP hi hj (hidentity i) (hidentity j)
  have hsame : ∀ i j row, existing P N (stage i) row = existing P N (stage j) row := fun i j row =>
    existing_eq_of_sameStage (hstages i j) (hvalidator i j) row
  have hkept : s.Invariant P N stage call ∧ s.Balanced store.usage := by
    refine h.invariant (I := fun s => s.Invariant P N stage call ∧ s.Balanced store.usage) ?_
      ⟨StageRun.invariant_start store, [], (List.append_nil _).symm, ?_⟩
    · rintro a i b ⟨hinvariant, hbalanced⟩ ⟨hstep, haccounts⟩
      exact ⟨hstep.invariant hsame haccounts.unlocked hinvariant,
        hstep.balanced hascii hkeeps haccounts hinvariant hbalanced⟩
    · have hstart : ∑ i, ((StageRun.start store : StageRun ι F).phase i).pending = 0 :=
        Finset.sum_eq_zero fun i _ => rfl
      rw [hstart]
      rfl
  obtain ⟨hinvariant, events, husage, hsum⟩ := hkept
  refine ⟨fun i j result other hi hj => hinvariant.sameResult hsame hi hj,
    fun i j result fs t hj hi hrun => not_asked_of_returned hsame hinvariant hj hi hrun,
    fun hquiet => ⟨events, husage, ?_⟩⟩
  have hzero : ∑ i, (s.phase i).pending = 0 := Finset.sum_eq_zero fun i _ => by
    rw [Phase.pending, hquiet i]
    rfl
  rw [← hsum, hzero, add_zero]

/-! ### Two compactions -/

/-- Two calls, both answered. -/
def answeredCall (i : Fin 2) : StageCall ℕ :=
  compactionCall (.ok ⟨noItems i.val, 12, 3⟩)

omit [Fintype ι] [DecidableEq ι] in
lemma accounts_of_waiting (h : s.phase i = .waiting) : Accounts P B stage call s i where
  answers := fun _ hphase => by cases h.symm.trans hphase
  checks := fun _ _ hphase => by cases h.symm.trans hphase
  writes := fun _ _ _ hphase => by cases h.symm.trans hphase
  unlocked := fun _ _ hphase => by cases h.symm.trans hphase

lemma answered_compaction (i : Fin 2) :
    Answered compactionStage (answeredCall i) ⟨noItems i.val, 12, 3⟩ :=
  ⟨by decide, rfl, rfl⟩

lemma answers_compaction {i : Fin 2} {output : JsonObject ℕ} :
    Answers compactionStage (answeredCall i) output ↔ noItems i.val = output := by
  constructor
  · rintro (⟨response, hresponse, rfl⟩ | ⟨-, hnone, -⟩)
    · exact congrArg ProviderResponse.output
        (Except.ok.inj ((answered_compaction i).2.1.symm.trans hresponse.2.1))
    · exact absurd ⟨_, answered_compaction i⟩ hnone
  · exact fun h => .inl ⟨_, answered_compaction i, h⟩

lemma accounts_compaction {s : StageRun (Fin 2) ℕ} (hrow : s.store.row = none) :
    Accounts identityPlatform tenthsBackend (fun _ => compactionStage) answeredCall s 0 where
  answers := fun identity _ response _ _ => ⟨.inl rfl, by decide, fun output houtput => by
    obtain rfl := answers_compaction.mp houtput
    decide⟩
  checks := fun identity result _ response _ _ => ⟨rfl, hrow.symm ▸ rfl⟩
  writes := fun identity result locked _ response _ _ =>
    ⟨.inl rfl, noItems 0, answers_compaction.mpr rfl, _, _, rfl, rfl, rfl, rfl⟩
  unlocked := fun identity result _ => hrow.symm ▸ rfl

lemma free_of_ne {s : StageRun (Fin 2) ℕ} {i j : Fin 2} (hij : i ≠ j)
    (h : (s.phase j).locking = false) : s.Free i := fun k hk => by
  obtain rfl : k = j := by omega
  exact h

theorem oneResult_of_runs_after : ∃ s, Runs (Step identityPlatform tenthsBackend
    (fun _ => compactionStage) answeredCall) (.start {}) [0, 0, 0, 0, 1] s ∧
    (∀ i, ∃ result, s.phase i = .returned result) ∧
      OneResult identityPlatform tenthsBackend (fun _ => compactionStage) answeredCall {} s := by
  have hrun : ∃ s, Runs (fun s i t => Step identityPlatform tenthsBackend (fun _ => compactionStage)
      answeredCall s i t ∧ Accounts identityPlatform tenthsBackend (fun _ => compactionStage)
        answeredCall s i) (.start {}) [0, 0, 0, 0, 1] s ∧
          ∀ i, ∃ result, s.phase i = .returned result := by
    have hne : (0 : Fin 2) ≠ 1 := by decide
    refine ⟨_, (((((Runs.refl).tail ⟨.looks (i := 0) rfl, accounts_of_waiting rfl⟩).tail
      ⟨.answers (i := 0) rfl, accounts_compaction rfl⟩).tail
        ⟨.checks (i := 0) rfl (free_of_ne hne rfl), accounts_compaction rfl⟩).tail
          ⟨.writes (i := 0) rfl (free_of_ne hne rfl), accounts_compaction rfl⟩).tail
            ⟨.looks (i := 1) rfl, accounts_of_waiting rfl⟩, fun i => ?_⟩
    fin_cases i
    · exact ⟨_, rfl⟩
    · exact ⟨_, rfl⟩
  obtain ⟨s, hrun, hphase⟩ := hrun
  refine ⟨s, hrun.imp fun h => h.1, hphase, ?_⟩
  exact oneResult_of_runs identityPlatform_sha256 readsAscii_latinPlatform (fun _ => rfl) (fun _ => rfl)
    (fun _ _ => rfl) (fun _ _ _ => ⟨fun _ => rfl, rfl⟩) hrun

/-- Two calls that look before either has stored its result. -/
lemma exists_run_beside : ∃ s, Runs (Step identityPlatform tenthsBackend (fun _ => compactionStage)
    answeredCall) (.start {}) [0, 1, 0, 1, 0, 0, 1] s ∧
    (∀ i, ∃ result, s.phase i = .returned result) ∧
    s.store.usage.map UsageEventCreate.tokens = [(12, 3)] ∧
    s.received.map ProviderResponse.tokens = [(12, 3), (12, 3)] := by
  have hne : (0 : Fin 2) ≠ 1 := by decide
  refine ⟨_, (((((((Runs.refl).tail (.looks (i := 0) rfl)).tail (.looks (i := 1) rfl)).tail
    (.answers (i := 0) rfl)).tail (.answers (i := 1) rfl)).tail
      (.checks (i := 0) rfl (free_of_ne hne rfl))).tail
        (.writes (i := 0) rfl (free_of_ne hne rfl))).tail
          (.checks (i := 1) rfl (free_of_ne hne.symm rfl)), fun i => ?_, rfl, rfl⟩
  fin_cases i
  · exact ⟨_, rfl⟩
  · exact ⟨_, rfl⟩

/-- An answer that arrives beside another one is paid for and not recorded. -/
theorem not_oneResult_beside : ¬∀ (call : Fin 2 → StageCall ℕ) (es : List (Fin 2))
    (s : StageRun (Fin 2) ℕ), (∀ i, (call i).keepsResolution = true) →
      Runs (Step identityPlatform tenthsBackend (fun _ => compactionStage) call) (.start {}) es s →
        OneResult identityPlatform tenthsBackend (fun _ => compactionStage) call {} s := by
  intro h
  obtain ⟨s, hrun, hphase, husage, hreceived⟩ := exists_run_beside
  obtain ⟨events, hevents, hsum⟩ := (h answeredCall _ s (fun _ => rfl) hrun).accounted
    fun i => by
      obtain ⟨returned, hreturned⟩ := hphase i
      rw [hreturned]
      rfl
  have hsame : s.store.usage = events := hevents
  rw [← hsame, husage, hreceived] at hsum
  exact absurd hsum (by decide)

end Memorist.StageInvocation
