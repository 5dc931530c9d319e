import Memorist.Imports.LeaseSafety

/-!
The cancel of an import, against the commits and the workers that run beside it.

* `changeDiscipline`: a program that changes a run has found it neither cancelled nor paused, or
  controls it;
* `ImportStore.Cancelled`: a run is cancelled, and its messages are settled;
* `Cancelled.step`: a program that holds nothing of a cancelled run leaves it as it is;
* `cancel_stays`: what a cancel settles stays so, if it finds the run as it left it and no program
  past its check; `cancel_overwritten`: a batch past its check.
-/

namespace Memorist

/-! ### What is found of a run before it is changed -/

/-- The program may change the run: it found it neither cancelled nor paused, or it controls it. -/
def RunHeld.mayChange (g : RunHeld) : Bool := g.resumes || g.retries || g.checked

/-- What changes a run, its conversations and its messages, and what is found of it before. -/
def changeDiscipline (r : String) : Discipline ImportEffect.Response Bool where
  requires g e :=
    match e with
    | .setRunStatus run _ => run = r → g
    | .finishRun run status => run = r → status = .cancelled ∨ g
    | .setControl run _ cancelled => run = r → cancelled = some false → g
    | .markConversation run _ _ _ _ => run = r → g
    | .insertStatus row => row.importRunUuid = r → g
    | .requeueFailed run _ => run = r → g
    | _ => True
  after g e response :=
    match e, response with
    | .getRun run, .ok status => g || (run = r && Option.any
        (fun st => st ≠ .cancelled && st ≠ .paused) status)
    | .getControl run, .ok control => g || (run = r && !ImportControl.cancelled control)
    | _, _ => g

/-- The program holds nothing of the run: it changes it only if it first finds it neither cancelled
nor paused. -/
def Unchecked (r : String) (p : ImportProgram Unit) : Prop :=
  Prog.Keeps (changeDiscipline r) (fun _ _ => True) false p

/-- A request that does not control the run holds nothing of it. -/
lemma ImportRequest.unchecked (P : ImportPlatform) {r : String} {request : ImportRequest}
    (h : (request.held r).mayChange = false) : Unchecked r (request.program P) := by
  unfold Unchecked
  rw [← h]
  refine (request.keeps P r _ (.refl _)).map RunHeld.mayChange ?_ ?_
  · intro g e hreq
    unfold RunHeld.mayChange
    cases e with
    | setRunStatus run status => exact fun hrun => by simp [(hreq hrun).1]
    | finishRun run status => exact fun hrun => (hreq hrun).imp_right fun h => by simp [h.1]
    | setControl run paused cancelled => exact fun hrun hfalse => by simp [hreq hrun hfalse]
    | markConversation run row status sessionUuid links =>
        exact fun hrun => by simp [(hreq hrun).1]
    | insertStatus row => exact fun hrun => by simp [(hreq hrun).1.1]
    | requeueFailed run names =>
        intro hrun
        have hretries : g.retries := hreq hrun
        simp [hretries]
    | _ => trivial
  · intro g e response
    unfold RunHeld.mayChange changeDiscipline runDiscipline runAfter
    cases e <;> cases response <;> dsimp only <;> simp [Bool.or_assoc]

/-! ### Cancelled runs -/

/-- The run is cancelled, and no message of it is in the queue or in work. -/
structure ImportStore.Cancelled (s : ImportStore) (r : String) : Prop where
  status : s.runStatus r = some .cancelled
  flag : (s.control r).cancelled
  settled : ∀ row ∈ s.statuses.ofRun r, row.status.isTerminal

/-- The run has the same conversations and the same processing statuses, each as it was. -/
structure ImportStore.SameRun (r : String) (s t : ImportStore) : Prop where
  conversations : t.conversationsOf r = s.conversationsOf r
  statuses : ∀ row, row ∈ t.statuses.ofRun r ↔ row ∈ s.statuses.ofRun r

section

variable {U : UnicodeData} {r : String} {s t u : ImportStore} {e : ImportEffect}
  {response : e.Response}

lemma ImportStore.SameRun.refl : s.SameRun r s := ⟨rfl, fun _ => Iff.rfl⟩

lemma ImportStore.SameRun.trans (h : s.SameRun r t) (h' : t.SameRun r u) : s.SameRun r u :=
  ⟨h'.conversations.trans h.conversations, fun row => (h'.statuses row).trans (h.statuses row)⟩

/-- A program that holds nothing of a run leaves its status once it is cancelled. -/
lemma ImportStore.Cancelled.status_step (h : s.Cancelled r)
    (hreq : (changeDiscipline r).requires false e) (heffect : importEffect U s e response t) :
    t.runStatus r = some .cancelled := by
  rcases (importEffect_change heffect).runs_eq with ⟨run, status, he, hruns⟩ | hruns
  · rw [ImportStore.runStatus_congr hruns]
    by_cases hrun : r = run
    · subst hrun
      rw [ImportStore.runStatus_setRunStatus, h.status, Option.map_some]
      rcases he with rfl | rfl | ⟨rfl, rfl⟩ | ⟨⟨names, rfl⟩, rfl⟩
      · exact absurd (hreq rfl) (by simp)
      · rw [(hreq rfl).resolve_right (by simp)]
      · rfl
      · exact absurd (hreq rfl) (by simp)
    · rw [ImportStore.runStatus_setRunStatus_of_ne status hrun, h.status]
  · rw [ImportStore.runStatus_congr hruns, h.status]

/-- A program that holds nothing of a cancelled run leaves its conversations and messages. -/
lemma ImportStore.Cancelled.sameRun_step (h : s.Cancelled r)
    (hreq : (changeDiscipline r).requires false e) (heffect : importEffect U s e response t) :
    s.SameRun r t := by
  refine ⟨?_, ofRun_step heffect h.settled (fun new he hrun => ?_) fun names he => ?_⟩
  · rcases (importEffect_change heffect).conversations_eq with
      ⟨run, row, status, sessionUuid, links, rfl, hconversations⟩ | hconversations
    · have hrun : r ≠ run := fun hrun => absurd (hreq hrun.symm) (by simp)
      rw [ImportStore.conversationsOf, hconversations]
      exact ImportStore.conversationsOf_markConversation_of_ne hrun
    · rw [ImportStore.conversationsOf, hconversations, ImportStore.conversationsOf]
  · subst he
    exact absurd (hreq hrun) (by simp)
  · subst he
    exact absurd (hreq rfl) (by simp)

/-- A program that holds nothing of a cancelled run leaves it as it is. -/
lemma ImportStore.Cancelled.step (h : s.Cancelled r)
    (hreq : (changeDiscipline r).requires false e) (heffect : importEffect U s e response t) :
    t.Cancelled r ∧ s.SameRun r t ∧ (changeDiscipline r).after false e response = false := by
  have hsame := h.sameRun_step hreq heffect
  refine ⟨⟨h.status_step hreq heffect, ?_,
    fun row hrow => h.settled row ((hsame.statuses row).mp hrow)⟩, hsame, ?_⟩
  · refine importEffect_cancelled heffect (fun paused he => ?_) h.flag
    subst he
    exact absurd (hreq rfl rfl) (by simp)
  · cases response with
    | error error => cases e <;> rfl
    | ok answer =>
        cases e with
        | getRun run =>
            obtain ⟨hanswer, -⟩ := heffect
            by_cases hrun : run = r
            · subst hrun
              rw [hanswer, h.status]
              simp [changeDiscipline]
            · simp [changeDiscipline, hrun]
        | getControl run =>
            obtain ⟨hanswer, -⟩ := heffect
            by_cases hrun : run = r
            · subst hrun
              rw [hanswer]
              simp [changeDiscipline, h.flag]
            · simp [changeDiscipline, hrun]
        | _ => rfl

end

/-! ### Cancels -/

/-- The request neither resumes the run nor retries its messages. -/
def ImportRequest.Leaves (r : String) (request : ImportRequest) : Prop :=
  request ≠ .resume r ∧ request ≠ .retryFailed r

lemma ImportRequest.Leaves.mayChange {r : String} {request : ImportRequest}
    (h : request.Leaves r) (hpause : request ≠ .pause r) :
    (request.held r).mayChange = false := by
  cases request with
  | resume run =>
      have hrun : run ≠ r := fun hrun => h.1 (hrun ▸ rfl)
      simp [ImportRequest.held, RunHeld.mayChange, hrun]
  | retryFailed run =>
      have hrun : run ≠ r := fun hrun => h.2 (hrun ▸ rfl)
      simp [ImportRequest.held, RunHeld.mayChange, hrun]
  | pause run =>
      have hrun : run ≠ r := fun hrun => hpause (hrun ▸ rfl)
      simp [ImportRequest.held, RunHeld.mayChange, hrun]
  | _ => rfl

/-- The first statement of a cancel settles the run. -/
lemma cancelRun_settled {s : ImportStore} {r : String} {status : ImportRunStatus}
    (hstatus : s.runStatus r = some status) : (s.cancelRun r).runStatus r = some .cancelled ∧
      ∀ row ∈ (s.cancelRun r).statuses.ofRun r, row.status.isTerminal := by
  refine ⟨?_, fun row' hrow' => ?_⟩
  · have hsame : ∀ statuses, ({ s with statuses } : ImportStore).runStatus r = some status :=
      fun _ => hstatus
    rw [ImportStore.cancelRun, ImportStore.runStatus_setRunStatus, hsame, Option.map_some]
  · obtain ⟨hmem, hrun⟩ := List.mem_filter.mp hrow'
    obtain ⟨row₀, -, rfl⟩ := List.mem_map.mp hmem
    split_ifs at hrun ⊢ with hactive
    · rfl
    · simp only [ImportStore.activeOf, Bool.and_eq_true, not_and] at hactive
      simpa using hactive hrun

/-- Once a cancel has found the run still cancelled, its messages settled, and no program that has
found it neither cancelled nor paused before, it stays so until it is resumed, unless it is paused:
its status, its conversations and its messages. -/
theorem cancel_stays (P : ImportPlatform) {r : String} {pool₀ pool pool' : ImportPool}
    {labels : List (Option (Performed ImportEffect.Response))}
    (hcancel : ImportStep P (fun _ => True) pool₀
      (some ⟨.setControl r none (some true), .ok ()⟩) pool)
    (hstatus : pool₀.shared.runStatus r = some .cancelled)
    (hsettled : ∀ row ∈ pool₀.shared.statuses.ofRun r, row.status.isTerminal)
    (hunchecked : ∀ p ∈ pool.running, Unchecked r p)
    (hruns : Runs (ImportStep P fun request => request.Leaves r ∧ request ≠ .pause r) pool labels
      pool') :
    pool'.shared.runStatus r = some .cancelled ∧ (pool'.shared.control r).cancelled ∧
      pool'.shared.conversationsOf r = pool.shared.conversationsOf r ∧
        (∀ row, row ∈ pool'.shared.statuses.ofRun r ↔ row ∈ pool.shared.statuses.ofRun r) ∧
          ∀ row ∈ pool'.shared.statuses.ofRun r, row.status.isTerminal := by
  have hshared : pool.shared = pool₀.shared.setControl r none (some true) :=
    PoolStep.effect_of_some hcancel
  have hcancelled : pool.shared.Cancelled r := by
    rw [hshared]
    exact ⟨hstatus, by simp, hsettled⟩
  obtain ⟨held, hholds, hheld⟩ := PoolStep.holds_of_forall hunchecked
  obtain ⟨-, -, -, hend, hsame⟩ := PoolStep.invariant_from (changeDiscipline r) false
    (I := fun (s : ImportStore) (held : Multiset Bool) _ =>
      (∀ g ∈ held, g = false) ∧ s.Cancelled r ∧ pool.shared.SameRun r s)
    (fun p ⟨request, ⟨hleaves, hpause⟩, hp⟩ => hp ▸ request.unchecked P (hleaves.mayChange hpause))
    (fun ⟨hheld, h⟩ => ⟨Multiset.forall_mem_cons.mpr ⟨rfl, hheld⟩, h⟩)
    (fun ⟨hheld, h⟩ => ⟨(Multiset.forall_mem_cons.mp hheld).2, h⟩)
    (fun ⟨hheld, hcancelled, hsame⟩ hreq heffect => by
      obtain ⟨rfl, hothers⟩ := Multiset.forall_mem_cons.mp hheld
      obtain ⟨hcancelled, hsame', hafter⟩ := hcancelled.step hreq heffect
      exact ⟨Multiset.forall_mem_cons.mpr ⟨hafter, hothers⟩, hcancelled, hsame.trans hsame'⟩)
    hholds ⟨hheld, hcancelled, .refl⟩ hruns
  exact ⟨hend.status, hend.flag, hsame.conversations, hsame.statuses, hend.settled⟩

lemma nodup_plannedRun :
    (([⟨"r1", .dryRun⟩] : List ImportRunRow).map ImportRunRow.importRunUuid).Nodup := by decide

/-- A run that is to be committed. -/
def plannedStore : ImportStore where
  runs := ⟨[⟨"r1", .dryRun⟩], nodup_plannedRun⟩

/-- A batch that comes after a cancel. -/
theorem cancel_stays_before_batch : ∃ (pool pool' : ImportPool) (labels : List _),
    Runs (ImportStep plainImports fun request => request.Leaves "r1" ∧ request ≠ .pause "r1") pool
      labels pool' ∧
    (⟨.getRun "r1", .ok (some ImportRunStatus.cancelled)⟩ : Performed ImportEffect.Response) ∈
      labels.reduceOption ∧ pool'.shared.runStatus "r1" = some .cancelled := by
  let s := (plannedStore.cancelRun "r1").setControl "r1" none (some true)
  let commit : ImportRequest := .commitBatch "r1" .none 100 500
  have hcancel : ImportStep plainImports (fun _ => True)
      ⟨plannedStore.cancelRun "r1",
        Fallible.ask (.setControl "r1" none (some true)) (fun () => Fallible.pure ()) ::ₘ 0⟩
      (some ⟨.setControl "r1" none (some true), .ok ()⟩) ⟨s, Fallible.pure () ::ₘ 0⟩ := .act rfl
  obtain ⟨q, hcommit⟩ : ∃ q, Prog.Exec (importEffect basicLatin) s (commit.program plainImports)
      [⟨.checkPlan "r1" .none, .ok ()⟩, ⟨.getRun "r1", .ok (some ImportRunStatus.cancelled)⟩] q s :=
    ⟨_, .call rfl (.call ⟨rfl, rfl⟩ (.refl _ _))⟩
  have hruns : Runs (ImportStep plainImports fun request => request.Leaves "r1" ∧
      request ≠ .pause "r1") ⟨s, Fallible.pure () ::ₘ 0⟩ _ ⟨s, q ::ₘ Fallible.pure () ::ₘ 0⟩ :=
    (Runs.refl.tail (.start ⟨commit, by simp [commit, ImportRequest.Leaves], rfl⟩)).trans
      (PoolStep.runs_exec hcommit _)
  obtain ⟨hstatus, hsettled⟩ := cancelRun_settled
    (show plannedStore.runStatus "r1" = some .dryRun from rfl)
  exact ⟨_, _, _, hruns, by simp [List.reduceOption], (cancel_stays plainImports hcancel hstatus
    hsettled (by simp [Unchecked, Fallible.pure]) hruns).1⟩

/-- Once the cancel of a run has ended it stays cancelled until it is resumed: its status, its
conversations, and its messages, none of which is queued, in work or processed later on. -/
def CancelWins (P : ImportPlatform) (r : String) : Prop :=
  ∀ s₀ labels pool₀ pool labels' pool',
    Runs (ImportStep P (ImportRequest.Leaves r)) ⟨s₀, 0⟩ labels pool₀ →
    ImportStep P (fun _ => True) pool₀ (some ⟨.setControl r none (some true), .ok ()⟩) pool →
    Runs (ImportStep P (ImportRequest.Leaves r)) pool labels' pool' →
      pool'.shared.runStatus r = some .cancelled ∧
        pool'.shared.conversationsOf r = pool.shared.conversationsOf r ∧
          ∀ row, row ∈ pool'.shared.statuses.ofRun r ↔ row ∈ pool.shared.statuses.ofRun r

/-- A batch that has found its run to go on takes it out of its cancel. -/
theorem cancel_overwritten : ¬ CancelWins plainImports "r1" := by
  intro h
  let commit : ImportRequest := .commitBatch "r1" .none 100 500
  let cancel : ImportRequest := .cancel "r1"
  obtain ⟨q, hcheck, q', hcommit⟩ : ∃ q, Prog.Exec (importEffect basicLatin) plannedStore
      (commit.program plainImports)
      [⟨.checkPlan "r1" .none, .ok ()⟩, ⟨.getRun "r1", .ok (some ImportRunStatus.dryRun)⟩] q
        plannedStore ∧ ∃ q', ∀ s, Prog.Exec (importEffect basicLatin) s q
          [⟨.setRunStatus "r1" .committing, .ok ()⟩] q' (s.setRunStatus "r1" .committing) :=
    ⟨_, .call rfl (.call ⟨rfl, rfl⟩ (.refl _ _)), _, fun _ => .call rfl (.refl _ _)⟩
  have hstart : Runs (ImportStep plainImports (ImportRequest.Leaves "r1")) ⟨plannedStore, 0⟩ _
      ⟨plannedStore, q ::ₘ 0⟩ :=
    (Runs.refl.tail (.start ⟨commit, by simp [commit, ImportRequest.Leaves], rfl⟩)).trans
      (PoolStep.runs_exec hcheck 0)
  -- the cancel runs between the check of the batch and what it writes
  obtain ⟨p, hcancel, p', hflag⟩ : ∃ p,
      ImportStep plainImports (ImportRequest.Leaves "r1")
        ⟨plannedStore, cancel.program plainImports ::ₘ q ::ₘ 0⟩ (some ⟨.cancelRun "r1", .ok ()⟩)
        ⟨plannedStore.cancelRun "r1", p ::ₘ q ::ₘ 0⟩ ∧ ∃ p', ∀ s : ImportStore,
          ImportStep plainImports (fun _ => True) ⟨s, p ::ₘ q ::ₘ 0⟩
            (some ⟨.setControl "r1" none (some true), .ok ()⟩)
            ⟨s.setControl "r1" none (some true), p' ::ₘ q ::ₘ 0⟩ :=
    ⟨_, .act rfl, _, fun _ => .act rfl⟩
  have hbefore := (hstart.tail (.start ⟨cancel, by simp [cancel, ImportRequest.Leaves], rfl⟩)).tail
    hcancel
  have hafter : Runs (ImportStep plainImports (ImportRequest.Leaves "r1"))
      ⟨(plannedStore.cancelRun "r1").setControl "r1" none (some true), p' ::ₘ q ::ₘ 0⟩ _ _ :=
    (Runs.refl.tail .stop).trans (PoolStep.runs_exec (hcommit _) 0)
  have hstatus := (h _ _ _ _ _ _ hbefore (hflag _) hafter).1
  dsimp only at hstatus
  exact absurd hstatus (by decide)

end Memorist
