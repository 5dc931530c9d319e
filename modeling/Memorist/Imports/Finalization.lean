import Memorist.Imports.Cancellation

/-!
The end of an import whose messages are processed.

* `batchDiscipline`, `reportDiscipline`: messages are added by a program that has conversations to
  commit, and a run is ended by one whose last report says so, and that has found since that it goes
  on;
* `ImportStore.Finished`: a run that has ended has its conversations and messages settled;
* `FinalizationKept`: what the requests keep between them, if each report that ends a run which goes
  on is read while no batch is on its way, and the run is retried or resumed while no report at hand
  is out of date;
* `finalized_is_finished`: a run that has ended is finished; `finalized_before_commit`: one that is
  ended before its commit.
-/

namespace Memorist

/-! ### What is read of a run before it is ended -/

/-- Messages of a run are added by a program that has found conversations of it to commit. -/
def batchDiscipline (r : String) : Discipline ImportEffect.Response Bool where
  requires g e :=
    match e with
    | .insertStatus row => row.importRunUuid = r → g
    | .markConversation run _ status _ _ => run = r → status ≠ .pending
    | _ => True
  after g e response :=
    match e, response with
    | .pendingConversations run _, .ok rows => g || (run = r && !List.isEmpty rows)
    | _, _ => g

/-- What the last report of a run says, and how it is to end. -/
structure RunReport where
  report : Option (Option ImportRunStatus) := none
  decided : Option ImportRunStatus := none

/-- What a program holds of the end of a run. -/
def RunHeld.runReport (g : RunHeld) : RunReport := ⟨g.report, g.decided⟩

/-- A run is ended by a program whose last report says how, and that has found since that the run
goes on. -/
def reportDiscipline (r : String) : Discipline ImportEffect.Response RunReport where
  requires g e :=
    match e with
    | .setRunStatus run status => run = r → !status.isFinal
    | .finishRun run status => run = r → status.isFinal → g.decided = some status
    | _ => True
  after g e response :=
    match e, response with
    | .statusReport run, .ok rows =>
        { g with report := if run = r then some (finalStatus rows) else g.report }
    | .getControl run, .ok control =>
        { g with
          decided :=
            if run = r then if ImportControl.goesOn control then g.report.join else none
            else g.decided }
    | _, _ => g

/-- The program has no conversations of the run to commit. -/
def NoBatch (r : String) (p : ImportProgram Unit) : Prop :=
  Prog.Keeps (batchDiscipline r) (fun _ _ => True) false p

/-- The program has no report of the run that ends it. -/
def NoReport (r : String) (p : ImportProgram Unit) : Prop :=
  Prog.Keeps (reportDiscipline r) (fun _ _ => True) {} p

/-- A request finds the conversations that it commits. -/
lemma ImportRequest.noBatch (P : ImportPlatform) (r : String) (request : ImportRequest) :
    NoBatch r (request.program P) := by
  have hheld : (request.held r).batch = false := by cases request <;> rfl
  unfold NoBatch
  rw [← hheld]
  refine (request.keeps P r _ (.refl _)).map RunHeld.batch ?_ ?_
  · intro g e hreq
    cases e with
    | markConversation run row status sessionUuid links => exact fun hrun => (hreq hrun).2
    | insertStatus row => exact fun hrun => (hreq hrun).1.2
    | _ => trivial
  · intro g e response
    unfold batchDiscipline runDiscipline runAfter
    cases e <;> cases response <;> rfl

/-- A request reads the report that it ends a run with. -/
lemma ImportRequest.noReport (P : ImportPlatform) (r : String) (request : ImportRequest) :
    NoReport r (request.program P) := by
  have hheld : (request.held r).runReport = {} := by cases request <;> rfl
  unfold NoReport
  rw [← hheld]
  refine (request.keeps P r _ (.refl _)).map RunHeld.runReport ?_ ?_
  · intro g e hreq
    cases e with
    | setRunStatus run status => exact fun hrun => (hreq hrun).2
    | finishRun run status =>
        intro hrun hfinal
        rcases hreq hrun with rfl | ⟨-, rfl | hreport⟩
        · exact absurd hfinal (by decide)
        · exact absurd hfinal (by decide)
        · exact hreport
    | _ => trivial
  · intro g e response
    unfold reportDiscipline runDiscipline runAfter
    cases e <;> cases response <;> rfl

/-! ### Finished runs -/

/-- A run that has ended has no conversation to commit and no message to process, and it has ended
with failures if some message has failed. -/
def ImportStore.Finished (s : ImportStore) (r : String) : Prop :=
  ∀ status, s.runStatus r = some status → status.isFinal →
    (∀ row ∈ s.conversationsOf r, row.commitStatus ≠ .pending) ∧
      (∀ row ∈ s.statuses.ofRun r, row.status.isTerminal) ∧
        (status = .completedWithFailures ↔ ∃ row ∈ s.statuses.ofRun r, row.status = .failed)

lemma finalStatus_eq_some {rows : List StatusRow} {status : ImportRunStatus} :
    finalStatus rows = some status ↔ (∀ row ∈ rows, row.status.isTerminal) ∧ status.isFinal ∧
      (status = .completedWithFailures ↔ ∃ row ∈ rows, row.status = .failed) := by
  unfold finalStatus
  split_ifs with hnil hactive hfailed
  · subst hnil
    cases status <;> simp [ImportRunStatus.isFinal]
  · simp only [Bool.not_eq_true', List.all_eq_false] at hactive
    obtain ⟨row, hrow, hactive⟩ := hactive
    refine iff_of_false (by simp) fun h => hactive (h.1 row hrow)
  · have hall : ∀ row ∈ rows, row.status.isTerminal := by simpa using hactive
    have hsome : ∃ row ∈ rows, row.status = .failed := by simpa using hfailed
    cases status <;> simp [ImportRunStatus.isFinal, hsome]
    exact hall
  · have hall : ∀ row ∈ rows, row.status.isTerminal := by simpa using hactive
    have hnone : ¬ ∃ row ∈ rows, row.status = .failed := by simpa using hfailed
    cases status <;> simp [ImportRunStatus.isFinal, hnone]
    exact hall

/-- The end of a run depends on its messages alone. -/
lemma finalStatus_congr {rows rows' : List StatusRow} {status : ImportRunStatus}
    (h : ∀ row, row ∈ rows' ↔ row ∈ rows) (hrows : finalStatus rows = some status) :
    finalStatus rows' = some status := by
  rw [finalStatus_eq_some] at hrows ⊢
  simpa [h] using hrows

/-- The run may end with a status: its conversations are settled, none is on its way, and its
messages say so. -/
structure EndsWith (r : String) (pool : ImportPool) (status : ImportRunStatus) : Prop where
  pending : pool.shared.pendingOf r = []
  noBatch : ∀ p ∈ pool.running, NoBatch r p
  report : finalStatus (pool.shared.statuses.ofRun r) = some status

/-- What a program holds of the end of the run is so: how it is to end it, and what its last report
says, which matters while the run goes on. -/
def ReportHolds (r : String) (pool : ImportPool) (goesOn : Prop) (p : ImportProgram Unit) : Prop :=
  ∃ g, Prog.Keeps (reportDiscipline r) (fun _ _ => True) g p ∧
    (∀ status, g.decided = some status → EndsWith r pool status) ∧
    (goesOn → ∀ status, g.report = some (some status) → EndsWith r pool status)

/-- A report that ends a run which goes on is read once its conversations are settled and no batch is
on its way, the messages of the run are retried while no program has such a report, and the run is
resumed while what its programs hold is so. -/
structure FinalizesAlone (r : String) (a : ImportPool) (x : Option (Performed ImportEffect.Response))
    (b : ImportPool) : Prop where
  reported : ∀ rows, x = some ⟨.statusReport r, .ok rows⟩ → finalStatus rows ≠ none →
    (a.shared.control r).goesOn → a.shared.pendingOf r = [] ∧ ∀ p ∈ b.running, NoBatch r p
  retried : ∀ names, x = some ⟨.requeueFailed r names, .ok ()⟩ → ∀ p ∈ b.running, NoReport r p
  resumed : ∀ paused cancelled, x = some ⟨.setControl r paused cancelled, .ok ()⟩ →
    ¬(a.shared.control r).goesOn → (b.shared.control r).goesOn →
      ∀ p ∈ b.running, ReportHolds r b True p

/-- What the requests keep between them: a run that has ended may end so, as may one that a program
has a report of, if the run goes on. -/
structure FinalizationKept (r : String) (pool : ImportPool) : Prop where
  ended : ∀ status, pool.shared.runStatus r = some status → status.isFinal →
    EndsWith r pool status
  reports : ∀ p ∈ pool.running, ReportHolds r pool ((pool.shared.control r).goesOn) p

section

variable {P : ImportPlatform} {allowed : ImportRequest → Prop} {r : String} {a b : ImportPool}
  {x : Option (Performed ImportEffect.Response)} {status : ImportRunStatus}

/-- Conversations that are settled stay so. -/
lemma pendingOf_step {U : UnicodeData} {s t : ImportStore} {e : ImportEffect}
    {response : e.Response} (hpending : s.pendingOf r = []) {g : Bool}
    (hreq : (batchDiscipline r).requires g e) (heffect : importEffect U s e response t) :
    t.pendingOf r = [] := by
  rcases (importEffect_change heffect).conversations_eq with
    ⟨run, row, status, sessionUuid, links, rfl, hconversations⟩ | hconversations
  · rw [ImportStore.pendingOf, ImportStore.conversationsOf, hconversations]
    by_cases hrun : run = r
    · subst hrun
      exact ImportStore.pendingOf_markConversation (hreq rfl) hpending
    · rw [← ImportStore.conversationsOf,
        ImportStore.conversationsOf_markConversation_of_ne (Ne.symm hrun)]
      exact hpending
  · rw [ImportStore.pendingOf, ImportStore.conversationsOf, hconversations]
    exact hpending

/-- A program that asks for conversations of a settled run finds none. -/
lemma batchDiscipline_after {U : UnicodeData} {s t : ImportStore} {e : ImportEffect}
    {response : e.Response} (hpending : s.pendingOf r = [])
    (heffect : importEffect U s e response t) :
    (batchDiscipline r).after false e response = false := by
  cases response with
  | error error => cases e <;> rfl
  | ok answer =>
      cases e with
      | pendingConversations run limit =>
          by_cases hrun : run = r
          · subst hrun
            have hnil : answer = [] := List.subperm_nil.mp (hpending ▸ heffect.1)
            simp [batchDiscipline, hnil]
          · simp [batchDiscipline, hrun]
      | _ => rfl

/-- A run that may end may still do so, unless it is retried. -/
lemma EndsWith.step (h : EndsWith r a status) (hstep : ImportStep P allowed a x b)
    (hretry : ∀ names, x ≠ some ⟨.requeueFailed r names, .ok ()⟩) : EndsWith r b status := by
  obtain ⟨hpending, hnoBatch, hreport⟩ := h
  cases hstep with
  | start hstarts =>
      obtain ⟨request, -, rfl⟩ := hstarts
      exact ⟨hpending, Multiset.forall_mem_cons.mpr ⟨request.noBatch P r, hnoBatch⟩, hreport⟩
  | stop => exact ⟨hpending, (Multiset.forall_mem_cons.mp hnoBatch).2, hreport⟩
  | @act s t ps e k response heffect =>
      obtain ⟨⟨hreq, hk⟩, hothers⟩ := Multiset.forall_mem_cons.mp hnoBatch
      have hkeeps := hk response
      rw [batchDiscipline_after hpending heffect] at hkeeps
      refine ⟨pendingOf_step hpending hreq heffect,
        Multiset.forall_mem_cons.mpr ⟨hkeeps, hothers⟩, ?_⟩
      cases response with
      | error error =>
          obtain rfl := heffect.1
          exact hreport
      | ok answer =>
          refine finalStatus_congr (ofRun_step heffect (finalStatus_eq_some.mp hreport).1 ?_ ?_)
            hreport
          · rintro new rfl hrun
            exact absurd (hreq hrun) (by simp)
          · rintro names rfl
            exact hretry names rfl

/-- Whether a run goes on is decided by the requests that control it. -/
lemma goesOn_step {s t : ImportStore} {ps qs : Multiset (ImportProgram Unit)} {e : ImportEffect}
    {response : e.Response} (heffect : importEffect P.unicode s e response t)
    (halone : FinalizesAlone r ⟨s, ps⟩ (some ⟨e, response⟩) ⟨t, qs⟩)
    (hon : (t.control r).goesOn) :
    (s.control r).goesOn ∨ ∀ p ∈ qs, ReportHolds r ⟨t, qs⟩ True p := by
  by_cases hbefore : (s.control r).goesOn = true
  · exact .inl hbefore
  rcases (importEffect_change heffect).control_eq with ⟨run, paused, cancelled, rfl, rfl⟩ | heq
  · by_cases hrun : run = r
    · subst hrun
      cases response with
      | error error =>
          rw [heffect.1] at hon
          exact absurd hon hbefore
      | ok answer => exact .inr (halone.resumed paused cancelled rfl hbefore hon)
    · have hsame : (s.setControl run paused cancelled).control r = s.control r :=
        Function.update_of_ne (Ne.symm hrun) _ _
      rw [hsame] at hon
      exact absurd hon hbefore
  · rw [heq] at hon
    exact absurd hon hbefore

/-- What a program holds after a statement of its own is so. -/
lemma FinalizationKept.report_step {s t : ImportStore} {ps : Multiset (ImportProgram Unit)}
    {e : ImportEffect} {k : e.Response → ImportProgram Unit} {response : e.Response}
    (h : FinalizationKept r ⟨s, .call e k ::ₘ ps⟩)
    (heffect : importEffect P.unicode s e response t)
    (halone : FinalizesAlone r ⟨s, .call e k ::ₘ ps⟩ (some ⟨e, response⟩) ⟨t, k response ::ₘ ps⟩)
    (hends : ∀ status, EndsWith r ⟨s, .call e k ::ₘ ps⟩ status →
      EndsWith r ⟨t, k response ::ₘ ps⟩ status) :
    ReportHolds r ⟨t, k response ::ₘ ps⟩ (s.control r).goesOn (k response) := by
  obtain ⟨g, ⟨-, hk⟩, hdecided, hreport⟩ := h.reports _ (Multiset.mem_cons_self _ _)
  refine ⟨_, hk response, fun status hg => ?_, fun hon status hg => ?_⟩
  · have hkept : ((reportDiscipline r).after g e response).decided = g.decided →
        EndsWith r ⟨t, k response ::ₘ ps⟩ status :=
      fun heq => hends status (hdecided status (heq.symm.trans hg))
    cases response with
    | error error => exact hkept (by cases e <;> rfl)
    | ok answer =>
        cases e with
        | getControl run =>
            by_cases hrun : run = r
            · subst hrun
              obtain ⟨rfl, rfl⟩ := heffect
              simp only [reportDiscipline, if_true] at hg
              split_ifs at hg with hon
              exact hends status (hreport hon status (Option.join_eq_some_iff.mp hg))
            · exact hkept (by simp [reportDiscipline, hrun])
        | _ => exact hkept rfl
  · have hkept : ((reportDiscipline r).after g e response).report = g.report →
        EndsWith r ⟨t, k response ::ₘ ps⟩ status :=
      fun heq => hends status (hreport hon status (heq.symm.trans hg))
    cases response with
    | error error => exact hkept (by cases e <;> rfl)
    | ok answer =>
        cases e with
        | statusReport run =>
            by_cases hrun : run = r
            · subst hrun
              obtain ⟨hanswer, rfl⟩ := heffect
              have hfinal : finalStatus answer = some status := by
                simpa [reportDiscipline] using hg
              obtain ⟨hpending, hnoBatch⟩ :=
                halone.reported answer rfl (by rw [hfinal]; simp) hon
              exact ⟨hpending, hnoBatch, hanswer ▸ hfinal⟩
            · exact hkept (by simp [reportDiscipline, hrun])
        | _ => exact hkept rfl

/-- A run is ended by a program that has a report of it. -/
lemma FinalizationKept.ended_step {s t : ImportStore} {ps : Multiset (ImportProgram Unit)}
    {e : ImportEffect} {k : e.Response → ImportProgram Unit} {response : e.Response}
    (h : FinalizationKept r ⟨s, .call e k ::ₘ ps⟩)
    (heffect : importEffect P.unicode s e response t) (hstatus : t.runStatus r = some status)
    (hfinal : status.isFinal) :
    EndsWith r ⟨s, .call e k ::ₘ ps⟩ status := by
  have hkept : t.runStatus r = s.runStatus r → EndsWith r ⟨s, .call e k ::ₘ ps⟩ status :=
    fun heq => h.ended status (heq.symm.trans hstatus) hfinal
  rcases (importEffect_change heffect).runs_eq with ⟨run, status', he, hruns⟩ | hruns
  · by_cases hrun : r = run
    · subst hrun
      obtain ⟨g, ⟨hreq, -⟩, hdecided, -⟩ := h.reports _ (Multiset.mem_cons_self _ _)
      have hsame : status = status' := by
        rw [ImportStore.runStatus_congr hruns, ImportStore.runStatus_setRunStatus,
          Option.map_eq_some_iff] at hstatus
        obtain ⟨-, -, heq⟩ := hstatus
        exact heq.symm
      subst hsame
      rcases he with rfl | rfl | ⟨rfl, rfl⟩ | ⟨⟨names, rfl⟩, rfl⟩
      · exact absurd hfinal (by simpa using hreq rfl)
      · exact hdecided status (hreq rfl hfinal)
      · exact absurd hfinal (by decide)
      · exact absurd hfinal (by decide)
    · exact hkept ((ImportStore.runStatus_congr hruns).trans
        (ImportStore.runStatus_setRunStatus_of_ne status' hrun))
  · exact hkept (ImportStore.runStatus_congr hruns)

/-- A retry of a run without failed messages leaves it as it is; any other reopens it. -/
lemma EndsWith.retried {s t : ImportStore} {names : List String}
    {k : (ImportEffect.requeueFailed r names).Response → ImportProgram Unit}
    {ps : Multiset (ImportProgram Unit)}
    (h : EndsWith r ⟨s, .call (.requeueFailed r names) k ::ₘ ps⟩ status)
    (heffect : importEffect P.unicode s (.requeueFailed r names) (.ok ()) t)
    (hstatus : t.runStatus r = some status) (hfinal : status.isFinal) :
    EndsWith r ⟨t, k (.ok ()) ::ₘ ps⟩ status := by
  obtain ⟨hpending, hnoBatch, hreport⟩ := h
  obtain ⟨⟨hreq, hk⟩, hothers⟩ := Multiset.forall_mem_cons.mp hnoBatch
  have hkeeps := hk (.ok ())
  rw [batchDiscipline_after hpending heffect] at hkeeps
  refine ⟨pendingOf_step hpending hreq heffect, Multiset.forall_mem_cons.mpr ⟨hkeeps, hothers⟩, ?_⟩
  obtain ⟨htable, -⟩ := requeueFailed?_eq_some heffect
  obtain ⟨statuses, -, rfl⟩ := Option.map_eq_some_iff.mp heffect
  dsimp only at htable hstatus ⊢
  split_ifs at htable hstatus ⊢ with hnames
  · subst hnames
    have hrows : statuses.table.rows = s.statuses.table.rows := by
      rw [htable]
      simp [StatusTable.requeuedRows, Table.updateWhere]
    rw [StatusTable.ofRun, hrows]
    exact hreport
  · rw [ImportStore.runStatus_setRunStatus, Option.map_eq_some_iff] at hstatus
    obtain ⟨-, -, rfl⟩ := hstatus
    exact absurd hfinal (by decide)

/-- A program that does nothing holds what it held. -/
lemma ReportHolds.imp {p : ImportProgram Unit} {pool pool' : ImportPool} {on on' : Prop}
    (h : ReportHolds r pool on p) (hon : on' → on)
    (hends : ∀ status, EndsWith r pool status → EndsWith r pool' status) :
    ReportHolds r pool' on' p := by
  obtain ⟨g, hkeeps, hdecided, hreport⟩ := h
  exact ⟨g, hkeeps, fun status hg => hends _ (hdecided status hg),
    fun h' status hg => hends _ (hreport (hon h') status hg)⟩

/-- What the requests keep between them, each step keeps. -/
lemma FinalizationKept.step (h : FinalizationKept r a) (hstep : ImportStep P allowed a x b)
    (halone : FinalizesAlone r a x b) : FinalizationKept r b := by
  have hends : (∀ names, x ≠ some ⟨.requeueFailed r names, .ok ()⟩) → ∀ status, EndsWith r a status →
      EndsWith r b status := fun hretry status hends => hends.step hstep hretry
  cases hstep with
  | start hstarts =>
      have hends := hends (by simp)
      obtain ⟨request, -, rfl⟩ := hstarts
      exact ⟨fun status hstatus hfinal => hends _ (h.ended status hstatus hfinal),
        Multiset.forall_mem_cons.mpr ⟨⟨{}, request.noReport P r, by simp, by simp⟩,
          fun p hp => (h.reports p hp).imp id hends⟩⟩
  | stop =>
      have hends := hends (by simp)
      exact ⟨fun status hstatus hfinal => hends _ (h.ended status hstatus hfinal),
        fun p hp => (h.reports p (Multiset.mem_cons_of_mem hp)).imp id hends⟩
  | @act s t ps e k response heffect =>
      by_cases hretry : ∃ names, (some ⟨e, response⟩ : Option (Performed ImportEffect.Response)) =
          some ⟨.requeueFailed r names, .ok ()⟩
      · obtain ⟨names, hx⟩ := hretry
        have hnone := halone.retried names hx
        cases hx
        exact ⟨fun status hstatus hfinal =>
          (h.ended_step heffect hstatus hfinal).retried heffect hstatus hfinal,
          fun p hp => ⟨{}, hnone p hp, by simp, by simp⟩⟩
      · push Not at hretry
        have hends := hends hretry
        have hheld : ∀ p ∈ k response ::ₘ ps,
            ReportHolds r ⟨t, k response ::ₘ ps⟩ (s.control r).goesOn p :=
          Multiset.forall_mem_cons.mpr ⟨h.report_step heffect halone hends,
            fun p hp => (h.reports p (Multiset.mem_cons_of_mem hp)).imp id hends⟩
        refine ⟨fun status hstatus hfinal => hends _ (h.ended_step heffect hstatus hfinal),
          fun p hp => ?_⟩
        by_cases hon : (t.control r).goesOn = true
        · rcases goesOn_step heffect halone hon with hbefore | hresumed
          · exact (hheld p hp).imp (fun _ => hbefore) fun _ => id
          · exact (hresumed p hp).imp (fun _ => trivial) fun _ => id
        · exact (hheld p hp).imp (fun h => absurd h hon) fun _ => id

end

/-- A run that has ended is finished, in any run of requests in which each report that ends it, read
while it goes on, is read once its conversations are settled and no batch is on its way, and it is
retried or resumed while no program has a report that is out of date. -/
theorem finalized_is_finished (P : ImportPlatform) {r : String} {s₀ : ImportStore}
    (hstaged : ∀ status, s₀.runStatus r = some status → !status.isFinal)
    {labels : List (Option (Performed ImportEffect.Response))} {pool : ImportPool}
    (hruns : Runs (fun a x b => ImportStep P (fun _ => True) a x b ∧ FinalizesAlone r a x b)
      ⟨s₀, 0⟩ labels pool) : pool.shared.Finished r := by
  have hkept : FinalizationKept r pool := by
    refine hruns.invariant (fun h hstep => h.step hstep.1 hstep.2) ⟨fun status hstatus hfinal => ?_,
      by simp⟩
    have hnot := hstaged status hstatus
    rw [hfinal] at hnot
    exact absurd hnot (by decide)
  intro status hstatus hfinal
  obtain ⟨hpending, -, hreport⟩ := hkept.ended status hstatus hfinal
  obtain ⟨hterminal, -, hfailed⟩ := finalStatus_eq_some.mp hreport
  refine ⟨fun row hrow => ?_, hterminal, hfailed⟩
  simpa using List.filter_eq_nil_iff.mp hpending row hrow

/-- A run whose only message has failed. -/
def failedStore : ImportStore where
  runs := ⟨[⟨"r1", .processing⟩], nodup_processingRun⟩
  statuses :=
    { table := ⟨[{ leasedStatus with status := .failed }], by decide⟩
      attempts := ["a1"]
      unique := by decide
      issued := by decide }

/-- A run without conversations to commit that a request ends. -/
theorem finalized_is_finished_failed :
    (failedStore.setRunStatus "r1" .completedWithFailures).Finished "r1" := by
  let process : ImportRequest := .processBatch "w1" 60 "r1" 1 fun _ => ⟨[], .ok "p1"⟩
  let row : StatusRow := { leasedStatus with status := .failed }
  obtain ⟨p, hread, q, hreport, q', hfinish⟩ : ∃ p, Prog.Exec (importEffect basicLatin) failedStore
      (process.program plainImports)
      [⟨.recoverExpired, .ok ()⟩, ⟨.selectQueued (some "r1"), .ok (none : Option StatusRow)⟩,
        ⟨.readyRuns (some "r1"), .ok ([] : List String)⟩] p failedStore ∧
      ∃ q, Prog.Exec (importEffect basicLatin) failedStore p
        [⟨.statusReport "r1", .ok [row]⟩] q failedStore ∧
      ∃ q', Prog.Exec (importEffect basicLatin) failedStore q
        [⟨.getControl "r1", .ok ({} : ImportControl)⟩,
          ⟨.finishRun "r1" .completedWithFailures, .ok ()⟩] q'
        (failedStore.setRunStatus "r1" .completedWithFailures) :=
    ⟨_, .call (t := failedStore) ⟨0, rfl⟩ (.call (t := failedStore) ⟨⟨0, rfl⟩, rfl⟩
      (.call (t := failedStore) ⟨by simp [ImportStore.AllReady], rfl⟩ (.refl _ _))),
      _, .call (t := failedStore) ⟨rfl, rfl⟩ (.refl _ _),
      _, .call (t := failedStore) ⟨rfl, rfl⟩ (.call rfl (.refl _ _))⟩
  have hbefore : Runs (ImportStep plainImports fun _ => True) ⟨failedStore, 0⟩ _
      ⟨failedStore, p ::ₘ 0⟩ :=
    (Runs.refl.tail (.start ⟨process, trivial, rfl⟩)).trans (PoolStep.runs_exec hread 0)
  have hstep : ImportStep plainImports (fun _ => True) ⟨failedStore, p ::ₘ 0⟩
      (some ⟨.statusReport "r1", .ok [row]⟩) ⟨failedStore, q ::ₘ 0⟩ :=
    (PoolStep.runs_exec hreport 0).of_singleton
  have hafter : Runs (ImportStep plainImports fun _ => True) ⟨failedStore, q ::ₘ 0⟩ _
      ⟨failedStore.setRunStatus "r1" .completedWithFailures, q' ::ₘ 0⟩ :=
    PoolStep.runs_exec hfinish 0
  have hnoBatch : NoBatch "r1" q :=
    ((process.noBatch plainImports "r1").trace hread.trace).trace hreport.trace
  have halone : FinalizesAlone "r1" ⟨failedStore, p ::ₘ 0⟩
      (some ⟨.statusReport "r1", .ok [row]⟩) ⟨failedStore, q ::ₘ 0⟩ := by
    exact ⟨fun _ _ _ _ => ⟨rfl, by simpa using hnoBatch⟩, fun names hx => absurd hx (by simp),
      fun paused cancelled hx => absurd hx (by simp)⟩
  have hneither : ∀ (x : Performed ImportEffect.Response) a b, x.1 ≠ .statusReport "r1" →
      (∀ names, x.1 ≠ .requeueFailed "r1" names) →
        (∀ paused cancelled, x.1 ≠ .setControl "r1" paused cancelled) →
          FinalizesAlone "r1" a (some x) b :=
    fun x a b hreport hretry hcontrol =>
      ⟨fun rows hx => absurd (congrArg Sigma.fst (Option.some_inj.mp hx)) hreport,
        fun names hx => absurd (congrArg Sigma.fst (Option.some_inj.mp hx)) (hretry names),
        fun paused cancelled hx =>
          absurd (congrArg Sigma.fst (Option.some_inj.mp hx)) (hcontrol paused cancelled)⟩
  refine finalized_is_finished plainImports (by decide)
    (((hbefore.restrict fun x hx a b => ?_).tail ⟨hstep, halone⟩).trans
      (hafter.restrict fun x hx a b => ?_))
  · simp only [List.nil_append, List.map_cons, List.map_nil, List.mem_append, List.mem_cons,
      List.not_mem_nil, or_false] at hx
    rcases hx with rfl | rfl | rfl | rfl
    · exact ⟨by simp, by simp, by simp⟩
    all_goals exact hneither _ a b (by simp) (by simp) (by simp)
  · simp only [List.map_cons, List.map_nil, List.mem_cons, List.not_mem_nil, or_false] at hx
    rcases hx with rfl | rfl
    all_goals exact hneither _ a b (by simp) (by simp) (by simp)

/-- A run with a conversation that is to be committed. -/
def pendingStore : ImportStore where
  runs := ⟨[⟨"r1", .dryRun⟩], nodup_plannedRun⟩
  conversations := ⟨[
    { importedConversationUuid := "i1"
      importRunUuid := "r1"
      conversationFingerprint := "f1"
      conversation :=
        { sourcePlatform := "chatgpt"
          sourceConversationId := some "c1"
          messages := []
          distinct := List.nodup_nil } }], by decide⟩

/-- A request to process messages ends a run whose conversations are still to be committed. -/
theorem finalized_before_commit : ¬ ∀ s₀ : ImportStore,
    (∀ status, s₀.runStatus "r1" = some status → !status.isFinal) → ∀ labels pool,
      Runs (ImportStep plainImports fun _ => True) ⟨s₀, 0⟩ labels pool →
        pool.shared.Finished "r1" := by
  intro h
  let process : ImportRequest := .processBatch "w1" 60 "r1" 1 fun _ => ⟨[], .ok "p1"⟩
  obtain ⟨q, hprocess⟩ : ∃ q, Prog.Exec (importEffect basicLatin) pendingStore
      (process.program plainImports)
      [⟨.recoverExpired, .ok ()⟩, ⟨.selectQueued (some "r1"), .ok (none : Option StatusRow)⟩,
        ⟨.readyRuns (some "r1"), .ok ([] : List String)⟩,
        ⟨.statusReport "r1", .ok ([] : List StatusRow)⟩,
        ⟨.getControl "r1", .ok ({} : ImportControl)⟩,
        ⟨.finishRun "r1" .fullyReconstructed, .ok ()⟩] q
        (pendingStore.setRunStatus "r1" .fullyReconstructed) :=
    ⟨_, .call (t := pendingStore) ⟨0, rfl⟩ (.call (t := pendingStore) ⟨⟨0, rfl⟩, rfl⟩
      (.call (t := pendingStore) ⟨by simp [ImportStore.AllReady], rfl⟩
        (.call (t := pendingStore) ⟨rfl, rfl⟩ (.call (t := pendingStore) ⟨rfl, rfl⟩
          (.call rfl (.refl _ _))))))⟩
  have hruns : Runs (ImportStep plainImports fun _ => True) ⟨pendingStore, 0⟩ _
      ⟨pendingStore.setRunStatus "r1" .fullyReconstructed, q ::ₘ 0⟩ :=
    (Runs.refl.tail (.start ⟨process, trivial, rfl⟩)).trans (PoolStep.runs_exec hprocess 0)
  obtain ⟨hpending, -⟩ := h pendingStore (by decide) _ _ hruns .fullyReconstructed rfl rfl
  dsimp only at hpending
  exact absurd hpending (by decide)

end Memorist
