import Memorist.Imports.Steps

/-!
The leases of imported messages, under any number of workers.

* `ImportStore.Past`: an attempt that was issued and no longer owns a row; it stays so, and changes
  the row no more (`Past.step`, `StatusStep.eq_of_not_owned`);
* `resumeDiscipline`, `not_resumed`: only a resume takes the flag of a cancelled run away;
* `import_leases_safe`: one attempt passes the fence, its owner alone publishes, an attempt that has
  lost its lease changes nothing, and nothing is published once a run is cancelled.
-/

namespace Memorist

/-- The requests on imports that run on a store. -/
abbrev ImportPool : Type :=
  Pool ImportStore ImportEffect ImportEffect.Response (Except ImportError Unit)

/-! ### Attempts -/

/-- The attempt was issued, and the row is not its own. -/
def ImportStore.Past (s : ImportStore) (statusUuid : String) (attempt : ImportAttempt) : Prop :=
  attempt.2 ∈ s.statuses.attempts ∧
    ∀ row ∈ s.statuses.table.get? statusUuid, ¬ row.isOwned attempt

section

variable {U : UnicodeData} {s t : ImportStore} {e : ImportEffect} {response : e.Response}
  {statusUuid : String} {row row' : StatusRow} {attempt attempt' : ImportAttempt}

lemma StatusRow.isOwned_iff : row.isOwned attempt ↔ row.status = .running ∧
    row.leaseOwner = some attempt.1 ∧ row.processingAttemptUuid = some attempt.2 := by
  simp [StatusRow.isOwned, and_assoc]

/-- A row has one owner. -/
lemma StatusRow.isOwned_unique (h : row.isOwned attempt) (h' : row.isOwned attempt') :
    attempt = attempt' := by
  obtain ⟨-, howner, hname⟩ := StatusRow.isOwned_iff.mp h
  obtain ⟨-, howner', hname'⟩ := StatusRow.isOwned_iff.mp h'
  exact Prod.ext (Option.some_inj.mp (howner.symm.trans howner'))
    (Option.some_inj.mp (hname.symm.trans hname'))

/-- A row that an attempt owns was its own before, or the attempt is a new one. -/
lemma StatusStep.isOwned (hstep : StatusStep s e row row') (h : row'.isOwned attempt) :
    row.isOwned attempt ∨ attempt.2 ∉ s.statuses.attempts := by
  obtain ⟨hrunning, howner, hname⟩ := StatusRow.isOwned_iff.mp h
  cases hstep with
  | kept => exact .inl h
  | claimed name workerId leaseSeconds claimant now hqueued hnew =>
      have heq : claimant = attempt.2 := Option.some_inj.mp hname
      exact .inr (heq ▸ hnew)
  | renewed => exact .inl (StatusRow.isOwned_iff.mpr ⟨hrunning, howner, hname⟩)
  | published name publication =>
      cases publication <;> exact absurd hrunning (by simp [StatusRow.published])
  | released => exact absurd hrunning (by simp [StatusRow.released])
  | recovered => exact absurd hrunning (by simp [StatusRow.released])
  | requeued => exact absurd hrunning (by simp [StatusRow.requeued])
  | cancelled => exact absurd hrunning (by simp [StatusRow.cancelled])

/-- An attempt changes no row but its own. -/
lemma StatusStep.eq_of_not_owned (hstep : StatusStep s e row row')
    (hattempt : e.attempt? = some attempt) (h : ¬ row.isOwned attempt) : row' = row := by
  cases hstep with
  | kept => rfl
  | released name howned => exact absurd (Option.some_inj.mp hattempt ▸ howned) h
  | renewed name leaseSeconds now howned => exact absurd (Option.some_inj.mp hattempt ▸ howned) h
  | published name publication finished howned =>
      exact absurd (Option.some_inj.mp hattempt ▸ howned) h
  | _ => exact absurd hattempt (by simp [ImportEffect.attempt?])

/-- The owner of a row was issued. -/
lemma mem_attempts_of_isOwned (hrow : s.statuses.table.get? statusUuid = some row)
    (h : row.isOwned attempt) : attempt.2 ∈ s.statuses.attempts :=
  s.statuses.issued row (Table.get?_eq_some.mp hrow).1 _ (StatusRow.isOwned_iff.mp h).2.2

/-- An attempt that has lost a row does not get it back. -/
lemma ImportStore.Past.step (h : s.Past statusUuid attempt)
    (heffect : importEffect U s e response t) : t.Past statusUuid attempt := by
  obtain ⟨hissued, hlost⟩ := h
  obtain ⟨hsub, hnew⟩ := importEffect_newStatus heffect statusUuid
  refine ⟨hsub hissued, fun row' hrow' howned => ?_⟩
  rcases hrow : s.statuses.table.get? statusUuid with _ | row
  · obtain ⟨-, -, -, -, hnone, -⟩ := hnew hrow row' hrow'
    rw [(StatusRow.isOwned_iff.mp howned).2.2] at hnone
    exact absurd hnone (by simp)
  · obtain ⟨row'', hrow'', hstep⟩ := importEffect_statusStep heffect hrow
    obtain rfl := Option.mem_some_iff.mp (hrow'' ▸ hrow')
    rcases hstep.isOwned howned with hbefore | hfresh
    · exact hlost row hrow hbefore
    · exact hfresh hissued

/-- An attempt that has lost a row leaves it as it is. -/
lemma ImportStore.Past.get?_eq (h : s.Past statusUuid attempt)
    (heffect : importEffect U s e response t) (hattempt : e.attempt? = some attempt)
    (hrow : s.statuses.table.get? statusUuid = some row) :
    t.statuses.table.get? statusUuid = some row := by
  obtain ⟨row', hrow', hstep⟩ := importEffect_statusStep heffect hrow
  rw [hrow', hstep.eq_of_not_owned hattempt (h.2 row hrow)]

/-- What an attempt publishes that passes its fence. -/
lemma publish_applied {publication : Publication}
    (h : importEffect U s (.publish statusUuid attempt publication) (.ok true) t) :
    ∃ row now finished, s.statuses.table.get? statusUuid = some row ∧ row.isOwned attempt ∧
      row.unexpired now ∧ s.isLive row.importRunUuid ∧
        t = s.publish finished statusUuid attempt publication ∧
          t.statuses.table.get? statusUuid = some (row.published publication finished) := by
  obtain ⟨now, finished, hfence, ht⟩ := h
  rw [← hfence, if_pos rfl] at ht
  have hfence : s.leaseFence now statusUuid attempt = true := hfence.symm
  rcases hrow : s.statuses.table.get? statusUuid with _ | row
  · rw [ImportStore.leaseFence, hrow] at hfence
    exact absurd hfence (by simp)
  rw [ImportStore.leaseFence, hrow, Option.any_some, Bool.and_eq_true, Bool.and_eq_true] at hfence
  obtain ⟨⟨howned, hunexpired⟩, hlive⟩ := hfence
  refine ⟨row, now, finished, rfl, howned, hunexpired, hlive, ht, ?_⟩
  simp only [ht, ImportStore.publish, StatusTable.updateWhere, Table.get?_updateWhere, hrow,
    Option.map_some]
  rw [if_pos]
  simp [ImportStore.ownedRow, Table.key_of_get? hrow, howned]

/-- An attempt that has lost a row publishes nothing of it. -/
lemma ImportStore.Past.refused {publication : Publication}
    {response : (ImportEffect.publish statusUuid attempt publication).Response}
    (h : s.Past statusUuid attempt)
    (heffect : importEffect U s (.publish statusUuid attempt publication) response t) :
    response ≠ .ok true := by
  rintro rfl
  obtain ⟨row, -, -, hrow, howned, -⟩ := publish_applied heffect
  exact h.2 row hrow howned

/-- A cancel takes the rows of its run from their attempts. -/
lemma cancelRun_past {run : String} (hrow : s.statuses.table.get? statusUuid = some row)
    (hrun : row.importRunUuid = run) (hissued : attempt.2 ∈ s.statuses.attempts) :
    (s.cancelRun run).Past statusUuid attempt := by
  refine ⟨hissued, fun row' hrow' howned => ?_⟩
  obtain ⟨hrunning, -, -⟩ := StatusRow.isOwned_iff.mp howned
  have hget : (s.cancelRun run).statuses.table.get? statusUuid =
      some (if ImportStore.activeOf run row then row.cancelled else row) := by
    simp only [ImportStore.cancelRun, ImportStore.setRunStatus, StatusTable.updateWhere,
      Table.get?_updateWhere, hrow, Option.map_some]
  obtain rfl := Option.mem_some_iff.mp (hget ▸ hrow')
  split_ifs at hrunning with hactive
  · exact absurd hrunning (by simp [StatusRow.cancelled])
  · simp [ImportStore.activeOf, hrun, hrunning, ProcessingStatus.isTerminal] at hactive

/-- A publication that is refused changes nothing. -/
lemma publish_refused {publication : Publication}
    {response : (ImportEffect.publish statusUuid attempt publication).Response}
    (h : importEffect U s (.publish statusUuid attempt publication) response t)
    (hrefused : response ≠ .ok true) : t = s := by
  rcases response with error | _ | _
  · exact h.1
  · obtain ⟨now, finished, hfence, ht⟩ := h
    rw [← hfence] at ht
    exact ht
  · exact absurd rfl hrefused

end

/-! ### Resumes -/

/-- Only a resume takes the flag of a cancelled run away: a program that does holds the right to. -/
def resumeDiscipline (r : String) : Discipline ImportEffect.Response Bool where
  requires g e := ∀ paused, e = .setControl r paused (some false) → g
  after g _ _ := g

/-- A request that does not resume the run leaves its flag. -/
lemma ImportRequest.keeps_resumeDiscipline (P : ImportPlatform) {r : String}
    {request : ImportRequest} (h : request ≠ .resume r) :
    Prog.Keeps (resumeDiscipline r) (fun _ _ => True) false (request.program P) := by
  have hheld : (request.held r).resumes = false := by
    cases request with
    | resume run => exact decide_eq_false fun hrun => h (hrun ▸ rfl)
    | _ => rfl
  rw [← hheld]
  refine (request.keeps P r _ (.refl _)).map RunHeld.resumes ?_ ?_
  · rintro g e hreq paused rfl
    exact hreq rfl rfl
  · intro g e response
    unfold runDiscipline runAfter
    dsimp only
    split <;> rfl

section

variable {P : ImportPlatform} {allowed : ImportRequest → Prop} {s₀ : ImportStore}
  {labels labels' : List (Option (Performed ImportEffect.Response))} {pool pool' : ImportPool}
  {run : String}

/-- No request takes the flag of a run away that is not resumed. -/
lemma not_resumed (hruns : Runs (ImportStep P allowed) ⟨s₀, 0⟩ labels pool)
    (hallowed : ¬ allowed (.resume run)) {x : Performed ImportEffect.Response}
    (hx : x ∈ labels.reduceOption) (paused : Option Bool) :
    x.1 ≠ .setControl run paused (some false) := by
  obtain ⟨held, -, -, hperformed⟩ := PoolStep.invariant (resumeDiscipline run) false
    (I := fun _ held es => (∀ g ∈ held, g = false) ∧
      ∀ x ∈ es, ∀ paused, x.1 ≠ .setControl run paused (some false))
    (fun p ⟨request, hrequest, hp⟩ => by
      rw [hp]
      exact request.keeps_resumeDiscipline P fun heq => hallowed (heq ▸ hrequest))
    (fun ⟨hheld, hes⟩ => ⟨Multiset.forall_mem_cons.mpr ⟨rfl, hheld⟩, hes⟩)
    (fun ⟨hheld, hes⟩ => ⟨(Multiset.forall_mem_cons.mp hheld).2, hes⟩)
    (fun ⟨hheld, hes⟩ hreq _ => by
      refine ⟨hheld, fun x hx => ?_⟩
      rcases List.mem_append.mp hx with hold | hnew
      · exact hes x hold
      · obtain rfl := List.mem_singleton.mp hnew
        intro paused heq
        have hgranted := hreq paused heq
        rw [(Multiset.forall_mem_cons.mp hheld).1] at hgranted
        exact absurd hgranted (by simp))
    ⟨by simp, by simp⟩ hruns
  exact hperformed x hx paused

/-- The flag of a cancelled run stays, unless it is taken away. -/
lemma importEffect_cancelled {U : UnicodeData} {s t : ImportStore} {e : ImportEffect}
    {response : e.Response} (h : importEffect U s e response t)
    (hkept : ∀ paused, e ≠ .setControl run paused (some false))
    (hflag : (s.control run).cancelled) : (t.control run).cancelled := by
  rcases (importEffect_change h).control_eq with ⟨run', paused, cancelled, rfl, rfl⟩ | heq
  · by_cases hrun : run = run'
    · subst hrun
      rcases cancelled with _ | _ | _
      · simpa using hflag
      · exact absurd rfl (hkept paused)
      · simp
    · rwa [ImportStore.control_setControl_of_ne hrun]
  · rwa [heq]

end

/-! ### Leases -/

/-- One attempt passes the fence of a row; it alone publishes, while its lease lasts and its run
goes on; an attempt that has lost a row leaves it as it is; nothing is published of a run that is
cancelled, until it is resumed, nor by an attempt that a cancel has found. -/
theorem import_leases_safe (P : ImportPlatform) {allowed : ImportRequest → Prop} {s₀ : ImportStore}
    {labels : List (Option (Performed ImportEffect.Response))} {pool : ImportPool}
    (hruns : Runs (ImportStep P allowed) ⟨s₀, 0⟩ labels pool) :
    (∀ statusUuid attempt attempt' now now', pool.shared.leaseFence now statusUuid attempt →
      pool.shared.leaseFence now' statusUuid attempt' → attempt = attempt') ∧
    (∀ statusUuid attempt publication response pool',
      ImportStep P allowed pool (some ⟨.publish statusUuid attempt publication, response⟩) pool' →
        response = .ok true ∧ (∃ row now finished,
          pool.shared.statuses.table.get? statusUuid = some row ∧ row.isOwned attempt ∧
            row.unexpired now ∧ pool.shared.isLive row.importRunUuid ∧
            pool'.shared = pool.shared.publish finished statusUuid attempt publication ∧
            pool'.shared.statuses.table.get? statusUuid =
              some (row.published publication finished)) ∨
        pool'.shared = pool.shared) ∧
    (∀ statusUuid attempt row, pool.shared.statuses.table.get? statusUuid = some row →
      row.isOwned attempt → ∀ labels' pool' labels'' pool'',
        Runs (ImportStep P allowed) pool labels' pool' →
        (∀ row' ∈ pool'.shared.statuses.table.get? statusUuid, ¬ row'.isOwned attempt) →
        Runs (ImportStep P allowed) pool' labels'' pool'' →
          (∀ now, ¬ pool''.shared.leaseFence now statusUuid attempt) ∧
          ∀ x pool''', ImportStep P allowed pool'' (some x) pool''' →
            x.1.attempt? = some attempt →
            ∀ row'', pool''.shared.statuses.table.get? statusUuid = some row'' →
              pool'''.shared.statuses.table.get? statusUuid = some row'') ∧
    (∀ run, ¬ allowed (.resume run) → (pool.shared.control run).cancelled →
      ∀ labels' pool', Runs (ImportStep P allowed) pool labels' pool' →
        ∀ statusUuid attempt publication response pool'' row,
          pool'.shared.statuses.table.get? statusUuid = some row → row.importRunUuid = run →
          ImportStep P allowed pool' (some ⟨.publish statusUuid attempt publication, response⟩)
            pool'' → response ≠ .ok true ∧ pool''.shared = pool'.shared) ∧
    (∀ run pool₁, ImportStep P allowed pool (some ⟨.cancelRun run, .ok ()⟩) pool₁ →
      ∀ statusUuid row, pool.shared.statuses.table.get? statusUuid = some row →
        row.importRunUuid = run → ∀ attempt, attempt.2 ∈ pool.shared.statuses.attempts →
          ∀ labels' pool', Runs (ImportStep P allowed) pool₁ labels' pool' →
            ∀ publication response pool'', ImportStep P allowed pool'
              (some ⟨.publish statusUuid attempt publication, response⟩) pool'' →
                response ≠ .ok true ∧ pool''.shared = pool'.shared) := by
  refine ⟨fun statusUuid attempt attempt' now now' h h' => ?_,
    fun statusUuid attempt publication response pool' hstep => ?_,
    fun statusUuid attempt row hrow howned labels' pool' labels'' pool'' hruns' hlost hruns'' => ?_,
    fun run hallowed hflag labels' pool' hruns' statusUuid attempt publication response pool'' row
      hrow hrun hstep => ?_,
    fun run pool₁ hcancel statusUuid row hrow hrun attempt hissued labels' pool' hruns' publication
      response pool'' hstep => ?_⟩
  · rcases hrow : pool.shared.statuses.table.get? statusUuid with _ | row
    · rw [ImportStore.leaseFence, hrow] at h
      exact absurd h (by simp)
    · simp only [ImportStore.leaseFence, hrow, Option.any_some, Bool.and_eq_true] at h h'
      exact StatusRow.isOwned_unique h.1.1 h'.1.1
  · by_cases hok : response = .ok true
    · subst hok
      exact .inl ⟨rfl, publish_applied (PoolStep.effect_of_some hstep)⟩
    · exact .inr (publish_refused (PoolStep.effect_of_some hstep) hok)
  · have hpast : pool''.shared.Past statusUuid attempt := by
      have hissued : attempt.2 ∈ pool'.shared.statuses.attempts :=
        PoolStep.shared_rel (r := fun a b : ImportStore => a.statuses.attempts ⊆ b.statuses.attempts)
          (fun _ => List.Subset.refl _) List.Subset.trans
          (fun h => (importEffect_newStatus h statusUuid).1) hruns'
            (mem_attempts_of_isOwned hrow howned)
      exact Runs.invariant (I := fun s : ImportStore => s.Past statusUuid attempt)
        (fun h he => h.step he) (PoolStep.runs_effects hruns'') ⟨hissued, hlost⟩
    refine ⟨fun now hfence => ?_, fun x pool''' hstep hattempt row'' hrow'' =>
      hpast.get?_eq (PoolStep.effect_of_some hstep) hattempt hrow''⟩
    rcases hrow'' : pool''.shared.statuses.table.get? statusUuid with _ | row''
    · rw [ImportStore.leaseFence, hrow''] at hfence
      exact absurd hfence (by simp)
    · simp only [ImportStore.leaseFence, hrow'', Option.any_some, Bool.and_eq_true] at hfence
      exact hpast.2 row'' hrow'' hfence.1.1
  · have hflag' : (pool'.shared.control run).cancelled := by
      refine (PoolStep.runs_effects hruns').invariant_of_mem
        (I := fun s : ImportStore => (s.control run).cancelled) (fun hx hflag he => ?_) hflag
      refine importEffect_cancelled he (fun paused => ?_) hflag
      refine not_resumed (hruns.trans hruns') hallowed ?_ paused
      rw [List.reduceOption_append]
      exact List.mem_append_right _ hx
    have heffect := PoolStep.effect_of_some hstep
    have hrefused : response ≠ .ok true := by
      rintro rfl
      obtain ⟨row', -, -, hrow', -, -, hlive, -⟩ := publish_applied heffect
      obtain rfl := Option.some_inj.mp (hrow.symm.trans hrow')
      rw [ImportStore.isLive, hrun, hflag'] at hlive
      exact absurd hlive (by simp)
    exact ⟨hrefused, publish_refused heffect hrefused⟩
  · have heq : pool₁.shared = pool.shared.cancelRun run := PoolStep.effect_of_some hcancel
    have hpast : pool'.shared.Past statusUuid attempt :=
      Runs.invariant (I := fun s : ImportStore => s.Past statusUuid attempt)
        (fun h he => h.step he) (PoolStep.runs_effects hruns')
        (heq ▸ cancelRun_past hrow hrun hissued)
    have hrefused := hpast.refused (PoolStep.effect_of_some hstep)
    exact ⟨hrefused, publish_refused (PoolStep.effect_of_some hstep) hrefused⟩

lemma nodup_processingRun :
    (([⟨"r1", .processing⟩] : List ImportRunRow).map ImportRunRow.importRunUuid).Nodup := by decide

/-- A message in processing under a lease. -/
def leasedStatus : StatusRow where
  statusUuid := "s1"
  importRunUuid := "r1"
  sourcePlatform := "chatgpt"
  sourceConversationId := some "c1"
  sourceMessageId := "m1"
  targetSessionUuid := "t1"
  targetMessageUuid := "g1"
  processingMode := .fullMemoryReconstruction
  processingStage := "memory_extraction"
  status := .running
  processingIdentityHash := "g1:tea"
  leaseOwner := some "w1"
  leaseExpiresAt := some 10
  processingAttemptUuid := some "a1"

/-- A run with a message in processing. -/
def leasedStore : ImportStore where
  runs := ⟨[⟨"r1", .processing⟩], nodup_processingRun⟩
  statuses :=
    { table := ⟨[leasedStatus], by decide⟩
      attempts := ["a1"]
      unique := by decide
      issued := by decide }

theorem import_leases_safe_recovered :
    ¬ (leasedStore.recoverExpired 11).leaseFence 12 "s1" ("w1", "a1") := by
  let worker : ImportRequest := .work "w2" 60 none fun _ => ⟨[], .ok "p1"⟩
  have hstart : ImportStep plainImports (fun _ => True) ⟨leasedStore, 0⟩ none
      ⟨leasedStore, worker.program plainImports ::ₘ 0⟩ := .start ⟨worker, trivial, rfl⟩
  obtain ⟨p, hrecover⟩ : ∃ p, ImportStep plainImports (fun _ => True)
      ⟨leasedStore, worker.program plainImports ::ₘ 0⟩ (some ⟨.recoverExpired, .ok ()⟩)
      ⟨leasedStore.recoverExpired 11, p ::ₘ 0⟩ := ⟨_, .act ⟨11, rfl⟩⟩
  have hlost : ∀ row ∈ (leasedStore.recoverExpired 11).statuses.table.get? "s1",
      ¬ row.isOwned ("w1", "a1") := by decide
  have hnone : Runs (ImportStep plainImports fun _ => True) ⟨leasedStore, 0⟩ [] ⟨leasedStore, 0⟩ :=
    .refl
  have hsafe := import_leases_safe plainImports hnone
  exact (hsafe.2.2.1 "s1" ("w1", "a1") leasedStatus rfl (by decide) _ _ [] _
    ((Runs.refl.tail hstart).tail hrecover) hlost .refl).1 12

end Memorist
