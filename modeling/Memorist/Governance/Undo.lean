import Memorist.Governance.ChangeRequests
import Memorist.Governance.NewVersion
import Memorist.Library.Runs

/-!
What an undo restores (`governance/correction.py`).

* `HistoryEvent`, `HistoryStep`: calls on change requests, new requests, and the other writers of
  memories; a call may be cut off anywhere;
* `CallMemories`, `callMemories`: what a call does to the memories and whose request that is;
* `Restores`, `Restorable`: the undo of the request that was applied last, and when it restores;
* `undo_restores_iff`: **an undo takes back the request that was applied last exactly when its
  memory was active and the version before the last has the text from before; the undo of a
  request that was never applied changes nothing exactly when there is no version before the last.**
-/

namespace Memorist

/-! ### Histories -/

/-- A request that a transaction applied: its memory, and whether a version was written. -/
structure Application where
  requestUuid : String
  memoryUuid : Option String
  writesVersion : Bool
  deriving DecidableEq

/-- What a transaction applied. -/
def appliedBy : Performed CorrectionEffect.Response → Option Application
  | ⟨.changeMemory request _, .ok _⟩ =>
      some ⟨request.changeRequestUuid, request.memoryUuid, MemoryStore.writesVersion request⟩
  | ⟨.undoMemory _ restore _, .ok _⟩ =>
      some ⟨restore.changeRequestUuid, restore.memoryUuid, true⟩
  | _ => none

/-- The error for a request on an administrator's memory. -/
def protectedMemory : String := "ordinary users cannot modify administrator policy"

/-- `create_request`: a pending request on a memory. -/
def CorrectionState.createRequest (U : UnicodeData) (s : CorrectionState)
    (request : ChangeRequestRow) : Except String CorrectionState :=
  match request.memoryUuid.bind s.memories.memories.get? with
  | none => .error (memoryNotFound (request.memoryUuid.getD ""))
  | some memory =>
      if memory.scopeType = "admin" ∧ request.actorType ∉ ["admin", "system"] then
        .error protectedMemory
      else do
        let _ ← dumpIjson U request.proposedValue
        let requests ← s.requests.insertUnique MemoryStore.integrityError []
          (request.withStatus "pending")
        pure { s with requests := requests }

/-- What happens to memories and requests. -/
inductive HistoryEvent where
  | call (ended : CorrectionCall)
  | create (request : ChangeRequestRow)
  | consolidate (candidateUuid : String) (source : CandidateSource candidateUuid) (stamp : Stamp)
  | quarantine (records : List PrivacyRecord)
  | erase (requestUuid : String) (records : List PrivacyRecord)

/-- The requests that an event applied. -/
def HistoryEvent.applications : HistoryEvent → List Application
  | .call ended => ended.performed.filterMap appliedBy
  | _ => []

section

variable (U : UnicodeData)

/-- What an event does; a writer that fails writes nothing. -/
def HistoryStep (s : CorrectionState) : HistoryEvent → CorrectionState → Prop
  | .call ended, t => CorrectionStep U s ended t
  | .create request, t => s.createRequest U request = .ok t
  | .consolidate candidateUuid source stamp, t =>
      t = { s with memories := s.memories.after U (.consolidate candidateUuid source stamp) }
  | .quarantine records, t => t = { s with memories := s.memories.after U (.quarantine records) }
  | .erase requestUuid records, t =>
      t = { s with memories := s.memories.after U (.erase requestUuid records) }

/-- No memories and no requests. -/
def CorrectionState.empty : CorrectionState := ⟨.empty, .empty⟩

/-! ### What a call does to the memories -/

/-- A call leaves the memories; or it applies a pending request; or it undoes one, for a request of
its own on the same memory. -/
inductive CallMemories (s : CorrectionState) (es : List (Performed CorrectionEffect.Response))
    (t : CorrectionState) : Prop
  | kept (happlied : es.filterMap appliedBy = []) (hmemories : t.memories = s.memories)
  | applied {request : ChangeRequestRow} {stamp : Stamp} (hpending : request.status = "pending")
      (happlied : es.filterMap appliedBy =
        [⟨request.changeRequestUuid, request.memoryUuid, MemoryStore.writesVersion request⟩])
      (hmemories : s.memories.applyRequest U request stamp = .ok t.memories)
  | undone {request : ChangeRequestRow} {restoreUuid actorType : String} {stamp : Stamp}
      (happlied : es.filterMap appliedBy = [⟨restoreUuid, request.memoryUuid, true⟩])
      (hmemories : s.memories.undoRequest U request actorType stamp = .ok t.memories)

end

section

variable {U : UnicodeData} {s s' t : CorrectionState}
  {es : List (Performed CorrectionEffect.Response)} {call : CorrectionCall}

/-- What a call did to the memories stays when it only goes on with other tables. -/
lemma CallMemories.concat (h : CallMemories U s es t) {x : Performed CorrectionEffect.Response}
    (hx : appliedBy x = none) (hmemories : s'.memories = t.memories) :
    CallMemories U s (es ++ [x]) s' := by
  have hes : (es ++ [x]).filterMap appliedBy = es.filterMap appliedBy := by
    rw [List.filterMap_append, List.filterMap_cons_none hx, List.filterMap_nil, List.append_nil]
  cases h with
  | kept happlied hkept => exact .kept (hes.trans happlied) (hmemories.trans hkept)
  | applied hpending happlied hwritten =>
      exact .applied hpending (hes.trans happlied) (hmemories ▸ hwritten)
  | undone happlied hwritten => exact .undone (hes.trans happlied) (hmemories ▸ hwritten)

/-- Marking the dependencies and setting the status leave the memories. -/
lemma callMemories_finishRequest {requestUuid : String} (rebuilds : Bool)
    (h : CallMemories U s es t) :
    Prog.Safe (correctionEffect U) (CallMemories U s) (fun es _ t => CallMemories U s es t) es t
      (finishRequest requestUuid rebuilds) := by
  have hupdate {es : List (Performed CorrectionEffect.Response)} {t : CorrectionState}
      (h : CallMemories U s es t) :
      Prog.Safe (correctionEffect U) (CallMemories U s) (fun es _ t => CallMemories U s es t) es t
        (.call (.updateChangeRequest requestUuid "applied") fun answer => .done answer) := by
    refine ⟨h, fun answer u he => ?_⟩
    rcases he with ⟨rfl, -⟩ | ⟨-, rfl⟩
    · exact h.concat rfl rfl
    · exact h.concat rfl rfl
  refine ⟨h, fun answer u he => ?_⟩
  obtain rfl : u = t := he
  rcases answer with error | _
  · exact h.concat rfl rfl
  · dsimp only
    split_ifs
    · refine ⟨h.concat rfl rfl, fun answer t he => ?_⟩
      obtain rfl : t = u := he
      rcases answer with error | _
      · exact (h.concat rfl rfl).concat rfl rfl
      · exact hupdate ((h.concat rfl rfl).concat rfl rfl)
    · exact hupdate (h.concat rfl rfl)

/-- An undo writes the memory that its request is about. -/
lemma undoTarget_memoryUuid {store : MemoryStore} {request : ChangeRequestRow}
    {target : MemoryRow × MemoryVersionRow} (h : store.undoTarget request = .ok target) :
    request.memoryUuid = some target.1.memoryUuid := by
  unfold MemoryStore.undoTarget at h
  split at h
  · cases h
  case h_2 memoryUuid hname =>
    split at h
    · cases h
    case h_2 memory hmemory =>
      split at h
      · obtain rfl := Except.ok.inj h
        rw [hname, ← (Table.get?_eq_some.mp hmemory).2]
      · cases h

/-- What a call does to the memories, wherever it is cut off. -/
theorem callMemories (hstep : CorrectionStep U s call t) :
    CallMemories U s call.performed t := by
  obtain ⟨q, hexec, -⟩ := hstep
  have hstart : CallMemories U s [] s := .kept rfl rfl
  have hsafe : Prog.Safe (correctionEffect U) (CallMemories U s)
      (fun es _ t => CallMemories U s es t) [] s call.kind.program := by
    cases call.kind with
    | apply requestUuid stamp =>
        refine ⟨hstart, fun answer t he => ?_⟩
        obtain rfl : s = t := he.1.symm
        rcases answer with error | request
        · exact hstart.concat rfl rfl
        dsimp only
        split_ifs with hstatus
        · exact hstart.concat rfl rfl
        refine ⟨hstart.concat rfl rfl, fun answer t he => ?_⟩
        rcases he with ⟨memories, hmemories, rfl, rfl⟩ | ⟨⟨error, rfl⟩, rfl⟩
        · exact callMemories_finishRequest true (.applied (not_not.mp hstatus) rfl hmemories)
        · exact (hstart.concat rfl rfl).concat rfl rfl
    | cancel requestUuid =>
        refine ⟨hstart, fun answer t he => ?_⟩
        rcases he with ⟨rfl, -⟩ | ⟨-, rfl⟩
        · exact hstart.concat rfl rfl
        · exact hstart.concat rfl rfl
    | undo requestUuid actorType freshUuid stamp =>
        refine ⟨hstart, fun answer t he => ?_⟩
        obtain rfl : s = t := he.1.symm
        rcases answer with error | request
        · exact hstart.concat rfl rfl
        refine ⟨hstart.concat rfl rfl, fun answer u he => ?_⟩
        obtain ⟨hu, htarget⟩ := he
        obtain rfl := hu.symm
        rcases answer with error | target
        · exact (hstart.concat rfl rfl).concat rfl rfl
        have htarget : s.memories.undoTarget request = .ok target := by
          rcases htarget with h | ⟨error, h⟩
          · exact h.symm
          · cases h
        have hkept : CallMemories U s ([⟨.getChangeRequest requestUuid, .ok request⟩] ++
            [⟨.undoTarget request, .ok target⟩]) s := (hstart.concat rfl rfl).concat rfl rfl
        refine ⟨hkept, fun answer u he => ?_⟩
        rcases he with ⟨-, rfl, rfl⟩ | ⟨⟨error, rfl⟩, rfl⟩
        · refine ⟨hkept.concat rfl rfl, fun answer u he => ?_⟩
          rcases he with ⟨memories, hmemories, rfl, rfl⟩ | ⟨⟨error, rfl⟩, rfl⟩
          · have hname : (undoChangeRequest freshUuid actorType target).memoryUuid =
                request.memoryUuid := (undoTarget_memoryUuid htarget).symm
            exact callMemories_finishRequest false (.undone
              (congrArg (fun m => [(⟨freshUuid, m, true⟩ : Application)]) hname) hmemories)
          · exact (hkept.concat rfl rfl).concat rfl rfl
        · exact hkept.concat rfl rfl
  rcases hsafe.outcome hexec with ⟨-, hcut⟩ | ⟨answer, -, hend⟩
  · exact hcut
  · exact hend

/-! ### What an undo restores -/

lemma memories_createRequest {request : ChangeRequestRow}
    (h : s.createRequest U request = .ok t) : t.memories = s.memories := by
  unfold CorrectionState.createRequest at h
  split at h
  · cases h
  · split_ifs at h
    obtain ⟨value, -, h⟩ := Checks.bind_eq_ok.mp h
    obtain ⟨requests, -, h⟩ := Checks.bind_eq_ok.mp h
    rw [← Checks.pure_eq_ok.mp h]

/-- Every event keeps the chains. -/
lemma HistoryStep.chains {event : HistoryEvent} (hstep : HistoryStep U s event t)
    (h : MemoryStore.VersionChains s.memories) : MemoryStore.VersionChains t.memories := by
  cases event with
  | call ended =>
      cases callMemories hstep with
      | kept _ hmemories => rwa [hmemories]
      | @applied request stamp _ _ hmemories =>
          have hperform : s.memories.perform U (.applyRequest request stamp) = .ok t.memories :=
            hmemories
          exact h.perform hperform
      | @undone request _ actorType stamp _ hmemories =>
          have hperform : s.memories.perform U (.undoRequest request actorType stamp) =
              .ok t.memories := hmemories
          exact h.perform hperform
  | create request => rwa [memories_createRequest hstep]
  | consolidate candidateUuid source stamp =>
      obtain rfl := hstep
      exact h.after _
  | quarantine records =>
      obtain rfl := hstep
      exact h.after (U := U) (.quarantine records)
  | erase requestUuid records =>
      obtain rfl := hstep
      exact h.after _

variable (U) in
/-- A request is applied to a memory by a call from `s` to `s'`, and no other request is applied to
that memory until `t`. -/
structure AppliedLast (application : Application) (memoryUuid : String)
    (s s' t : CorrectionState) : Prop where
  reached : ∃ events, Runs (HistoryStep U) .empty events s
  applied : ∃ call, CorrectionStep U s call s' ∧ call.performed.filterMap appliedBy = [application]
  memory : application.memoryUuid = some memoryUuid
  last : ∃ events, Runs (HistoryStep U) s' events t ∧
    ∀ event ∈ events, ∀ later ∈ event.applications, later.memoryUuid ≠ some memoryUuid

variable (U) in
/-- A request is stored that no call has applied. -/
def NeverApplied (requestUuid : String) (t : CorrectionState) : Prop :=
  ∃ events, Runs (HistoryStep U) .empty events t ∧
    ∀ event ∈ events, ∀ application ∈ event.applications, application.requestUuid ≠ requestUuid

/-- The chains hold wherever a history leads. -/
lemma chains_of_runs {events : List HistoryEvent} (hruns : Runs (HistoryStep U) s events t)
    (h : MemoryStore.VersionChains s.memories) : MemoryStore.VersionChains t.memories :=
  hruns.invariant (I := fun s => MemoryStore.VersionChains s.memories)
    (fun h hstep => hstep.chains h) h

lemma AppliedLast.chains {application : Application} {memoryUuid : String}
    (h : AppliedLast U application memoryUuid s s' t) :
    MemoryStore.VersionChains s.memories ∧ MemoryStore.VersionChains t.memories := by
  obtain ⟨events, hreached⟩ := h.reached
  obtain ⟨call, hstep, -⟩ := h.applied
  obtain ⟨later, hlater, -⟩ := h.last
  have hs := chains_of_runs hreached MemoryStore.versionChains_empty
  have hcall : HistoryStep U s (.call call) s' := hstep
  exact ⟨hs, chains_of_runs hlater (hcall.chains hs)⟩

namespace MemoryStore

variable {before now : MemoryStore} {request : ChangeRequestRow} {memoryUuid actorType : String}
  {stamp : Stamp}

variable (U) in
/-- The undo of a request gives the memory the text and the status from before. -/
def Restores (before now : MemoryStore) (request : ChangeRequestRow)
    (memoryUuid actorType : String) (stamp : Stamp) : Prop :=
  ∃ after, now.undoRequest U request actorType stamp = .ok after ∧
    after.currentText memoryUuid = before.currentText memoryUuid ∧
    after.statusOf memoryUuid = before.statusOf memoryUuid

/-- A memory was active, and the version before its last one has the text that was current. -/
def Restorable (before now : MemoryStore) (memoryUuid : String) : Prop :=
  before.statusOf memoryUuid = some .active ∧
    ∃ previous, now.previousVersion memoryUuid = some previous ∧
      before.currentText memoryUuid = some previous.normalizedText

/-- The version before the last one has the text of the current one. -/
def Repeats (store : MemoryStore) (memoryUuid : String) : Prop :=
  ∃ previous, store.previousVersion memoryUuid = some previous ∧
    store.currentText memoryUuid = some previous.normalizedText

/-- A version before the last one belongs to a stored memory with a current version. -/
lemma VersionChains.exists_memory (h : VersionChains now) {previous : MemoryVersionRow}
    (hprevious : now.previousVersion memoryUuid = some previous) :
    ∃ memory ∈ now.memories.rows, memory.memoryUuid = memoryUuid ∧
      ∃ current, now.currentVersion memory = some current := by
  have hmem : previous ∈ now.versionsOf memoryUuid :=
    (List.mergeSort_perm _ _).mem_iff.mp
      (List.mem_reverse.mp (List.mem_of_getElem? hprevious))
  obtain ⟨hrow, howner⟩ := mem_versionsOf.mp hmem
  obtain ⟨memory, hmemory, hname⟩ := h.owned previous hrow
  rw [howner] at hname
  refine ⟨memory, hmemory, hname, ?_⟩
  rcases hcurrent : now.currentVersion memory with _ | current
  · have hempty := (h.versionsOf_of_no_current hmemory hcurrent).2
    rw [hname] at hempty
    exact absurd (hempty ▸ hmem) List.not_mem_nil
  · exact ⟨current, rfl⟩

variable (U actorType) in
/-- What an undo under a new name leads to. -/
lemma undoRequest_cases_of_fresh (h : VersionChains now)
    (hname : request.memoryUuid = some memoryUuid)
    (hfresh : now.versions.get? stamp.memoryVersionUuid = none) :
    (∃ previous after, now.previousVersion memoryUuid = some previous ∧
      now.undoRequest U request actorType stamp = .ok after ∧
      after.currentText memoryUuid = some previous.normalizedText ∧
      after.statusOf memoryUuid = some .active) ∨
    now.previousVersion memoryUuid = none ∧
      ∃ error, now.undoRequest U request actorType stamp = .error error := by
  rcases hprevious : now.previousVersion memoryUuid with _ | previous
  · refine .inr ⟨rfl, ?_⟩
    rcases hmemory : now.memories.get? memoryUuid with _ | memory
    · exact ⟨memoryNotFound memoryUuid, by simp [undoRequest, hname, hmemory]⟩
    · obtain ⟨hmem, rfl⟩ := Table.get?_eq_some.mp hmemory
      rw [undoRequest_eq_previous hname hmem, hprevious]
      exact ⟨_, rfl⟩
  · obtain ⟨memory, hmem, rfl, current, hcurrent⟩ := h.exists_memory hprevious
    have hundone : ValidValue U none
        (.obj [field "undone_request_uuid" (jsonString request.changeRequestUuid)]) := by
      rw [validValue_fields ["undone_request_uuid"] (by decide) rfl]
      simp [field]
    have hreason : ValidValue U none (correctionReason "undo" actorType
        (.obj [field "undone_request_uuid" (jsonString request.changeRequestUuid)])) := by
      rw [correctionReason, validValue_fields
        ["operation", "actor_type", "user_confirmed", "proposed_value"] (by decide) rfl]
      intro m hm
      simp only [List.mem_cons, List.not_mem_nil, or_false] at hm
      rcases hm with rfl | rfl | rfl | rfl
      · exact validValue_jsonString _
      · exact validValue_jsonString _
      · rfl
      · exact hundone
    obtain ⟨after, hafter⟩ := exists_createNewVersion h hmem hcurrent previous.normalizedText
      hreason hfresh
    obtain ⟨hactive, version, hversion, htext, -⟩ := createNewVersion_current hmem hafter
    refine .inl ⟨previous, after, rfl, ?_, ?_, hactive⟩
    · rw [undoRequest_eq_previous hname hmem, hprevious]
      exact hafter
    · rw [currentText, hversion, Option.map_some, htext]

/-- An undo restores exactly what the version before the last one and an active status say. -/
lemma restores_iff (h : VersionChains now) (hname : request.memoryUuid = some memoryUuid)
    (hfresh : now.versions.get? stamp.memoryVersionUuid = none) :
    Restores U before now request memoryUuid actorType stamp ↔
      Restorable before now memoryUuid := by
  rcases undoRequest_cases_of_fresh U actorType h hname hfresh with
    ⟨previous, after, hprevious, hafter, htext, hactive⟩ | ⟨hnone, error, herror⟩
  · constructor
    · rintro ⟨after', hafter', htext', hstatus⟩
      obtain rfl := Except.ok.inj (hafter.symm.trans hafter')
      exact ⟨hstatus.symm.trans hactive, previous, hprevious, htext'.symm.trans htext⟩
    · rintro ⟨hstatus, previous', hprevious', htext'⟩
      obtain rfl := Option.some.inj (hprevious.symm.trans hprevious')
      exact ⟨after, hafter, htext.trans htext'.symm, hactive.trans hstatus.symm⟩
  · refine iff_of_false ?_ ?_
    · rintro ⟨after, hafter, -⟩
      cases herror.symm.trans hafter
    · rintro ⟨-, previous, hprevious, -⟩
      cases hnone.symm.trans hprevious

/-- An undo changes nothing exactly when there is no version before the last one. -/
lemma after_undoRequest_eq_iff (h : VersionChains now)
    (hfresh : now.versions.get? stamp.memoryVersionUuid = none) :
    now.after U (.undoRequest request actorType stamp) = now ↔
      ∀ memoryUuid, request.memoryUuid = some memoryUuid →
        now.previousVersion memoryUuid = none := by
  rcases hname : request.memoryUuid with _ | memoryUuid
  · have herror : now.undoRequest U request actorType stamp =
        .error "change request has no memory_uuid" := by
      simp [undoRequest, hname]
    exact iff_of_true (by simp [after, perform, herror]) (by simp)
  rcases undoRequest_cases_of_fresh U actorType h hname hfresh with
    ⟨previous, after, hprevious, hafter, -⟩ | ⟨hnone, error, herror⟩
  · refine iff_of_false ?_ fun hall => ?_
    · -- the new version is stored afterwards
      intro hsame
      have hafter' : now.after U (.undoRequest request actorType stamp) = after := by
        simp [MemoryStore.after, perform, hafter]
      obtain rfl : after = now := hafter'.symm.trans hsame
      obtain ⟨memory, text, value, -, -, hcreate⟩ := undoRequest_cases hafter
      obtain ⟨version, hof⟩ := versionsOf_createNewVersion hcreate
      have hlength := congrArg List.length hof
      rw [List.length_append, List.length_map, List.length_singleton] at hlength
      omega
    · cases hprevious.symm.trans (hall memoryUuid rfl)
  · refine iff_of_true (by simp [after, perform, herror]) fun m hm => ?_
    obtain rfl := Option.some.inj hm
    exact hnone

end MemoryStore

/-- After a call that applied a request to a memory, the version before the last one has the text
from before if the call wrote a version; if not, it is the one from before. -/
lemma previousVersion_of_applied {application : Application} {memoryUuid : String}
    (hstep : CorrectionStep U s call s') (h : MemoryStore.VersionChains s.memories)
    (happlied : call.performed.filterMap appliedBy = [application])
    (hname : application.memoryUuid = some memoryUuid) :
    (∃ previous, s'.memories.previousVersion memoryUuid = some previous ∧
        s.memories.currentText memoryUuid = some previous.normalizedText) ↔
      application.writesVersion ∨ s.memories.Repeats memoryUuid := by
  cases callMemories hstep with
  | kept hnone => exact absurd (hnone.symm.trans happlied) (by simp)
  | @applied request stamp _ happlied' hmemories =>
      obtain rfl := List.singleton_inj.mp (happlied'.symm.trans happlied)
      rcases MemoryStore.applyRequest_cases hmemories with ⟨hwrites, hkept⟩ |
        ⟨hwrites, memory, text, hmem, hmemory, hcreate⟩
      · have hversions : s'.memories.previousVersion memoryUuid =
            s.memories.previousVersion memoryUuid := by
          rcases hkept with hkept | ⟨m, status, -, hkept⟩
          · rw [hkept]
          · rw [hkept]
            rfl
        rw [hversions, MemoryStore.Repeats, hwrites]
        simp
      · obtain rfl := Option.some.inj (hmemory.symm.trans hname)
        exact iff_of_true (MemoryStore.previousVersion_createNewVersion h hmem hcreate) (.inl hwrites)
  | undone happlied' hmemories =>
      obtain rfl := List.singleton_inj.mp (happlied'.symm.trans happlied)
      obtain ⟨memory, text, value, hmem, hmemory, hcreate⟩ :=
        MemoryStore.undoRequest_cases hmemories
      obtain rfl := Option.some.inj (hmemory.symm.trans hname)
      exact iff_of_true (MemoryStore.previousVersion_createNewVersion h hmem hcreate) (.inl rfl)

end

/-- **Undo.** The undo of the request that was applied last to a memory gives it the text and the
status from before exactly when it was active and the version before its last one has that text: if
the versions are as the request left them, when it wrote one or repeated texts do no harm. The undo
of a request that was never applied changes nothing exactly when no version is before the last. -/
theorem undo_restores_iff (U : UnicodeData) :
    (∀ {application : Application} {memoryUuid : String} {s s' t : CorrectionState},
      AppliedLast U application memoryUuid s s' t →
      ∀ {request : ChangeRequestRow}, t.requests.get? application.requestUuid = some request →
        request.memoryUuid = some memoryUuid → ∀ (actorType : String) {stamp : Stamp},
        t.memories.versions.get? stamp.memoryVersionUuid = none →
        (MemoryStore.Restores U s.memories t.memories request memoryUuid actorType stamp ↔
          MemoryStore.Restorable s.memories t.memories memoryUuid) ∧
        (t.memories.versionsOf memoryUuid = s'.memories.versionsOf memoryUuid →
          (MemoryStore.Restorable s.memories t.memories memoryUuid ↔
            s.memories.statusOf memoryUuid = some .active ∧
              (application.writesVersion ∨ s.memories.Repeats memoryUuid)))) ∧
    ∀ {requestUuid : String} {t : CorrectionState}, NeverApplied U requestUuid t →
      ∀ {request : ChangeRequestRow}, t.requests.get? requestUuid = some request →
        ∀ (actorType : String) {stamp : Stamp},
        t.memories.versions.get? stamp.memoryVersionUuid = none →
        (t.memories.after U (.undoRequest request actorType stamp) = t.memories ↔
          ∀ memoryUuid, request.memoryUuid = some memoryUuid →
            t.memories.previousVersion memoryUuid = none) := by
  refine ⟨?_, ?_⟩
  · intro application memoryUuid s s' t hlast request _ hname actorType stamp hfresh
    obtain ⟨hs, ht⟩ := hlast.chains
    obtain ⟨call, hstep, happlied⟩ := hlast.applied
    refine ⟨MemoryStore.restores_iff ht hname hfresh, fun hversions => ?_⟩
    have hprevious : t.memories.previousVersion memoryUuid =
        s'.memories.previousVersion memoryUuid := by
      rw [MemoryStore.previousVersion, MemoryStore.listVersions, hversions]
      rfl
    rw [MemoryStore.Restorable, hprevious, previousVersion_of_applied hstep hs happlied hlast.memory]
  · rintro requestUuid t ⟨events, hreached, -⟩ request - actorType stamp hfresh
    exact MemoryStore.after_undoRequest_eq_iff
      (chains_of_runs hreached MemoryStore.versionChains_empty) hfresh

/-! ### A drink that is retracted -/

/-- The user drinks tea, then coffee, and asks for what is wrong with that. -/
def drinkRequest (requestedOperation : String) : ChangeRequestRow :=
  ⟨"r1", some "m1", requestedOperation, .obj [], "user", "pending"⟩

/-- The memory of the drink and a request on it. -/
def drinkRequested (requestedOperation : String) : CorrectionState where
  memories := MemoryStore.run basicLatin
    [.consolidate "c1" (MemoryStore.drinkSource "c1" "tea") ⟨"m1", "v1", 1⟩,
     .consolidate "c2" (MemoryStore.drinkSource "c2" "coffee") ⟨"m2", "v2", 2⟩]
  requests := Table.empty.insert (drinkRequest requestedOperation)

lemma reached_drinkRequested (requestedOperation : String) :
    ∃ events, Runs (HistoryStep basicLatin) .empty events (drinkRequested requestedOperation) := by
  refine ⟨_, ((Runs.refl.tail (e := .consolidate "c1" (MemoryStore.drinkSource "c1" "tea")
    ⟨"m1", "v1", 1⟩) rfl).tail (e := .consolidate "c2" (MemoryStore.drinkSource "c2" "coffee")
    ⟨"m2", "v2", 2⟩) rfl).tail (e := .create (drinkRequest requestedOperation)) ?_⟩
  rfl

/-- The call that applies the request. -/
def drinkApplied (requestedOperation : String) : CorrectionCall × CorrectionState :=
  undisturbed (.apply "r1" ⟨"m3", "v3", 3⟩) (drinkRequested requestedOperation)

lemma appliedLast_drink {requestedOperation : String} {writesVersion : Bool}
    (h : (drinkApplied requestedOperation).1.performed.filterMap appliedBy =
      [⟨"r1", "m1", writesVersion⟩]) :
    AppliedLast basicLatin ⟨"r1", "m1", writesVersion⟩ "m1" (drinkRequested requestedOperation)
      (drinkApplied requestedOperation).2 (drinkApplied requestedOperation).2 where
  reached := reached_drinkRequested requestedOperation
  applied := ⟨_, undisturbed_step _ _, h⟩
  memory := rfl
  last := ⟨[], .refl, fun _ h => absurd h List.not_mem_nil⟩

/-- The undo of a confirmation. -/
theorem undo_restores_iff_confirm :
    MemoryStore.Restores basicLatin (drinkRequested "confirm").memories
      (drinkApplied "confirm").2.memories ((drinkRequest "confirm").withStatus "applied") "m1" "user"
      ⟨"m4", "v4", 4⟩ := by
  have hlast : AppliedLast basicLatin ⟨"r1", "m1", true⟩ "m1" (drinkRequested "confirm")
      (drinkApplied "confirm").2 (drinkApplied "confirm").2 := appliedLast_drink (by decide)
  have hrequest : (drinkApplied "confirm").2.requests.get? "r1" =
      some ((drinkRequest "confirm").withStatus "applied") := rfl
  have hfresh : (drinkApplied "confirm").2.memories.versions.get?
      (Stamp.mk "m4" "v4" 4).memoryVersionUuid = none := by
    decide
  have h := (undo_restores_iff basicLatin).1 hlast hrequest rfl "user" hfresh
  exact h.1.mpr ((h.2 rfl).mpr ⟨by decide, .inl rfl⟩)

/-- The undo of a retraction brings back the drink before the last one. -/
theorem retraction_undone_to_older_text :
    ¬ ∀ {application : Application} {memoryUuid : String} {s s' t : CorrectionState},
      AppliedLast basicLatin application memoryUuid s s' t →
      ∀ {request : ChangeRequestRow}, t.requests.get? application.requestUuid = some request →
        request.memoryUuid = some memoryUuid → ∀ (actorType : String) {stamp : Stamp},
        t.memories.versions.get? stamp.memoryVersionUuid = none →
        MemoryStore.Restores basicLatin s.memories t.memories request memoryUuid actorType stamp := by
  intro h
  have hlast : AppliedLast basicLatin ⟨"r1", "m1", false⟩ "m1" (drinkRequested "retract")
      (drinkApplied "retract").2 (drinkApplied "retract").2 := appliedLast_drink (by decide)
  have hrequest : (drinkApplied "retract").2.requests.get? "r1" =
      some ((drinkRequest "retract").withStatus "applied") := rfl
  have hfresh : (drinkApplied "retract").2.memories.versions.get?
      (Stamp.mk "m4" "v4" 4).memoryVersionUuid = none := by
    decide
  have hchains := hlast.chains.2
  obtain ⟨-, previous, hprevious, htext⟩ :=
    (MemoryStore.restores_iff hchains rfl hfresh).mp (h hlast hrequest rfl "user" hfresh)
  -- the version before the last one says tea
  obtain ⟨memory, hmem, hname, -⟩ := hchains.exists_memory hprevious
  rw [← hname, MemoryStore.previousVersion_eq_some (hchains.chain memory hmem), hname] at hprevious
  have htea : ∀ version ∈ (drinkApplied "retract").2.memories.versionsOf "m1",
      version.versionNumber + 1 =
        ((drinkApplied "retract").2.memories.versionsOf "m1").length →
      (drinkRequested "retract").memories.currentText "m1" ≠ some version.normalizedText := by
    decide
  exact htea previous hprevious.1 hprevious.2 htext

end Memorist
