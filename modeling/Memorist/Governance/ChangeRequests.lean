import Memorist.Governance.Correction
import Memorist.Library.Prog

/-!
The change requests of memories, call by call (`governance/correction.py`).

* `applyProgram`, `cancelProgram`, `undoProgram`: the transactions of `apply_request`,
  `cancel_request` and `undo_request`, in their order;
* `correctionEffect`: what a transaction does to the memories and the requests; any may raise;
* `CallOutcome`, `outcome_of_call`: all that a call can leave behind, wherever it is cut off;
* `requests_settle`: along calls that are not cut off after their effect, where only a pending
  request is cancelled and only an applied one undone, a request is settled once.
-/

namespace Memorist

/-- The requests and the memories that they change. -/
structure CorrectionState where
  memories : MemoryStore
  requests : Table ChangeRequestRow String ChangeRequestRow.changeRequestUuid

/-- The error for a request that is not stored. -/
def changeRequestNotFound (requestUuid : String) : String := "Change request not found: " ++ requestUuid

/-- The row of a request. -/
def CorrectionState.getChangeRequest (s : CorrectionState) (requestUuid : String) :
    Except String ChangeRequestRow :=
  match s.requests.get? requestUuid with
  | none => .error (changeRequestNotFound requestUuid)
  | some request => .ok request

/-- A request in another status. -/
def ChangeRequestRow.withStatus (status : String) (request : ChangeRequestRow) : ChangeRequestRow :=
  { request with status := status }

lemma ChangeRequestRow.uuid_withStatus (status : String) (request : ChangeRequestRow) :
    (request.withStatus status).changeRequestUuid = request.changeRequestUuid := rfl

/-- Set the status of a request. -/
def CorrectionState.updateChangeRequest (s : CorrectionState) (requestUuid status : String) :
    CorrectionState where
  memories := s.memories
  requests := s.requests.updateWhere (fun request => request.changeRequestUuid = requestUuid)
    (ChangeRequestRow.withStatus status) (ChangeRequestRow.uuid_withStatus status)

/-- The memory that an undo writes and the version whose text comes back. -/
def MemoryStore.undoTarget (store : MemoryStore) (request : ChangeRequestRow) :
    Except String (MemoryRow × MemoryVersionRow) :=
  match request.memoryUuid with
  | none => .error "change request has no memory_uuid"
  | some memoryUuid => match store.memories.get? memoryUuid with
    | none => .error (memoryNotFound memoryUuid)
    | some memory => match (store.listVersions memoryUuid).reverse with
      | _ :: previous :: _ => .ok (memory, previous)
      | _ => .error "no previous version available for undo"

/-- The request that an undo makes of its own. -/
def undoChangeRequest (freshUuid actorType : String) (target : MemoryRow × MemoryVersionRow) :
    ChangeRequestRow where
  changeRequestUuid := freshUuid
  memoryUuid := some target.1.memoryUuid
  requestedOperation := "restore_version"
  proposedValue := .obj [field "normalized_text" (.str target.2.normalizedText)]
  actorType := actorType

/-! ### Transactions -/

/-- What a call asks for. -/
inductive CorrectionEffect where
  | getChangeRequest (requestUuid : String)
  | changeMemory (request : ChangeRequestRow) (stamp : Stamp)
  | undoTarget (request : ChangeRequestRow)
  | createChangeRequest (request : ChangeRequestRow)
  | undoMemory (request restore : ChangeRequestRow) (stamp : Stamp)
  | invalidateDependencies
  | rebuildIndex
  | updateChangeRequest (requestUuid status : String)

/-- What a transaction answers. -/
def CorrectionEffect.Response : CorrectionEffect → Type
  | getChangeRequest _ => Except String ChangeRequestRow
  | undoTarget _ => Except String (MemoryRow × MemoryVersionRow)
  | updateChangeRequest _ _ => Except String ChangeRequestRow
  | _ => Except String Unit

/-- Transactions with the row of a request as their result. -/
abbrev CorrectionProgram : Type :=
  Prog CorrectionEffect CorrectionEffect.Response (Except String ChangeRequestRow)

/-- The stale dependencies of a memory are marked, the index is rebuilt if asked for, and the
request is applied. -/
def finishRequest (requestUuid : String) (rebuilds : Bool) : CorrectionProgram :=
  .call .invalidateDependencies fun
    | .error error => .done (.error error)
    | .ok () =>
        let update : CorrectionProgram :=
          .call (.updateChangeRequest requestUuid "applied") fun answer => .done answer
        if rebuilds then .call .rebuildIndex fun
          | .error error => .done (.error error)
          | .ok () => update
        else update

/-- `apply_request`. -/
def applyProgram (requestUuid : String) (stamp : Stamp) : CorrectionProgram :=
  .call (.getChangeRequest requestUuid) fun
    | .error error => .done (.error error)
    | .ok (request : ChangeRequestRow) =>
        if request.status ≠ "pending" then .done (.ok request)
        else .call (.changeMemory request stamp) fun
          | .error error => .done (.error error)
          | .ok () => finishRequest requestUuid true

/-- `cancel_request`. -/
def cancelProgram (requestUuid : String) : CorrectionProgram :=
  .call (.updateChangeRequest requestUuid "cancelled") fun answer => .done answer

/-- `undo_request`. -/
def undoProgram (requestUuid actorType freshUuid : String) (stamp : Stamp) : CorrectionProgram :=
  .call (.getChangeRequest requestUuid) fun
    | .error error => .done (.error error)
    | .ok (request : ChangeRequestRow) => .call (.undoTarget request) fun
      | .error error => .done (.error error)
      | .ok (target : MemoryRow × MemoryVersionRow) =>
          let restore := undoChangeRequest freshUuid actorType target
          .call (.createChangeRequest restore) fun
            | .error error => .done (.error error)
            | .ok () => .call (.undoMemory request restore stamp) fun
              | .error error => .done (.error error)
              | .ok () => finishRequest freshUuid false

section

variable (U : UnicodeData)

/-- What a transaction does; it may raise and change nothing, and the row of an updated request may
fail to be read again. -/
def correctionEffect (s : CorrectionState) :
    (e : CorrectionEffect) → e.Response → CorrectionState → Prop
  | .getChangeRequest requestUuid, answer, t => t = s ∧
      (answer = s.getChangeRequest requestUuid ∨ ∃ error, answer = .error error)
  | .changeMemory request stamp, answer, t =>
      (∃ memories, s.memories.applyRequest U request stamp = .ok memories ∧ answer = .ok () ∧
        t = { s with memories := memories }) ∨ (∃ error, answer = .error error) ∧ t = s
  | .undoTarget request, answer, t => t = s ∧
      (answer = s.memories.undoTarget request ∨ ∃ error, answer = .error error)
  | .createChangeRequest request, answer, t =>
      (s.requests.get? request.changeRequestUuid = none ∧ answer = .ok () ∧
        t = { s with requests := s.requests.insert request }) ∨
        (∃ error, answer = .error error) ∧ t = s
  | .undoMemory request restore stamp, answer, t =>
      (∃ memories, s.memories.undoRequest U request restore.actorType stamp = .ok memories ∧
        answer = .ok () ∧ t = { s with memories := memories }) ∨
        (∃ error, answer = .error error) ∧ t = s
  | .invalidateDependencies, _, t => t = s
  | .rebuildIndex, _, t => t = s
  | .updateChangeRequest requestUuid status, answer, t =>
      t = s.updateChangeRequest requestUuid status ∧
        (answer = t.getChangeRequest requestUuid ∨ ∃ error, answer = .error error) ∨
        (∃ error, answer = .error error) ∧ t = s

/-! ### Calls -/

/-- A call of the service. -/
inductive CorrectionCallKind where
  | apply (requestUuid : String) (stamp : Stamp)
  | cancel (requestUuid : String)
  | undo (requestUuid actorType freshUuid : String) (stamp : Stamp)

/-- The transactions of a call. -/
def CorrectionCallKind.program : CorrectionCallKind → CorrectionProgram
  | apply requestUuid stamp => applyProgram requestUuid stamp
  | cancel requestUuid => cancelProgram requestUuid
  | undo requestUuid actorType freshUuid stamp => undoProgram requestUuid actorType freshUuid stamp

/-- A call: what was performed, and its result unless it was cut off. -/
structure CorrectionCall where
  kind : CorrectionCallKind
  performed : List (Performed CorrectionEffect.Response)
  result : Option (Except String ChangeRequestRow)

/-- A call on a state. -/
def CorrectionStep (s : CorrectionState) (call : CorrectionCall) (t : CorrectionState) : Prop :=
  ∃ q, Prog.Exec (correctionEffect U) s call.kind.program call.performed q t ∧
    call.result = q.result?

end

/-- The request whose effect a transaction committed. -/
def committedFor : Performed CorrectionEffect.Response → Option String
  | ⟨.changeMemory request _, .ok _⟩ => some request.changeRequestUuid
  | ⟨.undoMemory _ restore _, .ok _⟩ => some restore.changeRequestUuid
  | _ => none

/-- The request that a transaction undid. -/
def undoneBy : Performed CorrectionEffect.Response → Option String
  | ⟨.undoMemory request _ _, .ok _⟩ => some request.changeRequestUuid
  | _ => none

/-- The requests whose effects a call committed. -/
def CorrectionCall.commits (call : CorrectionCall) : List String :=
  call.performed.filterMap committedFor

/-- The requests that a call undid. -/
def CorrectionCall.undone (call : CorrectionCall) : List String :=
  call.performed.filterMap undoneBy

/-- The status of a request. -/
def CorrectionState.status (s : CorrectionState) (requestUuid : String) : Option String :=
  (s.requests.get? requestUuid).map ChangeRequestRow.status

/-! ### What a call leaves behind -/

/-- What a call leaves of the requests: nothing new; an effect without its status; the effect and
the status of a pending request; a cancelled request; a new request; or a new one that is applied. -/
inductive CallOutcome (s : CorrectionState) : CorrectionCallKind →
    List (Performed CorrectionEffect.Response) → Option (Except String ChangeRequestRow) →
    CorrectionState → Prop
  | idle {kind : CorrectionCallKind} {es : List (Performed CorrectionEffect.Response)}
      {result : Option (Except String ChangeRequestRow)} {t : CorrectionState}
      (hcommits : es.filterMap committedFor = []) (hundone : es.filterMap undoneBy = [])
      (hrequests : t.requests = s.requests) : CallOutcome s kind es result t
  | unsettled {kind : CorrectionCallKind} {es : List (Performed CorrectionEffect.Response)}
      {result : Option (Except String ChangeRequestRow)} {t : CorrectionState}
      (hcommits : es.filterMap committedFor ≠ []) (hresult : ∀ row, result ≠ some (.ok row)) :
      CallOutcome s kind es result t
  | applied {requestUuid : String} {stamp : Stamp} {request : ChangeRequestRow}
      {es : List (Performed CorrectionEffect.Response)}
      {result : Option (Except String ChangeRequestRow)} {t : CorrectionState}
      (hrequest : s.requests.get? requestUuid = some request)
      (hpending : request.status = "pending") (hcommits : es.filterMap committedFor = [requestUuid])
      (hundone : es.filterMap undoneBy = [])
      (hrequests : t.requests = (s.updateChangeRequest requestUuid "applied").requests) :
      CallOutcome s (.apply requestUuid stamp) es result t
  | cancelled {requestUuid : String} {es : List (Performed CorrectionEffect.Response)}
      {result : Option (Except String ChangeRequestRow)} {t : CorrectionState}
      (hcommits : es.filterMap committedFor = []) (hundone : es.filterMap undoneBy = [])
      (hrequests : t.requests = (s.updateChangeRequest requestUuid "cancelled").requests) :
      CallOutcome s (.cancel requestUuid) es result t
  | requested {requestUuid actorType freshUuid : String} {stamp : Stamp}
      {restore : ChangeRequestRow} {es : List (Performed CorrectionEffect.Response)}
      {result : Option (Except String ChangeRequestRow)} {t : CorrectionState}
      (hfresh : s.requests.get? freshUuid = none)
      (huuid : restore.changeRequestUuid = freshUuid) (hpending : restore.status = "pending")
      (hcommits : es.filterMap committedFor = []) (hundone : es.filterMap undoneBy = [])
      (hrequests : t.requests = s.requests.insert restore) :
      CallOutcome s (.undo requestUuid actorType freshUuid stamp) es result t
  | undone {requestUuid actorType freshUuid : String} {stamp : Stamp}
      {restore : ChangeRequestRow} {es : List (Performed CorrectionEffect.Response)}
      {result : Option (Except String ChangeRequestRow)} {t : CorrectionState}
      (hrequest : s.requests.get? requestUuid ≠ none)
      (hfresh : s.requests.get? freshUuid = none)
      (huuid : restore.changeRequestUuid = freshUuid)
      (hcommits : es.filterMap committedFor = [freshUuid])
      (hundone : es.filterMap undoneBy = [requestUuid])
      (hrequests : t.requests = (CorrectionState.updateChangeRequest
        { s with requests := s.requests.insert restore } freshUuid "applied").requests) :
      CallOutcome s (.undo requestUuid actorType freshUuid stamp) es result t

section

variable {U : UnicodeData} {s t : CorrectionState} {kind : CorrectionCallKind}
variable {es : List (Performed CorrectionEffect.Response)}

/-- Where a call is cut off. -/
abbrev CallCutOff (s : CorrectionState) (kind : CorrectionCallKind)
    (es : List (Performed CorrectionEffect.Response)) (t : CorrectionState) : Prop :=
  CallOutcome s kind es none t

/-- Where a call ends. -/
abbrev CallEnded (s : CorrectionState) (kind : CorrectionCallKind)
    (es : List (Performed CorrectionEffect.Response)) (answer : Except String ChangeRequestRow)
    (t : CorrectionState) : Prop :=
  CallOutcome s kind es (some answer) t

/-- A transaction that counts for nothing changes no count. -/
lemma filterMap_concat_none {f : Performed CorrectionEffect.Response → Option String}
    {x : Performed CorrectionEffect.Response} (h : f x = none) :
    (es ++ [x]).filterMap f = es.filterMap f := by
  rw [List.filterMap_append, List.filterMap_cons_none h, List.filterMap_nil, List.append_nil]

/-- After its effect a call marks the dependencies and sets the status. -/
lemma safe_finishRequest {requestUuid : String} (rebuilds : Bool)
    (hcommits : es.filterMap committedFor ≠ [])
    (hsettled : ∀ {es' : List (Performed CorrectionEffect.Response)} {answer u},
      es'.filterMap committedFor = es.filterMap committedFor →
      es'.filterMap undoneBy = es.filterMap undoneBy →
      u.requests = (t.updateChangeRequest requestUuid "applied").requests →
      CallOutcome s kind es' answer u) :
    Prog.Safe (correctionEffect U) (CallCutOff s kind) (CallEnded s kind) es t
      (finishRequest requestUuid rebuilds) := by
  have hlost {es' : List (Performed CorrectionEffect.Response)} {u : CorrectionState}
      {answer : Option (Except String ChangeRequestRow)}
      (h : es'.filterMap committedFor = es.filterMap committedFor)
      (hanswer : ∀ row, answer ≠ some (.ok row)) : CallOutcome s kind es' answer u :=
    .unsettled (h ▸ hcommits) hanswer
  have hupdate {es' : List (Performed CorrectionEffect.Response)}
      (h : es'.filterMap committedFor = es.filterMap committedFor)
      (h' : es'.filterMap undoneBy = es.filterMap undoneBy) :
      Prog.Safe (correctionEffect U) (CallCutOff s kind) (CallEnded s kind) es' t
        (.call (.updateChangeRequest requestUuid "applied") fun answer => .done answer) := by
    refine ⟨hlost h (by simp), fun answer u he => ?_⟩
    rcases he with ⟨rfl, -⟩ | ⟨⟨error, rfl⟩, rfl⟩
    · exact hsettled ((filterMap_concat_none rfl).trans h) ((filterMap_concat_none rfl).trans h') rfl
    · exact hlost ((filterMap_concat_none rfl).trans h) (by simp)
  refine ⟨hlost rfl (by simp), fun answer u he => ?_⟩
  obtain rfl : t = u := he.symm
  rcases answer with error | _
  · exact hlost (filterMap_concat_none rfl) (by simp)
  · dsimp only
    split_ifs
    · refine ⟨hlost (filterMap_concat_none rfl) (by simp), fun answer u he => ?_⟩
      obtain rfl : t = u := he.symm
      have hcount : List.filterMap committedFor ((es ++ [⟨.invalidateDependencies, .ok ()⟩]) ++
          [⟨.rebuildIndex, answer⟩]) = es.filterMap committedFor :=
        (filterMap_concat_none rfl).trans (filterMap_concat_none rfl)
      rcases answer with error | _
      · exact hlost hcount (by simp)
      · exact hupdate hcount ((filterMap_concat_none rfl).trans (filterMap_concat_none rfl))
    · exact hupdate (filterMap_concat_none rfl) (filterMap_concat_none rfl)

lemma getChangeRequest_eq_ok {requestUuid : String} {request : ChangeRequestRow}
    (h : s.getChangeRequest requestUuid = .ok request) :
    s.requests.get? requestUuid = some request := by
  unfold CorrectionState.getChangeRequest at h
  split at h
  · cases h
  · cases h
    assumption

lemma safe_applyProgram (requestUuid : String) (stamp : Stamp) :
    Prog.Safe (correctionEffect U) (CallCutOff s (.apply requestUuid stamp))
      (CallEnded s (.apply requestUuid stamp)) [] s (applyProgram requestUuid stamp) := by
  refine ⟨.idle rfl rfl rfl, fun answer t he => ?_⟩
  obtain ⟨ht, hanswer⟩ := he
  obtain rfl := ht.symm
  rcases answer with error | request
  · exact .idle rfl rfl rfl
  have hrequest : s.requests.get? requestUuid = some request := by
    rcases hanswer with h | ⟨error, h⟩
    · exact getChangeRequest_eq_ok h.symm
    · cases h
  dsimp only
  split_ifs with hstatus
  · exact .idle rfl rfl rfl
  refine ⟨.idle rfl rfl rfl, fun answer t he => ?_⟩
  rcases he with ⟨memories, -, rfl, rfl⟩ | ⟨⟨error, rfl⟩, rfl⟩
  · obtain rfl : request.changeRequestUuid = requestUuid := Table.key_of_get? hrequest
    refine safe_finishRequest true (List.cons_ne_nil _ _) fun hcommits hundone hrequests => ?_
    exact .applied hrequest (not_not.mp hstatus) (hcommits.trans rfl)
      (hundone.trans rfl) hrequests
  · exact .idle rfl rfl rfl

lemma safe_cancelProgram (requestUuid : String) :
    Prog.Safe (correctionEffect U) (CallCutOff s (.cancel requestUuid))
      (CallEnded s (.cancel requestUuid)) [] s (cancelProgram requestUuid) := by
  refine ⟨.idle rfl rfl rfl, fun answer t he => ?_⟩
  rcases he with ⟨rfl, -⟩ | ⟨-, rfl⟩
  · exact .cancelled rfl rfl rfl
  · exact .idle rfl rfl rfl

lemma safe_undoProgram (requestUuid actorType freshUuid : String) (stamp : Stamp) :
    Prog.Safe (correctionEffect U) (CallCutOff s (.undo requestUuid actorType freshUuid stamp))
      (CallEnded s (.undo requestUuid actorType freshUuid stamp)) [] s
      (undoProgram requestUuid actorType freshUuid stamp) := by
  refine ⟨.idle rfl rfl rfl, fun answer t he => ?_⟩
  obtain ⟨ht, hanswer⟩ := he
  obtain rfl := ht.symm
  rcases answer with error | request
  · exact .idle rfl rfl rfl
  have hrequest : s.requests.get? requestUuid = some request := by
    rcases hanswer with h | ⟨error, h⟩
    · exact getChangeRequest_eq_ok h.symm
    · cases h
  obtain rfl : request.changeRequestUuid = requestUuid := Table.key_of_get? hrequest
  refine ⟨.idle rfl rfl rfl, fun answer t he => ?_⟩
  obtain ⟨ht, -⟩ := he
  obtain rfl := ht.symm
  rcases answer with error | target
  · exact .idle rfl rfl rfl
  refine ⟨.idle rfl rfl rfl, fun answer t he => ?_⟩
  rcases he with ⟨hfresh, rfl, rfl⟩ | ⟨⟨error, rfl⟩, rfl⟩
  · refine ⟨.requested hfresh rfl rfl rfl rfl rfl, fun answer t he => ?_⟩
    rcases he with ⟨memories, -, rfl, rfl⟩ | ⟨⟨error, rfl⟩, rfl⟩
    · refine safe_finishRequest false (List.cons_ne_nil _ _) fun hcommits hundone hrequests => ?_
      exact .undone (by simp [hrequest]) hfresh rfl (hcommits.trans rfl) (hundone.trans rfl)
        hrequests
    · exact .requested hfresh rfl rfl rfl rfl rfl
  · exact .idle rfl rfl rfl

/-- All that a call leaves behind. -/
theorem outcome_of_call {call : CorrectionCall} (hstep : CorrectionStep U s call t) :
    CallOutcome s call.kind call.performed call.result t := by
  obtain ⟨q, hexec, hresult⟩ := hstep
  have hsafe : Prog.Safe (correctionEffect U) (CallCutOff s call.kind) (CallEnded s call.kind) [] s
      call.kind.program := by
    cases call.kind with
    | apply requestUuid stamp => exact safe_applyProgram requestUuid stamp
    | cancel requestUuid => exact safe_cancelProgram requestUuid
    | undo requestUuid actorType freshUuid stamp =>
        exact safe_undoProgram requestUuid actorType freshUuid stamp
  rcases hsafe.outcome hexec with ⟨hnone, hcut⟩ | ⟨answer, hsome, hend⟩
  · rw [hresult, hnone]
    exact hcut
  · rw [hresult, hsome]
    exact hend

/-! ### The life of a request -/

section

variable {call : CorrectionCall} {calls : List CorrectionCall} {requestUuid : String}

/-- How often calls committed the effect of a request. -/
def commitsFor (requestUuid : String) (calls : List CorrectionCall) : ℕ :=
  (calls.flatMap CorrectionCall.commits).count requestUuid

/-- How often calls undid a request. -/
def undosOf (requestUuid : String) (calls : List CorrectionCall) : ℕ :=
  (calls.flatMap CorrectionCall.undone).count requestUuid

/-- A call that looks at the status before it and is not cut off after its effect: what it commits
it also reports, it cancels no applied request and undoes applied ones only. -/
structure Careful (s : CorrectionState) (call : CorrectionCall) : Prop where
  reports : call.commits ≠ [] → ∃ row, call.result = some (.ok row)
  cancels : ∀ requestUuid, call.kind = .cancel requestUuid →
    s.status requestUuid ∈ [none, some "pending", some "cancelled"]
  undoes : ∀ requestUuid actorType freshUuid stamp,
    call.kind = .undo requestUuid actorType freshUuid stamp →
    s.status requestUuid ∈ [none, some "applied"]

/-- A careful call. -/
def CarefulStep (U : UnicodeData) (s : CorrectionState) (call : CorrectionCall)
    (t : CorrectionState) : Prop :=
  CorrectionStep U s call t ∧ Careful s call

/-- A request that is not stored or pending has no effect; one that is applied has its effect once,
and one that is cancelled has none and is not undone. -/
structure RequestSettled (requestUuid : String) (calls : List CorrectionCall)
    (s : CorrectionState) : Prop where
  commits_le : commitsFor requestUuid calls ≤ 1
  applied_iff : s.status requestUuid = some "applied" ↔ commitsFor requestUuid calls = 1
  undone : undosOf requestUuid calls ≠ 0 → s.status requestUuid = some "applied"

lemma status_updateChangeRequest (s : CorrectionState) (updated status : String) :
    (s.updateChangeRequest updated status).status requestUuid =
      (s.status requestUuid).map fun st => if requestUuid = updated then status else st := by
  unfold CorrectionState.status CorrectionState.updateChangeRequest
  rw [Table.get?_updateWhere, Option.map_map, Option.map_map]
  rcases hrow : s.requests.get? requestUuid with _ | row
  · rfl
  · obtain rfl := Table.key_of_get? hrow
    simp only [Option.map_some, Function.comp_apply, decide_eq_true_eq]
    split_ifs <;> rfl

lemma status_insert {restore : ChangeRequestRow}
    (hfresh : s.requests.get? restore.changeRequestUuid = none) :
    CorrectionState.status { s with requests := s.requests.insert restore } requestUuid =
      if requestUuid = restore.changeRequestUuid then some restore.status
        else s.status requestUuid := by
  unfold CorrectionState.status
  dsimp only
  split_ifs with huuid
  · rw [huuid, Table.get?_insert_self hfresh]
    rfl
  · rcases Table.get?_insert (t := s.requests) restore requestUuid with hsame | ⟨-, hkey, -⟩
    · rw [hsame]
    · exact absurd hkey.symm huuid

lemma status_congr (h : t.requests = s.requests) : t.status requestUuid = s.status requestUuid := by
  unfold CorrectionState.status
  rw [h]

/-- What a careful call does to a request: nothing; it applies, cancels or makes it; or it undoes
an applied one. -/
inductive RequestChange (requestUuid : String) (s : CorrectionState) (call : CorrectionCall)
    (t : CorrectionState) : Prop
  | kept (hcommits : call.commits.count requestUuid = 0)
      (hundone : call.undone.count requestUuid ≠ 0 → s.status requestUuid = some "applied")
      (hstatus : t.status requestUuid = s.status requestUuid)
  | applied (hbefore : s.status requestUuid ∈ [none, some "pending"])
      (hcommits : call.commits.count requestUuid = 1) (hundone : call.undone.count requestUuid = 0)
      (hstatus : t.status requestUuid = some "applied")
  | cancelled (hbefore : s.status requestUuid ∈ [none, some "pending", some "cancelled"])
      (hcommits : call.commits.count requestUuid = 0) (hundone : call.undone.count requestUuid = 0)
      (hstatus : t.status requestUuid = (s.status requestUuid).map fun _ => "cancelled")
  | made (hbefore : s.status requestUuid = none) (hcommits : call.commits.count requestUuid = 0)
      (hundone : call.undone.count requestUuid = 0) (hstatus : t.status requestUuid = some "pending")

/-- A careful call does to a request what its kind says. -/
lemma CarefulStep.change (hstep : CarefulStep U s call t) (requestUuid : String) :
    RequestChange requestUuid s call t := by
  obtain ⟨hstep, hcareful⟩ := hstep
  have houtcome := outcome_of_call hstep
  obtain ⟨kind, performed, result⟩ := call
  dsimp only at houtcome
  cases houtcome with
  | idle hcommits hundone hrequests =>
      refine .kept ?_ ?_ (status_congr hrequests)
      · rw [CorrectionCall.commits, hcommits, List.count_nil]
      · rw [CorrectionCall.undone, hundone, List.count_nil]
        exact fun h => absurd rfl h
  | unsettled hcommits hresult =>
      obtain ⟨row, hrow⟩ := hcareful.reports hcommits
      exact absurd hrow (hresult row)
  | @applied uuid stamp request _ _ _ hrequest hpending hcommits hundone hrequests =>
      have hstatus : t.status requestUuid = _ :=
        (status_congr hrequests).trans (status_updateChangeRequest s uuid "applied")
      by_cases huuid : requestUuid = uuid
      · subst huuid
        have hbefore : s.status requestUuid = some "pending" := by
          rw [CorrectionState.status, hrequest, Option.map_some, hpending]
        refine .applied (by simp [hbefore]) ?_ ?_ (by rw [hstatus, hbefore]; simp)
        · rw [CorrectionCall.commits, hcommits, List.count_singleton_self]
        · rw [CorrectionCall.undone, hundone, List.count_nil]
      · refine .kept ?_ ?_ (by simpa [huuid] using hstatus)
        · rw [CorrectionCall.commits, hcommits, List.count_eq_zero]
          simpa using huuid
        · rw [CorrectionCall.undone, hundone, List.count_nil]
          exact fun h => absurd rfl h
  | @cancelled uuid _ _ _ hcommits hundone hrequests =>
      have hstatus : t.status requestUuid = _ :=
        (status_congr hrequests).trans (status_updateChangeRequest s uuid "cancelled")
      have hcount : (⟨.cancel uuid, performed, result⟩ : CorrectionCall).commits.count requestUuid =
          0 := by
        rw [CorrectionCall.commits, hcommits, List.count_nil]
      have hcount' : (⟨.cancel uuid, performed, result⟩ : CorrectionCall).undone.count requestUuid =
          0 := by
        rw [CorrectionCall.undone, hundone, List.count_nil]
      by_cases huuid : requestUuid = uuid
      · subst huuid
        exact .cancelled (hcareful.cancels requestUuid rfl) hcount hcount' (by simpa using hstatus)
      · exact .kept hcount (fun h => absurd hcount' h) (by simpa [huuid] using hstatus)
  | @requested uuid actorType freshUuid stamp restore _ _ _ hfresh hrestore hpending hcommits
      hundone hrequests =>
      subst hrestore
      have hstatus : t.status requestUuid = _ :=
        (status_congr hrequests).trans (status_insert hfresh)
      have hcount : (performed.filterMap committedFor).count requestUuid = 0 := by
        rw [hcommits, List.count_nil]
      have hcount' : (performed.filterMap undoneBy).count requestUuid = 0 := by
        rw [hundone, List.count_nil]
      by_cases huuid : requestUuid = restore.changeRequestUuid
      · refine .made ?_ hcount hcount' (by rw [hstatus, if_pos huuid, hpending])
        rw [huuid, CorrectionState.status, hfresh, Option.map_none]
      · exact .kept hcount (fun h => absurd hcount' h) (by rw [hstatus, if_neg huuid])
  | @undone uuid actorType freshUuid stamp restore _ _ _ hrequest hfresh hrestore hcommits hundone
      hrequests =>
      subst hrestore
      have hstatus : t.status requestUuid = _ := (status_congr hrequests).trans
        (status_updateChangeRequest _ restore.changeRequestUuid "applied")
      rw [status_insert hfresh] at hstatus
      have hne : uuid ≠ restore.changeRequestUuid := fun heq => hrequest (heq ▸ hfresh)
      by_cases huuid : requestUuid = restore.changeRequestUuid
      · subst huuid
        refine .applied ?_ ?_ ?_ (by simpa using hstatus)
        · rw [CorrectionState.status, hfresh, Option.map_none]
          simp
        · rw [CorrectionCall.commits, hcommits, List.count_singleton_self]
        · rw [CorrectionCall.undone, hundone, List.count_eq_zero]
          simpa using hne.symm
      · refine .kept ?_ (fun hcount => ?_) (by simpa [huuid] using hstatus)
        · rw [CorrectionCall.commits, hcommits, List.count_eq_zero]
          simpa using huuid
        · rw [CorrectionCall.undone, hundone] at hcount
          obtain rfl := List.mem_singleton.mp (List.count_pos_iff.mp (Nat.pos_of_ne_zero hcount))
          have hbefore := hcareful.undoes requestUuid actorType _ stamp rfl
          obtain ⟨row, hrow⟩ := Option.ne_none_iff_exists'.mp hrequest
          simpa [CorrectionState.status, hrow] using hbefore

lemma commitsFor_concat : commitsFor requestUuid (calls ++ [call]) =
    commitsFor requestUuid calls + call.commits.count requestUuid := by
  simp [commitsFor]

lemma undosOf_concat : undosOf requestUuid (calls ++ [call]) =
    undosOf requestUuid calls + call.undone.count requestUuid := by
  simp [undosOf]

/-- A careful call keeps a request settled. -/
lemma RequestSettled.step (h : RequestSettled requestUuid calls s)
    (hstep : CarefulStep U s call t) : RequestSettled requestUuid (calls ++ [call]) t := by
  have hle := h.commits_le
  have hiff := h.applied_iff
  have hundo := h.undone
  cases hstep.change requestUuid with
  | kept hcommits hundone hstatus =>
      refine ⟨?_, ?_, fun hne => ?_⟩
      · rwa [commitsFor_concat, hcommits]
      · rwa [commitsFor_concat, hcommits, hstatus]
      · rw [hstatus]
        by_cases hcount : call.undone.count requestUuid = 0
        · rw [undosOf_concat, hcount] at hne
          exact hundo hne
        · exact hundone hcount
  | applied hbefore hcommits hundone hstatus =>
      have hzero : commitsFor requestUuid calls = 0 := by
        have hne : commitsFor requestUuid calls ≠ 1 := fun hone => by simp [hiff.mpr hone] at hbefore
        omega
      refine ⟨?_, ?_, fun _ => hstatus⟩
      · rw [commitsFor_concat, hzero, hcommits]
      · rw [commitsFor_concat, hzero, hcommits, hstatus]
        simp
  | cancelled hbefore hcommits hundone hstatus =>
      have hne : s.status requestUuid ≠ some "applied" := fun happlied => by
        simp [happlied] at hbefore
      have hne' : t.status requestUuid ≠ some "applied" := by
        rw [hstatus]
        cases s.status requestUuid <;> simp
      refine ⟨?_, ?_, fun hcount => ?_⟩
      · rwa [commitsFor_concat, hcommits]
      · rw [commitsFor_concat, hcommits]
        exact iff_of_false hne' fun hone => hne (hiff.mpr hone)
      · rw [undosOf_concat, hundone] at hcount
        exact absurd (hundo hcount) hne
  | made hbefore hcommits hundone hstatus =>
      refine ⟨?_, ?_, fun hcount => ?_⟩
      · rwa [commitsFor_concat, hcommits]
      · rw [commitsFor_concat, hcommits, hstatus]
        refine iff_of_false (by simp) fun hone => ?_
        simpa [hbefore] using hiff.mpr hone
      · rw [undosOf_concat, hundone] at hcount
        simpa [hbefore] using hundo hcount

/-- A careful call leaves a request that is not pending any more in its status. -/
lemma CarefulStep.status_eq (hstep : CarefulStep U s call t) {status : String}
    (hstatus : s.status requestUuid = some status) (hne : status ≠ "pending") :
    t.status requestUuid = some status := by
  cases hstep.change requestUuid with
  | kept _ _ hkept => rw [hkept, hstatus]
  | applied hbefore => simp [hstatus, hne] at hbefore
  | cancelled hbefore _ _ hcancelled =>
      obtain rfl : status = "cancelled" := by simpa [hstatus, hne] using hbefore
      rw [hcancelled, hstatus]
      rfl
  | made hbefore => simp [hstatus] at hbefore

/-- Along careful calls a request leaves `pending` once at most, its effect is committed once at
most and exactly if it is applied, and it is undone only then. -/
theorem requests_settle {s₀ : CorrectionState} (hruns : Runs (CarefulStep U) s₀ calls t)
    (hstart : s₀.status requestUuid ∈ [none, some "pending"]) :
    RequestSettled requestUuid calls t ∧
      ∀ before after s, calls = before ++ after → Runs (CarefulStep U) s₀ before s →
        Runs (CarefulStep U) s after t → ∀ status, s.status requestUuid = some status →
          status ≠ "pending" → t.status requestUuid = some status := by
  constructor
  · induction hruns with
    | refl =>
        refine ⟨Nat.zero_le 1, ?_, fun h => absurd rfl h⟩
        refine iff_of_false (fun happlied => ?_) (by simp [commitsFor])
        simp [happlied] at hstart
    | tail _ hstep ih => exact ih.step hstep
  · intro before after s _ _ hafter status hstatus hne
    exact hafter.invariant (I := fun s => s.status requestUuid = some status)
      (fun h hstep => hstep.status_eq h hne) hstatus

end

end

/-! ### Calls on a store with one request -/

/-- The answer of a transaction that goes well. -/
def correctionRespond (s : CorrectionState) : (e : CorrectionEffect) → e.Response × CorrectionState
  | .getChangeRequest requestUuid => (s.getChangeRequest requestUuid, s)
  | .changeMemory request stamp => match s.memories.applyRequest basicLatin request stamp with
    | .ok memories => (.ok (), { s with memories := memories })
    | .error error => (.error error, s)
  | .undoTarget request => (s.memories.undoTarget request, s)
  | .createChangeRequest request =>
      if s.requests.get? request.changeRequestUuid = none then
        (.ok (), { s with requests := s.requests.insert request })
      else (.error MemoryStore.integrityError, s)
  | .undoMemory request restore stamp =>
      match s.memories.undoRequest basicLatin request restore.actorType stamp with
      | .ok memories => (.ok (), { s with memories := memories })
      | .error error => (.error error, s)
  | .invalidateDependencies => (.ok (), s)
  | .rebuildIndex => (.ok (), s)
  | .updateChangeRequest requestUuid status =>
      let t := s.updateChangeRequest requestUuid status
      (t.getChangeRequest requestUuid, t)

/-- A call that is not disturbed, and the state after it. -/
def undisturbed (kind : CorrectionCallKind) (s : CorrectionState) :
    CorrectionCall × CorrectionState :=
  let ended := Prog.eval correctionRespond s kind.program
  (⟨kind, ended.1, some ended.2.1⟩, ended.2.2)

lemma undisturbed_step (kind : CorrectionCallKind) (s : CorrectionState) :
    CorrectionStep basicLatin s (undisturbed kind s).1 (undisturbed kind s).2 := by
  refine ⟨_, Prog.exec_eval (fun s e => ?_) s _, rfl⟩
  cases e with
  | getChangeRequest requestUuid => exact ⟨rfl, .inl rfl⟩
  | changeMemory request stamp =>
      unfold correctionRespond
      dsimp only
      rcases happly : s.memories.applyRequest basicLatin request stamp with error | memories
      · exact .inr ⟨⟨error, rfl⟩, rfl⟩
      · exact .inl ⟨memories, happly, rfl, rfl⟩
  | undoTarget request => exact ⟨rfl, .inl rfl⟩
  | createChangeRequest request =>
      unfold correctionRespond
      dsimp only
      split_ifs with hfresh
      · exact .inl ⟨hfresh, rfl, rfl⟩
      · exact .inr ⟨⟨_, rfl⟩, rfl⟩
  | undoMemory request restore stamp =>
      unfold correctionRespond
      dsimp only
      rcases hundo : s.memories.undoRequest basicLatin request restore.actorType stamp with
        error | memories
      · exact .inr ⟨⟨error, rfl⟩, rfl⟩
      · exact .inl ⟨memories, hundo, rfl, rfl⟩
  | invalidateDependencies => exact rfl
  | rebuildIndex => exact rfl
  | updateChangeRequest requestUuid status => exact .inl ⟨rfl, .inl rfl⟩

/-- A memory with a pending request to retract it. -/
def pendingRetract : CorrectionState where
  memories := { MemoryStore.empty with
    memories := .ofRows [⟨"m1", "tea".toList, "preference", "session", some "s1", none, .active,
      .normal⟩] }
  requests := .ofRows [⟨"r1", some "m1", "retract", .obj [], "user", "pending"⟩]

/-- The stamp of a call. -/
def correctionStamp : Stamp := ⟨"m2", "v2", 1⟩

/-- A request that is applied once. -/
theorem retract_settles :
    RequestSettled "r1" [(undisturbed (.apply "r1" correctionStamp) pendingRetract).1]
        (undisturbed (.apply "r1" correctionStamp) pendingRetract).2 ∧
      ∀ before after s,
        [(undisturbed (.apply "r1" correctionStamp) pendingRetract).1] = before ++ after →
        Runs (CarefulStep basicLatin) pendingRetract before s →
        Runs (CarefulStep basicLatin) s after
          (undisturbed (.apply "r1" correctionStamp) pendingRetract).2 →
        ∀ status, s.status "r1" = some status → status ≠ "pending" →
          (undisturbed (.apply "r1" correctionStamp) pendingRetract).2.status "r1" = some status :=
  requests_settle (Runs.refl.tail ⟨undisturbed_step _ _, fun _ => ⟨_, rfl⟩,
    fun _ h => absurd h (by simp [undisturbed]), fun _ _ _ _ h => absurd h (by simp [undisturbed])⟩)
    (by decide +kernel)

/-- An applied request is shown as cancelled once `cancel_request` is called. -/
theorem applied_then_cancelled : ¬ ∀ calls t,
    Runs (CorrectionStep basicLatin) pendingRetract calls t → RequestSettled "r1" calls t := by
  intro h
  have hruns := (Runs.refl.tail (undisturbed_step (.apply "r1" correctionStamp) pendingRetract)).tail
    (undisturbed_step (.cancel "r1") _)
  exact absurd ((h _ _ hruns).applied_iff.mpr (by decide +kernel)) (by decide +kernel)

end Memorist
