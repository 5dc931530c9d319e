import Memorist.Library.Dict
import Memorist.Library.Prog
import Memorist.Storage.Sql
import Memorist.Text.CanonicalHash

/-!
Privacy requests: confirmation, execution and retry (`governance/privacy.py`,
`governance/repositories.py`, `storage/write_commands/privacy_commands.py`,
`reliability/recovery.py`).

* `PrivacyEffect`: what an action asks of the store and of the adapters, statement by statement;
* `confirmRequest`, `executeRequest`, `retryRequest`: the actions;
* `privacyEffect`: what the effects do to the request, its items and receipts, whatever other
  operations do to the rest of the store between them;
* `ActionStep`: one action after another, each of which may crash on its way.
-/

namespace Memorist

/-! ### Rows -/

/-- The statuses of a privacy request. -/
inductive PrivacyStatus where
  | preview
  | confirmed
  | executing
  | partialFailure
  | completed
  deriving DecidableEq, Repr

/-- A row of `privacy_requests`. -/
structure PrivacyRequestRow where
  targetType : String
  targetUuid : Option String
  status : PrivacyStatus := .preview
  confirmationTokenHash : Option String
  confirmationExpiresAt : Option Timestamp
  confirmedAt : Option Timestamp := none
  completedAt : Option Timestamp := none
  deriving DecidableEq, Repr

/-- Where a record is stored. -/
inductive StorageType where
  | sqlite
  | sqliteFts
  | falkordb
  | objectStore
  deriving DecidableEq, Repr

/-- The kinds of records. -/
inductive RecordType where
  | memory
  | memoryVersion
  | message
  | messageVersion
  | textUnit
  | session
  | memoryVersionFts
  | memoryVersionEmbedding
  | memoryBlock
  | memoryContextAttachment
  | sessionHotCache
  | memoryGraphNode
  deriving DecidableEq, Repr

/-- A record that a request is about. -/
structure PrivacyRecord where
  storageType : StorageType
  recordType : RecordType
  recordUuid : Option String
  action : String
  deriving DecidableEq, Repr

/-- The storage adapters. -/
inductive AdapterName where
  | sqliteCanonical
  | sqliteFTS
  | embedding
  | memoryBlock
  | attachment
  | hotCache
  | falkorDB
  | objectStore
  deriving DecidableEq, Repr

/-- The adapters in the order of their turns. -/
def adapters : List AdapterName :=
  [.sqliteCanonical, .sqliteFTS, .embedding, .memoryBlock, .attachment, .hotCache, .falkorDB,
   .objectStore]

/-- Whether a record is an adapter's. -/
def adapterMatches (adapter : AdapterName) (record : PrivacyRecord) : Bool :=
  match adapter with
  | .sqliteCanonical => record.storageType = .sqlite && record.recordType ∈
      [.memory, .memoryVersion, .message, .messageVersion, .textUnit, .session]
  | .sqliteFTS => record.recordType = .memoryVersionFts
  | .embedding => record.recordType = .memoryVersionEmbedding
  | .memoryBlock => record.recordType = .memoryBlock
  | .attachment => record.recordType = .memoryContextAttachment
  | .hotCache => record.recordType = .sessionHotCache
  | .falkorDB => record.storageType = .falkordb
  | .objectStore => record.storageType = .objectStore

/-- The records of an adapter. -/
def adapterRecords (adapter : AdapterName) (records : List PrivacyRecord) : List PrivacyRecord :=
  records.filter (adapterMatches adapter)

/-- What went wrong in an adapter. -/
structure PrivacyException where
  adapter : AdapterName
  errorType : String
  deriving DecidableEq, Repr

/-- What an adapter erased. -/
structure ErasureResult where
  erasedCounts : Dict String ℕ := []
  retainedCounts : Dict String ℕ := []
  exceptions : List PrivacyException := []
  deriving DecidableEq, Repr

/-- What an adapter found on looking again. -/
structure VerificationResult where
  passed : Bool
  checks : Dict String Bool := []
  deriving DecidableEq, Repr

/-- `counter.update(counts)`. -/
def counterUpdate (counter counts : Dict String ℕ) : Dict String ℕ :=
  counts.foldl (fun counter p => counter.set p.1 ((counter.get? p.1).getD 0 + p.2)) counter

/-- What the adapters of an execution have reported so far. -/
structure ErasureOutcome where
  erasedCounts : Dict String ℕ := []
  retainedCounts : Dict String ℕ := []
  exceptions : List PrivacyException := []
  verification : Dict AdapterName VerificationResult := []
  deriving DecidableEq, Repr

/-- A row of `erasure_receipts`. -/
structure Receipt where
  erasureReceiptUuid : String
  requestFingerprint : String
  outcome : ErasureOutcome
  completedAt : Timestamp
  deriving DecidableEq, Repr

/-! ### Effects -/

/-- The values of an update of the request. -/
inductive RequestUpdate where
  | confirmed (confirmedAt : Timestamp)
  | executing
  | partialFailure
  | settled (status : PrivacyStatus) (completedAt : Option Timestamp)
  deriving DecidableEq, Repr

/-- The row after an update. -/
def RequestUpdate.apply (request : PrivacyRequestRow) : RequestUpdate → PrivacyRequestRow
  | confirmed confirmedAt => { request with status := .confirmed, confirmedAt := confirmedAt }
  | executing => { request with status := .executing }
  | partialFailure => { request with status := .partialFailure }
  | settled status completedAt => { request with status := status, completedAt := completedAt }

/-- A call of an adapter. -/
inductive AdapterCall where
  | quarantine (adapter : AdapterName) (records : List PrivacyRecord)
  | erase (adapter : AdapterName) (records : List PrivacyRecord)
  | verify (adapter : AdapterName) (records : List PrivacyRecord)
  deriving DecidableEq, Repr

/-- What an adapter answers; an error is the type of the exception it raises. -/
def AdapterCall.Response : AdapterCall → Type
  | quarantine _ _ => Except String Unit
  | erase _ _ => Except String ErasureResult
  | verify _ _ => Except String VerificationResult

/-- What an action asks for. -/
inductive PrivacyEffect where
  | getReceipt
  | getRequest
  | now
  | update (values : RequestUpdate)
  | listItems
  | adapter (call : AdapterCall)
  | createReceipt (requestFingerprint : String) (outcome : ErasureOutcome)
  | recover

/-- What an effect answers. -/
def PrivacyEffect.Response : PrivacyEffect → Type
  | getReceipt => Option Receipt
  | getRequest => Option PrivacyRequestRow
  | now => Timestamp
  | update _ => Option PrivacyRequestRow
  | listItems => List PrivacyRecord
  | adapter call => call.Response
  | createReceipt _ _ => Receipt
  | recover => Unit

/-- What an action returns. -/
inductive PrivacyResult where
  | request (row : PrivacyRequestRow)
  | receipt (row : Receipt)
  | recovered
  deriving DecidableEq, Repr

/-- An action, statement by statement. -/
abbrev PrivacyProgram : Type :=
  Prog PrivacyEffect PrivacyEffect.Response (Except String PrivacyResult)

/-! ### The actions -/

section

variable (P : Platform) (requestUuid : String)

/-- The error for a request that is not stored. -/
def requestNotFound : String := "Privacy request not found: " ++ requestUuid

/-- The digest of a token. -/
def hashToken (token : String) : String := P.sha256 token.toList

/-- Confirm the request. -/
def confirmRequest (confirmationToken : String) : PrivacyProgram :=
  .call .getRequest fun
    | none => .done (.error (requestNotFound requestUuid))
    | some request =>
        if request.confirmationTokenHash ≠ hashToken P confirmationToken then
          .done (.error "invalid confirmation token")
        else match request.confirmationExpiresAt with
          | none => .done (.error "AttributeError")
          | some expiresAt => .call .now fun now : Timestamp =>
              if expiresAt < now then .done (.error "confirmation token expired")
              else .call .now fun confirmedAt => .call (.update (.confirmed confirmedAt)) fun
                | none => .done (.error (requestNotFound requestUuid))
                | some row => .done (.ok (.request row))

/-- Quarantine the records of each adapter. An exception ends the execution. -/
def quarantineAll (records : List PrivacyRecord) :
    List AdapterName → Prog PrivacyEffect PrivacyEffect.Response (Except String Unit)
  | [] => .done (.ok ())
  | adapter :: rest =>
      .call (.adapter (.quarantine adapter (adapterRecords adapter records))) fun
        | .error error => .done (.error error)
        | .ok () => quarantineAll records rest

/-- What an adapter erased is counted. -/
def ErasureOutcome.erased (outcome : ErasureOutcome) (result : ErasureResult) : ErasureOutcome :=
  { outcome with
    erasedCounts := counterUpdate outcome.erasedCounts result.erasedCounts
    retainedCounts := counterUpdate outcome.retainedCounts result.retainedCounts
    exceptions := outcome.exceptions ++ result.exceptions }

/-- What an adapter verified is noted. -/
def ErasureOutcome.verified (outcome : ErasureOutcome) (adapter : AdapterName)
    (result : VerificationResult) : ErasureOutcome :=
  { outcome with verification := outcome.verification.set adapter result }

/-- What an adapter raised is noted. -/
def ErasureOutcome.raised (outcome : ErasureOutcome) (adapter : AdapterName) (errorType : String) :
    ErasureOutcome :=
  { outcome with exceptions := outcome.exceptions ++ [⟨adapter, errorType⟩] }

/-- Erase and verify the records of each adapter. An exception is noted and the next adapter has its
turn. -/
def eraseAll (records : List PrivacyRecord) : List AdapterName → ErasureOutcome →
    Prog PrivacyEffect PrivacyEffect.Response ErasureOutcome
  | [], outcome => .done outcome
  | adapter :: rest, outcome =>
      .call (.adapter (.erase adapter (adapterRecords adapter records))) fun
        | .error errorType => eraseAll records rest (outcome.raised adapter errorType)
        | .ok result =>
            .call (.adapter (.verify adapter (adapterRecords adapter records))) fun
              | .error errorType =>
                  eraseAll records rest ((outcome.erased result).raised adapter errorType)
              | .ok verification =>
                  eraseAll records rest ((outcome.erased result).verified adapter verification)

/-- What a receipt is named by. -/
def fingerprintMaterial (request : PrivacyRequestRow) : IJson :=
  .obj
    [field "privacy_request_uuid" (jsonString requestUuid),
     field "target_type" (jsonString request.targetType),
     field "target_uuid_hash"
       (jsonString (P.sha256 (request.targetUuid.getD "None").toList))]

/-- Write the receipt and settle the request. -/
def settleRequest (request : PrivacyRequestRow) (outcome : ErasureOutcome) : PrivacyProgram :=
  match canonicalHashIjson P (fingerprintMaterial P requestUuid request) with
  | .error error => .done (.error error)
  | .ok fingerprint => .call (.createReceipt fingerprint outcome) fun receipt =>
      if outcome.exceptions = [] then
        .call .now fun completedAt =>
          .call (.update (.settled .completed (some completedAt))) fun
            | none => .done (.error (requestNotFound requestUuid))
            | some _ => .done (.ok (.receipt receipt))
      else .call (.update (.settled .partialFailure none)) fun
        | none => .done (.error (requestNotFound requestUuid))
        | some _ => .done (.ok (.receipt receipt))

/-- Whether a request of this status is executed. -/
def PrivacyStatus.executable : PrivacyStatus → Bool
  | confirmed | executing | partialFailure => true
  | preview | completed => false

/-- Execute the request. -/
def executeRequest : PrivacyProgram :=
  .call .getReceipt fun
    | some receipt => .done (.ok (.receipt receipt))
    | none => .call .getRequest fun
        | none => .done (.error (requestNotFound requestUuid))
        | some request =>
            if request.status.executable = false then
              .done (.error "privacy request must be confirmed before execution")
            else .call (.update .executing) fun
              | none => .done (.error (requestNotFound requestUuid))
              | some _ => .call .listItems fun records =>
                  (quarantineAll records adapters).bind fun
                    | .error error => .done (.error error)
                    | .ok () => (eraseAll records adapters {}).bind
                        (settleRequest P requestUuid request)

/-- Retry the request. -/
def retryRequest : PrivacyProgram :=
  .call (.update .partialFailure) fun
    | none => .done (.error (requestNotFound requestUuid))
    | some _ => executeRequest P requestUuid

/-- What is asked of a request; recovery takes up every interrupted one at a restart. -/
inductive PrivacyAction where
  | confirm (confirmationToken : String)
  | execute
  | retry
  | recover
  deriving DecidableEq, Repr

/-- An action's statements. -/
def PrivacyAction.program : PrivacyAction → PrivacyProgram
  | confirm confirmationToken =>
      if confirmationToken = "" then .done (.error "confirmation_token is required")
      else confirmRequest P requestUuid confirmationToken
  | execute => executeRequest P requestUuid
  | retry => retryRequest P requestUuid
  | recover => .call .recover fun _ => .done (.ok .recovered)

end

/-! ### The store -/

/-- One request with its items and receipts, and the rest of the store. -/
structure PrivacyState (σ : Type) where
  request : Option PrivacyRequestRow
  items : List PrivacyRecord
  receipts : List Receipt
  world : σ

/-- The status of the request. -/
def PrivacyState.status? {σ : Type} (s : PrivacyState σ) : Option PrivacyStatus :=
  s.request.map PrivacyRequestRow.status

/-- An interrupted request is left for a retry. -/
def recoverPrivacyRequest (request : PrivacyRequestRow) : PrivacyRequestRow :=
  if request.status = .executing ∨ request.status = .confirmed then
    { request with status := .partialFailure }
  else request

section

variable {σ : Type} (adapterStep : σ → (call : AdapterCall) → call.Response → σ → Prop)

/-- What an effect does to the store. The clock may show any time. -/
def privacyStatement (s : PrivacyState σ) :
    (e : PrivacyEffect) → e.Response → PrivacyState σ → Prop
  | .getReceipt, found, s' => found = s.receipts.head? ∧ s' = s
  | .getRequest, found, s' => found = s.request ∧ s' = s
  | .now, _, s' => s' = s
  | .update values, found, s' =>
      found = s.request.map (values.apply ·) ∧
        s' = { s with request := s.request.map (values.apply ·) }
  | .listItems, found, s' => found = s.items ∧ s' = s
  | .adapter call, answer, s' =>
      ∃ world, adapterStep s.world call answer world ∧ s' = { s with world := world }
  | .createReceipt fingerprint outcome, (receipt : Receipt), s' =>
      receipt.requestFingerprint = fingerprint ∧ receipt.outcome = outcome ∧
        s' = { s with receipts := s.receipts ++ [receipt] }
  | .recover, _, s' => s' = { s with request := s.request.map recoverPrivacyRequest }

/-- An effect, after other operations have changed the rest of the store. -/
def privacyEffect (others : σ → σ → Prop) (s : PrivacyState σ) (e : PrivacyEffect)
    (r : e.Response) (s' : PrivacyState σ) : Prop :=
  ∃ world, others s.world world ∧ privacyStatement adapterStep { s with world := world } e r s'

/-- What an action did, and its result unless it crashed on its way. -/
structure ActionRun where
  action : PrivacyAction
  performed : List (Performed PrivacyEffect.Response)
  result : Option (Except String PrivacyResult)

end

/-- An action on a store of which the effects are given. -/
def ActionStep {σ : Type}
    (effect : PrivacyState σ → (e : PrivacyEffect) → e.Response → PrivacyState σ → Prop)
    (P : Platform) (requestUuid : String) (s : PrivacyState σ) (run : ActionRun)
    (s' : PrivacyState σ) : Prop :=
  ∃ q, Prog.Exec effect s (run.action.program P requestUuid) run.performed q s' ∧
    run.result = q.result?

/-! ### The store alone -/

section

variable {σ : Type} (clock : Timestamp) (answer : σ → (call : AdapterCall) → call.Response × σ)

/-- The answer to an effect when no other operation comes between. -/
def PrivacyState.respond (s : PrivacyState σ) : (e : PrivacyEffect) → e.Response × PrivacyState σ
  | .getReceipt => (s.receipts.head?, s)
  | .getRequest => (s.request, s)
  | .now => (clock, s)
  | .update values => (s.request.map (values.apply ·),
      { s with request := s.request.map (values.apply ·) })
  | .listItems => (s.items, s)
  | .adapter call => ((answer s.world call).1, { s with world := (answer s.world call).2 })
  | .createReceipt fingerprint outcome =>
      let receipt : Receipt := ⟨toString s.receipts.length, fingerprint, outcome, clock⟩
      (receipt, { s with receipts := s.receipts ++ [receipt] })
  | .recover => ((), { s with request := s.request.map recoverPrivacyRequest })

/-- An action when no other operation comes between. -/
def runAction (P : Platform) (requestUuid : String) (s : PrivacyState σ) (action : PrivacyAction) :
    ActionRun × PrivacyState σ :=
  let run := Prog.eval (PrivacyState.respond clock answer) s (action.program P requestUuid)
  (⟨action, run.1, some run.2.1⟩, run.2.2)

variable {clock answer}

lemma runAction_step {adapterStep : σ → (call : AdapterCall) → call.Response → σ → Prop}
    {others : σ → σ → Prop} (hothers : ∀ world, others world world)
    (hanswer : ∀ world call, adapterStep world call (answer world call).1 (answer world call).2)
    {P : Platform} {requestUuid : String} (s : PrivacyState σ) (action : PrivacyAction) :
    ActionStep (privacyEffect adapterStep others) P requestUuid s
      (runAction clock answer P requestUuid s action).1
      (runAction clock answer P requestUuid s action).2 := by
  refine ⟨_, Prog.exec_eval (fun s e => ?_) s _, rfl⟩
  refine ⟨s.world, hothers _, ?_⟩
  cases e with
  | adapter call => exact ⟨_, hanswer _ _, rfl⟩
  | createReceipt fingerprint outcome => exact ⟨rfl, rfl, rfl⟩
  | now => rfl
  | recover => rfl
  | _ => exact ⟨rfl, rfl⟩

end

end Memorist
