import Memorist.Governance.Privacy
import Memorist.Storage.Conversation
import Memorist.Storage.Memories

/-!
The canonical store's adapter of a privacy request (`governance/privacy.py`).

* `CanonicalStore.discover`: the records of a target;
* `CanonicalStore.quarantine`, `CanonicalStore.erase`, `CanonicalStore.verify`: what the adapter
  does to records, each in one transaction;
* `canonicalStep`: what a call of an adapter may do; only this one writes the canonical store;
* `previewRequest`: the request and its items, frozen at the preview.
-/

namespace Memorist

/-- A row of `memory_evidence_links`. -/
structure MemoryEvidenceLink where
  memoryUuid : String
  memoryVersionUuid : String
  candidateUuid : String
  evidenceUuid : String
  deriving DecidableEq, Repr

/-- The tables that the adapter reads and writes. -/
structure CanonicalStore where
  conversations : ConversationStore
  memories : MemoryStore
  evidence : Table CandidateEvidence String CandidateEvidence.evidenceUuid
  evidenceLinks : List MemoryEvidenceLink

/-- What stands for a text that was erased. -/
def erasedText : Text := "[erased]".toList

/-- The name of a record, unless it is missing or empty. -/
def PrivacyRecord.uuid? (record : PrivacyRecord) : Option String :=
  record.recordUuid.filter fun uuid => uuid ≠ ""

/-! ### Memories -/

/-- The reason that an erased version carries. -/
def redactionReason (requestUuid : String) : IJson :=
  .obj
    [field "privacy_request_uuid" (jsonString requestUuid), field "redacted" (.bool true)]

/-- A version without its content. -/
def MemoryVersionRow.redact (reason : Text) (version : MemoryVersionRow) : MemoryVersionRow :=
  { version with normalizedText := erasedText, valueIjson := none, changeReasonIjson := reason }

namespace MemoryStore

/-- Quarantine a record: a memory is forgotten. -/
def quarantineRecord (store : MemoryStore) (record : PrivacyRecord) : MemoryStore :=
  match record.recordType, record.uuid? with
  | .memory, some uuid => store.setStatus uuid .forgotten
  | _, _ => store

/-- Quarantine records. -/
def quarantine (store : MemoryStore) (records : List PrivacyRecord) : MemoryStore :=
  records.foldl quarantineRecord store

/-- Erase the content of a version. -/
def redactVersion (store : MemoryStore) (uuid : String) (reason : Text) : MemoryStore :=
  { store with
    versions := store.versions.updateWhere (fun version => version.memoryVersionUuid = uuid)
      (MemoryVersionRow.redact reason) fun _ => rfl }

/-- Erase a record: a memory is forgotten, a version loses its content. -/
def eraseRecord (U : UnicodeData) (requestUuid : String) (store : MemoryStore)
    (record : PrivacyRecord) : Except String MemoryStore :=
  match record.recordType, record.uuid? with
  | .memory, some uuid => .ok (store.setStatus uuid .forgotten)
  | .memoryVersion, some uuid => do
      let reason ← dumpIjson U (redactionReason requestUuid)
      pure (store.redactVersion uuid reason)
  | _, _ => .ok store

/-- Erase records. -/
def erase (U : UnicodeData) (requestUuid : String) (store : MemoryStore)
    (records : List PrivacyRecord) : Except String MemoryStore :=
  records.foldlM (eraseRecord U requestUuid) store

end MemoryStore

/-! ### Conversations -/

/-- A message without its content. -/
def MessageRow.redact (message : MessageRow) : MessageRow :=
  { message with
    rawText := none
    rawPayloadIjson := none
    snapshotIjson := none
    visibility := "deleted"
    isDeleted := true
    redactionStatus := "erased" }

/-- A version without its content. -/
def MessageVersionRow.redact (version : MessageVersionRow) : MessageVersionRow :=
  { version with rawText := none, rawPayloadIjson := none, snapshotIjson := none }

/-- A text unit without its content. -/
def MessageTextUnitRow.redact (unit : MessageTextUnitRow) : MessageTextUnitRow :=
  { unit with text := erasedText }

/-- Evidence without its content. -/
def CandidateEvidence.redact (evidence : CandidateEvidence) : CandidateEvidence :=
  { evidence with evidenceText := erasedText }

namespace ConversationStore

variable (store : ConversationStore)

/-- Erase the content of a message. -/
def redactMessage (uuid : String) : ConversationStore :=
  { store with
    messages := store.messages.updateWhere (fun message => message.messageUuid = uuid)
      MessageRow.redact fun _ => rfl }

/-- Erase the content of a version of a message. -/
def redactMessageVersion (uuid : String) : ConversationStore :=
  { store with
    messageVersions := store.messageVersions.updateWhere
      (fun version => version.messageVersionUuid = uuid) MessageVersionRow.redact fun _ => rfl }

/-- Erase the content of text units. -/
def redactTextUnits (uuids : List String) : ConversationStore :=
  { store with
    textUnits := store.textUnits.updateWhere (fun unit => unit.textUnitUuid ∈ uuids)
      MessageTextUnitRow.redact fun _ => rfl }

/-- Delete a session; its row stays. -/
def deleteSession (uuid : String) : ConversationStore :=
  { store with
    sessions := store.sessions.updateWhere (fun session => session.sessionUuid = uuid)
      (fun session => { session with status := "deleted" }) fun _ => rfl }

/-- Erase a record of a conversation. -/
def eraseRecord (record : PrivacyRecord) : ConversationStore :=
  match record.recordType, record.uuid? with
  | .message, some uuid => store.redactMessage uuid
  | .messageVersion, some uuid => store.redactMessageVersion uuid
  | .textUnit, some uuid => store.redactTextUnits [uuid]
  | .session, some uuid => store.deleteSession uuid
  | _, _ => store

end ConversationStore

/-! ### The adapter -/

namespace CanonicalStore

variable (store : CanonicalStore)

/-- A record of the canonical store. -/
def canonicalRecord (recordType : RecordType) (recordUuid action : String) : PrivacyRecord :=
  ⟨.sqlite, recordType, recordUuid, action⟩

/-- The records of a message: the message, its text units and its versions. -/
def discoverMessage (messageUuid : String) : List PrivacyRecord :=
  if messageUuid = "" then [] else
    canonicalRecord .message messageUuid "redact" ::
      ((store.conversations.textUnits.rows.filter fun unit => unit.messageUuid = messageUuid).map
          (fun unit => canonicalRecord .textUnit unit.textUnitUuid "redact") ++
        (store.conversations.versionsOf messageUuid).map fun version =>
          canonicalRecord .messageVersion version.messageVersionUuid "redact")

/-- The records of a target. -/
def discover (request : PrivacyRequestRow) : List PrivacyRecord :=
  match request.targetUuid.filter fun uuid => uuid ≠ "" with
  | none => []
  | some targetUuid =>
      if request.targetType = "memory" then
        canonicalRecord .memory targetUuid "quarantine_redact" ::
          (store.memories.versionsOf targetUuid).map fun version =>
            canonicalRecord .memoryVersion version.memoryVersionUuid "redact"
      else if request.targetType = "message" then store.discoverMessage targetUuid
      else if request.targetType = "session" then
        (store.conversations.messages.rows.filter fun message =>
            message.sessionUuid = targetUuid).flatMap
          (fun message => store.discoverMessage message.messageUuid) ++
        [canonicalRecord .session targetUuid "soft_delete"]
      else []

/-- Quarantine records. -/
def quarantine (records : List PrivacyRecord) : CanonicalStore :=
  { store with memories := store.memories.quarantine records }

/-- The evidence that is linked to a version of a memory. -/
def linkedEvidence (memoryVersionUuid : String) : List String :=
  (store.evidenceLinks.filter fun link => link.memoryVersionUuid = memoryVersionUuid).map
    MemoryEvidenceLink.evidenceUuid

/-- Erase the evidence that is linked to a version of a memory, and the text units it quotes. -/
def eraseSourceArtifacts (memoryVersionUuid : String) : CanonicalStore :=
  let evidenceUuids := store.linkedEvidence memoryVersionUuid
  let quoted := store.evidence.rows.filter fun evidence => evidence.evidenceUuid ∈ evidenceUuids
  { store with
    evidence := store.evidence.updateWhere (fun evidence => evidence.evidenceUuid ∈ evidenceUuids)
      CandidateEvidence.redact fun _ => rfl
    conversations :=
      store.conversations.redactTextUnits (quoted.map CandidateEvidence.textUnitUuid) }

/-- Erase the evidence that quotes a message. -/
def eraseEvidenceOf (messageUuid : String) : CanonicalStore :=
  { store with
    evidence := store.evidence.updateWhere (fun evidence => evidence.messageUuid = messageUuid)
      CandidateEvidence.redact fun _ => rfl }

/-- What is erased along with a record. -/
def eraseArtifacts (record : PrivacyRecord) : CanonicalStore :=
  match record.recordType, record.uuid? with
  | .memoryVersion, some uuid => store.eraseSourceArtifacts uuid
  | .message, some uuid => store.eraseEvidenceOf uuid
  | _, _ => store

/-- Erase a record. -/
def eraseRecord (U : UnicodeData) (requestUuid : String) (store : CanonicalStore)
    (record : PrivacyRecord) : Except String CanonicalStore := do
  let memories ← store.memories.eraseRecord U requestUuid record
  pure (eraseArtifacts
    { store with
      memories := memories
      conversations := store.conversations.eraseRecord record } record)

/-- Erase records. -/
def erase (U : UnicodeData) (requestUuid : String) (records : List PrivacyRecord) :
    Except String CanonicalStore :=
  records.foldlM (eraseRecord U requestUuid) store

/-- What the verification finds of a record. -/
def verifyRecord (record : PrivacyRecord) : Option (String × Bool) :=
  match record.recordType, record.uuid? with
  | .memory, some uuid =>
      some ("memory:" ++ uuid,
        (store.memories.memories.get? uuid).all fun memory => memory.status = .forgotten)
  | .message, some uuid =>
      some ("message:" ++ uuid, (store.conversations.messages.get? uuid).all fun message =>
        message.rawText.isNone && message.redactionStatus = "erased")
  | .messageVersion, some uuid =>
      some ("message_version:" ++ uuid,
        (store.conversations.messageVersions.get? uuid).all fun version =>
          version.rawText.isNone && version.rawPayloadIjson.isNone && version.snapshotIjson.isNone)
  | _, _ => none

/-- What the verification finds. -/
def verify (records : List PrivacyRecord) : VerificationResult :=
  let checks := (records.filterMap store.verifyRecord).foldl
    (fun checks p => Dict.set checks p.1 p.2) ([] : Dict String Bool)
  ⟨checks.all Prod.snd, checks⟩

end CanonicalStore

/-- Each record once, where it was found first. -/
def distinctRecords (records : List PrivacyRecord) : List PrivacyRecord :=
  records.foldl (fun found record =>
    if found.any fun r => r.storageType = record.storageType && r.recordType = record.recordType &&
        r.recordUuid = record.recordUuid then found else found ++ [record]) []

/-! ### Calls -/

/-- The canonical store and what the other adapters write. -/
structure ErasureWorld (τ : Type) where
  store : CanonicalStore
  rest : τ

/-- What a call of an adapter may do. An exception of the canonical adapter rolls its transaction
back; the other adapters leave the canonical store as it is. -/
def canonicalStep {τ : Type} (U : UnicodeData) (requestUuid : String) (world : ErasureWorld τ) :
    (call : AdapterCall) → call.Response → ErasureWorld τ → Prop
  | .quarantine .sqliteCanonical records, answer, world' =>
      answer = .ok () ∧ world' = { world with store := world.store.quarantine records } ∨
        (∃ error, answer = .error error) ∧ world' = world
  | .erase .sqliteCanonical records, answer, world' =>
      (∃ erasedCounts retainedCounts store, answer = .ok ⟨erasedCounts, retainedCounts, []⟩ ∧
        world.store.erase U requestUuid records = .ok store ∧
        world' = { world with store := store }) ∨
        (∃ error, answer = .error error) ∧ world' = world
  | .verify .sqliteCanonical records, answer, world' =>
      (answer = .ok (world.store.verify records) ∨ ∃ error, answer = .error error) ∧
        world' = world
  | _, _, world' => world'.store = world.store

/-- The token of a request. -/
def confirmationToken (requestUuid : String) : String := "confirm-" ++ requestUuid

/-- A request that has been previewed: its items are the records found by the canonical adapter and
by the others. -/
def previewRequest {τ : Type} (P : Platform) (requestUuid targetType : String)
    (targetUuid : Option String) (now : Timestamp) (othersFound : List PrivacyRecord)
    (world : ErasureWorld τ) : PrivacyState (ErasureWorld τ) :=
  let request : PrivacyRequestRow :=
    { targetType := targetType
      targetUuid := targetUuid
      confirmationTokenHash := hashToken P (confirmationToken requestUuid)
      confirmationExpiresAt := addSeconds now 3600 }
  { request := request
    items := distinctRecords (world.store.discover request ++ othersFound)
    receipts := []
    world := world }

end Memorist
