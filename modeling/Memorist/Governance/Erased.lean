import Memorist.Governance.Erasure
import Memorist.Library.Redaction

/-!
What an erasure leaves of its target.

* `ContentRow`, `HasContent`: the rows of a target that hold content;
* `TargetRedacted`: none of them has any left;
* `Listed`: those that have some are among the records of the request;
* `listed_discover`: **what exists at the preview is listed**;
* `erases_records`: **the records that are erased are redacted**;
* `targetRedacted_of_listed`, `Listed.erase`: an erasure redacts what is listed, and what it leaves
  is listed still.
-/

namespace Memorist

/-! ### Content -/

/-- The kinds of targets. -/
inductive ErasureTarget where
  | memory
  | message
  | session
  deriving DecidableEq, Repr

/-- The text of a kind. -/
def ErasureTarget.value : ErasureTarget → String
  | memory => "memory"
  | message => "message"
  | session => "session"

/-- A row that holds content of a target. -/
inductive ContentRow where
  | memoryVersion (row : MemoryVersionRow)
  | message (row : MessageRow)
  | messageVersion (row : MessageVersionRow)
  | textUnit (row : MessageTextUnitRow)

namespace ContentRow

/-- The type of the record of a row. -/
def recordType : ContentRow → RecordType
  | memoryVersion _ => .memoryVersion
  | message _ => .message
  | messageVersion _ => .messageVersion
  | textUnit _ => .textUnit

/-- The name of a row. -/
def uuid : ContentRow → String
  | memoryVersion row => row.memoryVersionUuid
  | message row => row.messageUuid
  | messageVersion row => row.messageVersionUuid
  | textUnit row => row.textUnitUuid

end ContentRow

/-- A version of a memory without text and value. -/
def MemoryVersionRow.Redacted (version : MemoryVersionRow) : Prop :=
  version.normalizedText = erasedText ∧ version.valueIjson = none

/-- A message without text, payload and snapshot. -/
def MessageRow.Redacted (message : MessageRow) : Prop :=
  message.rawText = none ∧ message.rawPayloadIjson = none ∧ message.snapshotIjson = none

/-- A version of a message without text, payload and snapshot. -/
def MessageVersionRow.Redacted (version : MessageVersionRow) : Prop :=
  version.rawText = none ∧ version.rawPayloadIjson = none ∧ version.snapshotIjson = none

/-- A text unit without text. -/
def MessageTextUnitRow.Redacted (unit : MessageTextUnitRow) : Prop := unit.text = erasedText

/-- The row has no content left. -/
def ContentRow.Redacted : ContentRow → Prop
  | memoryVersion row => row.Redacted
  | message row => row.Redacted
  | messageVersion row => row.Redacted
  | textUnit row => row.Redacted

/-- The record of a row is among the records. -/
def ContentRow.NamedIn (row : ContentRow) (records : List PrivacyRecord) : Prop :=
  ∃ record ∈ records, record.storageType = .sqlite ∧ record.recordType = row.recordType ∧
    record.uuid? = some row.uuid

namespace CanonicalStore

variable (store : CanonicalStore)

/-- The row is the message, one of its versions or one of its text units. -/
def HasMessageContent (messageUuid : String) : ContentRow → Prop
  | .message row => row ∈ store.conversations.messages.rows ∧ row.messageUuid = messageUuid
  | .messageVersion row =>
      row ∈ store.conversations.messageVersions.rows ∧ row.messageUuid = messageUuid
  | .textUnit row => row ∈ store.conversations.textUnits.rows ∧ row.messageUuid = messageUuid
  | .memoryVersion _ => False

/-- The row holds content of the target. -/
def HasContent : ErasureTarget → String → ContentRow → Prop
  | .memory, uuid, .memoryVersion row =>
      row ∈ store.memories.versions.rows ∧ row.memoryUuid = uuid
  | .memory, _, _ => False
  | .message, uuid, row => store.HasMessageContent uuid row
  | .session, uuid, row => ∃ message ∈ store.conversations.messages.rows,
      message.sessionUuid = uuid ∧ store.HasMessageContent message.messageUuid row

/-- No row of the target has content left. -/
def TargetRedacted (target : ErasureTarget) (uuid : String) : Prop :=
  ∀ row, store.HasContent target uuid row → row.Redacted

/-- The rows of the target that have content left are among the records. -/
def Listed (target : ErasureTarget) (uuid : String) (records : List PrivacyRecord) : Prop :=
  ∀ row, store.HasContent target uuid row → row.Redacted ∨ row.NamedIn records

/-! ### What a preview lists -/

variable {store}

lemma namedIn_of_mem (action : String) {row : ContentRow} {records : List PrivacyRecord}
    (huuid : row.uuid ≠ "") (h : canonicalRecord row.recordType row.uuid action ∈ records) :
    row.NamedIn records :=
  ⟨_, h, rfl, rfl, by simp [PrivacyRecord.uuid?, canonicalRecord, huuid]⟩

/-- What a message holds is found with it. -/
lemma namedIn_discoverMessage {messageUuid : String} (hmessage : messageUuid ≠ "")
    {row : ContentRow} (huuid : row.uuid ≠ "") (hrow : store.HasMessageContent messageUuid row) :
    row.NamedIn (store.discoverMessage messageUuid) := by
  refine namedIn_of_mem "redact" huuid ?_
  rw [discoverMessage, if_neg hmessage]
  cases row with
  | memoryVersion row => exact hrow.elim
  | message row => exact List.mem_cons.mpr (.inl (by rw [← hrow.2]; rfl))
  | textUnit row =>
      refine List.mem_cons_of_mem _ (List.mem_append_left _ (List.mem_map.mpr ⟨row, ?_, rfl⟩))
      exact List.mem_filter.mpr ⟨hrow.1, decide_eq_true hrow.2⟩
  | messageVersion row =>
      refine List.mem_cons_of_mem _ (List.mem_append_right _ (List.mem_map.mpr ⟨row, ?_, rfl⟩))
      exact List.mem_filter.mpr ⟨hrow.1, decide_eq_true hrow.2⟩

/-- **What exists at the preview is listed**, if it has a name. -/
theorem listed_discover {target : ErasureTarget} {uuid : String} {request : PrivacyRequestRow}
    (htype : request.targetType = target.value) (htarget : request.targetUuid = some uuid)
    (huuid : uuid ≠ "") (hnames : ∀ row, store.HasContent target uuid row → row.uuid ≠ "") :
    store.Listed target uuid (store.discover request) := by
  intro row hrow
  have hname := hnames row hrow
  refine .inr ?_
  rw [discover, htarget, Option.filter_some, if_pos (by simpa using huuid)]
  dsimp only
  rw [htype]
  cases target with
  | memory =>
      rw [if_pos (by decide)]
      cases row with
      | memoryVersion row =>
          refine namedIn_of_mem "redact" hname (List.mem_cons_of_mem _ ?_)
          exact List.mem_map.mpr ⟨row, MemoryStore.mem_versionsOf.mpr hrow, rfl⟩
      | message row => exact hrow.elim
      | messageVersion row => exact hrow.elim
      | textUnit row => exact hrow.elim
  | message =>
      rw [if_neg (by decide), if_pos (by decide)]
      exact namedIn_discoverMessage huuid hname hrow
  | session =>
      rw [if_neg (by decide), if_neg (by decide), if_pos (by decide)]
      obtain ⟨message, hmessage, hsession, hcontent⟩ := hrow
      have hmessageUuid : message.messageUuid ≠ "" :=
        hnames (.message message) ⟨message, hmessage, hsession, hmessage, rfl⟩
      obtain ⟨record, hrecord, hrest⟩ := namedIn_discoverMessage hmessageUuid hname hcontent
      refine ⟨record, List.mem_append_left _ (List.mem_flatMap.mpr ⟨message, ?_, hrecord⟩), hrest⟩
      exact List.mem_filter.mpr ⟨hmessage, decide_eq_true hsession⟩

/-- A record that is found more than once is kept once. -/
lemma exists_distinctRecords {records : List PrivacyRecord} {record : PrivacyRecord}
    (h : record ∈ records) : ∃ r ∈ distinctRecords records, r.storageType = record.storageType ∧
      r.recordType = record.recordType ∧ r.recordUuid = record.recordUuid := by
  unfold distinctRecords
  induction records using List.reverseRecOn with
  | nil => exact absurd h List.not_mem_nil
  | append_singleton records last ih =>
      rw [List.foldl_append, List.foldl_cons, List.foldl_nil]
      rcases List.mem_append.mp h with h | h
      · obtain ⟨r, hr, hsame⟩ := ih h
        refine ⟨r, ?_, hsame⟩
        split_ifs
        · exact hr
        · exact List.mem_append_left _ hr
      · obtain rfl := List.mem_singleton.mp h
        split_ifs with hfound
        · obtain ⟨r, hr, hsame⟩ := List.any_eq_true.mp hfound
          simp only [Bool.and_eq_true, decide_eq_true_eq] at hsame
          exact ⟨r, hr, hsame.1.1, hsame.1.2, hsame.2⟩
        · exact ⟨record, by simp, rfl, rfl, rfl⟩

/-- What is found at the preview is among the items of the request. -/
lemma Listed.preview {target : ErasureTarget} {uuid : String} {records othersFound :
      List PrivacyRecord} (h : store.Listed target uuid records) :
    store.Listed target uuid (distinctRecords (records ++ othersFound)) := by
  intro row hrow
  refine (h row hrow).imp_right ?_
  rintro ⟨record, hrecord, hstorage, hty, huuid⟩
  obtain ⟨r, hr, hstorage', hty', huuid'⟩ :=
    exists_distinctRecords (List.mem_append_left othersFound hrecord)
  refine ⟨r, hr, hstorage'.trans hstorage, hty'.trans hty, ?_⟩
  rw [PrivacyRecord.uuid?, huuid']
  exact huuid

/-! ### What an erasure redacts -/

/-- A store whose rows come from those of an earlier one, the named ones without content. -/
structure Erases (named : RecordType → String → Prop) (s s' : CanonicalStore) : Prop where
  versions : Table.Redacts MemoryVersionRow.memoryUuid MemoryVersionRow.Redacted
    (named .memoryVersion) s.memories.versions s'.memories.versions
  messages : Table.Redacts MessageRow.sessionUuid MessageRow.Redacted (named .message)
    s.conversations.messages s'.conversations.messages
  messageVersions : Table.Redacts MessageVersionRow.messageUuid MessageVersionRow.Redacted
    (named .messageVersion) s.conversations.messageVersions s'.conversations.messageVersions
  textUnits : Table.Redacts MessageTextUnitRow.messageUuid MessageTextUnitRow.Redacted
    (named .textUnit) s.conversations.textUnits s'.conversations.textUnits

variable {named named' : RecordType → String → Prop} {s s' s'' : CanonicalStore}
variable {target : ErasureTarget} {uuid : String} {records : List PrivacyRecord}

namespace Erases

lemma refl (s : CanonicalStore) : Erases (fun _ _ => False) s s :=
  ⟨.refl _, .refl _, .refl _, .refl _⟩

lemma mono (h : Erases named s s') (hsub : ∀ ty u, named' ty u → named ty u) :
    Erases named' s s' :=
  ⟨h.versions.mono (hsub _), h.messages.mono (hsub _), h.messageVersions.mono (hsub _),
    h.textUnits.mono (hsub _)⟩

lemma trans (h : Erases named s s') (h' : Erases named' s' s'') :
    Erases (fun ty u => named ty u ∨ named' ty u) s s'' :=
  ⟨h.versions.trans h'.versions, h.messages.trans h'.messages,
    h.messageVersions.trans h'.messageVersions, h.textUnits.trans h'.textUnits⟩

/-- A row of a message comes from one. -/
lemma exists_messageContent (h : Erases named s s') {messageUuid : String} {row : ContentRow}
    (hrow : s'.HasMessageContent messageUuid row) :
    ∃ row₀, s.HasMessageContent messageUuid row₀ ∧ row.recordType = row₀.recordType ∧
      row.uuid = row₀.uuid ∧ (row₀.Redacted ∨ named row₀.recordType row₀.uuid → row.Redacted) := by
  cases row with
  | memoryVersion row => exact hrow.elim
  | message row =>
      obtain ⟨row₀, hmem, hkey, -, hblank⟩ := h.messages row hrow.1
      exact ⟨.message row₀, ⟨hmem, hkey.symm.trans hrow.2⟩, rfl, hkey, hblank⟩
  | messageVersion row =>
      obtain ⟨row₀, hmem, hkey, howner, hblank⟩ := h.messageVersions row hrow.1
      exact ⟨.messageVersion row₀, ⟨hmem, howner.symm.trans hrow.2⟩, rfl, hkey, hblank⟩
  | textUnit row =>
      obtain ⟨row₀, hmem, hkey, howner, hblank⟩ := h.textUnits row hrow.1
      exact ⟨.textUnit row₀, ⟨hmem, howner.symm.trans hrow.2⟩, rfl, hkey, hblank⟩

/-- A row of a target comes from one. -/
lemma exists_content (h : Erases named s s') {row : ContentRow}
    (hrow : s'.HasContent target uuid row) :
    ∃ row₀, s.HasContent target uuid row₀ ∧ row.recordType = row₀.recordType ∧
      row.uuid = row₀.uuid ∧ (row₀.Redacted ∨ named row₀.recordType row₀.uuid → row.Redacted) := by
  cases target with
  | memory =>
      cases row with
      | memoryVersion row =>
          obtain ⟨row₀, hmem, hkey, howner, hblank⟩ := h.versions row hrow.1
          exact ⟨.memoryVersion row₀, ⟨hmem, howner.symm.trans hrow.2⟩, rfl, hkey, hblank⟩
      | message row => exact hrow.elim
      | messageVersion row => exact hrow.elim
      | textUnit row => exact hrow.elim
  | message => exact h.exists_messageContent hrow
  | session =>
      obtain ⟨message, hmessage, hsession, hcontent⟩ := hrow
      obtain ⟨message₀, hmem, hkey, howner, -⟩ := h.messages message hmessage
      rw [hkey] at hcontent
      obtain ⟨row₀, hrow₀, hrest⟩ := h.exists_messageContent hcontent
      exact ⟨row₀, ⟨message₀, hmem, howner.symm.trans hsession, hrow₀⟩, hrest⟩

end Erases

/-- The records name a record of the type. -/
def Names (records : List PrivacyRecord) (recordType : RecordType) (uuid : String) : Prop :=
  ∃ record ∈ records, record.recordType = recordType ∧ record.uuid? = some uuid

/-- A statement that redacts versions of memories. -/
lemma redacts_redactVersion (memories : MemoryStore) {uuid : String} {reason : Text}
    {named : String → Prop} (hnamed : ∀ name, named name → name = uuid) :
    Table.Redacts MemoryVersionRow.memoryUuid MemoryVersionRow.Redacted named memories.versions
      (memories.redactVersion uuid reason).versions :=
  Table.Redacts.updateWhere (f := MemoryVersionRow.redact reason) (fun _ => rfl) (fun _ => rfl)
    (fun _ => ⟨rfl, rfl⟩) fun _ h => decide_eq_true (hnamed _ h)

/-- A statement that redacts a message. -/
lemma redacts_redactMessage (store : ConversationStore) {uuid : String} {named : String → Prop}
    (hnamed : ∀ name, named name → name = uuid) :
    Table.Redacts MessageRow.sessionUuid MessageRow.Redacted named store.messages
      (store.redactMessage uuid).messages :=
  Table.Redacts.updateWhere (f := MessageRow.redact) (fun _ => rfl) (fun _ => rfl)
    (fun _ => ⟨rfl, rfl, rfl⟩) fun _ h => decide_eq_true (hnamed _ h)

/-- A statement that redacts a version of a message. -/
lemma redacts_redactMessageVersion (store : ConversationStore) {uuid : String}
    {named : String → Prop} (hnamed : ∀ name, named name → name = uuid) :
    Table.Redacts MessageVersionRow.messageUuid MessageVersionRow.Redacted named
      store.messageVersions (store.redactMessageVersion uuid).messageVersions :=
  Table.Redacts.updateWhere (f := MessageVersionRow.redact) (fun _ => rfl) (fun _ => rfl)
    (fun _ => ⟨rfl, rfl, rfl⟩) fun _ h => decide_eq_true (hnamed _ h)

/-- A statement that redacts text units. -/
lemma redacts_redactTextUnits (store : ConversationStore) {uuids : List String}
    {named : String → Prop} (hnamed : ∀ name, named name → name ∈ uuids) :
    Table.Redacts MessageTextUnitRow.messageUuid MessageTextUnitRow.Redacted named
      store.textUnits (store.redactTextUnits uuids).textUnits :=
  Table.Redacts.updateWhere (f := MessageTextUnitRow.redact) (fun _ => rfl) (fun _ => rfl)
    (fun _ => rfl) fun _ h => decide_eq_true (hnamed _ h)

/-- What is erased along with a record. -/
lemma erases_artifacts (s : CanonicalStore) (record : PrivacyRecord) :
    Erases (fun _ _ => False) s (s.eraseArtifacts record) := by
  unfold eraseArtifacts
  split
  · exact ⟨.refl _, .refl _, .refl _, redacts_redactTextUnits _ fun _ h => h.elim⟩
  · exact ⟨.refl _, .refl _, .refl _, .refl _⟩
  · exact .refl s

lemma names_singleton {record : PrivacyRecord} {recordType : RecordType} {uuid : String} :
    Names [record] recordType uuid ↔ record.recordType = recordType ∧ record.uuid? = some uuid := by
  simp [Names]

/-- A version of a memory that is erased is redacted. -/
lemma erases_memories {U : UnicodeData} {requestUuid : String} {record : PrivacyRecord}
    {memories memories' : MemoryStore}
    (h : memories.eraseRecord U requestUuid record = .ok memories') :
    Table.Redacts MemoryVersionRow.memoryUuid MemoryVersionRow.Redacted
      (Names [record] .memoryVersion) memories.versions memories'.versions := by
  unfold MemoryStore.eraseRecord at h
  split at h
  case h_1 hty _ =>
    obtain rfl := Except.ok.inj h
    refine (Table.Redacts.refl _).mono fun name hname => ?_
    rw [names_singleton, hty] at hname
    exact absurd hname.1 (by decide)
  case h_2 uuid hty huuid =>
    obtain ⟨reason, -, h⟩ := Checks.bind_eq_ok.mp h
    obtain rfl := Checks.pure_eq_ok.mp h
    refine redacts_redactVersion memories fun name hname => ?_
    rw [names_singleton, huuid, Option.some_inj] at hname
    exact hname.2.symm
  case h_3 hother =>
    obtain rfl := Except.ok.inj h
    refine (Table.Redacts.refl _).mono fun name hname => ?_
    rw [names_singleton] at hname
    exact hother name hname.1 hname.2

/-- A record of a conversation that is erased is redacted. -/
lemma erases_conversations (store : ConversationStore) (record : PrivacyRecord) :
    Table.Redacts MessageRow.sessionUuid MessageRow.Redacted (Names [record] .message)
        store.messages (store.eraseRecord record).messages ∧
      Table.Redacts MessageVersionRow.messageUuid MessageVersionRow.Redacted
        (Names [record] .messageVersion) store.messageVersions
        (store.eraseRecord record).messageVersions ∧
      Table.Redacts MessageTextUnitRow.messageUuid MessageTextUnitRow.Redacted
        (Names [record] .textUnit) store.textUnits (store.eraseRecord record).textUnits := by
  unfold ConversationStore.eraseRecord
  split
  case h_1 uuid hty huuid =>
    refine ⟨redacts_redactMessage store ?_,
      (Table.Redacts.refl _).mono ?_, (Table.Redacts.refl _).mono ?_⟩ <;>
      intro name hname <;> rw [names_singleton] at hname
    · rw [huuid, Option.some_inj] at hname
      exact hname.2.symm
    · exact absurd (hty.symm.trans hname.1) (by decide)
    · exact absurd (hty.symm.trans hname.1) (by decide)
  case h_2 uuid hty huuid =>
    refine ⟨(Table.Redacts.refl _).mono ?_,
      redacts_redactMessageVersion store ?_,
      (Table.Redacts.refl _).mono ?_⟩ <;>
      intro name hname <;> rw [names_singleton] at hname
    · exact absurd (hty.symm.trans hname.1) (by decide)
    · rw [huuid, Option.some_inj] at hname
      exact hname.2.symm
    · exact absurd (hty.symm.trans hname.1) (by decide)
  case h_3 uuid hty huuid =>
    refine ⟨(Table.Redacts.refl _).mono ?_, (Table.Redacts.refl _).mono ?_,
      redacts_redactTextUnits store ?_⟩ <;>
      intro name hname <;> rw [names_singleton] at hname
    · exact absurd (hty.symm.trans hname.1) (by decide)
    · exact absurd (hty.symm.trans hname.1) (by decide)
    · rw [huuid, Option.some_inj] at hname
      exact List.mem_singleton.mpr hname.2.symm
  case h_4 hty _ =>
    refine ⟨(Table.Redacts.refl _).mono ?_, (Table.Redacts.refl _).mono ?_,
      (Table.Redacts.refl _).mono ?_⟩ <;>
      intro name hname <;> rw [names_singleton] at hname <;>
      exact absurd (hty.symm.trans hname.1) (by decide)
  case h_5 hmessage hversion hunit _ =>
    refine ⟨(Table.Redacts.refl _).mono ?_, (Table.Redacts.refl _).mono ?_,
      (Table.Redacts.refl _).mono ?_⟩ <;>
      intro name hname <;> rw [names_singleton] at hname
    · exact hmessage name hname.1 hname.2
    · exact hversion name hname.1 hname.2
    · exact hunit name hname.1 hname.2

/-- A record that is erased is redacted. -/
lemma erases_record {U : UnicodeData} {requestUuid : String} {record : PrivacyRecord}
    (h : s.eraseRecord U requestUuid record = .ok s') : Erases (Names [record]) s s' := by
  obtain ⟨memories, hmemories, h⟩ := Checks.bind_eq_ok.mp h
  obtain rfl := Checks.pure_eq_ok.mp h
  obtain ⟨hmessages, hversions, hunits⟩ := erases_conversations s.conversations record
  have herased : Erases (Names [record]) s
      { s with memories := memories, conversations := s.conversations.eraseRecord record } :=
    ⟨erases_memories hmemories, hmessages, hversions, hunits⟩
  exact (herased.trans (erases_artifacts _ record)).mono fun _ _ => Or.inl

/-- **The records that are erased are redacted.** -/
theorem erases_records {U : UnicodeData} {requestUuid : String}
    (h : s.erase U requestUuid records = .ok s') : Erases (Names records) s s' := by
  induction records generalizing s with
  | nil =>
      obtain rfl := Checks.pure_eq_ok.mp h
      refine (Erases.refl s).mono fun ty u hname => ?_
      obtain ⟨record, hrecord, -⟩ := hname
      exact List.not_mem_nil hrecord
  | cons record records ih =>
      rw [erase, List.foldlM_cons] at h
      obtain ⟨t, ht, h⟩ := Checks.bind_eq_ok.mp h
      refine ((erases_record ht).trans (ih h)).mono ?_
      rintro ty u ⟨r, hr, hname⟩
      rcases List.mem_cons.mp hr with rfl | hr
      · exact .inl ⟨r, by simp, hname⟩
      · exact .inr ⟨r, hr, hname⟩

/-- What is listed is redacted. -/
theorem targetRedacted_of_listed {U : UnicodeData} {requestUuid : String}
    (hlisted : s.Listed target uuid records)
    (h : s.erase U requestUuid (adapterRecords .sqliteCanonical records) = .ok s') :
    s'.TargetRedacted target uuid := by
  intro row hrow
  obtain ⟨row₀, hrow₀, -, -, hredacted⟩ := (erases_records h).exists_content hrow
  refine hredacted ((hlisted row₀ hrow₀).imp_right ?_)
  rintro ⟨record, hrecord, hstorage, hty, huuid⟩
  refine ⟨record, List.mem_filter.mpr ⟨hrecord, ?_⟩, hty, huuid⟩
  have hcanonical : row₀.recordType ∈ [RecordType.memory, .memoryVersion, .message,
      .messageVersion, .textUnit, .session] := by
    cases row₀ <;> simp [ContentRow.recordType]
  rw [adapterMatches, hstorage, hty]
  simpa using hcanonical

/-- What is listed stays listed when rows lose their content. -/
lemma Listed.erases (hlisted : s.Listed target uuid records) (h : Erases named s s') :
    s'.Listed target uuid records := by
  intro row hrow
  obtain ⟨row₀, hrow₀, hty, huuid, hredacted⟩ := h.exists_content hrow
  rcases hlisted row₀ hrow₀ with hdone | ⟨record, hrecord, hstorage, hty₀, huuid₀⟩
  · exact .inl (hredacted (.inl hdone))
  · exact .inr ⟨record, hrecord, hstorage, hty₀.trans hty.symm,
      huuid₀.trans (congrArg some huuid.symm)⟩

/-- A quarantine touches no content. -/
lemma quarantine_versions (memories : MemoryStore) (records : List PrivacyRecord) :
    (memories.quarantine records).versions = memories.versions := by
  induction records generalizing memories with
  | nil => rfl
  | cons record records ih =>
      refine (ih _).trans ?_
      unfold MemoryStore.quarantineRecord
      split <;> rfl

/-- What a quarantine leaves is still listed. -/
theorem Listed.quarantine {quarantined : List PrivacyRecord}
    (hlisted : s.Listed target uuid records) :
    (s.quarantine quarantined).Listed target uuid records := by
  refine hlisted.erases (?_ : Erases (fun _ _ => False) s (s.quarantine quarantined))
  refine ⟨?_, .refl _, .refl _, .refl _⟩
  rw [CanonicalStore.quarantine, quarantine_versions]
  exact .refl _

/-- What an erasure leaves is still listed. -/
theorem Listed.erase {U : UnicodeData} {requestUuid : String} {erased : List PrivacyRecord}
    (hlisted : s.Listed target uuid records) (h : s.erase U requestUuid erased = .ok s') :
    s'.Listed target uuid records := hlisted.erases (erases_records h)

end CanonicalStore

end Memorist
