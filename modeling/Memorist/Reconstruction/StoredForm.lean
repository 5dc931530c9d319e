import Memorist.Library.JsonNulls
import Memorist.Reconstruction.Normalizer

/-!
Conversations as they are stored (`ImportService.reconstruct`, `strip_none` in
`imports/repositories.py`), and what is normalized from that.

* `dumpConversation`, `storedForm`: a conversation as JSON, and without what is null;
* `Documented`: what the proofs use of the interpreter's tables, numbers and dates;
* `MessageNormal`, `ConversationNormal`: what is known of a conversation that was normalized;
* `restored`, `normalizeConversation_storedForm`: such a conversation, normalized again.
-/

namespace Memorist.Reconstruction

variable {F : Type}

/-! ### The stored form -/

/-- The text of a role. -/
def roleValue : ImportedRole → Text
  | .user => "user".toList
  | .assistant => "assistant".toList
  | .system => "system".toList
  | .tool => "tool".toList
  | .developer => "developer".toList
  | .unknown => "unknown".toList

/-- `ImportedContentPart.model_dump(mode="json")`. -/
def dumpContentPart (part : ContentPart F) : Mapping F :=
  [("part_type".toList, .str part.partType), ("text".toList, textOrNull part.text),
    ("raw".toList, part.raw), ("quarantined".toList, .bool part.quarantined)]

/-- `ImportedMessageNode.model_dump(mode="json")`. -/
def dumpMessage (message : MessageNode F) : Mapping F :=
  [("source_message_id".toList, .str message.sourceMessageId),
    ("parent_ids".toList, .arr (message.parentIds.map .str)),
    ("child_ids".toList, .arr (message.childIds.map .str)),
    ("role".toList, .str (roleValue message.role)),
    ("creator_label".toList, textOrNull message.creatorLabel),
    ("content_parts".toList, .arr (message.contentParts.map fun part => .obj (dumpContentPart part))),
    ("created_at".toList, textOrNull message.createdAt),
    ("timestamp_confidence".toList, .str message.timestampConfidence),
    ("model_name".toList, textOrNull message.modelName),
    ("branch_status".toList, .str message.branchStatus),
    ("metadata".toList, .obj message.metadata)]

/-- `ImportIssue.model_dump(mode="json")`. -/
def dumpIssue (issue : ImportIssue F) : Mapping F :=
  [("severity".toList, .str issue.severity), ("issue_code".toList, .str issue.issueCode),
    ("message".toList, .str issue.message), ("artifact_path".toList, textOrNull issue.artifactPath),
    ("source_record_id".toList, textOrNull issue.sourceRecordId),
    ("details".toList, .obj issue.details)]

/-- `ImportedConversation.model_dump(mode="json")`. -/
def dumpConversation (c : Conversation F) : Mapping F :=
  [("source_platform".toList, .str c.sourcePlatform),
    ("source_conversation_id".toList, textOrNull c.sourceConversationId),
    ("title".toList, textOrNull c.title), ("created_at".toList, textOrNull c.createdAt),
    ("updated_at".toList, textOrNull c.updatedAt), ("roots".toList, .arr (c.roots.map .str)),
    ("active_leaf_id".toList, textOrNull c.activeLeafId),
    ("messages".toList, .obj (c.messages.map fun p => (p.1, .obj (dumpMessage p.2)))),
    ("metadata".toList, .obj c.metadata),
    ("reconstruction_issues".toList, .arr (c.reconstructionIssues.map fun issue => .obj (dumpIssue issue)))]

/-- What is stored of a conversation. -/
def storedForm (c : Conversation F) : Mapping F := Json.stripMembers (dumpConversation c)

lemma nodup_dumpContentPart (part : ContentPart F) : ((dumpContentPart part).map Prod.fst).Nodup := by
  show (["part_type".toList, "text".toList, "raw".toList, "quarantined".toList] : List Text).Nodup
  decide

lemma nodup_dumpMessage (message : MessageNode F) : ((dumpMessage message).map Prod.fst).Nodup := by
  show (["source_message_id".toList, "parent_ids".toList, "child_ids".toList, "role".toList,
    "creator_label".toList, "content_parts".toList, "created_at".toList,
    "timestamp_confidence".toList, "model_name".toList, "branch_status".toList,
    "metadata".toList] : List Text).Nodup
  decide

lemma nodup_dumpIssue (issue : ImportIssue F) : ((dumpIssue issue).map Prod.fst).Nodup := by
  show (["severity".toList, "issue_code".toList, "message".toList, "artifact_path".toList,
    "source_record_id".toList, "details".toList] : List Text).Nodup
  decide

lemma nodup_dumpConversation (c : Conversation F) : ((dumpConversation c).map Prod.fst).Nodup := by
  show (["source_platform".toList, "source_conversation_id".toList, "title".toList,
    "created_at".toList, "updated_at".toList, "roots".toList, "active_leaf_id".toList,
    "messages".toList, "metadata".toList, "reconstruction_issues".toList] : List Text).Nodup
  decide

/-- What is read of a member that was stored. -/
lemma get_stripMembers {members : Mapping F} (h : (members.map Prod.fst).Nodup) (key : String) :
    Mapping.get (Json.stripMembers members) key = Json.stripNone (Mapping.get members key) := by
  rw [Mapping.get, Mapping.get, Json.get?_stripMembers h]
  cases Dict.get? members key.toList with
  | none => rw [Option.filter_none, Option.map_none, Option.getD_none, Json.stripNone_null]
  | some value => cases value <;> rfl

/-- A member that was stored is not replaced by a default. -/
lemma getD_stripMembers {members : Mapping F} (h : (members.map Prod.fst).Nodup) {key : String}
    (hne : Mapping.get members key ≠ .null) (default : Json F) :
    getD (Json.stripMembers members) key default = Json.stripNone (Mapping.get members key) := by
  rw [getD, Json.get?_stripMembers h]
  rw [Mapping.get] at hne ⊢
  cases hget : Dict.get? members key.toList with
  | none => rw [hget] at hne; exact absurd rfl hne
  | some value =>
      rw [hget] at hne
      cases value <;> first | exact absurd rfl hne | rfl

@[simp] lemma stripNone_textOrNull (text : Option Text) :
    Json.stripNone (textOrNull text : Json F) = textOrNull text := by
  cases text <;> simp [textOrNull]

@[simp] lemma optionalText_textOrNull (text : Option Text) :
    optionalText (textOrNull text : Json F) = .ok text := by
  cases text <;> rfl

/-! ### What is documented -/

/-- A time that a date gives. -/
def Datetimes.Gives (T : Datetimes F) (seconds : ℤ) : Prop :=
  (∃ value, T.fromtimestamp value = .ok seconds) ∨ ∃ text, T.fromisoformat text = .ok (some seconds)

/-- A text with the offset of UTC for `Z`. -/
def withOffset (text : Text) : Text := text.flatMap fun c => if c = 'Z' then "+00:00".toList else [c]

/-- Lower case maps the letters of ASCII, a number has a text, and a date is read from its text. -/
structure Documented (U : UnicodeData) (N : Floats F) (T : Datetimes F) : Prop where
  lower : LowersAscii U
  repr_ne_nil : ∀ x, N.repr x ≠ []
  fromisoformat_isoformat : ∀ seconds, T.Gives seconds →
    T.fromisoformat (withOffset (isoformat seconds)) = .ok (some seconds)

section

variable {U : UnicodeData} {N : Floats F} {T : Datetimes F} [Zero F] [DecidableEq F]

/-! ### Values that were normalized -/

omit [Zero F] [DecidableEq F] in
/-- Only the empty text has an empty text. -/
lemma strValue_ne_nil (hdoc : Documented U N T) {value : Json F} (h : value ≠ .str []) :
    strValue U N value ≠ [] := by
  cases value with
  | str s => exact fun heq => h (congrArg Json.str heq)
  | bool b => cases b <;> exact List.cons_ne_nil _ _
  | int i => cases i with
    | ofNat n => exact Nat.toDigits_ne_nil
    | negSucc n => exact List.cons_ne_nil _ _
  | float x => exact hdoc.repr_ne_nil x
  | _ => exact List.cons_ne_nil _ _

/-- What is true has a text. -/
lemma strValue_ne_nil_of_truthy (hdoc : Documented U N T) {value : Json F} (h : truthyValue value) :
    strValue U N value ≠ [] := by
  refine strValue_ne_nil hdoc ?_
  rintro rfl
  cases h

lemma truthyValue_str {text : Text} (h : text ≠ []) : truthyValue (.str text : Json F) := by
  cases text with
  | nil => exact absurd rfl h
  | cons => rfl

lemma pyOr_str {text : Text} (h : text ≠ []) (other : Json F) : pyOr (.str text) other = .str text :=
  if_pos (truthyValue_str h)

/-- One of two values that has a text, if the second does. -/
lemma strValue_pyOr_ne_nil (hdoc : Documented U N T) (a : Json F) {b : Json F}
    (h : strValue U N b ≠ []) : strValue U N (pyOr a b) ≠ [] := by
  rw [pyOr]
  split_ifs with ha
  · exact strValue_ne_nil_of_truthy hdoc ha
  · exact h

/-- A text of a field with a default is not empty, unless the default is. -/
lemma ne_nil_of_textField_pyOr {a : Json F} {default text : Text}
    (h : textField (pyOr a (.str default)) = .ok text) (hempty : text = []) : default = [] := by
  rw [pyOr] at h
  split_ifs at h with ha
  · cases a with
    | str s =>
        rw [Except.ok.inj h, hempty] at ha
        cases ha
    | _ => cases h
  · exact (Except.ok.inj h).trans hempty

/-- A time that was normalized. -/
def TimeNormal (T : Datetimes F) (time : Option Text) : Prop :=
  ∀ text, time = some text → ∃ seconds, T.Gives seconds ∧ text = isoformat seconds

omit [Zero F] [DecidableEq F] in
lemma timeNormal_of_normalize {value : Json F} {time : Option Text}
    (h : normalizeTimestamp U N T value = .ok time) : TimeNormal T time := by
  rintro text rfl
  have hnumber : ∀ number, (T.fromtimestamp number).map (fun seconds => some (isoformat seconds)) =
      .ok (some text) → ∃ seconds, T.Gives seconds ∧ text = isoformat seconds := by
    intro number h
    cases hseconds : T.fromtimestamp number with
    | error e =>
        rw [hseconds] at h
        cases h
    | ok seconds =>
        rw [hseconds] at h
        exact ⟨seconds, .inl ⟨number, hseconds⟩, (Option.some.inj (Except.ok.inj h)).symm⟩
  have htext : ∀ source, (T.fromisoformat source).map (fun seconds => seconds.map isoformat) =
      .ok (some text) → ∃ seconds, T.Gives seconds ∧ text = isoformat seconds := by
    intro source h
    rcases hseconds : T.fromisoformat source with e | _ | seconds
    · rw [hseconds] at h
      cases h
    · rw [hseconds] at h
      cases h
    · rw [hseconds] at h
      exact ⟨seconds, .inr ⟨source, hseconds⟩, (Option.some.inj (Except.ok.inj h)).symm⟩
  cases value with
  | null => cases h
  | bool b => exact hnumber (.bool b) h
  | int i => exact hnumber (.int i) h
  | float x => exact hnumber (.float x) h
  | str s => cases s with
    | nil => cases h
    | cons c s => exact htext (withOffset (c :: s)) h
  | arr items => exact htext (withOffset (strValue U N (.arr items))) h
  | obj members => exact htext (withOffset (strValue U N (.obj members))) h

lemma isoformat_ne_nil (seconds : ℤ) : isoformat seconds ≠ [] := by
  simp [isoformat]

omit [Zero F] [DecidableEq F] in
/-- A time that was normalized is the same when it is normalized again. -/
lemma normalizeTimestamp_textOrNull (hdoc : Documented U N T) {time : Option Text}
    (h : TimeNormal T time) : normalizeTimestamp U N T (textOrNull time) = .ok time := by
  cases time with
  | none => rfl
  | some text =>
      obtain ⟨seconds, hgives, rfl⟩ := h text rfl
      have hread := hdoc.fromisoformat_isoformat seconds hgives
      rw [textOrNull]
      cases htext : isoformat seconds with
      | nil => exact absurd htext (isoformat_ne_nil seconds)
      | cons c rest =>
          show (T.fromisoformat (withOffset (c :: rest))).map (fun seconds => seconds.map isoformat) =
            .ok (some (c :: rest))
          rw [← htext, hread]
          rfl

/-- A part that was normalized. -/
structure PartNormal (U : UnicodeData) (part : ContentPart F) : Prop where
  ne_nil : part.partType ≠ []
  marker : "reasoning".toList <:+: U.lowerText part.partType ↔ part.quarantined
  quarantined : part.quarantined → part.partType = "provider_internal_reasoning".toList ∧ part.text = none

omit [Zero F] [DecidableEq F] in
/-- A text of ASCII in lower case. -/
lemma lowerText_eq (hdoc : Documented U N T) {text : Text} (hascii : text.all isAscii)
    (hlower : text.map Char.toLower = text) : U.lowerText text = text := by
  rw [lowerText_ascii hdoc.lower hascii, hlower]

omit [Zero F] [DecidableEq F] in
lemma partNormal_text (hdoc : Documented U N T) (text : Text) :
    PartNormal U { partType := "text".toList, text := some text : ContentPart F } := by
  have hlower : U.lowerText "text".toList = "text".toList := lowerText_eq hdoc (by decide) (by decide)
  have hmarker : ¬"reasoning".toList <:+: U.lowerText "text".toList := by
    rw [hlower]
    decide
  exact ⟨List.cons_ne_nil _ _, iff_of_false hmarker Bool.false_ne_true,
    fun h => absurd h Bool.false_ne_true⟩

lemma partNormal_of_normalize (hdoc : Documented U N T) {value : Json F} {part : ContentPart F}
    (h : normalizeContentPart U N value = .ok part) : PartNormal U part := by
  cases value with
  | obj members =>
      by_cases hmarker : "reasoning".toList <:+: U.lowerText (strValue U N
          (pyOr (Mapping.get members "part_type")
            (pyOr (Mapping.get members "type") (.str "unknown".toList))))
      · rw [normalizeContentPart_of_reasoning hmarker] at h
        obtain rfl := Except.ok.inj h
        exact ⟨List.cons_ne_nil _ _, iff_of_true (isInfix_reasoning hdoc.lower) rfl, fun _ => ⟨rfl, rfl⟩⟩
      · have hne : strValue U N (pyOr (Mapping.get members "part_type")
            (pyOr (Mapping.get members "type") (.str "unknown".toList))) ≠ [] :=
          strValue_pyOr_ne_nil hdoc _ (strValue_pyOr_ne_nil hdoc _ (List.cons_ne_nil _ _))
        rw [normalizeContentPart_of_not_reasoning rfl hmarker] at h
        cases htext : optionalText (Mapping.get members "text") with
        | error e =>
            rw [htext] at h
            cases h
        | ok text =>
            rw [htext] at h
            obtain rfl := Except.ok.inj h
            exact ⟨hne, iff_of_false hmarker Bool.false_ne_true, fun h => absurd h Bool.false_ne_true⟩
  | _ =>
      obtain rfl := Except.ok.inj h
      exact partNormal_text hdoc _

/-- A part that is normalized again. -/
def restoredPart (part : ContentPart F) : ContentPart F :=
  { part with raw := .obj (Json.stripMembers (dumpContentPart part)) }

lemma normalizeContentPart_stored {part : ContentPart F} (h : PartNormal U part) :
    normalizeContentPart U N (.obj (Json.stripMembers (dumpContentPart part))) =
      .ok (restoredPart part) := by
  have htype : Mapping.get (Json.stripMembers (dumpContentPart part)) "part_type" =
      .str part.partType := by
    rw [get_stripMembers (nodup_dumpContentPart part)]
    exact Json.stripNone_str _
  have htext : Mapping.get (Json.stripMembers (dumpContentPart part)) "text" =
      textOrNull part.text := by
    rw [get_stripMembers (nodup_dumpContentPart part)]
    exact stripNone_textOrNull _
  have hpartType : ∀ other : Json F, strValue U N (pyOr (.str part.partType) other) = part.partType := by
    intro other
    rw [pyOr_str h.ne_nil, strValue_str]
  by_cases hquarantined : part.quarantined
  · rw [normalizeContentPart_of_reasoning (by rw [htype, hpartType]; exact h.marker.mpr hquarantined)]
    obtain ⟨htype, htext⟩ := h.quarantined hquarantined
    rw [restoredPart, htype, htext, hquarantined]
  · rw [normalizeContentPart_of_not_reasoning (by rw [htype, hpartType]) (mt h.marker.mp hquarantined),
      htext, optionalText_textOrNull, restoredPart, Bool.eq_false_iff.mpr hquarantined]
    rfl

lemma normalizeRole_roleValue (hdoc : Documented U N T) (role : ImportedRole) :
    normalizeRole U N (.str (roleValue role)) = role := by
  have hrole : strValue U N (pyOr (.str (roleValue role)) (.str [] : Json F)) = roleValue role := by
    rw [pyOr_str (by cases role <;> decide), strValue_str]
  rw [normalizeRole, hrole, lowerText_eq hdoc (by cases role <;> decide) (by cases role <;> decide)]
  cases role <;> rfl

/-! ### Messages and conversations -/

/-- A message that was normalized. -/
structure MessageNormal (U : UnicodeData) (T : Datetimes F) (id : Text) (message : MessageNode F) :
    Prop where
  sourceMessageId : message.sourceMessageId = [] → id = []
  timestampConfidence : message.timestampConfidence ≠ []
  branchStatus : message.branchStatus ≠ []
  createdAt : TimeNormal T message.createdAt
  parts : ∀ part ∈ message.contentParts, PartNormal U part

lemma messageNormal_of_normalize (hdoc : Documented U N T) {id : Text} {payload : Mapping F}
    {message : MessageNode F} (h : normalizeMessage U N T id payload = .ok message) :
    MessageNormal U T id message := by
  simp only [normalizeMessage, Checks.bind_eq_ok, Checks.pure_eq_ok] at h
  obtain ⟨sourceId, hid, _, -, _, -, _, -, parts, hparts, createdAt, hcreated, confidence, hconfidence,
    _, -, status, hstatus, rfl⟩ := h
  refine ⟨ne_nil_of_textField_pyOr hid, fun hempty => ?_, fun hempty => ?_,
    timeNormal_of_normalize hcreated, fun part hpart => ?_⟩
  · exact absurd (ne_nil_of_textField_pyOr hconfidence hempty) (List.cons_ne_nil _ _)
  · exact absurd (ne_nil_of_textField_pyOr hstatus hempty) (List.cons_ne_nil _ _)
  · cases hvalue : getD payload "content_parts" (.arr []) with
    | arr items =>
        rw [hvalue, normalizeContentParts, Checks.mapM_eq_ok] at hparts
        obtain ⟨item, -, hitem⟩ := Checks.exists_of_mem_right hparts hpart
        exact partNormal_of_normalize hdoc hitem
    | _ =>
        rw [hvalue] at hparts
        obtain rfl : [] = parts := Except.ok.inj hparts
        cases hpart

/-- A message that is normalized again. -/
def restoredMessage (message : MessageNode F) : MessageNode F :=
  { message with
    contentParts := message.contentParts.map restoredPart
    metadata := Json.stripMembers message.metadata }

/-- A field that is never empty is read again. -/
lemma textField_pyOr_str {text : Text} (h : text ≠ []) (other : Json F) :
    textField (pyOr (.str text) other) = .ok text := by
  rw [pyOr_str h, textField]

/-- A list of values that are made and read again one by one. -/
lemma mapM_map_eq_ok {α β γ ε : Type} {items : List α} {dump : α → β} {read : β → Except ε γ} {f : α → γ}
    (h : ∀ x ∈ items, read (dump x) = .ok (f x)) : (items.map dump).mapM read = .ok (items.map f) := by
  rw [Checks.mapM_eq_ok, List.forall₂_map_left_iff, List.forall₂_map_right_iff, List.forall₂_same]
  exact h

lemma normalizeMessage_stored (hdoc : Documented U N T) {id : Text} {message : MessageNode F}
    (h : MessageNormal U T id message) :
    normalizeMessage U N T id (Json.stripMembers (dumpMessage message)) =
      .ok (restoredMessage message) := by
  have hnodup := nodup_dumpMessage message
  have hsource : textField (pyOr (.str message.sourceMessageId) (.str id : Json F)) =
      .ok message.sourceMessageId := by
    by_cases hempty : message.sourceMessageId = []
    · rw [hempty, h.sourceMessageId hempty]
      rfl
    · exact textField_pyOr_str hempty _
  have hparts : normalizeContentParts U N (.arr ((message.contentParts.map fun part =>
      .obj (dumpContentPart part)).map Json.stripNone)) = .ok (message.contentParts.map restoredPart) := by
    rw [normalizeContentParts, List.map_map]
    refine mapM_map_eq_ok fun part hpart => ?_
    rw [Function.comp_apply, Json.stripNone_obj]
    exact normalizeContentPart_stored (h.parts part hpart)
  have hget : ∀ {key value}, Mapping.get (dumpMessage message) key = value →
      Mapping.get (Json.stripMembers (dumpMessage message)) key = Json.stripNone value := by
    rintro key value rfl
    exact get_stripMembers hnodup key
  have hgetD : ∀ {key value}, Mapping.get (dumpMessage message) key = value → value ≠ .null →
      getD (Json.stripMembers (dumpMessage message)) key (.arr []) = Json.stripNone value := by
    rintro key value rfl hne
    exact getD_stripMembers hnodup hne _
  rw [normalizeMessage, @hget "source_message_id" (.str message.sourceMessageId) rfl,
    @hgetD "parent_ids" (.arr (message.parentIds.map .str)) rfl (by simp),
    @hgetD "child_ids" (.arr (message.childIds.map .str)) rfl (by simp),
    @hget "role" (.str (roleValue message.role)) rfl,
    @hget "creator_label" (textOrNull message.creatorLabel) rfl,
    @hgetD "content_parts" (.arr (message.contentParts.map fun part => .obj (dumpContentPart part)))
      rfl (by simp),
    @hget "created_at" (textOrNull message.createdAt) rfl,
    @hget "timestamp_confidence" (.str message.timestampConfidence) rfl,
    @hget "model_name" (textOrNull message.modelName) rfl,
    @hget "branch_status" (.str message.branchStatus) rfl,
    @hget "metadata" (.obj message.metadata) rfl]
  rw [Json.stripNone_arr (message.contentParts.map _)]
  simp only [Json.stripNone_str, Json.stripNone_arr_strs, stripNone_textOrNull, Json.stripNone_obj,
    textItems_strs, optionalText_textOrNull, hsource, hparts, Checks.ok_bind,
    normalizeTimestamp_textOrNull hdoc h.createdAt, textField_pyOr_str h.timestampConfidence,
    textField_pyOr_str h.branchStatus, normalizeRole_roleValue hdoc, dictOrEmpty]
  rfl

/-- An issue that is read again. -/
def restoredIssue (issue : ImportIssue F) : ImportIssue F :=
  { issue with details := Json.stripMembers issue.details }

omit [Zero F] [DecidableEq F] in
lemma validateIssue_stored (issue : ImportIssue F) :
    validateIssue (Json.stripMembers (dumpIssue issue)) = .ok (restoredIssue issue) := by
  have hnodup := nodup_dumpIssue issue
  have hget : ∀ {key value}, Mapping.get (dumpIssue issue) key = value →
      Mapping.get (Json.stripMembers (dumpIssue issue)) key = Json.stripNone value := by
    rintro key value rfl
    exact get_stripMembers hnodup key
  have hdetails : getD (Json.stripMembers (dumpIssue issue)) "details" (.obj []) =
      .obj (Json.stripMembers issue.details) := by
    have hne : Mapping.get (dumpIssue issue) "details" ≠ .null := by
      rw [show Mapping.get (dumpIssue issue) "details" = .obj issue.details from rfl]
      simp
    rw [getD_stripMembers hnodup hne, ← Json.stripNone_obj]
    rfl
  rw [validateIssue, @hget "severity" (.str issue.severity) rfl,
    @hget "issue_code" (.str issue.issueCode) rfl, @hget "message" (.str issue.message) rfl,
    @hget "artifact_path" (textOrNull issue.artifactPath) rfl,
    @hget "source_record_id" (textOrNull issue.sourceRecordId) rfl, hdetails]
  simp only [Json.stripNone_str, stripNone_textOrNull, optionalText_textOrNull, textField,
    Checks.ok_bind]
  rfl

/-- A conversation that was normalized. -/
structure ConversationNormal (U : UnicodeData) (T : Datetimes F) (c : Conversation F) : Prop where
  sourcePlatform : c.sourcePlatform ≠ []
  createdAt : TimeNormal T c.createdAt
  updatedAt : TimeNormal T c.updatedAt
  activeLeaf : ∀ leaf, c.activeLeafId = some leaf → leaf ≠ []
  messages : ∀ p ∈ c.messages, MessageNormal U T p.1 p.2

lemma conversationNormal_of_read (hdoc : Documented U N T) {payload : Mapping F} {c : Conversation F}
    (h : readConversation U N T payload = .ok c) : ConversationNormal U T c := by
  simp only [readConversation, Checks.bind_eq_ok, Checks.pure_eq_ok] at h
  obtain ⟨pairs, hpairs, _, -, _, -, _, -, createdAt, hcreated, updatedAt, hupdated, _, -, rfl⟩ := h
  refine ⟨strValue_pyOr_ne_nil hdoc _ (List.cons_ne_nil _ _), timeNormal_of_normalize hcreated,
    timeNormal_of_normalize hupdated, ?_, ?_⟩
  · intro leaf hleaf
    replace hleaf : activeLeaf U N payload = some leaf := hleaf
    rw [activeLeaf] at hleaf
    split_ifs at hleaf with htruthy
    rw [← Option.some.inj hleaf]
    exact strValue_ne_nil_of_truthy hdoc htruthy
  · rintro ⟨id, message⟩ hp
    have hget := Dict.get?_of_mem (Dict.nodup_keys_ofPairs pairs) hp
    rw [Dict.get?_ofPairs] at hget
    have hmem := List.mem_reverse.mp (Dict.mem_of_get? hget)
    rw [normalizeMessages, Checks.mapM_eq_ok] at hpairs
    obtain ⟨item, -, hitem⟩ := Checks.exists_of_mem_right hpairs hmem
    obtain ⟨message', hmessage, heq⟩ := Checks.bind_eq_ok.mp hitem
    obtain ⟨rfl, rfl⟩ := Prod.mk.inj (Checks.pure_eq_ok.mp heq)
    exact messageNormal_of_normalize hdoc hmessage

/-- A conversation that is read again. -/
def restored (c : Conversation F) : Conversation F :=
  { c with
    messages := c.messages.map fun p => (p.1, restoredMessage p.2)
    metadata := Json.stripMembers c.metadata
    reconstructionIssues := c.reconstructionIssues.map restoredIssue
    distinct := by
      rw [List.map_map]
      exact c.distinct }

omit [Zero F] [DecidableEq F] in
lemma dictItems_map_obj {α : Type} (f : α → Mapping F) (items : List (Text × α)) :
    dictItems (items.map fun p => (p.1, Json.obj (f p.2))) = items.map fun p => (p.1, f p.2) := by
  rw [dictItems, List.filterMap_map]
  exact List.filterMap_eq_map.symm ▸ rfl

lemma readConversation_storedForm (hdoc : Documented U N T) {c : Conversation F}
    (h : ConversationNormal U T c) : readConversation U N T (storedForm c) = .ok (restored c) := by
  have hnodup := nodup_dumpConversation c
  have hget : ∀ {key value}, Mapping.get (dumpConversation c) key = value →
      Mapping.get (storedForm c) key = Json.stripNone value := by
    rintro key value rfl
    exact get_stripMembers hnodup key
  have hgetD : ∀ {key value} default, Mapping.get (dumpConversation c) key = value → value ≠ .null →
      getD (storedForm c) key default = Json.stripNone value := by
    rintro key value default rfl hne
    exact getD_stripMembers hnodup hne _
  have hmessages : normalizeMessages U N T (storedForm c) =
      .ok (c.messages.map fun p => (p.1, restoredMessage p.2)) := by
    rw [normalizeMessages, @hgetD "messages"
      (.obj (c.messages.map fun p => (p.1, .obj (dumpMessage p.2)))) _ rfl (by simp),
      Json.stripNone_obj, Json.stripMembers_map_obj, dictOrEmpty,
      dictItems_map_obj fun message => Json.stripMembers (dumpMessage message)]
    refine mapM_map_eq_ok fun p hp => ?_
    rw [normalizeMessage_stored hdoc (h.messages p hp)]
    rfl
  have hissues : payloadIssues (storedForm c) = .ok (c.reconstructionIssues.map restoredIssue) := by
    rw [payloadIssues, @hgetD "reconstruction_issues" (.arr (c.reconstructionIssues.map fun issue =>
      .obj (dumpIssue issue))) _ rfl (by simp), Json.stripNone_arr, List.map_map, iterate,
      Checks.ok_bind, List.filterMap_map]
    rw [List.filterMap_congr fun issue _ => (by
      rw [Function.comp_apply, Function.comp_apply, Json.stripNone_obj, Function.comp_apply] : _ =
        (some ∘ fun issue : ImportIssue F => Json.stripMembers (dumpIssue issue)) issue),
      List.filterMap_eq_map]
    exact mapM_map_eq_ok fun issue _ => validateIssue_stored issue
  have hleaf : activeLeaf U N (storedForm c) = c.activeLeafId := by
    rw [activeLeaf, @hget "active_leaf_id" (textOrNull c.activeLeafId) rfl, stripNone_textOrNull]
    cases hid : c.activeLeafId with
    | none => rfl
    | some leaf => exact if_pos (truthyValue_str (h.activeLeaf leaf hid))
  rw [readConversation, hmessages, hissues,
    @hget "source_conversation_id" (textOrNull c.sourceConversationId) rfl,
    @hget "title" (textOrNull c.title) rfl, @hget "created_at" (textOrNull c.createdAt) rfl,
    @hget "updated_at" (textOrNull c.updatedAt) rfl,
    @hgetD "roots" (.arr (c.roots.map .str)) _ rfl (by simp),
    @hget "source_platform" (.str c.sourcePlatform) rfl, @hget "metadata" (.obj c.metadata) rfl]
  simp only [stripNone_textOrNull, optionalText_textOrNull, Json.stripNone_arr_strs, textItems_strs,
    normalizeTimestamp_textOrNull hdoc h.createdAt, normalizeTimestamp_textOrNull hdoc h.updatedAt,
    Checks.ok_bind, hleaf, Json.stripNone_str, pyOr_str h.sourcePlatform, strValue_str,
    Json.stripNone_obj, dictOrEmpty]
  have hdict : Dict.ofPairs (c.messages.map fun p => (p.1, restoredMessage p.2)) =
      c.messages.map fun p => (p.1, restoredMessage p.2) := Dict.ofPairs_of_nodup (restored c).distinct
  simp only [hdict]
  rfl

end

end Memorist.Reconstruction
