import Memorist.Text.Unicode
import Memorist.Reconstruction.Validation

/-!
The conversations that adapters hand over as payloads (`imports/reconstruction/normalizer.py`,
`roles.py`, `content_parts.py` and `timestamps.py`).

* `Datetimes`, `isoformat`, `normalizeTimestamp`: times to the second;
* `normalizeContentPart`, `normalizeMessage`: the parts of a conversation;
* `visibleText`: the text of a content that is shown;
* `normalizeConversation`: a conversation with the issues of its graph.
-/

namespace Memorist.Reconstruction

variable {F : Type}

/-- Why a payload is no conversation. -/
inductive PayloadError where
  | attributeError
  | typeError
  | overflowError
  | validationError
  | keyError (key : Text)
  deriving DecidableEq, Repr

/-! ### Values -/

/-- `mapping.get(key, default)`. -/
def getD (mapping : Mapping F) (key : String) (default : Json F) : Json F :=
  (Dict.get? mapping key.toList).getD default

/-- The items of a loop over a value. -/
def iterate : Json F → Except PayloadError (List (Json F))
  | .arr items => .ok items
  | .str text => .ok (text.map fun char => .str [char])
  | .obj members => .ok (members.map fun p => .str p.1)
  | _ => .error .typeError

/-- The value of a field of type `str`. -/
def textField : Json F → Except PayloadError Text
  | .str text => .ok text
  | _ => .error .validationError

/-- The value of a field of type `str | None`. -/
def optionalText : Json F → Except PayloadError (Option Text)
  | .null => .ok none
  | .str text => .ok (some text)
  | _ => .error .validationError

/-- The optional text as a value. -/
def textOrNull : Option Text → Json F
  | some text => .str text
  | none => .null

/-- A value if it is a `dict`, else an empty one. -/
def dictOrEmpty : Json F → Mapping F
  | .obj members => members
  | _ => []

/-- The items of a `dict` whose values are of that type too. -/
def dictItems (mapping : Mapping F) : List (Text × Mapping F) :=
  mapping.filterMap fun
    | (key, .obj members) => some (key, members)
    | _ => none

/-- Its items have their keys. -/
lemma keys_dictItems_sublist (nodes : Mapping F) :
    ((dictItems nodes).map Prod.fst).Sublist (nodes.map Prod.fst) := by
  induction nodes with
  | nil => exact .slnil
  | cons p nodes ih =>
      obtain ⟨key, value⟩ := p
      cases value <;> first | exact ih.cons key | exact ih.cons_cons key

/-- What is made of items one by one has their keys. -/
lemma keys_of_forall₂ {α β : Type} {R : Text → α → β → Prop} {xs : Dict Text α} {ys : Dict Text β}
    (h : List.Forall₂ (fun x y => y.1 = x.1 ∧ R x.1 x.2 y.2) xs ys) :
    ys.map Prod.fst = xs.map Prod.fst := by
  induction h with
  | nil => rfl
  | cons hxy _ ih => rw [List.map_cons, List.map_cons, hxy.1, ih]

/-! ### Times -/

/-- What is read from Python's `datetime`: seconds since 1970, rounded down. -/
structure Datetimes (F : Type) where
  /-- `datetime.fromtimestamp(float(value), UTC)`. -/
  fromtimestamp : Json F → Except PayloadError ℤ
  /-- `datetime.fromisoformat(text).astimezone(UTC)`; none for a `ValueError`. -/
  fromisoformat : Text → Except PayloadError (Option ℤ)

/-- A number with leading zeros. -/
def padded (width n : ℕ) : Text :=
  List.replicate (width - (Nat.toDigits 10 n).length) '0' ++ Nat.toDigits 10 n

/-- The date of a day, counted from the first of March of the year 0. -/
def civilDate (day : ℕ) : ℕ × ℕ × ℕ :=
  let era := day / 146097
  let dayOfEra := day % 146097
  let yearOfEra := (dayOfEra - dayOfEra / 1460 + dayOfEra / 36524 - dayOfEra / 146096) / 365
  let dayOfYear := dayOfEra - (365 * yearOfEra + yearOfEra / 4 - yearOfEra / 100)
  let shifted := (5 * dayOfYear + 2) / 153
  let month := if shifted < 10 then shifted + 3 else shifted - 9
  (era * 400 + yearOfEra + if month ≤ 2 then 1 else 0, month, dayOfYear - (153 * shifted + 2) / 5 + 1)

/-- `datetime.isoformat()` in UTC, with `Z` for the offset. -/
def isoformat (seconds : ℤ) : Text :=
  let fromMarch := (seconds + 719468 * 86400).toNat
  let (year, month, day) := civilDate (fromMarch / 86400)
  let second := fromMarch % 86400
  padded 4 year ++ '-' :: padded 2 month ++ '-' :: padded 2 day ++ 'T' :: padded 2 (second / 3600) ++
    ':' :: padded 2 (second / 60 % 60) ++ ':' :: padded 2 (second % 60) ++ ['Z']

example : isoformat 1709210096 = "2024-02-29T12:34:56Z".toList := by decide

/-- Dates whose seconds are the numbers given. -/
def plainDates : Datetimes ℕ where
  fromtimestamp
    | .int i => .ok i
    | _ => .error .overflowError
  fromisoformat _ := .ok none

variable (U : UnicodeData) (N : Floats F) (T : Datetimes F)

/-- A time to the second, as a text. -/
def normalizeTimestamp : Json F → Except PayloadError (Option Text)
  | .null => .ok none
  | .str [] => .ok none
  | .bool b => (T.fromtimestamp (.bool b)).map fun seconds => some (isoformat seconds)
  | .int i => (T.fromtimestamp (.int i)).map fun seconds => some (isoformat seconds)
  | .float x => (T.fromtimestamp (.float x)).map fun seconds => some (isoformat seconds)
  | value => (T.fromisoformat ((strValue U N value).flatMap fun c =>
      if c = 'Z' then "+00:00".toList else [c])).map fun seconds => seconds.map isoformat

/-! ### Messages -/

variable [Zero F] [DecidableEq F]

/-- The role of a message. -/
def normalizeRole (value : Json F) : ImportedRole :=
  let normalized := U.lowerText (strValue U N (pyOr value (.str [])))
  if normalized = "human".toList ∨ normalized = "user".toList then .user
  else if normalized = "assistant".toList ∨ normalized = "ai".toList then .assistant
  else if normalized = "system".toList then .system
  else if normalized = "tool".toList then .tool
  else if normalized = "developer".toList then .developer
  else .unknown

/-- A part of a content. -/
def normalizeContentPart : Json F → Except PayloadError (ContentPart F)
  | .obj part =>
      let partType := strValue U N (pyOr (Mapping.get part "part_type")
        (pyOr (Mapping.get part "type") (.str "unknown".toList)))
      if "reasoning".toList <:+: U.lowerText partType then
        .ok { partType := "provider_internal_reasoning".toList, raw := .obj part, quarantined := true }
      else do
        let text ← optionalText (Mapping.get part "text")
        return { partType, text, raw := .obj part }
  | value => .ok { partType := "text".toList, text := some (strValue U N value) }

/-- The type of a part of internal reasoning has the marker of one. -/
lemma isInfix_reasoning {U : UnicodeData} (hlower : LowersAscii U) :
    "reasoning".toList <:+: U.lowerText "provider_internal_reasoning".toList := by
  rw [lowerText_ascii hlower (by decide)]
  exact ⟨"provider_internal_".toList, [], by decide⟩

variable {U N} in
lemma normalizeContentPart_of_reasoning {part : Mapping F}
    (h : "reasoning".toList <:+: U.lowerText (strValue U N (pyOr (Mapping.get part "part_type")
      (pyOr (Mapping.get part "type") (.str "unknown".toList))))) :
    normalizeContentPart U N (.obj part) = .ok {
      partType := "provider_internal_reasoning".toList, raw := .obj part, quarantined := true } :=
  if_pos h

variable {U N} in
lemma normalizeContentPart_of_not_reasoning {part : Mapping F} {partType : Text}
    (hpartType : strValue U N (pyOr (Mapping.get part "part_type")
      (pyOr (Mapping.get part "type") (.str "unknown".toList))) = partType)
    (h : ¬"reasoning".toList <:+: U.lowerText partType) :
    normalizeContentPart U N (.obj part) = (optionalText (Mapping.get part "text")).map fun text =>
      { partType, text, raw := .obj part } := by
  subst hpartType
  refine (if_neg h).trans ?_
  cases optionalText (Mapping.get part "text") <;> rfl

/-- The parts that are shown, one a line. -/
def visibleText (parts : List (ContentPart F)) : Text :=
  U.strip (List.intercalate ['\n'] ((parts.filter fun part => !part.quarantined).map
    fun part => part.text.getD []))

omit [Zero F] [DecidableEq F] in
/-- A quarantined part adds nothing to the text that is shown. -/
lemma visibleText_eraseIdx {parts : List (ContentPart F)} {i : ℕ}
    {part : ContentPart F} (hpart : parts[i]? = some part) (hquarantined : part.quarantined) :
    visibleText U (parts.eraseIdx i) = visibleText U parts := by
  obtain ⟨hi, rfl⟩ := List.getElem?_eq_some_iff.mp hpart
  have hsplit : parts = parts.take i ++ parts[i] :: parts.drop (i + 1) := by
    rw [List.getElem_cons_drop, List.take_append_drop]
  have hskip : (parts.eraseIdx i).filter (fun part => !part.quarantined) =
      parts.filter fun part => !part.quarantined := by
    conv_rhs => rw [hsplit]
    rw [List.eraseIdx_eq_take_drop_succ, List.filter_append, List.filter_append,
      List.filter_cons_of_neg (by simp [hquarantined])]
  rw [visibleText, visibleText, hskip]

/-- The texts of the items of a value. -/
def textItems (value : Json F) : Except PayloadError (List Text) := do
  let items ← iterate value
  return items.map (strValue U N)

omit [Zero F] [DecidableEq F] in
lemma textItems_strs (texts : List Text) :
    textItems U N (.arr (texts.map .str)) = (.ok texts : Except PayloadError (List Text)) := by
  rw [textItems, iterate, Checks.ok_bind, List.map_map]
  exact congrArg Except.ok (List.map_id texts)

/-- The parts of a content, if it is a list. -/
def normalizeContentParts : Json F → Except PayloadError (List (ContentPart F))
  | .arr parts => parts.mapM (normalizeContentPart U N)
  | _ => .ok []

/-- A message. -/
def normalizeMessage (id : Text) (message : Mapping F) : Except PayloadError (MessageNode F) := do
  let sourceMessageId ← textField (pyOr (Mapping.get message "source_message_id") (.str id))
  let parentIds ← textItems U N (getD message "parent_ids" (.arr []))
  let childIds ← textItems U N (getD message "child_ids" (.arr []))
  let creatorLabel ← optionalText (Mapping.get message "creator_label")
  let contentParts ← normalizeContentParts U N (getD message "content_parts" (.arr []))
  let createdAt ← normalizeTimestamp U N T (Mapping.get message "created_at")
  let timestampConfidence ←
    textField (pyOr (Mapping.get message "timestamp_confidence") (.str "missing".toList))
  let modelName ← optionalText (Mapping.get message "model_name")
  let branchStatus ← textField (pyOr (Mapping.get message "branch_status") (.str "active".toList))
  return {
    sourceMessageId, parentIds, childIds, creatorLabel, contentParts, createdAt, timestampConfidence,
    modelName, branchStatus, role := normalizeRole U N (Mapping.get message "role"),
    metadata := dictOrEmpty (Mapping.get message "metadata") }

/-! ### Conversations -/

/-- `ImportIssue.model_validate(issue)`. -/
def validateIssue (issue : Mapping F) : Except PayloadError (ImportIssue F) := do
  let severity ← textField (Mapping.get issue "severity")
  let issueCode ← textField (Mapping.get issue "issue_code")
  let message ← textField (Mapping.get issue "message")
  let artifactPath ← optionalText (Mapping.get issue "artifact_path")
  let sourceRecordId ← optionalText (Mapping.get issue "source_record_id")
  match getD issue "details" (.obj []) with
  | .obj details => .ok { severity, issueCode, message, artifactPath, sourceRecordId, details }
  | _ => .error .validationError

/-- The messages of a payload with their ids. -/
def normalizeMessages (payload : Mapping F) : Except PayloadError (List (Text × MessageNode F)) :=
  (dictItems (dictOrEmpty (getD payload "messages" (.obj [])))).mapM fun p => do
    let message ← normalizeMessage U N T p.1 p.2
    return (p.1, message)

/-- The issues that a payload names. -/
def payloadIssues (payload : Mapping F) : Except PayloadError (List (ImportIssue F)) := do
  let items ← iterate (getD payload "reconstruction_issues" (.arr []))
  (items.filterMap fun
    | .obj issue => some issue
    | _ => none).mapM validateIssue

/-- The active leaf that a payload names. -/
def activeLeaf (payload : Mapping F) : Option Text :=
  let leaf := Mapping.get payload "active_leaf_id"
  if truthyValue leaf then some (strValue U N leaf) else none

/-- A conversation before the checks of its graph. -/
def readConversation (payload : Mapping F) : Except PayloadError (Conversation F) := do
  let messages ← normalizeMessages U N T payload
  let reconstructionIssues ← payloadIssues payload
  let sourceConversationId ← optionalText (Mapping.get payload "source_conversation_id")
  let title ← optionalText (Mapping.get payload "title")
  let createdAt ← normalizeTimestamp U N T (Mapping.get payload "created_at")
  let updatedAt ← normalizeTimestamp U N T (Mapping.get payload "updated_at")
  let roots ← textItems U N (getD payload "roots" (.arr []))
  return {
    sourcePlatform :=
      strValue U N (pyOr (Mapping.get payload "source_platform") (.str "unknown".toList))
    sourceConversationId, title, createdAt, updatedAt, roots, reconstructionIssues
    activeLeafId := activeLeaf U N payload
    messages := Dict.ofPairs messages
    metadata := dictOrEmpty (Mapping.get payload "metadata")
    distinct := Dict.nodup_keys_ofPairs messages }

/-- The conversation of a payload, with the issues of its graph. -/
def normalizeConversation (payload : Mapping F) : Except PayloadError (Conversation F) := do
  let conversation ← readConversation U N T payload
  match validateConversation conversation with
  | .ok issues => return { conversation with
      reconstructionIssues := conversation.reconstructionIssues ++ issues }
  | .error key => .error (.keyError key)

end Memorist.Reconstruction
