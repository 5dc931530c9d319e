import Memorist.Library.Regex
import Memorist.Text.Lines
import Memorist.Text.PyValue
import Memorist.Text.Sensitivity

/-!
What the interface shows of an attachment (`attachments/display.py`).

* `redactDisplayText`: the summary of a text, over the secret patterns of `Regex`;
* `iterPacketItems`: the items of a packet, each name and version once;
* `Connection.fetchMemoryAudit`: the rows of a memory and its version. The rows of SQLite are
  lost in `asMapping`, which takes the values of a row for its column names, and in the PostgreSQL
  tables some columns do not exist, so that the statement fails;
* `isSensitive`, `displayItem`, `buildAttachmentDisplay`;
* `DoesNotDepend`: the display is the same with other texts of a memory;
* `doesNotDepend_iff_allSensitive`: it does not depend on them when each displayed item of the memory is
  sensitive to `isSensitive`, and otherwise it does.
-/

namespace Memorist.Display

open Regex (Pattern Rule)

variable {F : Type}

/-! ### Summaries -/

def displayModelVersion : Text := "pr5a-v1".toList

def maxSummaryLength : ℕ := 280

def hiddenSummary : Text := "Sensitive memory — content hidden".toList

section

variable (U : UnicodeData)

/-- A word, whatever the case of its letters. -/
def anyCase (word : String) : Pattern :=
  Regex.literal (fun a b => a == ignoreCase b) word.toList

/-- A word as it is written. -/
def exactly (word : String) : Pattern := Regex.literal (· == ·) word.toList

/-- The class `[a-zA-Z0-9_-]`. -/
def isKeyCharacter (c : Char) : Bool := c.isAlphanum || c == '_' || c == '-'

/-- `(?i)\b(bearer\s+)[..]{8,}`, over letters, digits and the characters of `._~+=-` and the
slash. -/
def bearerRule : Rule where
  alternatives :=
    [(.seq (.boundary U.isWord) (.seq (anyCase "bearer") (.atLeast 1 U.isspace)),
      .atLeast 8 fun c => isLetterOrDigit c || "._~+/=-".toList.contains c)]
  replacement := "[redacted]".toList

/-- What follows the name of a credential: `\s*[:=]\s*([^\s,;]{4,})`. -/
def credentialValue : Pattern :=
  .seq (.atLeast 0 U.isspace) <| .seq (.cls fun c => c == ':' || c == '=') <|
  .seq (.atLeast 0 U.isspace) <| .atLeast 4 fun c => !U.isspace c && c != ',' && c != ';'

/-- Two words with `[_ -]?` between them. -/
def joined (first second : String) : Pattern :=
  .seq (anyCase first) <| .seq (.opt (.cls fun c => "_ -".toList.contains c)) (anyCase second)

/-- The names of credentials:
`api(?:[_ -]?key)|access(?:[_ -]?token)|token|password|secret`. -/
def credentialNames : List Pattern :=
  [joined "api" "key", joined "access" "token", anyCase "token", anyCase "password",
   anyCase "secret"]

/-- `(?i)\b(name)\s*[:=]\s*([^\s,;]{4,})`. -/
def credentialRule : Rule where
  alternatives := credentialNames.map fun name =>
    (.seq (.boundary U.isWord) name, credentialValue U)
  replacement := ": [redacted]".toList

/-- `\bsk-[a-zA-Z0-9_-]{8,}\b`. -/
def keyRule : Rule where
  alternatives :=
    [(exactly "", .seq (.boundary U.isWord) <| .seq (exactly "sk-") <|
      .seq (.atLeast 8 isKeyCharacter) (.boundary U.isWord))]
  replacement := "[redacted]".toList

/-- `\beyJ[a-zA-Z0-9_-]{8,}\.[a-zA-Z0-9_-]+\.[a-zA-Z0-9_-]+\b`. -/
def tokenRule : Rule where
  alternatives :=
    [(exactly "", .seq (.boundary U.isWord) <| .seq (exactly "eyJ") <|
      .seq (.atLeast 8 isKeyCharacter) <| .seq (exactly ".") <|
      .seq (.atLeast 1 isKeyCharacter) <| .seq (exactly ".") <|
      .seq (.atLeast 1 isKeyCharacter) (.boundary U.isWord))]
  replacement := "[redacted]".toList

/-- The secret patterns with what stands for their matches. -/
def secretPatterns : List Rule := [bearerRule U, credentialRule U, keyRule U, tokenRule U]

/-- Python's `text.rstrip()`. -/
def rstrip (text : Text) : Text := (U.lstrip text.reverse).reverse

variable (N : Floats F) [Zero F] [DecidableEq F]

/-- A compact text of a value, without the common formats of secrets. -/
def redactDisplayText (value : Json F) (sensitive : Bool) : Text :=
  if sensitive then hiddenSummary
  else
    let text := collapseSpaces U (strValue U N (pyOr value (.str [])))
    if text.isEmpty then "Memory details available".toList
    else
      let text := (secretPatterns U).foldl (fun text pattern => pattern.sub text) text
      if maxSummaryLength < text.length then
        rstrip U (text.take (maxSummaryLength - 1)) ++ "…".toList
      else text

end

/-! ### Packets -/

def packetSections : List String :=
  ["trusted_directives", "current_context", "relevant_memories", "historical_context",
   "conflicts_and_uncertainty"]

/-- Why a section's items are shown. -/
def sectionReason (section_ : String) : Text :=
  if section_ = "trusted_directives" then "Matched a trusted directive for this turn".toList
  else if section_ = "current_context" then "Current context for this turn".toList
  else if section_ = "relevant_memories" then "Relevant to this turn".toList
  else if section_ = "historical_context" then "Historical context for this turn".toList
  else if section_ = "conflicts_and_uncertainty" then
    "Included to show a conflict or uncertainty".toList
  else "Relevant to this turn".toList

/-- A value that `json.loads` gives, as a mapping. -/
def asMapping : Json F → Mapping F
  | .obj members => members
  | _ => []

section

variable (U : UnicodeData) (loads : Text → Option (Json F))

/-- A mapping, or the text of one; `loads` is `json.loads` where it does not fail. -/
def parseJsonMapping : Json F → Mapping F
  | .obj members => members
  | .str text => if (U.strip text).isEmpty then [] else (loads text).elim [] asMapping
  | _ => []

end

/-- The items of a list. -/
def listItems : Json F → List (Json F)
  | .arr items => items
  | _ => []

/-- The items of the sections of a packet. -/
def packetEntries (packet : Mapping F) : List (String × Mapping F) :=
  packetSections.flatMap fun section_ =>
    (listItems (packet.get section_)).map fun rawItem => (section_, asMapping rawItem)

section

variable (U : UnicodeData) (N : Floats F) [Zero F] [DecidableEq F]

/-- `str(value or "")`. -/
def textOr (value : Json F) : Text := strValue U N (pyOr value (.str []))

/-- The memory or the block of an item. -/
def itemName (item : Mapping F) : Text :=
  textOr U N (pyOr (item.get "memory_uuid") (item.get "active_block_uuid"))

/-- The version of an item. -/
def itemVersion (item : Mapping F) : Text := textOr U N (item.get "memory_version_uuid")

/-- The entries whose name and version are not among those seen. -/
def distinctEntries (seen : List (Text × Text)) :
    List (String × Mapping F) → List (String × Mapping F)
  | [] => []
  | (section_, item) :: entries =>
      let key := (itemName U N item, itemVersion U N item)
      if (itemName U N item).isEmpty ∨ key ∈ seen then distinctEntries seen entries
      else (section_, item) :: distinctEntries (key :: seen) entries

/-- The items of a packet that are displayed. -/
def iterPacketItems (packet : Mapping F) : List (String × Mapping F) :=
  distinctEntries U N [] (packetEntries packet)

end

/-! ### Audit rows -/

/-- The columns of a row of `memories`. -/
structure MemoryColumns where
  memoryUuid : Text
  canonicalKey : Text
  memoryType : Text
  scopeType : Text
  scopeUuid : Option Text := none
  status : Text := "active".toList
  sensitivityClass : Text := "normal".toList
  createdAt : Text
  updatedAt : Option Text := none

/-- The columns of a row of `memory_versions`. -/
structure VersionColumns (F : Type) where
  memoryVersionUuid : Text
  memoryUuid : Text
  normalizedText : Text
  confidence : F
  importance : F
  createdAt : Text
  sourceCandidateUuid : Option Text := none

/-- The columns of a row of `memory_candidates`. -/
structure CandidateColumns where
  candidateUuid : Text
  candidateType : Text
  sourceAuthority : Text
  explicitness : Text
  status : Text := "pending".toList
  sensitivityClass : Text := "normal".toList
  extractionMetadataIjson : Option Text := none

/-- What a connection gives: rows that are `sqlite3.Row`, the PostgreSQL tables, or rows that are
mappings. -/
inductive Driver where
  | sqlite
  | postgres
  | mappings
  deriving DecidableEq

/-- A connection and the rows behind it. -/
structure Connection (F : Type) where
  driver : Driver
  memories : List MemoryColumns
  versions : List (VersionColumns F)
  candidates : List CandidateColumns

/-- A text column that may be empty. -/
def nullable : Option Text → Json F
  | some text => .str text
  | none => .null

/-- The columns of the statement, in its order. -/
def auditRow (memory : MemoryColumns) (version : VersionColumns F)
    (candidate : Option CandidateColumns) : Mapping F :=
  [("memory_uuid".toList, .str memory.memoryUuid),
   ("canonical_key".toList, .str memory.canonicalKey),
   ("memory_type".toList, .str memory.memoryType),
   ("scope_type".toList, .str memory.scopeType),
   ("scope_uuid".toList, nullable memory.scopeUuid),
   ("memory_status".toList, .str memory.status),
   ("memory_sensitivity".toList, .str memory.sensitivityClass),
   ("memory_created_at".toList, .str memory.createdAt),
   ("memory_updated_at".toList, nullable memory.updatedAt),
   ("memory_version_uuid".toList, .str version.memoryVersionUuid),
   ("normalized_text".toList, .str version.normalizedText),
   ("confidence".toList, .float version.confidence),
   ("importance".toList, .float version.importance),
   ("version_created_at".toList, .str version.createdAt),
   ("source_candidate_uuid".toList, nullable version.sourceCandidateUuid),
   ("candidate_uuid".toList, nullable (candidate.map (·.candidateUuid))),
   ("candidate_type".toList, nullable (candidate.map (·.candidateType))),
   ("source_authority".toList, nullable (candidate.map (·.sourceAuthority))),
   ("explicitness".toList, nullable (candidate.map (·.explicitness))),
   ("candidate_status".toList, nullable (candidate.map (·.status))),
   ("candidate_sensitivity".toList, nullable (candidate.map (·.sensitivityClass))),
   ("extraction_metadata_ijson".toList,
     nullable (candidate.bind (·.extractionMetadataIjson)))]

namespace Connection

variable (connection : Connection F)

/-- The candidate that a version came from. -/
def candidateOf (version : VersionColumns F) : Option CandidateColumns :=
  version.sourceCandidateUuid.bind fun candidateUuid =>
    connection.candidates.find? (·.candidateUuid = candidateUuid)

/-- The version of a memory. -/
def versionOf (memoryUuid memoryVersionUuid : Text) : Option (VersionColumns F) :=
  connection.versions.find? fun version =>
    version.memoryUuid = memoryUuid ∧ version.memoryVersionUuid = memoryVersionUuid

/-- The row of the statement: `memories` joined with `memory_versions`, and with
`memory_candidates` where there is one. -/
def selectAudit (memoryUuid memoryVersionUuid : Text) : Option (Mapping F) := do
  let memory ← connection.memories.find? (·.memoryUuid = memoryUuid)
  let version ← connection.versionOf memoryUuid memoryVersionUuid
  some (auditRow memory version (connection.candidateOf version))

end Connection

/-- `row[key]` of a `sqlite3.Row`: a column by its name, in any case, or by its place; `none` is an
`IndexError`. -/
def rowItem (row : Mapping F) : Json F → Option (Json F)
  | .str name =>
      (row.find? fun column => column.1.map Char.toLower = name.map Char.toLower).map Prod.snd
  | .int i =>
      let place := if i < 0 then i + row.length else i
      if 0 ≤ place then (row[place.toNat]?).map Prod.snd else none
  | _ => none

section

variable (U : UnicodeData) (N : Floats F)

/-- `{str(key): row[key] for key in row}` of a `sqlite3.Row`, which yields its values. -/
def rowAsMapping (row : Mapping F) : Option (Mapping F) :=
  (row.mapM fun column => (rowItem row column.2).map (strValue U N column.2, ·)).map Dict.ofPairs

/-- The audit of a memory and its version, `none` where an exception is raised. -/
def Connection.fetchMemoryAudit (connection : Connection F) (memoryUuid memoryVersionUuid : Text) :
    Option (Mapping F) :=
  if memoryUuid.isEmpty ∨ memoryVersionUuid.isEmpty then some []
  else match connection.driver, connection.selectAudit memoryUuid memoryVersionUuid with
    -- `memory_type`, `sensitivity_class` and `extraction_metadata_ijson` are no columns there
    | .postgres, _ => none
    | _, none => some []
    | .sqlite, some row => rowAsMapping U N row
    | .mappings, some row => some row

end

/-! ### Items -/

/-- What is shown of an item. -/
structure DisplayItem (F : Type) where
  id : Text
  title : Text
  summary : Text
  memoryType : Json F
  scopeType : Json F
  scopeUuid : Json F
  sourceAuthority : Json F
  explicitness : Json F
  status : Json F
  confidence : Json F
  importance : Json F
  retrievalScore : Json F
  reason : Text
  current : Bool
  sensitive : Bool
  createdAt : Json F
  updatedAt : Json F
  semanticAuthority : Json F
  gateDecision : Json F
  routeType : Json F
  routeStatus : Json F
  metadataVersions : List (String × Json F)
  technicalIds : List (String × Json F)

/-- What is shown of an attachment. -/
structure AttachmentDisplay (F : Type) where
  displayVersion : Text
  memoryCount : ℕ
  items : List (DisplayItem F)

def sensitiveClasses : List Text := ["private", "restricted", "secret", "sensitive"].map String.toList

def reviewStatuses : List Text :=
  ["manual_review", "needs_review", "pending_review", "review"].map String.toList

section

variable (U : UnicodeData) (N : Floats F) [Zero F] [DecidableEq F]

/-- Whether a value is in one of the classes. -/
def isSensitiveClass (value : Json F) : Bool :=
  sensitiveClasses.contains (U.lowerText (textOr U N value))

/-- Whether a value is a status of review. -/
def isReviewStatus (value : Json F) : Bool :=
  reviewStatuses.contains (U.lowerText (textOr U N value))

/-- Whether an item's text is hidden. -/
def isSensitive (packetItem audit : Mapping F) : Bool :=
  isSensitiveClass U N
      (pyOr (audit.get "memory_sensitivity")
        (pyOr (audit.get "candidate_sensitivity") (packetItem.get "sensitivity_class"))) ||
    isReviewStatus U N
      (pyOr (audit.get "candidate_status")
        (pyOr (audit.get "memory_status") (packetItem.get "status"))) ||
    isReviewStatus U N (packetItem.get "confidence_label")

variable (loads : Text → Option (Json F))

/-- What is shown of an item of a section. -/
def displayItem (section_ : String) (packetItem audit : Mapping F) : DisplayItem F :=
  let metadata := parseJsonMapping U loads (audit.get "extraction_metadata_ijson")
  let sensitive := isSensitive U N packetItem audit
  let normalizedText := pyOr (audit.get "normalized_text") (packetItem.get "normalized_text")
  let summary := redactDisplayText U N normalizedText sensitive
  let memoryUuid := textOr U N (pyOr (audit.get "memory_uuid") (packetItem.get "memory_uuid"))
  let versionUuid :=
    textOr U N (pyOr (audit.get "memory_version_uuid") (packetItem.get "memory_version_uuid"))
  let scope := asMapping (packetItem.get "scope")
  { id := if versionUuid.isEmpty then memoryUuid else versionUuid
    title := summary
    summary
    memoryType := pyOr (audit.get "memory_type") (packetItem.get "memory_type")
    scopeType :=
      pyOr (audit.get "scope_type") (pyOr (scope.get "scope_type") (packetItem.get "scope_type"))
    scopeUuid :=
      pyOr (audit.get "scope_uuid") (pyOr (scope.get "scope_uuid") (packetItem.get "scope_uuid"))
    sourceAuthority :=
      pyOr (audit.get "source_authority")
        (pyOr (packetItem.get "source_authority_label") (metadata.get "source_authority"))
    explicitness := pyOr (audit.get "explicitness") (metadata.get "explicitness")
    status :=
      pyOr (audit.get "candidate_status")
        (pyOr (audit.get "memory_status")
          (pyOr (packetItem.get "status")
            (.str (if truthyValue (packetItem.get "current") then "current".toList
              else "historical".toList))))
    confidence := pyOr (audit.get "confidence") (packetItem.get "confidence_label")
    importance := audit.get "importance"
    retrievalScore := packetItem.get "retrieval_score"
    reason := sectionReason section_
    current := truthyValue ((Dict.get? packetItem "current".toList).getD (.bool true))
    sensitive
    createdAt := pyOr (audit.get "memory_created_at") (audit.get "version_created_at")
    updatedAt := audit.get "memory_updated_at"
    semanticAuthority := metadata.get "semantic_authority"
    gateDecision := metadata.get "gate_decision"
    routeType := metadata.get "route_type"
    routeStatus := metadata.get "route_status"
    metadataVersions :=
      (["route_mapping_version", "candidate_service_version", "provenance_policy_version"].map
        fun key => (key, metadata.get key)).filter fun p => !(p.2 matches .null)
    technicalIds :=
      [("memory_uuid", .str memoryUuid), ("memory_version_uuid", .str versionUuid),
       ("source_candidate_uuid",
         pyOr (audit.get "source_candidate_uuid") (audit.get "candidate_uuid")),
       ("route_uuid", metadata.get "route_uuid"),
       ("annotation_uuid", metadata.get "annotation_uuid"),
       ("analysis_run_uuid", metadata.get "analysis_run_uuid"),
       ("prompt_execution_uuid", metadata.get "prompt_execution_uuid")].filter
        fun p => truthyValue p.2 }

/-- The audit that an item is shown with: empty where an exception is raised. -/
def Connection.auditOf (connection : Connection F) (packetItem : Mapping F) : Mapping F :=
  (connection.fetchMemoryAudit U N (textOr U N (packetItem.get "memory_uuid"))
    (itemVersion U N packetItem)).getD []

/-- The display of an attachment, from its member `ijson_attachment`. -/
def buildAttachmentDisplay (connection : Connection F) (ijsonAttachment : Json F) :
    AttachmentDisplay F :=
  let packet := parseJsonMapping U loads ijsonAttachment
  let items := (iterPacketItems U N packet).map fun entry =>
    displayItem U N loads entry.1 entry.2 (connection.auditOf U N entry.2)
  { displayVersion := displayModelVersion, memoryCount := items.length, items }

end

/-! ### Short texts -/

/-- No secret pattern has a match of one character. -/
lemma secretPatterns_sub {U : UnicodeData} (c : Char) :
    (secretPatterns U).foldl (fun text pattern => pattern.sub text) [c] = [c] := by
  have hsub : ∀ rule ∈ secretPatterns U, rule.sub [c] = [c] := by
    intro rule hrule
    refine Regex.sub_of_length_lt fun alternative halternative => ?_
    simp only [secretPatterns, List.mem_cons, List.not_mem_nil, or_false] at hrule
    rcases hrule with rfl | rfl | rfl | rfl
    · obtain rfl := List.mem_singleton.mp halternative
      simp [Pattern.minLength]
    · obtain ⟨name, -, rfl⟩ := List.mem_map.mp halternative
      simp [Pattern.minLength, credentialValue]
    · obtain rfl := List.mem_singleton.mp halternative
      simp [Pattern.minLength]
      omega
    · obtain rfl := List.mem_singleton.mp halternative
      simp [Pattern.minLength]
      omega
  revert hsub
  generalize secretPatterns U = rules
  intro hsub
  induction rules with
  | nil => rfl
  | cons rule rules ih =>
      rw [List.foldl_cons, hsub rule List.mem_cons_self]
      exact ih fun rule hrule => hsub rule (List.mem_cons_of_mem _ hrule)

/-- A character that is no white space is its own summary. -/
lemma redactDisplayText_char {U : UnicodeData} {N : Floats F} [Zero F] [DecidableEq F] {c : Char}
    (hc : U.isspace c = false) : redactDisplayText U N (.str [c]) false = [c] := by
  have hwords : collapseSpaces U [c] = [c] := by
    simp [collapseSpaces, words, wordsFrom, hc]
  have hvalue : strValue U N (pyOr (.str [c]) (.str [])) = [c] := rfl
  simp only [redactDisplayText, hvalue, hwords, secretPatterns_sub]
  rfl

/-! ### Other texts -/

/-- The member that holds a memory's text. -/
def textKey : Text := "normalized_text".toList

/-- Two mappings differ in the text of the memory only. -/
def SameButText (d d' : Mapping F) : Prop := ∀ key, key ≠ textKey → Dict.get? d key = Dict.get? d' key

lemma SameButText.refl (d : Mapping F) : SameButText d d := fun _ _ => rfl

lemma SameButText.get {d d' : Mapping F} (h : SameButText d d') {key : String}
    (hkey : key ≠ "normalized_text") : d.get key = d'.get key := by
  rw [Mapping.get, Mapping.get, h _ fun heq => hkey (String.toList_inj.mp heq)]

lemma sameButText_set (d : Mapping F) (value : Json F) :
    SameButText (Dict.set d textKey value) d := by
  intro key hkey
  rw [Dict.get?_set, if_neg (Ne.symm hkey)]

section

variable {U : UnicodeData} {N : Floats F} [Zero F] [DecidableEq F]

lemma itemName_congr {item item' : Mapping F} (h : SameButText item item') :
    itemName U N item = itemName U N item' := by
  rw [itemName, itemName, h.get (by decide), h.get (by decide)]

lemma itemVersion_congr {item item' : Mapping F} (h : SameButText item item') :
    itemVersion U N item = itemVersion U N item' := by
  rw [itemVersion, itemVersion, h.get (by decide)]

/-- Whether an item is sensitive does not depend on its text. -/
lemma isSensitive_congr {item item' audit audit' : Mapping F} (hitem : SameButText item item')
    (haudit : SameButText audit audit') :
    isSensitive U N item audit = isSensitive U N item' audit' := by
  simp (disch := decide) only [isSensitive, hitem.get, haudit.get]

/-- Nothing else that is shown of a sensitive item depends on its text. -/
lemma displayItem_congr {loads : Text → Option (Json F)} {section_ : String}
    {item item' audit audit' : Mapping F} (hitem : SameButText item item')
    (haudit : SameButText audit audit') (h : isSensitive U N item' audit' = true) :
    displayItem U N loads section_ item audit = displayItem U N loads section_ item' audit' := by
  have hcurrent : Dict.get? item "current".toList = Dict.get? item' "current".toList :=
    hitem _ (by decide)
  have hsummary : ∀ value, redactDisplayText U N value true = hiddenSummary := fun _ => rfl
  simp (disch := decide) only [displayItem, isSensitive_congr hitem haudit, h, hsummary, hcurrent,
    hitem.get, haudit.get]

end

namespace Connection

/-- The store with other texts of a memory's versions. -/
def replaceText (connection : Connection F) (memory : Text) (text : Text → Text) : Connection F :=
  { connection with
    versions := connection.versions.map fun version =>
      if version.memoryUuid = memory then
        { version with normalizedText := text version.memoryVersionUuid }
      else version }

variable {connection : Connection F} {memory memoryUuid memoryVersionUuid : Text}
  {text : Text → Text}

lemma versionOf_replaceText : (connection.replaceText memory text).versionOf memoryUuid
    memoryVersionUuid = (connection.versionOf memoryUuid memoryVersionUuid).map fun version =>
      if version.memoryUuid = memory then
        { version with normalizedText := text version.memoryVersionUuid }
      else version := by
  rw [versionOf, versionOf, replaceText, List.find?_map]
  congr 2
  funext version
  rw [Function.comp_apply]
  split_ifs <;> rfl

lemma versionOf_spec {version : VersionColumns F}
    (h : connection.versionOf memoryUuid memoryVersionUuid = some version) :
    version.memoryUuid = memoryUuid ∧ version.memoryVersionUuid = memoryVersionUuid := by
  simpa using List.find?_some h

lemma auditRow_normalizedText (memoryRow : MemoryColumns) (version : VersionColumns F)
    (candidate : Option CandidateColumns) (newText : Text) :
    auditRow memoryRow { version with normalizedText := newText } candidate =
      Dict.set (auditRow memoryRow version candidate) textKey (.str newText) := by
  have hkeys : textKey ∉ ((auditRow memoryRow version candidate).take 10).map Prod.fst := by
    simp only [auditRow, List.take, List.map]
    decide
  rw [← List.take_append_drop 10 (auditRow memoryRow version candidate),
    Dict.set_append_of_not_mem hkeys]
  rfl

@[simp] lemma replaceText_driver :
    (connection.replaceText memory text).driver = connection.driver := rfl

/-- The row of another memory is as it was. -/
lemma selectAudit_replaceText_of_ne (h : memoryUuid ≠ memory) :
    (connection.replaceText memory text).selectAudit memoryUuid memoryVersionUuid =
      connection.selectAudit memoryUuid memoryVersionUuid := by
  rw [selectAudit, selectAudit, versionOf_replaceText]
  cases hversion : connection.versionOf memoryUuid memoryVersionUuid with
  | none => rfl
  | some version =>
      rw [Option.map_some, if_neg ((versionOf_spec hversion).1.trans_ne h)]
      rfl

/-- The row of the memory has its new text. -/
lemma selectAudit_replaceText_self :
    (connection.replaceText memory text).selectAudit memory memoryVersionUuid =
      (connection.selectAudit memory memoryVersionUuid).map fun row =>
        Dict.set row textKey (.str (text memoryVersionUuid)) := by
  rw [selectAudit, selectAudit, versionOf_replaceText, replaceText]
  cases connection.memories.find? (·.memoryUuid = memory) with
  | none => rfl
  | some memoryRow =>
      cases hversion : connection.versionOf memory memoryVersionUuid with
      | none => rfl
      | some version =>
          obtain ⟨hmemory, rfl⟩ := versionOf_spec hversion
          rw [Option.map_some, if_pos hmemory]
          exact congrArg some (auditRow_normalizedText memoryRow version _ _)

/-- A row has a number among its values. -/
lemma exists_float_of_selectAudit {row : Mapping F}
    (h : connection.selectAudit memoryUuid memoryVersionUuid = some row) :
    ∃ x, ("confidence".toList, Json.float x) ∈ row := by
  rw [selectAudit] at h
  obtain ⟨memoryRow, -, h⟩ := Option.bind_eq_some_iff.mp h
  obtain ⟨version, -, h⟩ := Option.bind_eq_some_iff.mp h
  obtain rfl := Option.some.inj h
  exact ⟨version.confidence, by simp [auditRow]⟩

end Connection

lemma mapM_eq_none {α β : Type} {f : α → Option β} {l : List α} {a : α} (ha : a ∈ l)
    (h : f a = none) : l.mapM f = none := by
  induction l with
  | nil => exact absurd ha List.not_mem_nil
  | cons b l ih =>
      rw [List.mapM_cons]
      rcases List.mem_cons.mp ha with rfl | ha
      · rw [h]
        rfl
      · cases f b with
        | none => rfl
        | some _ =>
            rw [ih ha]
            rfl

section

variable {U : UnicodeData} {N : Floats F}

/-- No row of SQLite becomes a mapping. -/
lemma rowAsMapping_of_float {row : Mapping F} {name : Text} {x : F}
    (h : (name, Json.float x) ∈ row) : rowAsMapping U N row = none := by
  rw [rowAsMapping, mapM_eq_none h rfl]
  rfl

variable [Zero F] [DecidableEq F] {connection : Connection F} {memory : Text} {text : Text → Text}

namespace Connection

/-- An audit is that of another memory's item, an empty one, or the row of the memory. -/
lemma auditOf_eq (packetItem : Mapping F) : connection.auditOf U N packetItem =
    if connection.driver = .mappings ∧ (textOr U N (packetItem.get "memory_uuid")).isEmpty = false ∧
        (itemVersion U N packetItem).isEmpty = false then
      (connection.selectAudit (textOr U N (packetItem.get "memory_uuid"))
        (itemVersion U N packetItem)).getD []
    else [] := by
  rw [auditOf, fetchMemoryAudit]
  generalize textOr U N (packetItem.get "memory_uuid") = memoryUuid
  generalize itemVersion U N packetItem = memoryVersionUuid
  cases hrow : connection.selectAudit memoryUuid memoryVersionUuid with
  | none => cases connection.driver <;> split_ifs <;> rfl
  | some row =>
      obtain ⟨x, hx⟩ := exists_float_of_selectAudit hrow
      cases connection.driver with
      | sqlite =>
          have hdriver : ¬(Driver.sqlite = .mappings ∧ memoryUuid.isEmpty = false ∧
              memoryVersionUuid.isEmpty = false) := fun h => Driver.noConfusion h.1
          rw [if_neg hdriver]
          split_ifs
          · rfl
          · exact congrArg (Option.getD · []) (rowAsMapping_of_float hx)
      | postgres =>
          have hdriver : ¬(Driver.postgres = .mappings ∧ memoryUuid.isEmpty = false ∧
              memoryVersionUuid.isEmpty = false) := fun h => Driver.noConfusion h.1
          rw [if_neg hdriver]
          split_ifs <;> rfl
      | mappings =>
          by_cases h : memoryUuid.isEmpty = true ∨ memoryVersionUuid.isEmpty = true
          · rw [if_pos h, if_neg (by simpa using fun h' => by simpa [h'] using h)]
            rfl
          · rw [if_neg h, if_pos (by simpa using h)]

/-- The audit of another memory is as it was. -/
lemma auditOf_replaceText_of_ne {packetItem : Mapping F}
    (h : textOr U N (packetItem.get "memory_uuid") ≠ memory) :
    (connection.replaceText memory text).auditOf U N packetItem =
      connection.auditOf U N packetItem := by
  rw [auditOf_eq, auditOf_eq, selectAudit_replaceText_of_ne h]
  rfl

/-- The audit of the memory has the new text, or is empty. -/
lemma auditOf_replaceText_self {packetItem : Mapping F}
    (h : textOr U N (packetItem.get "memory_uuid") = memory) :
    (connection.replaceText memory text).auditOf U N packetItem = [] ∧
        connection.auditOf U N packetItem = [] ∨
      (connection.replaceText memory text).auditOf U N packetItem =
        Dict.set (connection.auditOf U N packetItem) textKey
          (.str (text (itemVersion U N packetItem))) := by
  rw [auditOf_eq, auditOf_eq, replaceText_driver, h, selectAudit_replaceText_self]
  cases connection.selectAudit memory (itemVersion U N packetItem) with
  | none => exact .inl ⟨by split_ifs <;> rfl, by split_ifs <;> rfl⟩
  | some row =>
      by_cases hcond : connection.driver = .mappings ∧ memory.isEmpty = false ∧
          (itemVersion U N packetItem).isEmpty = false
      · refine .inr ?_
        rw [if_pos hcond, if_pos hcond]
        rfl
      · refine .inl ⟨?_, if_neg hcond⟩
        exact if_neg hcond

end Connection

variable (U N memory text) in
/-- An item of a section with another text, if it is the memory's. -/
def replaceItemText (rawItem : Json F) : Json F :=
  let item := asMapping rawItem
  if itemName U N item = memory then
    .obj (Dict.set item textKey (.str (text (itemVersion U N item))))
  else rawItem

variable (U N memory text) in
/-- The items of a section with other texts of the memory. -/
def replaceListText : Json F → Json F
  | .arr items => .arr (items.map (replaceItemText U N memory text))
  | value => value

variable (U N memory text) in
/-- A packet with other texts of the memory. -/
def replacePacketText (packet : Mapping F) : Mapping F :=
  packet.map fun member =>
    (member.1, if packetSections.contains (String.ofList member.1) then
      replaceListText U N memory text member.2 else member.2)

variable (U N memory text) in
/-- The entry of a section with another text, if it is the memory's. -/
def replaceEntryText (entry : String × Mapping F) : String × Mapping F :=
  (entry.1, if itemName U N entry.2 = memory then
    Dict.set entry.2 textKey (.str (text (itemVersion U N entry.2))) else entry.2)

lemma asMapping_replaceItemText (rawItem : Json F) :
    asMapping (replaceItemText U N memory text rawItem) =
      if itemName U N (asMapping rawItem) = memory then
        Dict.set (asMapping rawItem) textKey (.str (text (itemVersion U N (asMapping rawItem))))
      else asMapping rawItem := by
  simp only [replaceItemText]
  split_ifs <;> rfl

lemma get_replacePacketText {packet : Mapping F} {section_ : String}
    (h : section_ ∈ packetSections) : (replacePacketText U N memory text packet).get section_ =
      replaceListText U N memory text (packet.get section_) := by
  have hmap := Dict.get?_mapValues (fun (key : Text) (value : Json F) =>
    if packetSections.contains (String.ofList key) then replaceListText U N memory text value
    else value) packet section_.toList
  rw [String.ofList_toList, List.contains_eq_mem, decide_eq_true h] at hmap
  rw [Mapping.get, replacePacketText, hmap, Mapping.get]
  cases Dict.get? packet section_.toList <;> rfl

/-- The entries of the new packet. -/
lemma packetEntries_replacePacketText (packet : Mapping F) :
    packetEntries (replacePacketText U N memory text packet) =
      (packetEntries packet).map (replaceEntryText U N memory text) := by
  rw [packetEntries, packetEntries, List.map_flatMap]
  refine List.flatMap_congr fun section_ hsection => ?_
  rw [get_replacePacketText hsection, List.map_map]
  cases packet.get section_ with
  | arr items =>
      rw [replaceListText, listItems, listItems, List.map_map]
      refine List.map_congr_left fun rawItem _ => ?_
      rw [Function.comp_apply, Function.comp_apply, asMapping_replaceItemText]
      rfl
  | null | bool _ | int _ | float _ | str _ | obj _ => rfl

lemma sameButText_replaceEntryText (entry : String × Mapping F) :
    SameButText (replaceEntryText U N memory text entry).2 entry.2 := by
  rw [replaceEntryText]
  dsimp only
  split_ifs
  · exact sameButText_set _ _
  · exact SameButText.refl _

/-- The same entries of the new packet are displayed. -/
lemma distinctEntries_map_replaceEntryText (seen : List (Text × Text))
    (entries : List (String × Mapping F)) :
    distinctEntries U N seen (entries.map (replaceEntryText U N memory text)) =
      (distinctEntries U N seen entries).map (replaceEntryText U N memory text) := by
  induction entries generalizing seen with
  | nil => rfl
  | cons entry entries ih =>
      have hsame : SameButText (replaceEntryText U N memory text entry).2 entry.2 :=
        sameButText_replaceEntryText entry
      rw [List.map_cons, ← Prod.mk.eta (p := replaceEntryText U N memory text entry),
        distinctEntries, distinctEntries, itemName_congr hsame, itemVersion_congr hsame]
      split_ifs
      · exact ih seen
      · rw [List.map_cons, ih]

/-! ### Independence -/

variable (U N) in
/-- The display of an attachment is the same with other texts of the memory, in the packet and in
the store. -/
def DoesNotDepend (loads : Text → Option (Json F)) (connection : Connection F)
    (ijsonAttachment : Json F) (memory : Text) : Prop :=
  ∀ (packetText storeText : Text → Text) (ijsonAttachment' : Json F),
    parseJsonMapping U loads ijsonAttachment' =
      replacePacketText U N memory packetText (parseJsonMapping U loads ijsonAttachment) →
    buildAttachmentDisplay U N loads (connection.replaceText memory storeText) ijsonAttachment' =
      buildAttachmentDisplay U N loads connection ijsonAttachment

variable (U N) in
/-- Each displayed item of the memory is sensitive to `isSensitive`. -/
def AllSensitive (connection : Connection F) (packet : Mapping F) (memory : Text) : Prop :=
  ∀ entry ∈ iterPacketItems U N packet, itemName U N entry.2 = memory →
    isSensitive U N entry.2 (connection.auditOf U N entry.2) = true

/-- An item refers to the memory of its name, or to none. -/
lemma memoryUuid_eq_or (item : Mapping F) : textOr U N (item.get "memory_uuid") = itemName U N item ∨
    textOr U N (item.get "memory_uuid") = [] := by
  rw [itemName]
  by_cases h : truthyValue (item.get "memory_uuid") = true
  · exact .inl (by rw [pyOr, if_pos h])
  · exact .inr (by rw [textOr, pyOr, if_neg h]; rfl)

/-- An item without a reference has no audit. -/
lemma auditOf_of_memoryUuid_nil {item : Mapping F} (h : textOr U N (item.get "memory_uuid") = []) :
    connection.auditOf U N item = [] := by
  rw [Connection.auditOf_eq, h, if_neg fun hcond => Bool.noConfusion hcond.2.1]

/-- What the audit of an item becomes: that of another memory stays, that of the memory has the
new text or is empty. -/
lemma sameButText_auditOf (item : Mapping F) : SameButText
    ((connection.replaceText memory text).auditOf U N item) (connection.auditOf U N item) := by
  by_cases h : textOr U N (item.get "memory_uuid") = memory
  · rcases @Connection.auditOf_replaceText_self _ U N _ _ connection memory text item h
      with ⟨h₁, h₂⟩ | h₁
    · rw [h₁, h₂]
      exact SameButText.refl _
    · rw [h₁]
      exact sameButText_set _ _
  · rw [Connection.auditOf_replaceText_of_ne h]
    exact SameButText.refl _

lemma auditOf_congr {item item' : Mapping F} (h : SameButText item item') :
    connection.auditOf U N item = connection.auditOf U N item' := by
  rw [Connection.auditOf_eq, Connection.auditOf_eq, itemVersion_congr h, h.get (by decide)]

variable {loads : Text → Option (Json F)} {packetText storeText : Text → Text}

variable (U N loads) in
/-- What is shown of an entry. -/
def displayEntry (connection : Connection F) (entry : String × Mapping F) : DisplayItem F :=
  displayItem U N loads entry.1 entry.2 (connection.auditOf U N entry.2)

/-- Nothing that is shown of another memory changes. -/
lemma displayEntry_of_ne {entry : String × Mapping F} (h : itemName U N entry.2 ≠ memory) :
    displayEntry U N loads (connection.replaceText memory storeText)
        (replaceEntryText U N memory packetText entry) =
      displayEntry U N loads connection entry := by
  rw [replaceEntryText, if_neg h, displayEntry, displayEntry]
  rcases memoryUuid_eq_or (U := U) (N := N) entry.2 with hname | hnil
  · rw [Connection.auditOf_replaceText_of_ne (hname.trans_ne h)]
  · rw [auditOf_of_memoryUuid_nil hnil, auditOf_of_memoryUuid_nil hnil]

/-- Nothing that is shown of a sensitive item changes. -/
lemma displayEntry_of_isSensitive {entry : String × Mapping F}
    (h : isSensitive U N entry.2 (connection.auditOf U N entry.2) = true) :
    displayEntry U N loads (connection.replaceText memory storeText)
        (replaceEntryText U N memory packetText entry) =
      displayEntry U N loads connection entry := by
  have hitem : SameButText (replaceEntryText U N memory packetText entry).2 entry.2 :=
    sameButText_replaceEntryText entry
  rw [displayEntry, displayEntry, auditOf_congr hitem]
  exact displayItem_congr hitem (sameButText_auditOf entry.2) h

/-- The display shows the entries in their order. -/
lemma buildAttachmentDisplay_items (ijsonAttachment : Json F) :
    (buildAttachmentDisplay U N loads connection ijsonAttachment).items =
      (iterPacketItems U N (parseJsonMapping U loads ijsonAttachment)).map
        (displayEntry U N loads connection) := rfl

lemma buildAttachmentDisplay_eq_iff {connection' : Connection F}
    {ijsonAttachment ijsonAttachment' : Json F} :
    buildAttachmentDisplay U N loads connection' ijsonAttachment' =
        buildAttachmentDisplay U N loads connection ijsonAttachment ↔
      (buildAttachmentDisplay U N loads connection' ijsonAttachment').items =
        (buildAttachmentDisplay U N loads connection ijsonAttachment).items := by
  refine ⟨congrArg AttachmentDisplay.items, fun h => ?_⟩
  rw [buildAttachmentDisplay_items, buildAttachmentDisplay_items] at h
  exact congrArg (fun items : List (DisplayItem F) =>
    AttachmentDisplay.mk displayModelVersion items.length items) h

/-- Two displays of a packet and of the packet with other texts agree when they agree on every
entry. -/
lemma buildAttachmentDisplay_replaceText_iff {ijsonAttachment ijsonAttachment' : Json F}
    (hpacket : parseJsonMapping U loads ijsonAttachment' =
      replacePacketText U N memory packetText (parseJsonMapping U loads ijsonAttachment)) :
    buildAttachmentDisplay U N loads (connection.replaceText memory storeText) ijsonAttachment' =
        buildAttachmentDisplay U N loads connection ijsonAttachment ↔
      ∀ entry ∈ iterPacketItems U N (parseJsonMapping U loads ijsonAttachment),
        displayEntry U N loads (connection.replaceText memory storeText)
            (replaceEntryText U N memory packetText entry) =
          displayEntry U N loads connection entry := by
  rw [buildAttachmentDisplay_eq_iff, buildAttachmentDisplay_items, buildAttachmentDisplay_items,
    hpacket, iterPacketItems, packetEntries_replacePacketText,
    distinctEntries_map_replaceEntryText, List.map_map]
  exact List.map_inj_left

end

/-- The summary of an item that is not sensitive is its new text. -/
lemma summary_of_not_isSensitive {U : UnicodeTables} {N : Floats F} [Zero F] [DecidableEq F]
    {loads : Text → Option (Json F)} {connection : Connection F} {memory : Text} {c : Char}
    (hc : U.isspace c = false) {entry : String × Mapping F}
    (hname : itemName U.toUnicodeData N entry.2 = memory)
    (h : isSensitive U.toUnicodeData N entry.2 (connection.auditOf U.toUnicodeData N entry.2) =
      false) :
    (displayEntry U.toUnicodeData N loads (connection.replaceText memory fun _ => [c])
      (replaceEntryText U.toUnicodeData N memory (fun _ => [c]) entry)).summary = [c] := by
  have hitem : SameButText
      (replaceEntryText U.toUnicodeData N memory (fun _ => [c]) entry).2 entry.2 :=
    sameButText_replaceEntryText entry
  have htext : (replaceEntryText U.toUnicodeData N memory (fun _ => [c]) entry).2.get
      "normalized_text" = .str [c] := by
    rw [replaceEntryText, if_pos hname]
    exact Mapping.get_set_self _ _ _
  have haudit : pyOr
      (((connection.replaceText memory fun _ => [c]).auditOf U.toUnicodeData N entry.2).get
        "normalized_text") (.str [c]) = .str [c] := by
    rcases memoryUuid_eq_or (U := U.toUnicodeData) (N := N) entry.2 with hmemory | hnil
    · rcases @Connection.auditOf_replaceText_self _ U.toUnicodeData N _ _ connection memory
        (fun _ => [c]) entry.2 (hmemory.trans hname) with ⟨h₁, -⟩ | h₁
      · rw [h₁]
        rfl
      · rw [h₁, show Mapping.get (Dict.set _ textKey (Json.str [c])) "normalized_text" = _ from
          Mapping.get_set_self _ _ _]
        rfl
    · rw [auditOf_of_memoryUuid_nil hnil]
      rfl
  rw [displayEntry, auditOf_congr hitem]
  simp only [displayItem, htext, haudit]
  rw [isSensitive_congr hitem (sameButText_auditOf entry.2), h]
  exact redactDisplayText_char hc

/-- The display does not depend on the memory's texts when each of its displayed items is
sensitive, and otherwise it does. -/
lemma doesNotDepend_iff_allSensitive {U : UnicodeTables} {N : Floats F} [Zero F] [DecidableEq F]
    {loads : Text → Option (Json F)} {connection : Connection F} {ijsonAttachment : Json F}
    {memory : Text} :
    DoesNotDepend U.toUnicodeData N loads connection ijsonAttachment memory ↔
      AllSensitive U.toUnicodeData N connection
        (parseJsonMapping U.toUnicodeData loads ijsonAttachment) memory := by
  constructor
  · intro h entry hentry hname
    by_contra hsensitive
    rw [Bool.not_eq_true] at hsensitive
    -- a text of one character is shown as it is, so that two of them are told apart
    have hsummary : ∀ c, U.isspace c = false →
        (displayEntry U.toUnicodeData N loads connection entry).summary = [c] := by
      intro c hc
      have heq := h (fun _ => [c]) (fun _ => [c])
        (.obj (replacePacketText U.toUnicodeData N memory (fun _ => [c])
          (parseJsonMapping U.toUnicodeData loads ijsonAttachment))) rfl
      rw [buildAttachmentDisplay_replaceText_iff rfl] at heq
      rw [← heq entry hentry]
      exact summary_of_not_isSensitive hc hname hsensitive
    have ha := hsummary 'a' (by rw [U.isspace_ascii 'a' (by decide)]; decide)
    have hb := hsummary 'b' (by rw [U.isspace_ascii 'b' (by decide)]; decide)
    exact absurd (ha.symm.trans hb) (by decide)
  · intro h packetText storeText ijsonAttachment' hpacket
    refine (buildAttachmentDisplay_replaceText_iff hpacket).mpr fun entry hentry => ?_
    by_cases hname : itemName U.toUnicodeData N entry.2 = memory
    · exact displayEntry_of_isSensitive (h entry hentry hname)
    · exact displayEntry_of_ne hname

/-! ### Marked memories -/

/-- The memory row, the candidate row of a displayed version or a packet item marks the memory as
sensitive or under review. -/
inductive Marked (U : UnicodeData) (N : Floats F) [Zero F] [DecidableEq F]
    (connection : Connection F) (packet : Mapping F) (memory : Text) : Prop where
  | memoryRow {row : MemoryColumns} (hrow : row ∈ connection.memories)
      (hname : row.memoryUuid = memory)
      (h : isSensitiveClass U N (F := F) (.str row.sensitivityClass) = true ∨
        isReviewStatus U N (F := F) (.str row.status) = true)
  | candidateRow {entry : String × Mapping F} (hentry : entry ∈ packetEntries packet)
      {version : VersionColumns F} (hversion : version ∈ connection.versions)
      (hname : version.memoryUuid = memory)
      (hdisplayed : itemVersion U N entry.2 = version.memoryVersionUuid)
      {row : CandidateColumns} (hrow : row ∈ connection.candidates)
      (hsource : version.sourceCandidateUuid = some row.candidateUuid)
      (h : isSensitiveClass U N (F := F) (.str row.sensitivityClass) = true ∨
        isReviewStatus U N (F := F) (.str row.status) = true)
  | packetItem {entry : String × Mapping F} (hentry : entry ∈ packetEntries packet)
      (hname : itemName U N entry.2 = memory)
      (h : isSensitiveClass U N (entry.2.get "sensitivity_class") = true ∨
        isReviewStatus U N (entry.2.get "status") = true ∨
        isReviewStatus U N (entry.2.get "confidence_label") = true)

/-- A marked memory's texts do not show exactly when each displayed item of it is sensitive by the
first class, and the first status, that its rows and the item give. -/
theorem marked_doesNotDepend_iff (U : UnicodeTables) (N : Floats F) [Zero F] [DecidableEq F]
    (loads : Text → Option (Json F)) (connection : Connection F) (ijsonAttachment : Json F)
    (memory : Text) :
    (Marked U.toUnicodeData N connection (parseJsonMapping U.toUnicodeData loads ijsonAttachment)
        memory → DoesNotDepend U.toUnicodeData N loads connection ijsonAttachment memory) ↔
      (Marked U.toUnicodeData N connection
        (parseJsonMapping U.toUnicodeData loads ijsonAttachment) memory →
          AllSensitive U.toUnicodeData N connection
            (parseJsonMapping U.toUnicodeData loads ijsonAttachment) memory) :=
  imp_congr_right fun _ => doesNotDepend_iff_allSensitive

/-! ### A memory marked in its row -/

/-- A packet item of the memory `m1`, as the builder makes it. -/
def diagnosisItem : Json ℕ :=
  .obj [("memory_uuid".toList, .str "m1".toList), ("memory_version_uuid".toList, .str "v1".toList),
    ("memory_type".toList, .str "fact".toList),
    ("normalized_text".toList, .str "The user has asthma.".toList),
    ("current".toList, .bool true), ("confidence_label".toList, .str "high".toList),
    ("conflict_status".toList, .str "none".toList), ("retrieval_score".toList, .float 9)]

/-- A packet that shows it. -/
def diagnosisPacket : Json ℕ := .obj [("current_context".toList, .arr [diagnosisItem])]

/-- The rows behind it, with these classes of the memory and of its candidate. -/
def diagnosisConnection (driver : Driver) (memoryClass candidateClass : String) : Connection ℕ where
  driver
  memories :=
    [{ memoryUuid := "m1".toList, canonicalKey := "user:health".toList,
       memoryType := "fact".toList, scopeType := "user".toList,
       sensitivityClass := memoryClass.toList, createdAt := "2024-01-01T00:00:00Z".toList }]
  versions :=
    [{ memoryVersionUuid := "v1".toList, memoryUuid := "m1".toList,
       normalizedText := "The user has asthma.".toList, confidence := 8, importance := 5,
       createdAt := "2024-01-01T00:00:00Z".toList, sourceCandidateUuid := some "c1".toList }]
  candidates :=
    [{ candidateUuid := "c1".toList, candidateType := "fact".toList,
       sourceAuthority := "user_explicit".toList, explicitness := "explicit".toList,
       status := "accepted".toList, sensitivityClass := candidateClass.toList }]

/-- On SQLite the class of the memory's row is lost; where rows are mappings, the class of the
memory's row hides that of the candidate. -/
theorem diagnosis_shown :
    ¬ (Marked basicLatin tenths (diagnosisConnection .sqlite "sensitive" "sensitive")
        (parseJsonMapping basicLatin (fun _ => none) diagnosisPacket) "m1".toList →
      DoesNotDepend basicLatin tenths (fun _ => none)
        (diagnosisConnection .sqlite "sensitive" "sensitive") diagnosisPacket "m1".toList) ∧
    ¬ (Marked basicLatin tenths (diagnosisConnection .mappings "normal" "sensitive")
        (parseJsonMapping basicLatin (fun _ => none) diagnosisPacket) "m1".toList →
      DoesNotDepend basicLatin tenths (fun _ => none)
        (diagnosisConnection .mappings "normal" "sensitive") diagnosisPacket "m1".toList) := by
  constructor
  · intro h
    have hmarked := h (.memoryRow List.mem_cons_self rfl (.inl (by decide +kernel)))
    have hall := (doesNotDepend_iff_allSensitive (U := basicLatinTables)).mp hmarked
    have hshown : ¬ AllSensitive basicLatin tenths
        (diagnosisConnection .sqlite "sensitive" "sensitive")
        (parseJsonMapping basicLatin (fun _ => none) diagnosisPacket) "m1".toList := by
      rw [AllSensitive]
      decide +kernel
    exact hshown hall
  · intro h
    have hentry : ("current_context", asMapping diagnosisItem) ∈
        packetEntries (parseJsonMapping basicLatin (fun _ => none) diagnosisPacket) :=
      List.mem_cons_self
    have hmarked := h (.candidateRow hentry List.mem_cons_self rfl (by decide +kernel)
      List.mem_cons_self rfl (.inl (by decide +kernel)))
    have hall := (doesNotDepend_iff_allSensitive (U := basicLatinTables)).mp hmarked
    have hshown : ¬ AllSensitive basicLatin tenths
        (diagnosisConnection .mappings "normal" "sensitive")
        (parseJsonMapping basicLatin (fun _ => none) diagnosisPacket) "m1".toList := by
      rw [AllSensitive]
      decide +kernel
    exact hshown hall

end Memorist.Display
