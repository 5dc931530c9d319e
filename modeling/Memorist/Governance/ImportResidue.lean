import Memorist.Library.JsonStrings
import Memorist.Storage.Sql
import Memorist.Text.RoundTrip

/-!
The imported copies of a memory that is erased (`governance/privacy.py`).

* `sensitiveFragments`: the texts of a memory version that are searched for;
* `eraseImportResidue`: the statements that redact the records and mappings with one of them;
* `ErasesExactly`: what they are for;
* `NothingHidden`, `NothingStray`, `NothingClashes`: what stands in their way, and
  `erasesExactly_iff`: it is all that does.
-/

namespace Memorist.ImportResidue

open Json (OccursIn WellFormed strings)

variable {F : Type}

/-! ### Rows -/

/-- A text that `dump_ijson` writes. -/
def IsIjsonText (N : Floats F) (text : Text) : Prop :=
  ∃ value : Json F, WellFormed N value ∧ text = (sortKeys value).print N

/-- The text of a column of JSON. -/
def IjsonColumn (N : Floats F) : Type := {text : Text // IsIjsonText N text}

/-- The strings of a column. -/
def columnStrings {N : Floats F} (column : IjsonColumn N) : List Text :=
  match Json.read N column.1 with
  | some value => strings value
  | none => []

/-- The texts of a row of `memory_versions`. -/
structure MemoryVersion (N : Floats F) where
  normalizedText : Text
  valueIjson : Option (IjsonColumn N) := none
  changeReasonIjson : Option (IjsonColumn N) := none

/-- A row of `import_records`. -/
structure ImportRecord (N : Floats F) where
  importRecordUuid : String
  rawPayloadIjson : Option (IjsonColumn N) := none
  normalizedPayloadIjson : Option (IjsonColumn N) := none
  status : String := "staged"

/-- A row of `import_mappings`. -/
structure ImportMapping where
  importMappingUuid : String
  sourcePlatform : String
  sourceObjectType : String
  sourceObjectId : Option Text := none
  sourceFingerprint : Text
  deriving DecidableEq

/-- `COALESCE(source_object_id, source_fingerprint)`. -/
def ImportMapping.sourceText (mapping : ImportMapping) : Text :=
  mapping.sourceObjectId.getD mapping.sourceFingerprint

/-- The key of the unique index on mappings. -/
def ImportMapping.dedupeKey (mapping : ImportMapping) : String × String × Text :=
  (mapping.sourcePlatform, mapping.sourceObjectType, mapping.sourceText)

/-- The tables of the imports. -/
structure Tables (N : Floats F) where
  records : List (ImportRecord N)
  mappings : List ImportMapping
  distinct : (mappings.map ImportMapping.dedupeKey).Nodup

/-! ### The fragments -/

/-- The fragments of a column: its text, and the strings of its value. -/
def columnFragments {N : Floats F} : Option (IjsonColumn N) → List Text
  | none => []
  | some column => if column.1 = [] then [] else column.1 :: columnStrings column

/-- The stripped fragments of at least 8 characters, each once. -/
def dedupeSensitiveFragments (U : UnicodeData) : List Text → List Text → List Text
  | _, [] => []
  | seen, fragment :: fragments =>
      let fragment := U.strip fragment
      if fragment.length < 8 ∨ fragment ∈ seen then dedupeSensitiveFragments U seen fragments
      else fragment :: dedupeSensitiveFragments U (fragment :: seen) fragments

/-- `_sensitive_fragments_for_memory_version`. -/
def sensitiveFragments (U : UnicodeData) {N : Floats F} (version : MemoryVersion N) : List Text :=
  dedupeSensitiveFragments U [] (version.normalizedText ::
    (columnFragments version.valueIjson ++ columnFragments version.changeReasonIjson))

/-! ### The statements -/

/-- The pattern of a fragment. -/
def likeFragment (fragment : Text) : Text := '%' :: (fragment ++ ['%'])

/-- `column LIKE ?`. -/
def columnLike {N : Floats F} (fragment : Text) : Option (IjsonColumn N) → Bool
  | some column => like (likeFragment fragment) column.1
  | none => false

/-- The value of a redacted payload. -/
def redactedValue (requestUuid : Text) : Json F :=
  .obj [("redacted".toList, .bool true), ("privacy_request_uuid".toList, .str requestUuid)]

lemma wellFormed_redactedValue (N : Floats F) (requestUuid : Text) :
    WellFormed N (redactedValue requestUuid) := by
  refine .obj rfl fun m hm => ?_
  rcases List.mem_cons.mp hm with rfl | hm
  · exact .bool true
  · obtain rfl := List.mem_singleton.mp hm
    exact .str requestUuid

/-- A redacted payload. -/
def redactedPayload (N : Floats F) (requestUuid : Text) : IjsonColumn N :=
  ⟨(sortKeys (redactedValue requestUuid)).print N, redactedValue requestUuid,
    wellFormed_redactedValue N requestUuid, rfl⟩

/-- The update of a record's raw payload. -/
def redactRaw {N : Floats F} (requestUuid fragment : Text) (record : ImportRecord N) : ImportRecord N :=
  if columnLike fragment record.rawPayloadIjson then
    { record with rawPayloadIjson := some (redactedPayload N requestUuid), status := "redacted" }
  else record

/-- The update of a record's normalized payload. -/
def redactNormalized {N : Floats F} (requestUuid fragment : Text) (record : ImportRecord N) :
    ImportRecord N :=
  if columnLike fragment record.normalizedPayloadIjson then
    { record with normalizedPayloadIjson := some (redactedPayload N requestUuid), status := "redacted" }
  else record

/-- Whether the update of the mappings selects one. -/
def mappingLike (fragment : Text) (mapping : ImportMapping) : Bool :=
  (mapping.sourceObjectId.any fun id => like (likeFragment fragment) id) ||
    like (likeFragment fragment) mapping.sourceFingerprint

/-- The update of a mapping. -/
def eraseMapping (sha256 : Text → String) (requestUuid fragment : Text) (mapping : ImportMapping) :
    ImportMapping :=
  if mappingLike fragment mapping then
    { mapping with
      sourceObjectId := some "[erased]".toList
      sourceFingerprint := (sha256 (requestUuid ++ ':' :: fragment)).toList }
  else mapping

/-- The counts of the rows that statements selected. -/
structure Counts where
  importRecord : ℕ := 0
  importMapping : ℕ := 0
  deriving DecidableEq

/-- The unique index on mappings refuses an update. -/
inductive ResidueError where
  | integrityError
  deriving DecidableEq

/-- The statements of a fragment. -/
def eraseFragment (sha256 : Text → String) {N : Floats F} (requestUuid : Text)
    (state : Tables N × Counts) (fragment : Text) : Except ResidueError (Tables N × Counts) :=
  let (tables, counts) := state
  let records := tables.records.map (redactRaw requestUuid fragment)
  let mappings := tables.mappings.map (eraseMapping sha256 requestUuid fragment)
  if distinct : (mappings.map ImportMapping.dedupeKey).Nodup then
    .ok ({ records := records.map (redactNormalized requestUuid fragment), mappings, distinct },
      { importRecord := counts.importRecord +
          tables.records.countP (fun record => columnLike fragment record.rawPayloadIjson) +
          records.countP (fun record => columnLike fragment record.normalizedPayloadIjson)
        importMapping := counts.importMapping + tables.mappings.countP (mappingLike fragment) })
  else .error .integrityError

/-- `_erase_import_residue`. -/
def eraseImportResidue (sha256 : Text → String) {N : Floats F} (fragments : List Text)
    (requestUuid : Text) (tables : Tables N) : Except ResidueError (Tables N × Counts) :=
  fragments.foldlM (eraseFragment sha256 requestUuid) (tables, {})

/-! ### What they are for -/

section

variable {N : Floats F}

/-- A column has a text in one of its strings. -/
def ColumnHolds (text : Text) (column : Option (IjsonColumn N)) : Prop :=
  ∃ c, column = some c ∧ ∃ s ∈ columnStrings c, text <:+: s

/-- The strings of a version: its text, and those of its value. -/
def MemoryVersion.ownStrings (version : MemoryVersion N) : List Text :=
  version.normalizedText :: (version.valueIjson.map columnStrings).getD []

/-- A record has none of the strings of a version. -/
def RecordFree (version : MemoryVersion N) (record : ImportRecord N) : Prop :=
  ∀ text ∈ version.ownStrings, ¬ColumnHolds text record.rawPayloadIjson ∧
    ¬ColumnHolds text record.normalizedPayloadIjson

/-- A mapping has none of the strings of a version. -/
def MappingFree (version : MemoryVersion N) (mapping : ImportMapping) : Prop :=
  ∀ text ∈ version.ownStrings, (∀ id, mapping.sourceObjectId = some id → ¬text <:+: id) ∧
    ¬text <:+: mapping.sourceFingerprint

/-- A column that has the text of a version is redacted, and so is marked the record. -/
def Redacted (requestUuid : Text) (column column' : Option (IjsonColumn N)) (status' : String) : Prop :=
  column' = some (redactedPayload N requestUuid) ∧ (column' = column ∨ status' = "redacted")

/-- The records that have the text of a version are redacted, and the records and mappings that have
none of its strings are left as they are. -/
structure ErasesExactly (requestUuid : Text) (version : MemoryVersion N) (before after : Tables N) :
    Prop where
  records : List.Forall₂ (fun record record' =>
    (ColumnHolds version.normalizedText record.rawPayloadIjson →
      Redacted requestUuid record.rawPayloadIjson record'.rawPayloadIjson record'.status) ∧
    (ColumnHolds version.normalizedText record.normalizedPayloadIjson →
      Redacted requestUuid record.normalizedPayloadIjson record'.normalizedPayloadIjson
        record'.status) ∧
    (RecordFree version record → record' = record)) before.records after.records
  mappings : List.Forall₂ (fun mapping mapping' => MappingFree version mapping → mapping' = mapping)
    before.mappings after.mappings

/-! ### What stands in the way -/

/-- A stripped text of at least 8 characters that is searched for: that of a version, or that of its
value or of the reason of its change, or a string of one of them. -/
def IsPattern (U : UnicodeData) (version : MemoryVersion N) (pattern : Text) : Prop :=
  8 ≤ pattern.length ∧ ∃ text, U.strip text = pattern ∧ (text = version.normalizedText ∨
    ∃ column, (version.valueIjson = some column ∨ version.changeReasonIjson = some column) ∧
      (text = column.1 ∨ text ∈ columnStrings column))

/-- A column is found by a pattern. -/
def ColumnFound (U : UnicodeData) (version : MemoryVersion N) (column : Option (IjsonColumn N)) : Prop :=
  ∃ pattern, IsPattern U version pattern ∧ columnLike pattern column

/-- A mapping is found by a pattern. -/
def MappingFound (U : UnicodeData) (version : MemoryVersion N) (mapping : ImportMapping) : Prop :=
  ∃ pattern, IsPattern U version pattern ∧ mappingLike pattern mapping

/-- A text that a JSON string writes as it is. -/
def Unescaped (text : Text) : Prop := ∀ c ∈ text, IJson.escapeChar c = [c]

instance : DecidablePred Unescaped := fun text =>
  inferInstanceAs (Decidable (∀ c ∈ text, IJson.escapeChar c = [c]))

/-- The text of a version is written as it is and long enough to be searched for, or each column that
has it is found by another pattern, or was redacted before. -/
def NothingHidden (U : UnicodeData) (requestUuid : Text) (version : MemoryVersion N)
    (tables : Tables N) : Prop :=
  8 ≤ (U.strip version.normalizedText).length ∧ Unescaped (U.strip version.normalizedText) ∨
    ∀ record ∈ tables.records, ∀ column,
      column = record.rawPayloadIjson ∨ column = record.normalizedPayloadIjson →
      ColumnHolds version.normalizedText column →
        ColumnFound U version column ∨ column = some (redactedPayload N requestUuid)

/-- A row that the statements write as it is. -/
structure RecordWritten (U : UnicodeData) (requestUuid : Text) (version : MemoryVersion N)
    (record : ImportRecord N) : Prop where
  raw : ColumnFound U version record.rawPayloadIjson →
    record.rawPayloadIjson = some (redactedPayload N requestUuid)
  normalized : ColumnFound U version record.normalizedPayloadIjson →
    record.normalizedPayloadIjson = some (redactedPayload N requestUuid)
  status : ColumnFound U version record.rawPayloadIjson ∨
    ColumnFound U version record.normalizedPayloadIjson → record.status = "redacted"

/-- No pattern finds a record or a mapping that has none of the strings of a version, unless it was
erased before and is written again as it is. -/
def NothingStray (U : UnicodeData) (sha256 : Text → String) (requestUuid : Text)
    (version : MemoryVersion N) (tables : Tables N) : Prop :=
  (∀ record ∈ tables.records, RecordFree version record → RecordWritten U requestUuid version record) ∧
    ∀ mapping ∈ tables.mappings, MappingFree version mapping → ¬MappingFound U version mapping ∨
      mapping.sourceObjectId = some "[erased]".toList ∧
        (sensitiveFragments U version).foldl (fun m f => eraseMapping sha256 requestUuid f m) mapping =
          mapping

/-- No two mappings of the same kind are erased by now. -/
def NothingClashes (U : UnicodeData) (version : MemoryVersion N) (tables : Tables N) : Prop :=
  tables.mappings.Pairwise fun mapping mapping' =>
    (MappingFound U version mapping ∨ mapping.sourceText = "[erased]".toList) →
    (MappingFound U version mapping' ∨ mapping'.sourceText = "[erased]".toList) →
    (mapping.sourcePlatform, mapping.sourceObjectType) ≠
      (mapping'.sourcePlatform, mapping'.sourceObjectType)

end

end Memorist.ImportResidue
