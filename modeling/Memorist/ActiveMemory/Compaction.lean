import Memorist.ActiveMemory.Materializer
import Memorist.Library.Checks
import Memorist.Text.Lines
import Memorist.Text.PyRepr

/-!
Compacting a block (`active_memory/compaction/`, `model_control/stage_contracts.py`).

* `deterministicCompact`: the sources without duplicates, constraints first;
* `validateCompactionResult`, `deterministicCompaction`: the output of a stage;
* `validateAndRenderProposal`: the proposal that an output makes, if it is accepted;
* `validateCoverage`: the constraints that a text does not carry;
* `BlockStore.respond`: a store that answers every statement, so that a program runs alone on it;
* `compactBlock`: `compact`, with its build in one transaction.
-/

namespace Memorist

/-! ### Sources -/

/-- Whether a source repeats the text of the first one with its key. -/
def repeatsKey (seen : List BlockSource) (source : BlockSource) : Bool :=
  (seen.find? fun previous => previous.canonicalKey = source.canonicalKey).any fun previous =>
    previous.normalizedText = source.normalizedText

/-- The sources that repeat no earlier one. -/
def withoutRepeated (seen : List BlockSource) : List BlockSource → List BlockSource
  | [] => []
  | source :: rest =>
      if repeatsKey seen source then withoutRepeated seen rest
      else source :: withoutRepeated (seen ++ [source]) rest

/-- The order of the sources of a compaction. -/
def compactionKey (source : BlockSource) : Lex (Bool × Lex (ℚ × String)) :=
  toLex (source.memoryType ≠ "constraint", toLex (-source.confidence,
    String.ofList source.canonicalKey))

/-- `deterministic_compact`. -/
def deterministicCompact (sources : List BlockSource) : List BlockSource :=
  KeySort.sortBy compactionKey (withoutRepeated [] sources)

/-! ### The output of the stage -/

/-- Raise a value error unless a condition holds. -/
def requireValue (condition : Prop) [Decidable condition] (message : String) :
    Except BlockError Unit := Checks.require condition (.value message)

/-- The items of a list. -/
def itemsOf : Option IJson → Option (List IJson)
  | some (.arr items) => some items
  | _ => none

/-- Whether a value is an object. -/
def isObject : IJson → Bool
  | .obj _ => true
  | _ => false

/-- Whether a value is a given text. -/
def isText (expected : String) : IJson → Bool
  | .str text => text = expected.toList
  | _ => false

/-- Whether a value is a text that is not blank. -/
def isFilledText (U : UnicodeData) : Option IJson → Bool
  | some (.str text) => !(U.strip text).isEmpty
  | _ => false

/-- The check of an item of an output. -/
def validateCompactionItem (U : UnicodeData) (item : IJson) : Except BlockError Unit := do
  requireValue (isObject item) "block compaction items must be objects"
  requireValue (isFilledText U (member? "text" item)) "compacted item requires non-empty text"
  requireValue (itemsOf (member? "source_memory_uuids" item)).isSome
    "compacted item requires source_memory_uuids"
  requireValue (itemsOf (member? "source_memory_version_uuids" item)).isSome
    "compacted item requires source_memory_version_uuids"

/-- Whether a member is missing, null or a text. -/
def isOptionalText : Option IJson → Bool
  | none | some .null | some (.str _) => true
  | some _ => false

/-- Whether a member is missing, or a list of objects. -/
def isObjectList : Option IJson → Bool
  | none => true
  | some (.arr items) => items.all isObject
  | some _ => false

/-- The items of an output. -/
def outputItems (output : IJson) : List IJson := (itemsOf (member? "items" output)).getD []

/-- `validate_compaction_result`. -/
def validateCompactionResult (U : UnicodeData) (output : IJson) : Except BlockError Unit := do
  requireValue (itemsOf (member? "items" output)).isSome "block compaction requires items"
  (outputItems output).forM (validateCompactionItem U)
  requireValue (isOptionalText (member? "summary" output)) "block compaction summary must be text"
  requireValue (isObjectList (member? "excluded_memory_version_uuids" output))
    "block compaction exclusions must be objects"
  requireValue (isObjectList (member? "conflicts" output))
    "block compaction conflicts must be objects"

/-- An array of strings. -/
def stringArray (texts : List Text) : IJson := .arr (texts.map IJson.str)

/-- The keys of sources in the order they first occur. -/
def keysOf (sources : List BlockSource) : List Text := (sources.map BlockSource.canonicalKey).eraseDups

/-- The sources of a key. -/
def sourcesOfKey (sources : List BlockSource) (key : Text) : List BlockSource :=
  sources.filter fun source => source.canonicalKey = key

/-- `deterministic_compaction`. -/
def deterministicCompaction (sources : List BlockSource) : IJson :=
  .obj [field "summary" .null,
    field "items" (.arr (sources.map fun source =>
      .obj [field "text" (.str source.normalizedText),
        field "source_memory_uuids" (stringArray [source.memoryUuid.toList]),
        field "source_memory_version_uuids" (stringArray [source.memoryVersionUuid.toList])])),
    field "excluded_memory_version_uuids" (.arr []),
    field "conflicts" (.arr (((keysOf sources).filter fun key =>
        1 < (sourcesOfKey sources key).length &&
          1 < ((sourcesOfKey sources key).map BlockSource.normalizedText).eraseDups.length).map fun key =>
      .obj [field "memory_version_uuids"
          (stringArray ((sourcesOfKey sources key).map fun source =>
            source.memoryVersionUuid.toList)),
        field "status" (jsonString "unresolved")])),
    field "status" (jsonString "ok")]

/-! ### Proposals -/

/-- `_string_list`. -/
def stringList (value : Option IJson) : Except BlockError (List Text) :=
  match itemsOf value with
  | none => .error (.value "compaction provenance must be a string list")
  | some items => items.mapM fun item =>
      match item with
      | .str text => .ok text
      | _ => .error (.value "compaction provenance must be a string list")

/-- The text of a member, empty if the member is false. -/
def textOf (U : UnicodeData) (key : String) (item : IJson) : Text :=
  match member? key item with
  | none => []
  | some value => if truthy value then pyStrJson U value else []

/-- The source of a version; a later one of the same version stands for an earlier one. -/
def sourceOfVersion (sources : List BlockSource) (versionUuid : Text) : Option BlockSource :=
  (sources.filter fun source => source.memoryVersionUuid.toList = versionUuid).getLast?

/-- The claims of a text: its lines that are not blank, without a leading dash. -/
def claimsOf (U : UnicodeData) (text : Text) : List Text :=
  ((splitLines text).filter fun line => !(U.strip line).isEmpty).map fun line =>
    collapseSpaces U (U.strip (if line.head? = some '-' then line.tail else line))

/-- `_require_grounded_text`: every claim is the text of a source. -/
def requireGroundedText (U : UnicodeData) (text : Text) (sources : List BlockSource) :
    Except BlockError Unit :=
  requireValue (claimsOf U text ≠ [] ∧ ∀ claim ∈ claimsOf U text,
      claim ∈ sources.map fun source => collapseSpaces U source.normalizedText)
    "provider compaction introduced an unsupported claim"

/-- Whether sources have one of the version of a source. -/
def hasVersionOf (sources : List BlockSource) (source : BlockSource) : Prop :=
  source.memoryVersionUuid ∈ sources.map BlockSource.memoryVersionUuid

instance (sources : List BlockSource) (source : BlockSource) :
    Decidable (hasVersionOf sources source) := inferInstanceAs (Decidable (_ ∈ _))

/-- The sources that were included, with those of an item. -/
def includeSources (sources : List BlockSource) (memoryIds : List Text)
    (included : List BlockSource) : List Text → Except BlockError (List BlockSource)
  | [] => .ok included
  | versionUuid :: rest =>
      match sourceOfVersion sources versionUuid with
      | none => .error (.value "compaction referenced an unsupported source UUID")
      | some source => do
          requireValue (source.memoryUuid.toList ∈ memoryIds)
            "compaction memory/version provenance mismatch"
          requireValue (¬hasVersionOf included source)
            "compaction source version was included more than once"
          includeSources sources memoryIds (included ++ [source]) rest

/-- The text of an item. -/
def itemText (U : UnicodeData) (item : IJson) : Text :=
  U.strip ((member? "text" item).elim [] (pyStrJson U))

/-- The sources that were included, with those of the items that follow. -/
def includeItems (U : UnicodeData) (sources included : List BlockSource) :
    List IJson → Except BlockError (List BlockSource)
  | [] => .ok included
  | item :: rest => do
      let versionIds ← stringList (member? "source_memory_version_uuids" item)
      let memoryIds ← stringList (member? "source_memory_uuids" item)
      requireValue (versionIds ≠ []) "compaction item has no source version"
      let all ← includeSources sources memoryIds included versionIds
      requireGroundedText U (itemText U item) (all.drop included.length)
      includeItems U sources all rest

/-- The reasons for which a source may be excluded. -/
def exclusionReasons : List String := ["superseded", "duplicate", "char_limit", "lower_priority"]

/-- The sources that were excluded, with those of the items that follow. -/
def excludeSources (U : UnicodeData) (sources included excluded : List BlockSource) :
    List IJson → Except BlockError (List BlockSource)
  | [] => .ok excluded
  | item :: rest =>
      match sourceOfVersion sources (textOf U "memory_version_uuid" item) with
      | none => .error (.value "compaction excluded an unsupported source UUID")
      | some source => do
          requireValue (textOf U "reason_code" item ∈ exclusionReasons.map String.toList)
            "compaction exclusion reason is not allowed"
          requireValue (source.memoryType ≠ "constraint")
            "mandatory constraint source cannot be omitted"
          requireValue (¬hasVersionOf (included ++ excluded) source)
            "compaction source has conflicting inclusion state"
          excludeSources U sources included (excluded ++ [source]) rest

/-- `_validate_conflicts`, of one conflict. -/
def validateConflict (sources : List BlockSource) (value : IJson) : Except BlockError (List Text) := do
  requireValue (isObject value) "compaction conflict must be an object"
  let versionIds ← stringList (member? "memory_version_uuids" value)
  requireValue (2 ≤ versionIds.length ∧ ∀ uuid ∈ versionIds, (sourceOfVersion sources uuid).isSome)
    "compaction conflict provenance is invalid"
  requireValue ((member? "status" value).any (isText "unresolved"))
    "compaction conflicts must remain unresolved"
  return versionIds

/-- The versions of the sources of a key. -/
def versionsOfKey (sources : List BlockSource) (key : Text) : List Text :=
  ((sourcesOfKey sources key).map fun source => source.memoryVersionUuid.toList).eraseDups

/-- `_require_conflict_preservation`. -/
def requireConflictPreservation (U : UnicodeData) (included : List BlockSource)
    (conflicts : List (List Text)) : Except BlockError Unit :=
  requireValue (∀ key ∈ keysOf included,
      (versionsOfKey included key).length ≤ 1 ∨
        ((sourcesOfKey included key).map fun source =>
          collapseSpaces U source.normalizedText).eraseDups.length ≤ 1 ∨
        ∃ declared ∈ conflicts, ∀ uuid ∈ versionsOfKey included key, uuid ∈ declared)
    "compaction silently flattened an unresolved conflict"

/-- The summary of an output. -/
def summaryOf (U : UnicodeData) (output : IJson) : Text := U.strip (textOf U "summary" output)

/-- The lines that an output is rendered to. -/
def compactionLines (U : UnicodeData) (block : BlockRow) (output : IJson) : List Text :=
  blockHeader block ::
    ((if summaryOf U output = [] then []
      else ["- Summary: ".toList ++ summaryOf U output]) ++
        (outputItems output).map fun item => "- ".toList ++ itemText U item)

/-- A summary, if there is one, is grounded in the sources that were included. -/
def requireGroundedSummary (U : UnicodeData) (summary : Text) (included : List BlockSource) :
    Except BlockError Unit :=
  if summary = [] then .ok () else requireGroundedText U summary included

/-- `validate_and_render_proposal`. -/
def validateAndRenderProposal (U : UnicodeData) (block : BlockRow) (sources : List BlockSource)
    (output : IJson) : Except BlockError ValidatedCompactionProposal := do
  requireValue (∀ source ∈ sources,
      source.scopeType = block.scopeType ∧ source.scopeUuid = block.scopeUuid)
    "compaction source escaped the block privacy scope"
  requireValue (∀ source ∈ sources, source.sensitivityClass ≠ .secret)
    "secret source cannot enter an active memory block"
  let included ← includeItems U sources [] (outputItems output)
  let excluded ← excludeSources U sources included []
    ((itemsOf (member? "excluded_memory_version_uuids" output)).getD [])
  requireValue (∀ source ∈ sources, hasVersionOf (included ++ excluded) source)
    "compaction omitted a source without an explicit decision"
  let conflicts ← ((itemsOf (member? "conflicts" output)).getD []).mapM (validateConflict sources)
  requireConflictPreservation U included conflicts
  requireGroundedSummary U (summaryOf U output) included
  let value := joinLines (compactionLines U block output)
  requireValue (value.length ≤ block.charLimit)
    "provider compaction exceeds the block character budget"
  -- the hash of the output
  match dumpIjson U output with
  | .error message => .error (.value message)
  | .ok _ => .ok ⟨value, included⟩

/-- The error of an insert of a name that is there. -/
def blockIntegrityError : BlockError := .store "IntegrityError"

/-- How the store answers a statement where it refuses none but what its keys exclude. -/
def BlockStore.respond (U : UnicodeData) (s : BlockStore) : (e : BlockEffect) → e.Response × BlockStore
  | .getBlock blockUuid => (.ok (s.blocks.get? blockUuid), s)
  | .selectCanonicalSources block => (.ok (s.selectCanonicalSources U block), s)
  | .sessionHotCacheItems block => (.ok (s.sessionHotCacheItems block), s)
  | .findVersionForExecution blockUuid promptExecutionUuid sourceSnapshotHash =>
      (.ok (s.findVersionForExecution blockUuid promptExecutionUuid sourceSnapshotHash), s)
  | .createBuildRun run =>
      if (s.runs.get? run.blockBuildRunUuid).isSome then (.error blockIntegrityError, s)
      else (.ok (), { s with runs := s.runs.insert run })
  | .updateBuildRun runUuid status errorText =>
      (.ok (), { s with
        runs := s.runs.updateWhere (fun row => row.blockBuildRunUuid = runUuid)
          (BlockBuildRunRow.ended status errorText) (BlockBuildRunRow.uuid_ended status errorText) })
  | .nextVersionNumber blockUuid => (.ok (s.nextVersionNumber blockUuid), s)
  | .createVersion version sources =>
      if (s.versions.get? version.blockVersionUuid).isSome ||
          sources.any fun source => source.blockVersionUuid ≠ version.blockVersionUuid then
        (.error blockIntegrityError, s)
      else (.ok (), s.createVersion version sources)
  | .updateCurrentVersion block version =>
      if (s.blocks.get? block.blockUuid).any fun row =>
          row.optimisticLockVersion = block.optimisticLockVersion then
        (.ok true, s.publish block.blockUuid version (block.optimisticLockVersion + 1))
      else (.ok false, s)

/-! ### Compaction -/

/-- What the stage of a compaction has run. -/
inductive CompactionStage where
  | disabled
  | deterministic
  /-- A provider, or an earlier run of the same stage: its output, if there is one. -/
  | provider (output : Option IJson)

/-- A call of `compact`, with the ids it uses and what its stage runs; `abstention` and `transaction`
are the errors that its transactions end with, if they do. -/
structure CompactionRequest where
  blockUuid : String
  actorType : String := "user"
  executionUuid : String
  stage : CompactionStage
  runUuid : String
  versionUuid : String
  abstention : Option BlockError := none
  transaction : Option BlockError := none

/-- The output of a stage, if its status is ok. -/
def CompactionStage.output (U : UnicodeData) (selected : List BlockSource) :
    CompactionStage → Option IJson
  | disabled => none
  | deterministic => (some (deterministicCompaction selected)).filter fun output =>
      (validateCompactionResult U output).isOk
  | provider output => output.filter fun output => (validateCompactionResult U output).isOk

/-- The message of an error. -/
def BlockError.message : BlockError → String
  | repository message | value message | store message => message

/-- The output that a compaction uses, its proposal, and why it is not that of the stage. -/
structure ChosenProposal where
  output : IJson
  proposal : ValidatedCompactionProposal
  providerOutputApplied : Bool
  fallbackReason : Option String

/-- The build of a compaction. -/
def CompactionRequest.build (request : CompactionRequest) (block : BlockRow) (snapshotHash : String)
    (proposal : ValidatedCompactionProposal) : BuildRequest where
  blockUuid := request.blockUuid
  triggerType := "compaction"
  actorType := request.actorType
  expectedOptimisticLockVersion := some block.optimisticLockVersion
  compactionProposal := some proposal
  promptExecutionUuid := some request.executionUuid
  builderVersion := "provider-grounded-v3"
  expectedSourceSnapshotHash := some snapshotHash
  runUuid := request.runUuid
  versionUuid := request.versionUuid

/-- The hash of what a block is built from. -/
def BlockStore.snapshotHash (P : BlockPlatform) (s : BlockStore) (block : BlockRow) : String :=
  P.sourceSnapshotHash (s.selectCanonicalSources P.unicode block) (s.sessionHotCacheItems block)

end Memorist
