import Memorist.ActiveMemory.Blocks
import Memorist.Library.Fallible

/-!
Building blocks, statement by statement (`active_memory/materializer.py`,
`active_memory/repositories.py`).

* `BlockEffect`: the statements of a build on blocks and their sources;
* `buildBlock`: the program of `build`.
-/

namespace Memorist

open Fallible (ask raise)

/-! ### Statements -/

/-- The row of a block of which a version is published. -/
def BlockRow.published (version : BlockVersionRow) (lockVersion : ℕ) (row : BlockRow) : BlockRow :=
  { row with
    currentVersionUuid := some version.blockVersionUuid
    value := version.value
    sourceSnapshotHash := some version.sourceSnapshotHash
    buildStatus := .current
    optimisticLockVersion := lockVersion }

/-- The row of a build run with a status, and the error it failed with, if any. -/
def BlockBuildRunRow.ended (status : String) (errorText : Option String) (row : BlockBuildRunRow) :
    BlockBuildRunRow := { row with status := status, errorText := errorText }

lemma BlockRow.blockUuid_published (version : BlockVersionRow) (lockVersion : ℕ) (row : BlockRow) :
    (row.published version lockVersion).blockUuid = row.blockUuid := rfl

lemma BlockBuildRunRow.uuid_ended (status : String) (errorText : Option String)
    (row : BlockBuildRunRow) : (row.ended status errorText).blockBuildRunUuid =
      row.blockBuildRunUuid := rfl

namespace BlockStore

variable (s : BlockStore)

/-- The versions of a block. -/
def versionsOf (blockUuid : String) : List BlockVersionRow :=
  s.versions.rows.filter fun version => version.blockUuid = blockUuid

/-- The number of the next version of a block. -/
def nextVersionNumber (blockUuid : String) : ℕ :=
  ((s.versionsOf blockUuid).map BlockVersionRow.versionNumber).foldl max 0 + 1

/-- The newest version of a block that an execution has built from the same sources. -/
def findVersionForExecution (blockUuid promptExecutionUuid sourceSnapshotHash : String) :
    Option BlockVersionRow :=
  (KeySort.newest BlockVersionRow.versionNumber 1 <| (s.versionsOf blockUuid).filter fun version =>
    version.sourceSnapshotHash = sourceSnapshotHash &&
      (version.blockBuildRunUuid.bind s.runs.get?).any fun run =>
        run.promptExecutionUuid = some promptExecutionUuid && run.status = "succeeded").head?

/-- Add a version with its sources. -/
def createVersion (version : BlockVersionRow) (sources : List BlockSourceRow) : BlockStore :=
  { s with
    versions := s.versions.insert version
    sources := s.sources ++ sources }

/-- Publish a version of a block. -/
def publish (blockUuid : String) (version : BlockVersionRow) (lockVersion : ℕ) : BlockStore :=
  { s with
    blocks := s.blocks.updateWhere (fun row => row.blockUuid = blockUuid)
      (BlockRow.published version lockVersion) (BlockRow.blockUuid_published version lockVersion) }

end BlockStore

/-- What an operation asks of the store. -/
inductive BlockEffect where
  | getBlock (blockUuid : String)
  | selectCanonicalSources (block : BlockRow)
  | sessionHotCacheItems (block : BlockRow)
  | findVersionForExecution (blockUuid promptExecutionUuid sourceSnapshotHash : String)
  | createBuildRun (run : BlockBuildRunRow)
  | updateBuildRun (runUuid status : String) (errorText : Option String)
  | nextVersionNumber (blockUuid : String)
  | createVersion (version : BlockVersionRow) (sources : List BlockSourceRow)
  | updateCurrentVersion (block : BlockRow) (version : BlockVersionRow)

/-- What a statement answers. -/
def BlockEffect.Answer : BlockEffect → Type
  | getBlock _ => Option BlockRow
  | selectCanonicalSources _ => List BlockSource
  | sessionHotCacheItems _ => List HotCacheItem
  | findVersionForExecution _ _ _ => Option BlockVersionRow
  | nextVersionNumber _ => ℕ
  | updateCurrentVersion _ _ => Bool
  | createBuildRun _ | updateBuildRun _ _ _ | createVersion _ _ => Unit

/-- The errors of an operation. -/
inductive BlockError where
  | repository (message : String)
  | value (message : String)
  | store (message : String)
  deriving DecidableEq

/-- A statement answers, or the store refuses it. -/
abbrev BlockEffect.Response (e : BlockEffect) : Type := Except BlockError e.Answer

/-- Operations on blocks. -/
abbrev BlockProgram (α : Type) : Type := Fallible BlockEffect BlockEffect.Answer BlockError α

/-! ### Operations -/

/-- A proposal of a compaction that was accepted. -/
structure ValidatedCompactionProposal where
  value : Text
  sources : List BlockSource
  deriving DecidableEq

/-- The arguments of a build, with the ids it uses. -/
structure BuildRequest where
  blockUuid : String
  triggerType : String := "manual"
  actorType : String := "user"
  expectedOptimisticLockVersion : Option ℕ := none
  compactionProposal : Option ValidatedCompactionProposal := none
  promptExecutionUuid : Option String := none
  builderVersion : String := "deterministic-active-memory-v1"
  expectedSourceSnapshotHash : Option String := none
  runUuid : String
  versionUuid : String

/-- The result of a build. -/
structure BuildResult where
  blockUuid : String
  blockVersionUuid : String
  versionNumber : ℕ
  sourceSnapshotHash : String
  value : Text
  deriving DecidableEq

/-- The error of an operation on a block that is not there. -/
def blockNotFound (blockUuid : String) : BlockError :=
  .repository ("Memory block not found: " ++ blockUuid)

/-- `get_block`. -/
def getBlock {α : Type} (blockUuid : String) (k : BlockRow → BlockProgram α) : BlockProgram α :=
  ask (.getBlock blockUuid) fun (block : Option BlockRow) =>
    match block with
    | none => raise (blockNotFound blockUuid)
    | some block => k block

/-- The result of a build that another one has made. -/
def BlockVersionRow.result (blockUuid : String) (version : BlockVersionRow) : BuildResult :=
  ⟨blockUuid, version.blockVersionUuid, version.versionNumber, version.sourceSnapshotHash,
    version.value⟩

/-- The version of a build. -/
def BuildRequest.version (request : BuildRequest) (block : BlockRow) (snapshotHash : String)
    (value : Text) (number : ℕ) : BlockVersionRow where
  blockVersionUuid := request.versionUuid
  blockUuid := block.blockUuid
  promptExecutionUuid := request.promptExecutionUuid
  versionNumber := number
  value := value
  sourceSnapshotHash := snapshotHash
  blockBuildRunUuid := some request.runUuid
  changeReason := some request.triggerType
  createdBy := request.actorType

/-- The rows of the sources of a version. -/
def BuildRequest.sourceRows (request : BuildRequest) (block : BlockRow)
    (sources : List BlockSource) : List BlockSourceRow :=
  sources.map fun source =>
    ⟨request.versionUuid, source.memoryUuid, source.memoryVersionUuid, sourceRoleFor block source,
      source.inclusionReason⟩

/-- A build that fails its run. -/
def failRun {α : Type} (runUuid errorText message : String) : BlockProgram α :=
  ask (.updateBuildRun runUuid "failed" (some errorText)) fun () => raise (.repository message)

/-- The run of a build. -/
def BuildRequest.run (request : BuildRequest) (snapshotHash : String) : BlockBuildRunRow where
  blockBuildRunUuid := request.runUuid
  blockUuid := request.blockUuid
  promptExecutionUuid := request.promptExecutionUuid
  builderVersion := request.builderVersion
  sourceSnapshotHash := snapshotHash
  triggerType := request.triggerType

/-- A version is added with its sources, and published. -/
def addVersion (request : BuildRequest) (block : BlockRow) (version : BlockVersionRow)
    (sources : List BlockSource) : BlockProgram BuildResult :=
  ask (.createVersion version (request.sourceRows block sources)) fun () =>
  ask (.updateCurrentVersion block version) fun (updated : Bool) =>
  if updated then
    getBlock block.blockUuid fun _ =>
    ask (.updateBuildRun request.runUuid "succeeded" none) fun () =>
    .pure (version.result block.blockUuid)
  else raise (.repository "memory block optimistic lock changed")

/-- A build from the text and the sources that it publishes. -/
def publishVersion (request : BuildRequest) (block : BlockRow) (snapshotHash : String)
    (value : Text) (sources : List BlockSource) : BlockProgram BuildResult :=
  ask (.nextVersionNumber block.blockUuid) fun (number : ℕ) =>
  addVersion request block (request.version block snapshotHash value number) sources

/-- The text and the sources that a build publishes: those of its proposal, or what it renders. -/
def publishProposal (P : BlockPlatform) (request : BuildRequest) (block : BlockRow)
    (sources : List BlockSource) (items : List HotCacheItem) : BlockProgram BuildResult :=
  match request.compactionProposal with
  | none =>
      publishVersion request block (P.sourceSnapshotHash sources items)
        (renderBlock block sources items) sources
  | some proposal =>
      if proposal.sources.all fun proposed => sources.any fun source =>
          source.memoryVersionUuid = proposed.memoryVersionUuid then
        publishVersion request block (P.sourceSnapshotHash sources items) proposal.value
          proposal.sources
      else raise (.repository "compaction proposal source snapshot changed")

/-- A build once its run is created: the block and its sources are read again. -/
def buildFrom (P : BlockPlatform) (request : BuildRequest) (block : BlockRow)
    (sources : List BlockSource) (items : List HotCacheItem) : BlockProgram BuildResult :=
  getBlock request.blockUuid fun currentBlock =>
  if currentBlock.optimisticLockVersion ≠ block.optimisticLockVersion then
    failRun request.runUuid "optimistic lock changed" "memory block optimistic lock changed"
  else
    ask (.selectCanonicalSources block) fun (reread : List BlockSource) =>
    if P.sourceSnapshotHash reread items ≠ P.sourceSnapshotHash sources items then
      failRun request.runUuid "source snapshot changed" "source snapshot changed during build"
    else publishProposal P request block sources items

/-- A build with a run of its own. -/
def startBuild (P : BlockPlatform) (request : BuildRequest) (block : BlockRow)
    (sources : List BlockSource) (items : List HotCacheItem) : BlockProgram BuildResult :=
  ask (.createBuildRun (request.run (P.sourceSnapshotHash sources items))) fun () =>
  buildFrom P request block sources items

/-- A build, unless its execution has built the block from the same sources before. -/
def buildUnlessMade (P : BlockPlatform) (request : BuildRequest) (block : BlockRow)
    (sources : List BlockSource) (items : List HotCacheItem) : BlockProgram BuildResult :=
  match request.promptExecutionUuid with
  | none => startBuild P request block sources items
  | some promptExecutionUuid =>
      ask (.findVersionForExecution request.blockUuid promptExecutionUuid
        (P.sourceSnapshotHash sources items)) fun (existing : Option BlockVersionRow) =>
      match existing with
      | some version => .pure (version.result request.blockUuid)
      | none => startBuild P request block sources items

/-- `build`. -/
def buildBlock (P : BlockPlatform) (request : BuildRequest) : BlockProgram BuildResult :=
  getBlock request.blockUuid fun block =>
  if !actorCanBuildBlock block request.actorType then
    raise (.repository "actor is not authorized to build this memory block")
  else if request.expectedOptimisticLockVersion.any (block.optimisticLockVersion ≠ ·) then
    raise (.repository "memory block optimistic lock changed")
  else
    ask (.selectCanonicalSources block) fun (sources : List BlockSource) =>
    ask (.sessionHotCacheItems block) fun (items : List HotCacheItem) =>
    if request.expectedSourceSnapshotHash.any (P.sourceSnapshotHash sources items ≠ ·) then
      raise (.repository "source snapshot changed during provider execution")
    else buildUnlessMade P request block sources items

end Memorist
