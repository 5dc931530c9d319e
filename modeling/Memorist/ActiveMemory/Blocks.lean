import Mathlib.Data.Prod.Lex
import Mathlib.Data.Rat.Init
import Mathlib.Data.String.Basic
import Memorist.Library.KeySort
import Memorist.Storage.Memories

/-!
Memory blocks, their versions and their sources (`active_memory/`).

* `BlockRow`, `BlockVersionRow`, `BlockSourceRow`, `BlockBuildRunRow`: the rows;
* `BlockStore`: the tables, over the memories that the blocks are built from;
* `sourceIsEligible`, `actorCanBuildBlock`, `sourceRoleFor`: the policies;
* `selectCanonicalSources`, `sessionHotCacheItems`: what a block is built from;
* `renderBlock`: the text of a block.
-/

namespace Memorist

/-! ### Rows -/

/-- The kinds of blocks. -/
inductive MemoryBlockType where
  | userProfile
  | projectContext
  | stylePolicy
  | promptRules
  | currentSessionState
  | safetyPrivacy
  deriving DecidableEq, Repr

/-- The text of a kind. -/
def MemoryBlockType.value : MemoryBlockType → String
  | userProfile => "UserProfileBlock"
  | projectContext => "ProjectContextBlock"
  | stylePolicy => "StylePolicyBlock"
  | promptRules => "PromptRulesBlock"
  | currentSessionState => "CurrentSessionStateBlock"
  | safetyPrivacy => "SafetyPrivacyBlock"

/-- Whether a block is up to date. -/
inductive BuildStatus where
  | current
  | stale
  deriving DecidableEq, Repr

/-- A row of `memory_blocks`. -/
structure BlockRow where
  blockUuid : String
  blockType : MemoryBlockType
  scopeType : String
  scopeUuid : Option String := none
  label : Text
  value : Text
  charLimit : ℕ
  readOnly : Bool := false
  currentVersionUuid : Option String := none
  optimisticLockVersion : ℕ := 0
  sourceSnapshotHash : Option String := none
  buildStatus : BuildStatus := .stale
  status : String := "active"
  deriving DecidableEq

/-- A row of `memory_block_versions`. -/
structure BlockVersionRow where
  blockVersionUuid : String
  blockUuid : String
  promptExecutionUuid : Option String := none
  versionNumber : ℕ
  value : Text
  sourceSnapshotHash : String
  blockBuildRunUuid : Option String := none
  changeReason : Option String := none
  createdBy : String
  deriving DecidableEq

/-- A row of `memory_block_sources`. -/
structure BlockSourceRow where
  blockVersionUuid : String
  memoryUuid : String
  memoryVersionUuid : String
  sourceRole : String
  inclusionReason : String
  deriving DecidableEq

/-- A row of `memory_block_build_runs`. -/
structure BlockBuildRunRow where
  blockBuildRunUuid : String
  blockUuid : String
  promptExecutionUuid : Option String := none
  builderVersion : String
  sourceSnapshotHash : String
  status : String := "pending"
  triggerType : String
  errorText : Option String := none
  deriving DecidableEq

/-- The columns of a memory version that only a block reads. -/
structure VersionDetails where
  confidence : ℚ := 1 / 2
  validFrom : Option String := none
  validUntil : Option String := none
  userConfirmed : Bool := false
  createdAt : Timestamp := 0

/-- A row of `session_hot_cache`. -/
structure SessionHotCache where
  currentProblem : Option Text := none
  lastUserIntent : Option Text := none
  currentPlan : Option Text := none
  activeConstraints : List Text := []
  unresolvedQuestions : List Text := []

/-- A source of a block. -/
structure BlockSource where
  memoryUuid : String
  memoryVersionUuid : String
  canonicalKey : Text
  memoryType : String
  scopeType : String
  scopeUuid : Option String
  normalizedText : Text
  sourceAuthority : String
  current : Bool
  confidence : ℚ
  validFrom : Option String := none
  validUntil : Option String := none
  sensitivityClass : SensitivityClass
  userConfirmed : Bool := false
  inclusionReason : String := "eligible_current_source"
  deriving DecidableEq

/-- An item of the hot cache of a session. -/
structure HotCacheItem where
  label : String
  text : Text
  deriving DecidableEq

/-- What the code takes from its platform: the character database, and the hash of what a block is
built from. -/
structure BlockPlatform where
  unicode : UnicodeData
  sourceSnapshotHash : List BlockSource → List HotCacheItem → String

/-- A platform whose hashes are all the same. -/
def constantPlatform : BlockPlatform where
  unicode := basicLatin
  sourceSnapshotHash := fun _ _ => "h"

/-- The memories, and the blocks that are built from them. -/
structure BlockStore where
  memories : MemoryStore := .empty
  details : String → VersionDetails := fun _ => {}
  candidateAuthority : String → Option String := fun _ => none
  hotCache : String → Option SessionHotCache := fun _ => none
  blocks : Table BlockRow String BlockRow.blockUuid := .empty
  versions : Table BlockVersionRow String BlockVersionRow.blockVersionUuid := .empty
  sources : List BlockSourceRow := []
  runs : Table BlockBuildRunRow String BlockBuildRunRow.blockBuildRunUuid := .empty

/-! ### Policies -/

/-- Whether a text occurs in another. -/
def occursIn (needle text : Text) : Bool := text.tails.any fun tail => needle.isPrefixOf tail

/-- The actors that may build a protected block. -/
def trustedActors : List String := ["admin", "system", "trusted_user"]

/-- Whether an actor may build a block. -/
def actorCanBuildBlock (block : BlockRow) (actorType : String) : Bool :=
  if block.blockType = .safetyPrivacy || block.readOnly then actorType ∈ trustedActors else true

/-- The words that make a preference one of style. -/
def styleTerms : List String := ["style", "answer", "reply"]

/-- Whether a source may enter a block. -/
def sourceIsEligible (U : UnicodeData) (block : BlockRow) (source : BlockSource) : Bool :=
  if !source.current then false
  else if source.sensitivityClass ≠ .normal then false
  else if source.sourceAuthority = "assistant_claim" then false
  else match block.blockType with
    | .userProfile => source.memoryType ∈ ["identity", "preference"]
    | .projectContext =>
        source.memoryType ∈ ["decision", "constraint", "definition", "unresolved_question", "fact"]
    | .stylePolicy =>
        source.memoryType = "preference" && source.sourceAuthority = "user_explicit" &&
          styleTerms.any fun term => occursIn term.toList (U.lowerText source.normalizedText)
    | .promptRules =>
        source.memoryType = "constraint" &&
          source.sourceAuthority ∈ ["user_explicit", "system_instruction"]
    | .safetyPrivacy =>
        source.memoryType = "constraint" && source.sourceAuthority = "system_instruction"
    | .currentSessionState => source.scopeType = "session"

/-- The role of a source in a block. -/
def sourceRoleFor (block : BlockRow) (source : BlockSource) : String :=
  if source.memoryType = "constraint" then "constraint"
  else if block.blockType = .userProfile then "profile_item"
  else if block.blockType = .currentSessionState then "session_state"
  else "context_item"

/-! ### What a block is built from -/

/-- Whether a memory is in the scope of a block. -/
def inScopeOf (block : BlockRow) (memory : MemoryRow) : Bool :=
  if block.scopeType ∈ ["project", "workspace", "session"] then
    memory.scopeType = block.scopeType && block.scopeUuid.isSome &&
      memory.scopeUuid = block.scopeUuid
  else memory.scopeType = block.scopeType &&
    memory.scopeUuid.getD "" = block.scopeUuid.getD ""

namespace BlockStore

variable (s : BlockStore)

/-- The source that a memory and its current version are. -/
def sourceFromRow (memory : MemoryRow) (version : MemoryVersionRow) : BlockSource where
  memoryUuid := memory.memoryUuid
  memoryVersionUuid := version.memoryVersionUuid
  canonicalKey := memory.canonicalKey
  memoryType := memory.memoryType
  scopeType := memory.scopeType
  scopeUuid := memory.scopeUuid
  normalizedText := version.normalizedText
  sourceAuthority :=
    ((version.sourceCandidateUuid.bind s.candidateAuthority).filter (· ≠ "")).getD "unknown"
  current := memory.currentVersionUuid = some version.memoryVersionUuid
  confidence := (s.details version.memoryVersionUuid).confidence
  validFrom := (s.details version.memoryVersionUuid).validFrom
  validUntil := (s.details version.memoryVersionUuid).validUntil
  sensitivityClass := memory.sensitivityClass
  userConfirmed := (s.details version.memoryVersionUuid).userConfirmed

/-- The memories with their current versions. -/
def currentRows : List (MemoryRow × MemoryVersionRow) :=
  s.memories.memories.rows.filterMap fun memory =>
    (memory.currentVersionUuid.bind s.memories.versions.get?).map fun version => (memory, version)

/-- The order in which sources are selected. -/
def sourceKey (row : MemoryRow × MemoryVersionRow) : Lex (String × Lex (String × ℕ)) :=
  toLex (row.1.memoryType, toLex (String.ofList row.1.canonicalKey,
    (s.details row.2.memoryVersionUuid).createdAt))

/-- `select_canonical_sources`. -/
def selectCanonicalSources (U : UnicodeData) (block : BlockRow) : List BlockSource :=
  if block.blockType = .currentSessionState then []
  else
    ((KeySort.sortBy s.sourceKey (s.currentRows.filter fun row =>
      row.1.status = .active && inScopeOf block row.1)).map fun row =>
        s.sourceFromRow row.1 row.2).filter (sourceIsEligible U block)

/-- `session_hot_cache_items`. -/
def sessionHotCacheItems (block : BlockRow) : List HotCacheItem :=
  if block.blockType ≠ .currentSessionState then []
  else match block.scopeUuid.bind s.hotCache with
    | none => []
    | some row =>
        let texts := [("current_problem", row.currentProblem),
          ("last_user_intent", row.lastUserIntent), ("current_plan", row.currentPlan)]
        (texts.filterMap fun (label, text) =>
            (text.filter (· ≠ [])).map fun text => ⟨label, text⟩) ++
          row.activeConstraints.map (⟨"active_constraints_ijson", ·⟩) ++
          row.unresolvedQuestions.map (⟨"unresolved_questions_ijson", ·⟩)

end BlockStore

/-! ### The text of a block -/

/-- Lines joined by a line feed. -/
def joinLines (lines : List Text) : Text := List.intercalate ['\n'] lines

/-- The first line of a block. -/
def blockHeader (block : BlockRow) : Text := block.blockType.value.toList ++ ": ".toList ++ block.label

/-- Add the lines that fit into a block. -/
def addLines (block : BlockRow) : List Text → List Text → List Text
  | lines, [] => lines
  | lines, line :: rest =>
      if block.charLimit < (joinLines (lines ++ [line])).length then addLines block lines rest
      else addLines block (lines ++ [line]) rest

/-- `render_block`. -/
def renderBlock (block : BlockRow) (sources : List BlockSource) (items : List HotCacheItem) : Text :=
  joinLines <| addLines block [blockHeader block] <|
    (items.map fun item => "- ".toList ++ item.label.toList ++ ": ".toList ++ item.text) ++
      sources.map fun source => "- ".toList ++ source.normalizedText

end Memorist
