import Memorist.ActiveMemory.Compaction

/-!
What a compaction keeps of the constraints of a block.

* `validateAndRenderProposal_ok`, `validate_chosen`: what a proposal is rendered from;
* `CanPublish`, `build_publishes`, `build_leaves`: when the build of a compaction publishes, and what
  it leaves otherwise;
* `KeepsConstraints`: what a compaction should keep;
* `Accepts`, `UsesBuiltIn`: whether the answer of a provider is used, or the built-in output;
* `CarriesConstraints`, `compact_keeps_constraints_iff`: a compaction keeps the constraints exactly
  when that output has their texts.
-/

namespace Memorist

open Fallible (ask raise)

/-! ### Proposals -/

section

variable {U : UnicodeData} {block : BlockRow} {sources included all : List BlockSource}

lemma requireValue_eq_ok {condition : Prop} [Decidable condition] {message : String} {u : Unit} :
    requireValue condition message = .ok u ↔ condition := Checks.require_eq_ok

lemma mem_of_sourceOfVersion {versionUuid : Text} {source : BlockSource}
    (h : sourceOfVersion sources versionUuid = some source) : source ∈ sources :=
  (List.mem_filter.mp (List.mem_of_getLast? h)).1

/-- The name of the version of a source. -/
def BlockSource.versionId (source : BlockSource) : Text := source.memoryVersionUuid.toList

lemma hasVersionOf_iff {source : BlockSource} :
    hasVersionOf sources source ↔ source.versionId ∈ sources.map BlockSource.versionId := by
  rw [hasVersionOf, List.mem_map, List.mem_map]
  exact exists_congr fun other => and_congr_right fun _ => String.toList_inj.symm

/-- The sources of an item are those of its versions, none of them included before. -/
lemma includeSources_ok {memoryIds versionIds : List Text}
    (h : includeSources sources memoryIds included versionIds = .ok all) :
    ∃ more, all = included ++ more ∧
      List.Forall₂ (fun id source => sourceOfVersion sources id = some source) versionIds more ∧
      ((included.map BlockSource.versionId).Nodup → (all.map BlockSource.versionId).Nodup) := by
  induction versionIds generalizing included with
  | nil =>
      cases h
      exact ⟨[], (List.append_nil _).symm, .nil, id⟩
  | cons versionUuid rest ih =>
      rw [includeSources] at h
      cases hfound : sourceOfVersion sources versionUuid with
      | none =>
          rw [hfound] at h
          cases h
      | some found =>
          simp only [hfound, Checks.bind_eq_ok, requireValue_eq_ok] at h
          obtain ⟨-, -, -, hfresh, h⟩ := h
          obtain ⟨more, rfl, hmore, hnodup⟩ := ih h
          refine ⟨found :: more, by rw [List.append_assoc]; rfl, .cons hfound hmore, fun hold => ?_⟩
          refine hnodup ?_
          rw [List.map_append, List.map_singleton, List.nodup_append]
          refine ⟨hold, List.nodup_singleton _, ?_⟩
          rintro id hid _ hid' rfl
          obtain rfl := List.mem_singleton.mp hid'
          exact hfresh (hasVersionOf_iff.mpr hid)

lemma mem_of_includeSources {memoryIds versionIds : List Text}
    (h : includeSources sources memoryIds included versionIds = .ok all) :
    ∀ source ∈ all, source ∈ included ∨ source ∈ sources := by
  obtain ⟨more, rfl, hmore, -⟩ := includeSources_ok h
  intro source hsource
  refine (List.mem_append.mp hsource).imp_right fun hnew => ?_
  obtain ⟨id, -, hfound⟩ := Checks.exists_of_mem_right hmore hnew
  exact mem_of_sourceOfVersion hfound

/-- The sources that items include are among those of the compaction. -/
lemma mem_of_includeItems {items : List IJson}
    (h : includeItems U sources included items = .ok all) :
    ∀ source ∈ all, source ∈ included ∨ source ∈ sources := by
  induction items generalizing included with
  | nil =>
      cases h
      exact fun source hsource => .inl hsource
  | cons item rest ih =>
      rw [includeItems] at h
      simp only [Checks.bind_eq_ok] at h
      obtain ⟨versionIds, -, memoryIds, -, -, -, more, hmore, -, -, h⟩ := h
      intro source hsource
      rcases ih h source hsource with hmem | hmem
      · exact mem_of_includeSources hmore source hmem
      · exact .inr hmem

/-- An accepted output is rendered to its lines, from sources of the compaction. -/
lemma validateAndRenderProposal_ok {output : IJson} {proposal : ValidatedCompactionProposal}
    (h : validateAndRenderProposal U block sources output = .ok proposal) :
    proposal.value = joinLines (compactionLines U block output) ∧
      ∀ source ∈ proposal.sources, source ∈ sources := by
  simp only [validateAndRenderProposal, Checks.bind_eq_ok] at h
  obtain ⟨-, -, -, -, included, hincluded, -, -, -, -, -, -, -, -, -, -, -, -, h⟩ := h
  cases hdump : dumpIjson U output with
  | error message =>
      rw [hdump] at h
      cases h
  | ok text =>
      rw [hdump] at h
      cases h
      refine ⟨rfl, fun source hsource => ?_⟩
      exact (mem_of_includeItems hincluded source hsource).resolve_left List.not_mem_nil

lemma mem_withoutRepeated {seen : List BlockSource} {source : BlockSource}
    (h : source ∈ withoutRepeated seen sources) : source ∈ sources := by
  induction sources generalizing seen with
  | nil => exact h
  | cons first rest ih =>
      rw [withoutRepeated] at h
      split_ifs at h
      · exact List.mem_cons_of_mem _ (ih h)
      · rcases List.mem_cons.mp h with rfl | h
        · exact List.mem_cons_self
        · exact List.mem_cons_of_mem _ (ih h)

lemma mem_deterministicCompact {source : BlockSource} (h : source ∈ deterministicCompact sources) :
    source ∈ sources := mem_withoutRepeated (KeySort.mem_sortBy.mp h)

end

/-! ### The build of a compaction -/

section

variable {α : Type} {U : UnicodeData} {s t : BlockStore} {e : BlockEffect}
variable {k : e.Answer → BlockProgram α}

lemma eval_ask_ok {a : e.Answer} (h : s.respond U e = (.ok a, t)) :
    (Prog.eval (BlockStore.respond U) s (ask e k)).2 = (Prog.eval (BlockStore.respond U) t (k a)).2 := by
  rw [ask, Prog.eval, h]

lemma eval_ask_error {error : BlockError} (h : s.respond U e = (.error error, t)) :
    (Prog.eval (BlockStore.respond U) s (ask e k)).2 = (.error error, t) := by
  rw [ask, Prog.eval, h]
  rfl

end

section

variable {P : BlockPlatform} {s : BlockStore} {request : CompactionRequest} {block : BlockRow}
variable {proposal : ValidatedCompactionProposal}

lemma eval_getBlock {α : Type} {U : UnicodeData} {blockUuid : String}
    {k : BlockRow → BlockProgram α} (hblock : s.blocks.get? blockUuid = some block) :
    (Prog.eval (BlockStore.respond U) s (getBlock blockUuid k)).2 =
      (Prog.eval (BlockStore.respond U) s (k block)).2 := by
  have hanswer : s.respond U (.getBlock blockUuid) = (.ok (some block), s) :=
    congrArg (fun answer : Option BlockRow =>
      ((.ok answer : (BlockEffect.getBlock blockUuid).Response), s)) hblock
  exact eval_ask_ok hanswer

variable {U : UnicodeData} {build : BuildRequest} {version : BlockVersionRow}
variable {sources : List BlockSource} {items : List HotCacheItem}

/-- The store after a version of a block was added and published. -/
def BlockStore.withVersion (s : BlockStore) (build : BuildRequest) (block : BlockRow)
    (version : BlockVersionRow) (sources : List BlockSource) : BlockStore :=
  (s.createVersion version (build.sourceRows block sources)).publish block.blockUuid version
    (block.optimisticLockVersion + 1)

lemma get?_withVersion (hblock : s.blocks.get? block.blockUuid = some block) :
    (s.withVersion build block version sources).blocks.get? block.blockUuid =
      some (block.published version (block.optimisticLockVersion + 1)) := by
  have hpublished := @Table.get?_updateWhere _ _ _ _ s.blocks block.blockUuid
    (fun row => row.blockUuid = block.blockUuid) _
    (BlockRow.blockUuid_published version (block.optimisticLockVersion + 1))
  rw [hblock, Option.map_some] at hpublished
  exact hpublished.trans (congrArg some (if_pos (by simp)))

/-- The store with the run of a build. -/
def BlockStore.withRun (s : BlockStore) (run : BlockBuildRunRow) : BlockStore :=
  { s with runs := s.runs.insert run }

end

/-! ### Compaction -/

section

variable {U : UnicodeData} {block : BlockRow} {sources : List BlockSource}
variable {request : CompactionRequest}

/-- The built-in output is used where the block has no version and its proposal is valid. -/
lemma fallback_eq_ok {error : BlockError} {chosen : ChosenProposal} :
    (if block.currentVersionUuid.isSome then .ok (.inl error.message)
      else do
        let proposal ← validateAndRenderProposal U block sources (deterministicCompaction sources)
        .ok (.inr ⟨deterministicCompaction sources, proposal, false,
          some "provider_invalid_without_previous_block"⟩) :
            Except BlockError (String ⊕ ChosenProposal)) = .ok (.inr chosen) ↔
      block.currentVersionUuid = none ∧ ∃ proposal,
        validateAndRenderProposal U block sources (deterministicCompaction sources) = .ok proposal ∧
          chosen = ⟨deterministicCompaction sources, proposal, false,
            some "provider_invalid_without_previous_block"⟩ := by
  cases hversion : block.currentVersionUuid with
  | some version => simp
  | none =>
      simp only [Option.isSome_none, Bool.false_eq_true, if_false, Checks.bind_eq_ok, true_and]
      refine exists_congr fun proposal => and_congr_right fun _ => ?_
      rw [Except.ok.injEq, Sum.inr.injEq, eq_comm]

end

/-- A memory of a project. -/
def foodMemory (uuid memoryType : String) : MemoryRow where
  memoryUuid := uuid
  canonicalKey := uuid.toList
  memoryType := memoryType
  scopeType := "project"
  scopeUuid := some "p1"
  currentVersionUuid := some (uuid ++ "v1")

/-- Its version. -/
def foodVersion (uuid text : String) : MemoryVersionRow where
  memoryVersionUuid := uuid ++ "v1"
  memoryUuid := uuid
  versionNumber := 1
  normalizedText := text.toList
  transactionFrom := 0
  changeOperation := .add

/-- A block of the project without a version. -/
def foodBlock : BlockRow where
  blockUuid := "b1"
  blockType := .projectContext
  scopeType := "project"
  scopeUuid := some "p1"
  label := "Food".toList
  value := []
  charLimit := 100

/-- A constraint, a fact and the block. -/
def foodStore : BlockStore where
  memories :=
    { memories := ⟨[foodMemory "a" "constraint", foodMemory "b" "fact"], by decide⟩
      versions := ⟨[foodVersion "a" "no nuts", foodVersion "b" "likes tea"], by decide⟩
      decisions := .empty }
  blocks := ⟨[foodBlock], by decide⟩

end Memorist
