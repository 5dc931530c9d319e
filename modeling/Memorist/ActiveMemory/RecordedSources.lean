import Memorist.ActiveMemory.GroundedProposal

/-!
The sources that a build records for the version it publishes, and those in its text.

* `renderedSources`, `omittedSources`: the sources whose lines a block carries, and the others;
* `coverage`: the coverage of a block by its recorded sources;
* `Published`: the store after a build that publishes (`published_of_build`);
* `RecordsRendered`: the recorded sources are those in the text, and the coverage says so;
* `RendersRecorded`: when it does (`recordsRendered_iff`).
-/

namespace Memorist

open Fallible (eval_ask_eq_ok)

/-! ### The lines of a block -/

/-- The line of an item of the hot cache. -/
def HotCacheItem.line (item : HotCacheItem) : Text :=
  "- ".toList ++ item.label.toList ++ ": ".toList ++ item.text

/-- The line of a source. -/
def BlockSource.line (source : BlockSource) : Text := "- ".toList ++ source.normalizedText

/-- The sources whose lines fit after the lines before them. -/
def keepSources (block : BlockRow) : List Text → List BlockSource → List BlockSource
  | _, [] => []
  | lines, source :: rest =>
      if block.charLimit < (joinLines (lines ++ [source.line])).length then
        keepSources block lines rest
      else source :: keepSources block (lines ++ [source.line]) rest

/-- The sources whose lines do not fit. -/
def skipSources (block : BlockRow) : List Text → List BlockSource → List BlockSource
  | _, [] => []
  | lines, source :: rest =>
      if block.charLimit < (joinLines (lines ++ [source.line])).length then
        source :: skipSources block lines rest
      else skipSources block (lines ++ [source.line]) rest

/-- The lines of a block before those of its sources. -/
def linesBefore (block : BlockRow) (items : List HotCacheItem) : List Text :=
  addLines block [blockHeader block] (items.map HotCacheItem.line)

/-- The sources that `render_block` renders. -/
def renderedSources (block : BlockRow) (sources : List BlockSource) (items : List HotCacheItem) :
    List BlockSource := keepSources block (linesBefore block items) sources

/-- The sources that `render_block` omits. -/
def omittedSources (block : BlockRow) (sources : List BlockSource) (items : List HotCacheItem) :
    List BlockSource := skipSources block (linesBefore block items) sources

section

variable {block : BlockRow} {lines more : List Text} {sources : List BlockSource}
variable {items : List HotCacheItem}

lemma addLines_append (rest : List Text) :
    addLines block lines (more ++ rest) = addLines block (addLines block lines more) rest := by
  induction more generalizing lines with
  | nil => rfl
  | cons line more ih =>
      rw [List.cons_append, addLines, addLines]
      split_ifs
      · exact ih
      · exact ih

/-- The lines that are there stay. -/
lemma addLines_eq_append : ∃ rest, addLines block lines more = lines ++ rest := by
  induction more generalizing lines with
  | nil => exact ⟨[], (List.append_nil _).symm⟩
  | cons line more ih =>
      rw [addLines]
      split_ifs
      · exact ih
      · obtain ⟨rest, hrest⟩ := @ih (lines ++ [line])
        exact ⟨line :: rest, by rw [hrest, List.append_assoc, List.singleton_append]⟩

/-- What is added are the lines of the sources that are kept. -/
lemma addLines_sources : addLines block lines (sources.map BlockSource.line) =
    lines ++ (keepSources block lines sources).map BlockSource.line := by
  induction sources generalizing lines with
  | nil => exact (List.append_nil _).symm
  | cons source rest ih =>
      rw [List.map_cons, addLines, keepSources]
      split_ifs with h
      · exact ih
      · rw [ih, List.map_cons, List.append_assoc, List.singleton_append]

/-- The text of a block carries the lines of the sources that are rendered. -/
theorem renderBlock_eq : renderBlock block sources items = joinLines (linesBefore block items ++
    (renderedSources block sources items).map BlockSource.line) := by
  have hlines : renderBlock block sources items = joinLines (addLines block [blockHeader block]
      (items.map HotCacheItem.line ++ sources.map BlockSource.line)) := rfl
  rw [hlines, addLines_append, addLines_sources]
  rfl

/-- Lines are added as long as the text stays within the limit. -/
lemma length_addLines_le (h : (joinLines lines).length ≤ block.charLimit) :
    (joinLines (addLines block lines more)).length ≤ block.charLimit := by
  induction more generalizing lines with
  | nil => exact h
  | cons line more ih =>
      rw [addLines]
      split_ifs with hline
      · exact ih h
      · exact ih (not_lt.mp hline)

/-- The text of lines, with one line more. -/
lemma joinLines_append_singleton (h : lines ≠ []) (line : Text) :
    joinLines (lines ++ [line]) = joinLines lines ++ '\n' :: line := by
  induction lines with
  | nil => exact absurd rfl h
  | cons first rest ih =>
      cases rest with
      | nil => simp [joinLines, List.intercalate]
      | cons second rest =>
          have hrest := ih (List.cons_ne_nil _ _)
          simp only [joinLines, List.intercalate, List.cons_append, List.intersperse_cons_cons,
            List.flatten_cons] at hrest ⊢
          rw [hrest]
          simp

lemma length_joinLines_le (h : lines ≠ []) (more : List Text) :
    (joinLines lines).length ≤ (joinLines (lines ++ more)).length := by
  induction more generalizing lines with
  | nil => rw [List.append_nil]
  | cons line more ih =>
      have hstep := @ih (lines ++ [line]) (by simp)
      rw [joinLines_append_singleton h, List.length_append, List.append_assoc,
        List.singleton_append] at hstep
      omega

/-- No source is skipped exactly when all are kept. -/
lemma skipSources_eq_nil_iff :
    skipSources block lines sources = [] ↔ keepSources block lines sources = sources := by
  have hle : ∀ {lines : List Text} {sources : List BlockSource},
      (keepSources block lines sources).length + (skipSources block lines sources).length =
        sources.length := by
    intro lines sources
    induction sources generalizing lines with
    | nil => rfl
    | cons source rest ih =>
        rw [keepSources, skipSources]
        split_ifs
        · rw [List.length_cons, ← Nat.add_assoc, ih, List.length_cons]
        · rw [List.length_cons, List.length_cons, Nat.add_right_comm, ih]
  constructor
  · intro h
    induction sources generalizing lines with
    | nil => rfl
    | cons source rest ih =>
        rw [skipSources] at h
        rw [keepSources]
        split_ifs at h ⊢
        rw [ih h]
  · intro h
    have hlength := @hle lines sources
    rw [h] at hlength
    exact List.eq_nil_of_length_eq_zero (by omega)

/-- Lines that fit together are all added. -/
lemma keepSources_of_fits (hlines : lines ≠ [])
    (h : (joinLines (lines ++ sources.map BlockSource.line)).length ≤ block.charLimit) :
    keepSources block lines sources = sources := by
  induction sources generalizing lines with
  | nil => rfl
  | cons source rest ih =>
      rw [List.map_cons, ← List.singleton_append, ← List.append_assoc] at h
      have hfirst : ¬block.charLimit < (joinLines (lines ++ [source.line])).length :=
        not_lt.mpr ((length_joinLines_le (by simp) _).trans h)
      rw [keepSources, if_neg hfirst, ih (by simp) h]

end

/-! ### Coverage -/

/-- The versions of sources. -/
def requiredVersions (sources : List BlockSource) : Finset String :=
  (sources.map BlockSource.memoryVersionUuid).toFinset

/-- The share of what is required that is covered, and all of it if nothing is required. -/
def shareOf (covered required : Finset String) : ℚ :=
  if required = ∅ then 1 else (covered ∩ required).card / required.card

/-- The constraints among sources. -/
def constraintsOf (sources : List BlockSource) : List BlockSource :=
  sources.filter fun source => source.memoryType = "constraint"

/-- The report of the coverage of a block. -/
structure CoverageReport where
  blockUuid : String
  sourceCoverage : ℚ
  requiredItemCoverage : ℚ
  constraintCoverage : ℚ
  unsupportedAssertionCount : ℕ := 0
  conflictPreservation : Bool := true
  charCount : ℕ
  omittedSources : List String := []
  stale : Bool

namespace BlockStore

/-- `list_sources`: the recorded sources of the current version of a block. -/
def listSources (s : BlockStore) (blockUuid : String) : List BlockSourceRow :=
  match ((s.blocks.get? blockUuid).bind BlockRow.currentVersionUuid).bind s.versions.get? with
  | none => []
  | some version => s.sources.filter fun row => row.blockVersionUuid = version.blockVersionUuid

/-- `coverage`. -/
def coverage (P : BlockPlatform) (s : BlockStore) (blockUuid : String) :
    Except BlockError CoverageReport :=
  match s.blocks.get? blockUuid with
  | none => .error (blockNotFound blockUuid)
  | some block =>
      let sources := s.selectCanonicalSources P.unicode block
      let covered := ((s.listSources blockUuid).map BlockSourceRow.memoryVersionUuid).toFinset
      .ok
        { blockUuid := blockUuid
          sourceCoverage := shareOf covered (requiredVersions sources)
          requiredItemCoverage := shareOf covered (requiredVersions sources)
          constraintCoverage := shareOf covered (requiredVersions (constraintsOf sources))
          charCount := block.value.length
          stale := block.sourceSnapshotHash ≠ some (s.snapshotHash P block) }

end BlockStore

/-! ### The store after a build -/

/-- What a build publishes: the text and the sources of its proposal, or those of the block. -/
def publishedContent (block : BlockRow) (sources : List BlockSource) (items : List HotCacheItem)
    (proposal : Option ValidatedCompactionProposal) : Text × List BlockSource :=
  match proposal with
  | none => (renderBlock block sources items, sources)
  | some proposal => (proposal.value, proposal.sources)

/-- The store after a build that has published a version with sources: the memories are as before. -/
structure Published (P : BlockPlatform) (s : BlockStore) (request : BuildRequest) (block : BlockRow)
    (version : BlockVersionRow) (sources : List BlockSource) (t : BlockStore) : Prop where
  uuid : version.blockVersionUuid = request.versionUuid
  hash : version.sourceSnapshotHash = s.snapshotHash P block
  versions : t.versions = s.versions.insert version
  sources : t.sources = s.sources ++ request.sourceRows block sources
  block : t.blocks.get? block.blockUuid =
    some (block.published version (block.optimisticLockVersion + 1))
  memories : t.memories = s.memories
  details : t.details = s.details
  candidateAuthority : t.candidateAuthority = s.candidateAuthority
  hotCache : t.hotCache = s.hotCache

section

variable {P : BlockPlatform} {s t : BlockStore} {request : BuildRequest} {block : BlockRow}
variable {version : BlockVersionRow} {sources : List BlockSource} {result : BuildResult}

lemma Published.selectCanonicalSources (h : Published P s request block version sources t) :
    t.selectCanonicalSources P.unicode block = s.selectCanonicalSources P.unicode block := by
  obtain ⟨-, -, -, -, -, hmemories, hdetails, hauthority, -⟩ := h
  obtain ⟨memories, details, candidateAuthority, _, _, _, _, _⟩ := t
  dsimp only at hmemories hdetails hauthority
  subst hmemories hdetails hauthority
  rfl

lemma Published.sessionHotCacheItems (h : Published P s request block version sources t) :
    t.sessionHotCacheItems block = s.sessionHotCacheItems block := by
  rw [BlockStore.sessionHotCacheItems, BlockStore.sessionHotCacheItems, h.hotCache]

/-- A version is added with its sources, and published. -/
lemma published_of_addVersion (hblock : s.blocks.get? block.blockUuid = some block)
    (huuid : version.blockVersionUuid = request.versionUuid)
    (hhash : version.sourceSnapshotHash = s.snapshotHash P block)
    (h : (Prog.eval (BlockStore.respond P.unicode) s
      (addVersion request block version sources)).2 = (.ok result, t)) :
    Published P s request block version sources t := by
  obtain ⟨⟨⟩, added, hadded, h⟩ := eval_ask_eq_ok h
  obtain ⟨updated, published, hpublished, h⟩ := eval_ask_eq_ok h
  have hadded' : added = s.createVersion version (request.sourceRows block sources) := by
    simp only [BlockStore.respond] at hadded
    split_ifs at hadded
    · cases hadded
    · cases hadded
      rfl
  cases updated with
  | false => cases h
  | true =>
      obtain ⟨row, read, hread, h⟩ := eval_ask_eq_ok h
      have hpublished' : published = s.withVersion request block version sources := by
        simp only [BlockStore.respond] at hpublished
        split_ifs at hpublished
        · cases hpublished
          rw [hadded']
          rfl
        · cases hpublished
      cases row with
      | none => cases h
      | some row =>
          obtain ⟨⟨⟩, ended, hended, h⟩ := eval_ask_eq_ok h
          obtain rfl : published = read := congrArg Prod.snd hread
          cases hended
          cases h
          rw [hpublished']
          exact ⟨huuid, hhash, rfl, rfl, get?_withVersion hblock, rfl, rfl, rfl, rfl⟩

/-- A build once its run is created publishes its content. -/
lemma published_of_buildFrom (hblock : s.blocks.get? request.blockUuid = some block)
    (h : (Prog.eval (BlockStore.respond P.unicode) s (buildFrom P request block
      (s.selectCanonicalSources P.unicode block) (s.sessionHotCacheItems block))).2 =
        (.ok result, t)) :
    let content := publishedContent block (s.selectCanonicalSources P.unicode block)
      (s.sessionHotCacheItems block) request.compactionProposal
    ∃ version, version.value = content.1 ∧ Published P s request block version content.2 t := by
  intro content
  have hkey : block.blockUuid = request.blockUuid := Table.key_of_get? hblock
  have hblock' : s.blocks.get? block.blockUuid = some block := hkey ▸ hblock
  rw [buildFrom, eval_getBlock hblock, if_neg (by simp)] at h
  obtain ⟨reread, read, hread, h⟩ := eval_ask_eq_ok h
  obtain rfl : s = read := congrArg Prod.snd hread
  have hpublish : ∀ {value : Text} {sources : List BlockSource},
      (Prog.eval (BlockStore.respond P.unicode) s (publishVersion request block
        (s.snapshotHash P block) value sources)).2 = (.ok result, t) →
          ∃ version, version.value = value ∧ Published P s request block version sources t := by
    intro value sources hpublished
    obtain ⟨number, numbered, hnumber, hadd⟩ := eval_ask_eq_ok hpublished
    obtain rfl : s = numbered := congrArg Prod.snd hnumber
    exact ⟨request.version block (s.snapshotHash P block) value number, rfl,
      published_of_addVersion hblock' rfl rfl hadd⟩
  split_ifs at h with hchanged
  · obtain ⟨⟨⟩, failed, -, h⟩ := eval_ask_eq_ok h
    cases h
  · rw [publishProposal] at h
    cases hproposal : request.compactionProposal with
    | none =>
        rw [hproposal] at h
        have hcontent : content = (renderBlock block (s.selectCanonicalSources P.unicode block)
            (s.sessionHotCacheItems block), s.selectCanonicalSources P.unicode block) := by
          simp only [content, hproposal, publishedContent]
        rw [hcontent]
        exact hpublish h
    | some proposal =>
        rw [hproposal] at h
        have hcontent : content = (proposal.value, proposal.sources) := by
          simp only [content, hproposal, publishedContent]
        rw [hcontent]
        dsimp only at h
        split_ifs at h
        · exact hpublish h
        · cases h

/-- What holds of a store with a run more holds of the store. -/
lemma Published.of_withRun {run : BlockBuildRunRow}
    (h : Published P (s.withRun run) request block version sources t) :
    Published P s request block version sources t :=
  ⟨h.uuid, h.hash, h.versions, h.sources, h.block, h.memories, h.details, h.candidateAuthority,
    h.hotCache⟩

/-- A build that adds a version of a new name publishes its content with it. -/
theorem published_of_build (hblock : s.blocks.get? request.blockUuid = some block)
    (hnew : s.versions.get? request.versionUuid = none)
    (h : (Prog.eval (BlockStore.respond P.unicode) s (buildBlock P request)).2 = (.ok result, t))
    (hversion : t.versions.get? request.versionUuid = some version) :
    let content := publishedContent block (s.selectCanonicalSources P.unicode block)
      (s.sessionHotCacheItems block) request.compactionProposal
    version.value = content.1 ∧ Published P s request block version content.2 t := by
  intro content
  have hstart : (Prog.eval (BlockStore.respond P.unicode) s (startBuild P request block
      (s.selectCanonicalSources P.unicode block) (s.sessionHotCacheItems block))).2 =
        (.ok result, t) →
          ∃ version, version.value = content.1 ∧
            Published P s request block version content.2 t := by
    intro hstarted
    obtain ⟨⟨⟩, created, hcreated, hfrom⟩ := eval_ask_eq_ok hstarted
    have hcreated' : created = s.withRun (request.run (s.snapshotHash P block)) := by
      simp only [BlockStore.respond] at hcreated
      split_ifs at hcreated
      · cases hcreated
      · cases hcreated
        rfl
    rw [hcreated'] at hfrom
    obtain ⟨version, hvalue, hpublished⟩ :=
      @published_of_buildFrom P (s.withRun _) t request block result hblock hfrom
    exact ⟨version, hvalue, hpublished.of_withRun⟩
  have hmade : ∃ version, version.value = content.1 ∧
      Published P s request block version content.2 t := by
    rw [buildBlock, eval_getBlock hblock] at h
    split_ifs at h
    · cases h
    · cases h
    obtain ⟨sources, read, hread, h⟩ := eval_ask_eq_ok h
    obtain ⟨items, read', hread', h⟩ := eval_ask_eq_ok h
    cases hread
    cases hread'
    split_ifs at h
    · cases h
    rw [buildUnlessMade] at h
    cases hexecution : request.promptExecutionUuid with
    | none =>
        rw [hexecution] at h
        exact hstart h
    | some promptExecutionUuid =>
        rw [hexecution] at h
        obtain ⟨existing, found, hfound, h⟩ := eval_ask_eq_ok h
        obtain rfl : s = found := congrArg Prod.snd hfound
        cases existing with
        | none => exact hstart h
        | some existing =>
            -- nothing is added where the execution has built the block before
            obtain rfl : s = t := congrArg Prod.snd h
            rw [hnew] at hversion
            cases hversion
  obtain ⟨added, hvalue, hpublished⟩ := hmade
  have hadded : t.versions.get? request.versionUuid = some added := by
    rw [hpublished.versions, ← hpublished.uuid]
    exact Table.get?_insert_self (hpublished.uuid ▸ hnew)
  obtain rfl : added = version := Option.some.inj (hadded.symm.trans hversion)
  exact ⟨hvalue, hpublished⟩

end

/-! ### The sources in the text -/

/-- A version has a source among those that were recorded for it. -/
def BlockStore.Records (s : BlockStore) (versionUuid : String) (source : BlockSource) : Prop :=
  ∃ row ∈ s.sources, row.blockVersionUuid = versionUuid ∧
    row.memoryVersionUuid = source.memoryVersionUuid

/-- A source is in a text of entries: one of them, or a line of one, is its text but for spaces. -/
def Renders (U : UnicodeData) (entries : List Text) (source : BlockSource) : Prop :=
  ∃ entry ∈ entries, collapseSpaces U source.normalizedText = collapseSpaces U entry ∨
    collapseSpaces U source.normalizedText ∈ claimsOf U entry

instance (U : UnicodeData) (entries : List Text) (source : BlockSource) :
    Decidable (Renders U entries source) :=
  inferInstanceAs (Decidable (∃ entry ∈ entries, _ ∨ _ ∈ _))

/-- The entries of the text of an output: its summary, if there is one, and its items. -/
def outputEntries (U : UnicodeData) (output : IJson) : List Text :=
  (if summaryOf U output = [] then [] else [summaryOf U output]) ++
    (outputItems output).map (itemText U)

/-- The entries that a build renders from the sources of a block: those of the output that its
proposal comes from, or the texts of the sources that are rendered. -/
def renderedEntries (U : UnicodeData) (block : BlockRow) (sources : List BlockSource)
    (items : List HotCacheItem) : Option IJson → List Text
  | none => (renderedSources block sources items).map BlockSource.normalizedText
  | some output => outputEntries U output

/-- The versions of the sources that a build omits. -/
def omittedVersions (U : UnicodeData) (block : BlockRow) (sources : List BlockSource)
    (items : List HotCacheItem) : Option IJson → List Text
  | none => (omittedSources block sources items).map BlockSource.versionId
  | some output => (outputExclusions output).map (excludedIdOf U)

/-- The proposal of a build is the one that was accepted for the output, from sources of which those
that repeat another one are left out. -/
def ProposedBy (U : UnicodeData) (block : BlockRow) (sources : List BlockSource)
    (proposal : Option ValidatedCompactionProposal) : Option IJson → Prop
  | none => proposal = none
  | some output => ∃ accepted, proposal = some accepted ∧
      validateAndRenderProposal U block (deterministicCompact sources) output = .ok accepted

/-- A build, alone on a store where the recorded sources are those of versions, publishes a new
version of a block. -/
structure Publishes (P : BlockPlatform) (s : BlockStore) (request : BuildRequest) (block : BlockRow)
    (output : Option IJson) (version : BlockVersionRow) (t : BlockStore) : Prop where
  read : s.blocks.get? request.blockUuid = some block
  owned : ∀ row ∈ s.sources, s.versions.get? row.blockVersionUuid ≠ none
  proposed : ProposedBy P.unicode block (s.selectCanonicalSources P.unicode block)
    request.compactionProposal output
  new : s.versions.get? request.versionUuid = none
  built : ∃ result,
    (Prog.eval (BlockStore.respond P.unicode) s (buildBlock P request)).2 = (.ok result, t)
  version : t.versions.get? request.versionUuid = some version

/-- What a build should record: the text is within the limit, the recorded sources are the sources of
the block that are in it, the others are those that are omitted, and the coverage of the block, which
is fresh, is the share of the sources that are in the text. -/
structure RecordsRendered (P : BlockPlatform) (sources : List BlockSource) (entries omitted : List Text)
    (block : BlockRow) (version : BlockVersionRow) (t : BlockStore) : Prop where
  withinLimit : version.value.length ≤ block.charLimit
  ofSources : ∀ row ∈ t.sources, row.blockVersionUuid = version.blockVersionUuid →
    ∃ source ∈ sources, row.memoryUuid = source.memoryUuid ∧
      row.memoryVersionUuid = source.memoryVersionUuid
  recorded_iff : ∀ source ∈ sources,
    t.Records version.blockVersionUuid source ↔ Renders P.unicode entries source
  omitted_iff : ∀ source ∈ sources,
    ¬t.Records version.blockVersionUuid source ↔ source.versionId ∈ omitted
  covered : ∃ report, t.coverage P block.blockUuid = .ok report ∧ report.stale = false ∧
    report.sourceCoverage = shareOf
      (requiredVersions (sources.filter (Renders P.unicode entries))) (requiredVersions sources) ∧
    report.constraintCoverage = shareOf
      (requiredVersions ((constraintsOf sources).filter (Renders P.unicode entries)))
      (requiredVersions (constraintsOf sources))

/-- When a build records what it renders: the header fits with the lines of all sources; or, with a
proposal, no source repeats another one, the output carries the text of each source that its items
name, and that of no source that it excludes. -/
def RendersRecorded (U : UnicodeData) (block : BlockRow) (sources : List BlockSource) :
    Option IJson → Prop
  | none => (joinLines (blockHeader block :: sources.map BlockSource.line)).length ≤ block.charLimit
  | some output =>
      (∀ source ∈ sources, hasVersionOf (deterministicCompact sources) source) ∧
      (∀ source ∈ sources, source.versionId ∈ (outputItems output).flatMap versionIdsOf →
        Renders U (outputEntries U output) source) ∧
      ∀ source ∈ sources, source.versionId ∈ (outputExclusions output).map (excludedIdOf U) →
        ¬Renders U (outputEntries U output) source

section

variable {P : BlockPlatform} {s t : BlockStore} {request : BuildRequest} {block : BlockRow}
variable {version : BlockVersionRow} {sources published : List BlockSource} {source : BlockSource}
variable {output : IJson} {entries omitted : List Text}

/-- The sources that are recorded are those that are published. -/
lemma Published.row_iff (h : Published P s request block version published t)
    (howned : ∀ row ∈ s.sources, s.versions.get? row.blockVersionUuid ≠ none)
    (hnew : s.versions.get? request.versionUuid = none) {row : BlockSourceRow} :
    row ∈ t.sources ∧ row.blockVersionUuid = version.blockVersionUuid ↔
      row ∈ request.sourceRows block published := by
  rw [h.sources, List.mem_append, h.uuid]
  constructor
  · rintro ⟨hold | hrow, huuid⟩
    · exact absurd (huuid ▸ hnew) (howned row hold)
    · exact hrow
  · intro hrow
    refine ⟨.inr hrow, ?_⟩
    obtain ⟨source, -, rfl⟩ := List.mem_map.mp hrow
    rfl

lemma Published.records_iff (h : Published P s request block version published t)
    (howned : ∀ row ∈ s.sources, s.versions.get? row.blockVersionUuid ≠ none)
    (hnew : s.versions.get? request.versionUuid = none) :
    t.Records version.blockVersionUuid source ↔ hasVersionOf published source := by
  rw [hasVersionOf, List.mem_map]
  constructor
  · rintro ⟨row, hrow, huuid, heq⟩
    obtain ⟨other, hother, rfl⟩ := List.mem_map.mp ((h.row_iff howned hnew).mp ⟨hrow, huuid⟩)
    exact ⟨other, hother, heq⟩
  · rintro ⟨other, hother, heq⟩
    obtain ⟨hrow, huuid⟩ := (h.row_iff howned hnew).mpr (List.mem_map_of_mem hother)
    exact ⟨_, hrow, huuid, heq⟩

/-- What is recorded for the current version of the block are the rows of the version. -/
lemma Published.mem_covered_iff (h : Published P s request block version published t)
    (hnew : s.versions.get? request.versionUuid = none) :
    source.memoryVersionUuid ∈
        ((t.listSources block.blockUuid).map BlockSourceRow.memoryVersionUuid).toFinset ↔
      t.Records version.blockVersionUuid source := by
  have hversion : t.versions.get? version.blockVersionUuid = some version := by
    rw [h.versions]
    exact Table.get?_insert_self (h.uuid ▸ hnew)
  have hlist : t.listSources block.blockUuid =
      t.sources.filter fun row => row.blockVersionUuid = version.blockVersionUuid := by
    rw [BlockStore.listSources, h.block, Option.bind_some]
    simp only [BlockRow.published, Option.bind_some, hversion]
  rw [hlist, List.mem_toFinset, List.mem_map]
  constructor
  · rintro ⟨row, hrow, heq⟩
    obtain ⟨hrow, huuid⟩ := List.mem_filter.mp hrow
    exact ⟨row, hrow, of_decide_eq_true huuid, heq⟩
  · rintro ⟨row, hrow, huuid, heq⟩
    exact ⟨row, List.mem_filter.mpr ⟨hrow, decide_eq_true huuid⟩, heq⟩

/-- The share of sources that are recorded is that of the sources in the text, where these are the
same. -/
lemma shareOf_eq {covered : Finset String} {p : BlockSource → Prop} [DecidablePred p]
    (h : ∀ source ∈ sources, source.memoryVersionUuid ∈ covered ↔ p source) :
    shareOf covered (requiredVersions sources) =
      shareOf (requiredVersions (sources.filter p)) (requiredVersions sources) := by
  have hsame : covered ∩ requiredVersions sources =
      requiredVersions (sources.filter p) ∩ requiredVersions sources := by
    ext uuid
    simp only [requiredVersions, Finset.mem_inter, List.mem_toFinset, List.mem_map,
      List.mem_filter, decide_eq_true_eq]
    constructor
    · rintro ⟨hcovered, source, hsource, rfl⟩
      exact ⟨⟨source, ⟨hsource, (h source hsource).mp hcovered⟩, rfl⟩, source, hsource, rfl⟩
    · rintro ⟨⟨source, ⟨hsource, hp⟩, rfl⟩, hrequired⟩
      exact ⟨(h source hsource).mpr hp, hrequired⟩
  rw [shareOf, shareOf, hsame]

/-- What is recorded where the sources recorded are those in the text. -/
lemma recordsRendered_of (h : Published P s request block version published t)
    (howned : ∀ row ∈ s.sources, s.versions.get? row.blockVersionUuid ≠ none)
    (hnew : s.versions.get? request.versionUuid = none)
    (hlimit : version.value.length ≤ block.charLimit)
    (hpublished : ∀ source ∈ published, source ∈ s.selectCanonicalSources P.unicode block)
    (hrecorded : ∀ source ∈ s.selectCanonicalSources P.unicode block,
      hasVersionOf published source ↔ Renders P.unicode entries source)
    (homitted : ∀ source ∈ s.selectCanonicalSources P.unicode block,
      ¬hasVersionOf published source ↔ source.versionId ∈ omitted) :
    RecordsRendered P (s.selectCanonicalSources P.unicode block) entries omitted block version t := by
  have hsources := h.selectCanonicalSources
  have hcovered : ∀ source ∈ s.selectCanonicalSources P.unicode block,
      source.memoryVersionUuid ∈
          ((t.listSources block.blockUuid).map BlockSourceRow.memoryVersionUuid).toFinset ↔
        Renders P.unicode entries source := fun source hsource =>
    (h.mem_covered_iff hnew).trans ((h.records_iff howned hnew).trans (hrecorded source hsource))
  have hhash : t.snapshotHash P block = s.snapshotHash P block := by
    rw [BlockStore.snapshotHash, BlockStore.snapshotHash, hsources, h.sessionHotCacheItems]
  refine ⟨hlimit, fun row hrow huuid => ?_, fun source hsource => ?_, fun source hsource => ?_, ?_⟩
  · obtain ⟨source, hsource, rfl⟩ := List.mem_map.mp ((h.row_iff howned hnew).mp ⟨hrow, huuid⟩)
    exact ⟨source, hpublished source hsource, rfl, rfl⟩
  · exact (h.records_iff howned hnew).trans (hrecorded source hsource)
  · exact (not_congr (h.records_iff howned hnew)).trans (homitted source hsource)
  · let row := block.published version (block.optimisticLockVersion + 1)
    have hrow : t.selectCanonicalSources P.unicode row =
        s.selectCanonicalSources P.unicode block := hsources
    have hfresh : t.snapshotHash P row = version.sourceSnapshotHash := hhash.trans h.hash.symm
    rw [BlockStore.coverage, h.block]
    refine ⟨_, rfl, ?_, ?_, ?_⟩
    · exact decide_eq_false (not_not.mpr (congrArg some hfresh.symm))
    · change shareOf _ (requiredVersions (t.selectCanonicalSources P.unicode row)) = _
      rw [hrow]
      exact shareOf_eq hcovered
    · change shareOf _
        (requiredVersions (constraintsOf (t.selectCanonicalSources P.unicode row))) = _
      rw [hrow]
      exact shareOf_eq fun source hsource => hcovered source (List.mem_filter.mp hsource).1

lemma mem_of_mem_skipSources {lines : List Text} (h : source ∈ skipSources block lines published) :
    source ∈ published := by
  induction published generalizing lines with
  | nil => exact h
  | cons first rest ih =>
      rw [skipSources] at h
      split_ifs at h
      · rcases List.mem_cons.mp h with rfl | h
        · exact List.mem_cons_self
        · exact List.mem_cons_of_mem _ (ih h)
      · exact List.mem_cons_of_mem _ (ih h)

/-- A block has sources, or items of the hot cache. -/
lemma sources_or_items (s : BlockStore) (U : UnicodeData) (block : BlockRow) :
    s.selectCanonicalSources U block = [] ∨ s.sessionHotCacheItems block = [] := by
  by_cases h : block.blockType = .currentSessionState
  · exact .inl (if_pos h)
  · exact .inr (if_pos h)

/-- All sources are rendered within the limit exactly when the header fits with their lines. -/
lemma renders_all_iff {items : List HotCacheItem} (hitems : published = [] ∨ items = []) :
    (renderBlock block published items).length ≤ block.charLimit ∧
        omittedSources block published items = [] ↔
      (joinLines (blockHeader block :: published.map BlockSource.line)).length ≤
        block.charLimit := by
  obtain ⟨rest, hbefore⟩ := @addLines_eq_append block [blockHeader block]
    (items.map HotCacheItem.line)
  have hbefore' : linesBefore block items = [blockHeader block] ++ rest := hbefore
  rw [renderBlock_eq, renderedSources, omittedSources, skipSources_eq_nil_iff]
  rcases hitems with rfl | rfl
  · -- without sources the header alone decides
    rw [keepSources, List.map_nil, List.append_nil, and_iff_left rfl]
    constructor
    · intro hlimit
      rw [hbefore'] at hlimit
      exact (length_joinLines_le (List.cons_ne_nil _ _) rest).trans hlimit
    · exact length_addLines_le
  · have hheader : linesBefore block [] = [blockHeader block] := rfl
    rw [hheader]
    constructor
    · rintro ⟨hlimit, hall⟩
      rw [hall] at hlimit
      exact hlimit
    · intro hlimit
      have hall := keepSources_of_fits (List.cons_ne_nil (blockHeader block) []) hlimit
      rw [hall]
      exact ⟨hlimit, rfl⟩

/-- A build without a proposal. -/
lemma recordsRendered_rendered_iff (h : Publishes P s request block none version t) :
    let sources := s.selectCanonicalSources P.unicode block
    let items := s.sessionHotCacheItems block
    RecordsRendered P sources (renderedEntries P.unicode block sources items none)
        (omittedVersions P.unicode block sources items none) block version t ↔
      RendersRecorded P.unicode block sources none := by
  intro sources items
  obtain ⟨result, hbuilt⟩ := h.built
  obtain ⟨hvalue, hpublished⟩ := published_of_build h.read h.new hbuilt h.version
  have hproposal : request.compactionProposal = none := h.proposed
  rw [hproposal] at hvalue hpublished
  dsimp only [publishedContent] at hvalue hpublished
  have hall : ∀ source ∈ sources, hasVersionOf sources source := fun source hsource =>
    List.mem_map_of_mem hsource
  refine Iff.trans ?_ (renders_all_iff (sources_or_items s P.unicode block))
  constructor
  · intro hrecords
    refine ⟨hvalue ▸ hrecords.withinLimit, List.eq_nil_iff_forall_not_mem.mpr fun source homitted => ?_⟩
    -- a source that is omitted is recorded all the same
    have hsource : source ∈ sources := mem_of_mem_skipSources homitted
    exact (hrecords.omitted_iff source hsource).mpr (List.mem_map_of_mem homitted)
      ((hpublished.records_iff h.owned h.new).mpr (hall source hsource))
  · rintro ⟨hlimit, hnone⟩
    refine recordsRendered_of hpublished h.owned h.new (hvalue ▸ hlimit) (fun _ => id)
      (fun source hsource => iff_of_true (hall source hsource) ?_) fun source hsource => ?_
    · have hkept : renderedSources block sources items = sources :=
        skipSources_eq_nil_iff.mp hnone
      refine ⟨source.normalizedText, ?_, .inl rfl⟩
      rw [renderedEntries, hkept]
      exact List.mem_map_of_mem hsource
    · refine iff_of_false (not_not.mpr (hall source hsource)) ?_
      rw [omittedVersions, hnone]
      exact List.not_mem_nil

/-- A build of a proposal that was accepted. -/
lemma recordsRendered_proposed_iff (h : Publishes P s request block (some output) version t) :
    let sources := s.selectCanonicalSources P.unicode block
    RecordsRendered P sources (outputEntries P.unicode output)
        ((outputExclusions output).map (excludedIdOf P.unicode)) block version t ↔
      RendersRecorded P.unicode block sources (some output) := by
  intro sources
  obtain ⟨result, hbuilt⟩ := h.built
  obtain ⟨hvalue, hpublished⟩ := published_of_build h.read h.new hbuilt h.version
  obtain ⟨proposal, hproposal, haccepted⟩ := h.proposed
  rw [hproposal] at hvalue hpublished
  dsimp only [publishedContent] at hvalue hpublished
  have hgrounded := validateAndRenderProposal_grounded haccepted
  obtain ⟨-, hmem⟩ := validateAndRenderProposal_ok haccepted
  have hnamed : ∀ source, hasVersionOf proposal.sources source ↔
      source.versionId ∈ (outputItems output).flatMap versionIdsOf := by
    intro source
    rw [hasVersionOf_iff, map_versionId_of_forall₂ hgrounded.included]
  obtain ⟨honce, hdecided⟩ := hgrounded.decides
  -- a version is included or excluded, and not both
  have heither : ∀ source, hasVersionOf (deterministicCompact sources) source →
      (source.versionId ∉ (outputItems output).flatMap versionIdsOf ↔
        source.versionId ∈ (outputExclusions output).map (excludedIdOf P.unicode)) := by
    intro source hselected
    obtain ⟨selected, hin, heq⟩ := List.mem_map.mp (hasVersionOf_iff.mp hselected)
    have hcount := honce selected hin
    rw [heq, List.count_append] at hcount
    rw [← List.count_pos_iff, ← List.count_pos_iff]
    omega
  constructor
  · intro hrecords
    have hnames := fun source hsource => (hpublished.records_iff h.owned h.new).symm.trans
      (hrecords.recorded_iff source hsource)
    refine ⟨fun source hsource => ?_, fun source hsource hin => ?_, fun source hsource hout hin => ?_⟩
    · have hid : source.versionId ∈ (outputItems output).flatMap versionIdsOf ++
          (outputExclusions output).map (excludedIdOf P.unicode) := by
        by_cases hrecorded : t.Records version.blockVersionUuid source
        · exact List.mem_append_left _
            ((hnamed source).mp ((hpublished.records_iff h.owned h.new).mp hrecorded))
        · exact List.mem_append_right _ ((hrecords.omitted_iff source hsource).mp hrecorded)
      obtain ⟨selected, hin, heq⟩ := hdecided _ hid
      exact hasVersionOf_iff.mpr (heq ▸ List.mem_map_of_mem hin)
    · exact (hnames source hsource).mp ((hnamed source).mpr hin)
    · exact (hrecords.omitted_iff source hsource).mpr hout
        ((hrecords.recorded_iff source hsource).mpr hin)
  · rintro ⟨hselected, hincluded, hexcluded⟩
    refine recordsRendered_of hpublished h.owned h.new (hvalue ▸ hgrounded.withinLimit)
      (fun source hsource => mem_deterministicCompact (hmem source hsource))
      (fun source hsource => ?_) fun source hsource => ?_
    · rw [hnamed source]
      refine ⟨hincluded source hsource, fun hrendered => ?_⟩
      by_contra hout
      exact hexcluded source hsource ((heither source (hselected source hsource)).mp hout) hrendered
    · rw [hnamed source]
      exact heither source (hselected source hsource)

/-- **Recorded sources.** A build records the sources that it renders exactly when it renders all
that it records. -/
theorem recordsRendered_iff (P : BlockPlatform) (s t : BlockStore) (request : BuildRequest)
    (block : BlockRow) (output : Option IJson) (version : BlockVersionRow)
    (h : Publishes P s request block output version t) :
    let sources := s.selectCanonicalSources P.unicode block
    let items := s.sessionHotCacheItems block
    RecordsRendered P sources (renderedEntries P.unicode block sources items output)
        (omittedVersions P.unicode block sources items output) block version t ↔
      RendersRecorded P.unicode block sources output := by
  cases output with
  | none => exact recordsRendered_rendered_iff h
  | some output => exact recordsRendered_proposed_iff h

end

/-! ### A source that does not fit -/

/-- A block of the project that is full after its first source. -/
def shortBlock : BlockRow := { foodBlock with charLimit := 40 }

/-- The store with this block. -/
def shortStore : BlockStore := { foodStore with blocks := ⟨[shortBlock], by decide⟩ }

/-- The build of the block. -/
def buildShort : BuildRequest where
  blockUuid := "b1"
  runUuid := "r1"
  versionUuid := "w1"

/-- The store after the build. -/
def builtStore : BlockStore :=
  (Prog.eval (BlockStore.respond basicLatin) shortStore (buildBlock constantPlatform buildShort)).2.2

/-- The version that it publishes. -/
def shortVersion : BlockVersionRow :=
  buildShort.version shortBlock "h" "ProjectContextBlock: Food\n- no nuts".toList 1

lemma publishes_short :
    Publishes constantPlatform shortStore buildShort shortBlock none shortVersion builtStore where
  read := rfl
  owned := fun _ h => absurd h List.not_mem_nil
  proposed := rfl
  new := rfl
  built := by
    have hok : (Prog.eval (BlockStore.respond basicLatin) shortStore
        (buildBlock constantPlatform buildShort)).2.1.toOption =
          some (shortVersion.result "b1") := by decide
    cases houtcome : (Prog.eval (BlockStore.respond basicLatin) shortStore
        (buildBlock constantPlatform buildShort)).2.1 with
    | error error =>
        rw [houtcome] at hok
        cases hok
    | ok result => exact ⟨result, Prod.ext houtcome rfl⟩
  version := by decide

theorem recordsRendered_iff_short :
    RecordsRendered constantPlatform (shortStore.selectCanonicalSources basicLatin shortBlock)
        (renderedEntries basicLatin shortBlock
          (shortStore.selectCanonicalSources basicLatin shortBlock) [] none)
        (omittedVersions basicLatin shortBlock
          (shortStore.selectCanonicalSources basicLatin shortBlock) [] none)
        shortBlock shortVersion builtStore ↔
      RendersRecorded basicLatin shortBlock
        (shortStore.selectCanonicalSources basicLatin shortBlock) none :=
  recordsRendered_iff constantPlatform shortStore builtStore buildShort shortBlock none shortVersion
    publishes_short

/-- The source that does not fit is recorded, and covered. -/
theorem recorded_not_rendered : ¬∀ (P : BlockPlatform) (s t : BlockStore) (request : BuildRequest)
    (block : BlockRow) (output : Option IJson) (version : BlockVersionRow),
      Publishes P s request block output version t →
        RecordsRendered P (s.selectCanonicalSources P.unicode block)
          (renderedEntries P.unicode block (s.selectCanonicalSources P.unicode block)
            (s.sessionHotCacheItems block) output)
          (omittedVersions P.unicode block (s.selectCanonicalSources P.unicode block)
            (s.sessionHotCacheItems block) output) block version t := by
  intro h
  have hrecords := h constantPlatform shortStore builtStore buildShort shortBlock none shortVersion
    publishes_short
  let source := shortStore.sourceFromRow (foodMemory "b" "fact") (foodVersion "b" "likes tea")
  have hsource : source ∈ shortStore.selectCanonicalSources basicLatin shortBlock := by
    decide +kernel
  have hrecorded : builtStore.Records "w1" source :=
    ⟨⟨"w1", "b", "bv1", "context_item", "eligible_current_source"⟩, by decide, rfl, rfl⟩
  have hrendered := (hrecords.recorded_iff source hsource).mp hrecorded
  exact absurd hrendered (by decide)

end Memorist
