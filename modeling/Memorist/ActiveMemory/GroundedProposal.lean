import Memorist.ActiveMemory.ConstraintRetention

/-!
What an accepted proposal of a compaction says of its sources.

* `versionIdsOf`, `excludedIdOf`, `declaredConflicts`: what an output names;
* `includeItems_ok`, `excludeSources_ok`: what its items pass;
* `DecidesSources`, `GroundsText`, `DeclaresConflicts`, `OmitsNoConstraint`: what a proposal should
  be (`validateAndRenderProposal_grounded`).
-/

namespace Memorist

section

variable {U : UnicodeData} {block : BlockRow} {sources included excluded all : List BlockSource}
variable {output : IJson} {proposal : ValidatedCompactionProposal}

/-! ### What an output names -/

/-- The texts of a list of strings. -/
def textsOf (value : Option IJson) : List Text :=
  match stringList value with
  | .ok texts => texts
  | .error _ => []

/-- The versions that an item includes. -/
def versionIdsOf (item : IJson) : List Text := textsOf (member? "source_memory_version_uuids" item)

/-- The sources of an item. -/
def itemSources (sources : List BlockSource) (item : IJson) : List BlockSource :=
  (versionIdsOf item).filterMap (sourceOfVersion sources)

/-- The items of an output that exclude sources. -/
def outputExclusions (output : IJson) : List IJson :=
  (itemsOf (member? "excluded_memory_version_uuids" output)).getD []

/-- The version that an item excludes. -/
def excludedIdOf (U : UnicodeData) (item : IJson) : Text := textOf U "memory_version_uuid" item

/-- The conflicts that an output declares, by their versions. -/
def declaredConflicts (output : IJson) : List (List Text) :=
  ((itemsOf (member? "conflicts" output)).getD []).map fun value =>
    textsOf (member? "memory_version_uuids" value)

/-! ### What its items pass -/

lemma textsOf_of_ok {value : Option IJson} {texts : List Text} (h : stringList value = .ok texts) :
    textsOf value = texts := by
  rw [textsOf, h]

lemma sourceOfVersion_versionId {versionUuid : Text} {source : BlockSource}
    (h : sourceOfVersion sources versionUuid = some source) : source.versionId = versionUuid :=
  of_decide_eq_true (List.mem_filter.mp (List.mem_of_getLast? h)).2

/-- Every claim of a text is the text of a source, but for spaces and a leading dash. -/
def GroundsText (U : UnicodeData) (text : Text) (sources : List BlockSource) : Prop :=
  ∀ line ∈ splitLines text, U.strip line ≠ [] → ∃ source ∈ sources,
    collapseSpaces U (U.strip (if line.head? = some '-' then line.tail else line)) =
      collapseSpaces U source.normalizedText

lemma groundsText_of_require {text : Text} {u : Unit}
    (h : requireGroundedText U text sources = .ok u) : GroundsText U text sources := by
  obtain ⟨-, hclaims⟩ := requireValue_eq_ok.mp h
  intro line hline hne
  have hmem := hclaims _ (List.mem_map.mpr ⟨line, List.mem_filter.mpr ⟨hline, by simpa using hne⟩, rfl⟩)
  obtain ⟨source, hsource, heq⟩ := List.mem_map.mp hmem
  exact ⟨source, hsource, heq.symm⟩

lemma filterMap_of_forall₂ {α β : Type} {f : α → Option β} {xs : List α} {ys : List β}
    (h : List.Forall₂ (fun x y => f x = some y) xs ys) : xs.filterMap f = ys := by
  induction h with
  | nil => rfl
  | cons hxy _ ih => rw [List.filterMap_cons, hxy, ih]

/-- The sources included are those of the versions of the items, each once, and the text of an item
is grounded in its own. -/
lemma includeItems_ok {items : List IJson} (h : includeItems U sources included items = .ok all) :
    ∃ more, all = included ++ more ∧
      List.Forall₂ (fun id source => sourceOfVersion sources id = some source)
        (items.flatMap versionIdsOf) more ∧
      ((included.map BlockSource.versionId).Nodup → (all.map BlockSource.versionId).Nodup) ∧
      ∀ item ∈ items, GroundsText U (itemText U item) (itemSources sources item) := by
  induction items generalizing included with
  | nil =>
      cases h
      exact ⟨[], (List.append_nil _).symm, .nil, id, by simp⟩
  | cons item rest ih =>
      rw [includeItems] at h
      simp only [Checks.bind_eq_ok] at h
      obtain ⟨versionIds, hversions, memoryIds, -, -, -, next, hnext, _, hgrounded, h⟩ := h
      obtain ⟨own, rfl, hown, hownNodup⟩ := includeSources_ok hnext
      obtain ⟨more, rfl, hmore, hmoreNodup, hrest⟩ := ih h
      have hids : versionIdsOf item = versionIds := textsOf_of_ok hversions
      refine ⟨own ++ more, List.append_assoc _ _ _, ?_, fun hold => hmoreNodup (hownNodup hold), ?_⟩
      · rw [List.flatMap_cons, hids]
        exact List.rel_append hown hmore
      · refine List.forall_mem_cons.mpr ⟨?_, hrest⟩
        rw [List.drop_left] at hgrounded
        rw [itemSources, hids, filterMap_of_forall₂ hown]
        exact groundsText_of_require hgrounded

/-- The sources excluded are those of the versions of the items, each once and none included, and
no constraints. -/
lemma excludeSources_ok {items : List IJson}
    (h : excludeSources U sources included excluded items = .ok all) :
    ∃ more, all = excluded ++ more ∧
      List.Forall₂ (fun item source => sourceOfVersion sources (excludedIdOf U item) = some source ∧
        source.memoryType ≠ "constraint") items more ∧
      (((included ++ excluded).map BlockSource.versionId).Nodup →
        ((included ++ all).map BlockSource.versionId).Nodup) := by
  induction items generalizing excluded with
  | nil =>
      cases h
      exact ⟨[], (List.append_nil _).symm, .nil, id⟩
  | cons item rest ih =>
      rw [excludeSources] at h
      cases hfound : sourceOfVersion sources (textOf U "memory_version_uuid" item) with
      | none =>
          rw [hfound] at h
          cases h
      | some found =>
          simp only [hfound, Checks.bind_eq_ok, requireValue_eq_ok] at h
          obtain ⟨-, -, -, hoptional, -, hfresh, h⟩ := h
          obtain ⟨more, rfl, hmore, hnodup⟩ := ih h
          refine ⟨found :: more, by rw [List.append_assoc]; rfl, .cons ⟨hfound, hoptional⟩ hmore,
            fun hold => hnodup ?_⟩
          rw [← List.append_assoc, List.map_append, List.map_singleton, List.nodup_append]
          refine ⟨hold, List.nodup_singleton _, ?_⟩
          rintro id hid _ hid' rfl
          obtain rfl := List.mem_singleton.mp hid'
          exact hfresh (hasVersionOf_iff.mpr hid)

/-! ### What a proposal should be -/

/-- Every version of a source is included by exactly one item or excluded exactly once, and no other
version is named. -/
def DecidesSources (U : UnicodeData) (sources : List BlockSource) (output : IJson) : Prop :=
  let decided := (outputItems output).flatMap versionIdsOf ++
    (outputExclusions output).map (excludedIdOf U)
  (∀ source ∈ sources, decided.count source.versionId = 1) ∧
    ∀ id ∈ decided, ∃ source ∈ sources, source.versionId = id

/-- No source that is excluded is a constraint; the last source of a version stands for it. -/
def OmitsNoConstraint (U : UnicodeData) (sources : List BlockSource) (output : IJson) : Prop :=
  ∀ item ∈ outputExclusions output, ∀ source,
    sourceOfVersion sources (excludedIdOf U item) = some source → source.memoryType ≠ "constraint"

/-- No source whose version is excluded is a constraint. -/
def OmitsNoSourceOfConstraint (U : UnicodeData) (sources : List BlockSource) (output : IJson) : Prop :=
  ∀ item ∈ outputExclusions output, ∀ source ∈ sources,
    source.versionId = excludedIdOf U item → source.memoryType ≠ "constraint"

/-- Sources of one key whose texts differ lie together in a declared conflict, with all of the
key. -/
def DeclaresConflicts (differ : Text → Text → Prop) (included : List BlockSource) (output : IJson) : Prop :=
  ∀ a ∈ included, ∀ b ∈ included, a.canonicalKey = b.canonicalKey →
    differ a.normalizedText b.normalizedText → ∃ declared ∈ declaredConflicts output,
      ∀ source ∈ included, source.canonicalKey = a.canonicalKey → source.versionId ∈ declared

/-- Texts that differ by more than spaces. -/
def DifferBeyondSpaces (U : UnicodeData) (a b : Text) : Prop :=
  collapseSpaces U a ≠ collapseSpaces U b

/-- What an accepted proposal is. -/
structure GroundedProposal (U : UnicodeData) (block : BlockRow) (sources : List BlockSource)
    (output : IJson) (proposal : ValidatedCompactionProposal) : Prop where
  included : List.Forall₂ (fun id source => sourceOfVersion sources id = some source)
    ((outputItems output).flatMap versionIdsOf) proposal.sources
  decides : DecidesSources U sources output
  omitsNoConstraint : OmitsNoConstraint U sources output
  groundsItems : ∀ item ∈ outputItems output,
    GroundsText U (itemText U item) (itemSources sources item)
  groundsSummary : GroundsText U (summaryOf U output) proposal.sources
  declaresConflicts : DeclaresConflicts (DifferBeyondSpaces U) proposal.sources output
  value_eq : proposal.value = joinLines (compactionLines U block output)
  withinLimit : proposal.value.length ≤ block.charLimit
  permitted : ∀ source ∈ sources, source.sensitivityClass ≠ .secret ∧
    source.scopeType = block.scopeType ∧ source.scopeUuid = block.scopeUuid

/-- What is declared as a conflict. -/
lemma declaredConflicts_of_ok {conflicts : List (List Text)}
    (h : ((itemsOf (member? "conflicts" output)).getD []).mapM (validateConflict sources) =
      .ok conflicts) : declaredConflicts output = conflicts := by
  rw [declaredConflicts]
  generalize (itemsOf (member? "conflicts" output)).getD [] = values at h ⊢
  replace h := Checks.mapM_eq_ok.mp h
  induction h with
  | nil => rfl
  | cons hvalue _ ih =>
      simp only [validateConflict, Checks.bind_eq_ok, Checks.pure_eq_ok] at hvalue
      obtain ⟨-, -, ids, hids, -, -, -, -, rfl⟩ := hvalue
      rw [List.map_cons, textsOf_of_ok hids, ih]

/-- The conflicts of the sources included are declared. -/
lemma declaresConflicts_of_require {conflicts : List (List Text)} {u : Unit}
    (hnodup : (included.map BlockSource.versionId).Nodup)
    (h : requireConflictPreservation U included conflicts = .ok u) :
    ∀ a ∈ included, ∀ b ∈ included, a.canonicalKey = b.canonicalKey →
      DifferBeyondSpaces U a.normalizedText b.normalizedText → ∃ declared ∈ conflicts,
        ∀ source ∈ included, source.canonicalKey = a.canonicalKey → source.versionId ∈ declared := by
  intro a ha b hb hkey hdiffer
  have hgroup : ∀ {source}, source ∈ included → source.canonicalKey = a.canonicalKey →
      source ∈ sourcesOfKey included a.canonicalKey := fun hmem hkey =>
    List.mem_filter.mpr ⟨hmem, decide_eq_true hkey⟩
  have htwo : ∀ {xs : List Text} {x y : Text}, x ∈ xs → y ∈ xs → x ≠ y →
      ¬xs.eraseDups.length ≤ 1 := by
    intro xs x y hx hy hne hle
    have hmem : ∀ {z}, z ∈ xs → z ∈ xs.eraseDups := List.mem_eraseDups.mpr
    obtain ⟨z, hz⟩ := List.length_eq_one_iff.mp
      (Nat.le_antisymm hle (List.length_pos_of_mem (hmem hx)))
    have hxz := hmem hx
    have hyz := hmem hy
    rw [hz, List.mem_singleton] at hxz hyz
    exact hne (hxz.trans hyz.symm)
  have hversions : a.versionId ≠ b.versionId := by
    intro heq
    obtain rfl : a = b := List.inj_on_of_nodup_map hnodup ha hb heq
    exact hdiffer rfl
  have hmemKey : a.canonicalKey ∈ keysOf included :=
    List.mem_eraseDups.mpr (List.mem_map_of_mem ha)
  rcases requireValue_eq_ok.mp h a.canonicalKey hmemKey with hone | hone | ⟨declared, hdeclared, hall⟩
  · exact absurd hone (htwo (List.mem_map_of_mem (hgroup ha rfl))
      (List.mem_map_of_mem (hgroup hb hkey.symm)) hversions)
  · exact absurd hone (htwo (List.mem_map_of_mem (hgroup ha rfl))
      (List.mem_map_of_mem (hgroup hb hkey.symm)) hdiffer)
  · refine ⟨declared, hdeclared, fun source hsource hsourceKey => hall _ ?_⟩
    exact List.mem_eraseDups.mpr (List.mem_map_of_mem (hgroup hsource hsourceKey))

/-- Sources that were found by their versions have these. -/
lemma map_versionId_of_forall₂ {ids : List Text}
    (h : List.Forall₂ (fun id source => sourceOfVersion sources id = some source) ids included) :
    included.map BlockSource.versionId = ids := by
  induction h with
  | nil => rfl
  | cons hfirst _ ih => rw [List.map_cons, sourceOfVersion_versionId hfirst, ih]

/-- The versions decided are those of the sources included and excluded. -/
lemma decidesSources_of_ok {included excluded : List BlockSource}
    (hincluded : List.Forall₂ (fun id source => sourceOfVersion sources id = some source)
      ((outputItems output).flatMap versionIdsOf) included)
    (hexcluded : List.Forall₂ (fun item source =>
      sourceOfVersion sources (excludedIdOf U item) = some source ∧ source.memoryType ≠ "constraint")
      (outputExclusions output) excluded)
    (hnodup : ((included ++ excluded).map BlockSource.versionId).Nodup)
    (hall : ∀ source ∈ sources, hasVersionOf (included ++ excluded) source) :
    DecidesSources U sources output := by
  have hincludedIds := map_versionId_of_forall₂ hincluded
  have hexcludedIds : excluded.map BlockSource.versionId =
      (outputExclusions output).map (excludedIdOf U) := by
    generalize outputExclusions output = items at hexcluded
    clear hnodup hall
    induction hexcluded with
    | nil => rfl
    | cons h _ ih => rw [List.map_cons, List.map_cons, sourceOfVersion_versionId h.1, ih]
  rw [DecidesSources, ← hincludedIds, ← hexcludedIds, ← List.map_append]
  refine ⟨fun source hsource => List.count_eq_one_of_mem hnodup
    (hasVersionOf_iff.mp (hall source hsource)), fun id hid => ?_⟩
  obtain ⟨source, hsource, rfl⟩ := List.mem_map.mp hid
  refine ⟨source, ?_, rfl⟩
  rcases List.mem_append.mp hsource with hmem | hmem
  · rw [← filterMap_of_forall₂ hincluded] at hmem
    obtain ⟨id, -, hof⟩ := List.mem_filterMap.mp hmem
    exact mem_of_sourceOfVersion hof
  · have hexcluded' := hexcluded.imp fun _ _ h => h.1
    rw [← filterMap_of_forall₂ hexcluded'] at hmem
    obtain ⟨item, -, hof⟩ := List.mem_filterMap.mp hmem
    exact mem_of_sourceOfVersion hof

/-- An accepted proposal is grounded in its sources, which it decides on. -/
theorem validateAndRenderProposal_grounded
    (h : validateAndRenderProposal U block sources output = .ok proposal) :
    GroundedProposal U block sources output proposal := by
  have hvalue := (validateAndRenderProposal_ok h).1
  simp only [validateAndRenderProposal, Checks.bind_eq_ok, requireValue_eq_ok] at h
  obtain ⟨-, hscope, -, hsecret, included, hincluded, excluded, hexcluded, -, hall, conflicts,
    hconflicts, _, hpreserved, _, hsummary, -, hlimit, h⟩ := h
  obtain ⟨more, heq, hof, hnodup, hitems⟩ := includeItems_ok hincluded
  obtain rfl : included = more := heq
  obtain ⟨out, heq, hout, houtNodup⟩ := excludeSources_ok hexcluded
  obtain rfl : excluded = out := heq
  have hmore : (included.map BlockSource.versionId).Nodup := hnodup List.nodup_nil
  have hboth : ((included ++ excluded).map BlockSource.versionId).Nodup :=
    houtNodup (by rw [List.append_nil]; exact hmore)
  have hsources : proposal.sources = included := by
    cases hdump : dumpIjson U output with
    | error message =>
        rw [hdump] at h
        cases h
    | ok text =>
        rw [hdump] at h
        cases h
        rfl
  exact {
    included := by
      rw [hsources]
      exact hof
    decides := decidesSources_of_ok hof hout hboth hall
    omitsNoConstraint := by
      intro item hitem source hsource
      have hexists : ∀ {items : List IJson} {sources' : List BlockSource},
          List.Forall₂ (fun item source => sourceOfVersion sources (excludedIdOf U item) = some source ∧
            source.memoryType ≠ "constraint") items sources' → ∀ item ∈ items, ∀ source,
              sourceOfVersion sources (excludedIdOf U item) = some source →
                source.memoryType ≠ "constraint" := by
        intro items sources' hall
        induction hall with
        | nil => exact fun _ h => absurd h List.not_mem_nil
        | cons hfirst _ ih =>
            refine List.forall_mem_cons.mpr ⟨fun source hsource => ?_, ih⟩
            rw [← Option.some.inj (hfirst.1.symm.trans hsource)]
            exact hfirst.2
      exact hexists hout item hitem source hsource
    groundsItems := hitems
    groundsSummary := by
      rw [hsources]
      rw [requireGroundedSummary] at hsummary
      split_ifs at hsummary with hempty
      · rw [hempty]
        exact fun line hline => absurd hline List.not_mem_nil
      · exact groundsText_of_require hsummary
    declaresConflicts := by
      rw [hsources, DeclaresConflicts, declaredConflicts_of_ok hconflicts]
      exact declaresConflicts_of_require hmore hpreserved
    value_eq := hvalue
    withinLimit := by
      rw [hvalue]
      exact hlimit
    permitted := fun source hsource => ⟨hsecret source hsource, hscope source hsource⟩ }

end

/-! ### Sources of one key, and of one version -/

/-- A source of a block of the project. -/
def projectSource (uuid memoryType text : String) : BlockSource where
  memoryUuid := uuid
  memoryVersionUuid := uuid ++ "v1"
  canonicalKey := "food".toList
  memoryType := memoryType
  scopeType := "project"
  scopeUuid := some "p1"
  normalizedText := text.toList
  sourceAuthority := "user"
  current := true
  confidence := 1
  sensitivityClass := .normal

/-- An item of an output with the text of one source. -/
def singleItem (uuid text : String) : IJson :=
  .obj [field "text" (jsonString text),
    field "source_memory_uuids" (stringArray [uuid.toList]),
    field "source_memory_version_uuids" (stringArray [(uuid ++ "v1").toList])]

/-- The exclusion of a version. -/
def exclusion (versionUuid : String) : IJson :=
  .obj [field "memory_version_uuid" (jsonString versionUuid),
    field "reason_code" (jsonString "superseded")]

/-- Sources of one key: two that differ, and one that is not used. -/
def teaSources : List BlockSource :=
  [projectSource "a" "fact" "likes tea", projectSource "b" "fact" "likes coffee",
    projectSource "c" "fact" "drank tea"]

/-- An output with a summary, which declares the conflict and excludes the third source. -/
def teaOutput : IJson :=
  .obj [field "summary" (jsonString "likes tea"),
    field "items" (.arr [singleItem "a" "likes tea", singleItem "b" "likes coffee"]),
    field "excluded_memory_version_uuids" (.arr [exclusion "cv1"]),
    field "conflicts" (.arr [.obj [
      field "memory_version_uuids" (stringArray ["av1".toList, "bv1".toList]),
      field "status" (jsonString "unresolved")]])]

theorem validateAndRenderProposal_grounded_tea :
    GroundedProposal basicLatin foodBlock teaSources teaOutput
      ⟨"ProjectContextBlock: Food\n- Summary: likes tea\n- likes tea\n- likes coffee".toList,
        teaSources.take 2⟩ :=
  validateAndRenderProposal_grounded rfl

/-- Two sources of one key, whose texts differ in a space. -/
def spacedSources : List BlockSource :=
  [projectSource "a" "fact" "likes tea", projectSource "b" "fact" "likes  tea"]

/-- An output that includes both, and declares no conflict. -/
def spacedOutput : IJson :=
  .obj [field "items" (.arr [singleItem "a" "likes tea", singleItem "b" "likes tea"])]

/-- A constraint and a fact of one version. -/
def repeatedSources : List BlockSource :=
  [projectSource "a" "constraint" "no nuts", projectSource "a" "fact" "no nuts"]

/-- An output that excludes their version. -/
def excludingOutput : IJson :=
  .obj [field "items" (.arr []), field "excluded_memory_version_uuids" (.arr [exclusion "av1"])]

/-- Texts that differ in a space need no conflict, and a constraint is excluded under the version of
a later source. -/
theorem not_every_conflict_declared :
    (∃ proposal, validateAndRenderProposal basicLatin foodBlock spacedSources spacedOutput =
        .ok proposal ∧ ¬DeclaresConflicts (· ≠ ·) proposal.sources spacedOutput) ∧
      ∃ proposal, validateAndRenderProposal basicLatin foodBlock repeatedSources excludingOutput =
        .ok proposal ∧ ¬OmitsNoSourceOfConstraint basicLatin repeatedSources excludingOutput := by
  constructor
  · refine ⟨⟨_, spacedSources⟩, rfl, fun h => ?_⟩
    obtain ⟨declared, hdeclared, -⟩ := h _ List.mem_cons_self _
      (List.mem_cons_of_mem _ List.mem_cons_self) rfl (by decide)
    exact absurd hdeclared List.not_mem_nil
  · refine ⟨⟨_, []⟩, rfl, fun h => ?_⟩
    exact h _ List.mem_cons_self _ List.mem_cons_self (by decide) rfl

end Memorist
