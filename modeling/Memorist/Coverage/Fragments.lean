import Memorist.Library.Runs
import Memorist.Coverage.Completeness
import Memorist.Coverage.TextUnits

/-!
Fragments over several semantic runs of one message.

* `SemanticStep`: one run adds the fragments of an accepted answer to the text units;
* `TextUnitTable`: what every run keeps of the table (`textUnitTable_of_runs`);
* `semanticRun_eq`: what a run adds and what it loads;
* `authorities_exact_iff`: an accepted unit has exactly one authority unless it lies in
  an earlier fragment and in a second text unit.
-/

namespace Memorist

open Correspond (Corresponds)

/-- An answer that the binding check accepts for the message. -/
def AcceptedFor (P : Platform) (scope : CurrentContextScope)
    (semanticOutput : SemanticAnalysisV1Output) : Prop :=
  ∃ semanticInput report, validateSemanticBinding P semanticInput semanticOutput = .ok report ∧
    semanticInput.currentMessageUuid = scope.messageUuid ∧
    semanticInput.currentRawText = scope.rawText

/-- The units of a segmenter: ranges of the message that do not overlap, under distinct names. -/
structure Segmented (scope : CurrentContextScope) (base : List TextUnitRow) : Prop where
  disjoint : base.Pairwise fun r s => ¬r.span.Overlaps s.span
  lt : ∀ r ∈ base, r.startChar < r.endChar
  text : ∀ r ∈ base, r.text = slice scope.rawText r.startChar r.endChar
  nodup : (base.map TextUnitRow.textUnitUuid).Nodup
  named : ∀ r ∈ base, r.textUnitUuid ≠ ""

/-- The names of fragments do not collide: within the message, and with those of its units. -/
structure FragmentNames (P : Platform) (scope : CurrentContextScope) (base : List TextUnitRow) :
    Prop where
  inj : ∀ s t : Span, s.stop ≤ scope.rawText.length → t.stop ≤ scope.rawText.length →
    fragmentUuid P scope s = fragmentUuid P scope t → s = t
  fresh : ∀ r ∈ base, ∀ s, r.textUnitUuid ≠ fragmentUuid P scope s
  named : ∀ s, fragmentUuid P scope s ≠ ""

/-- A semantic run with an accepted answer leads from one table of text units to the next. -/
def SemanticStep (P : Platform) (scope : CurrentContextScope) (units : List TextUnitRow)
    (semanticOutput : SemanticAnalysisV1Output) (units' : List TextUnitRow) : Prop :=
  AcceptedFor P scope semanticOutput ∧ ∃ store signals authorities,
    semanticRun P store scope signals semanticOutput units = .ok (units', authorities)

/-- The table of a message: the units of the segmenter and fragments of the message, under
distinct names. -/
structure TextUnitTable (P : Platform) (scope : CurrentContextScope)
    (base units : List TextUnitRow) : Prop where
  base_subset : base ⊆ units
  fragment : ∀ r ∈ units, r ∉ base → ∃ index span, span.start < span.stop ∧
    span.stop ≤ scope.rawText.length ∧ r = fragmentRow P scope index span
  nodup : (units.map TextUnitRow.textUnitUuid).Nodup

/-- The semantic units that no text unit contains. -/
def uncontained (units : List TextUnitRow) (semanticOutput : SemanticAnalysisV1Output) :
    List SemanticUnit :=
  semanticOutput.semanticUnits.filter fun unit => !units.any fun row => row.span.Contains unit.span

/-- The fragments that a run adds. -/
def newFragments (P : Platform) (scope : CurrentContextScope) (units : List TextUnitRow)
    (semanticOutput : SemanticAnalysisV1Output) : List TextUnitRow :=
  fragmentRows P scope (startIndex units) (uncontained units semanticOutput)

section

variable {P : Platform} {scope : CurrentContextScope} {base units units' : List TextUnitRow}
  {semanticOutput : SemanticAnalysisV1Output} {store : Store}
  {signals : String → List SignalRow} {authorities : List PersistedUnitAuthority}

/-! ### What a run keeps -/

lemma textUnitTable_base (hbase : Segmented scope base) : TextUnitTable P scope base base :=
  ⟨List.Subset.refl _, fun _ hr hnot => absurd hr hnot, hbase.nodup⟩

lemma AcceptedFor.facts (h : AcceptedFor P scope semanticOutput) :
    ∃ report, EvidenceFacts scope.rawText semanticOutput report := by
  obtain ⟨semanticInput, report, hreport, -, hraw⟩ := h
  exact ⟨report, hraw ▸ (validateSemanticBinding_facts hreport).evidence⟩

/-- Units of an accepted answer share no position. -/
lemma AcceptedFor.eq_of_overlaps (h : AcceptedFor P scope semanticOutput) {u v : SemanticUnit}
    (hu : u ∈ semanticOutput.semanticUnits) (hv : v ∈ semanticOutput.semanticUnits)
    (hover : u.span.Overlaps v.span) : u = v := by
  obtain ⟨report, facts⟩ := h.facts
  by_contra hne
  have : Std.Symm fun u v : SemanticUnit => ¬v.span.Overlaps u.span :=
    ⟨fun _ _ hab hba => hab hba.symm⟩
  exact facts.disjoint.forall hu hv hne hover.symm

namespace TextUnitTable

lemma lt (h : TextUnitTable P scope base units) (hbase : Segmented scope base) :
    ∀ r ∈ units, r.startChar < r.endChar := by
  intro r hr
  by_cases hmem : r ∈ base
  · exact hbase.lt r hmem
  · obtain ⟨index, span, hlt, -, rfl⟩ := h.fragment r hr hmem
    exact hlt

lemma named (h : TextUnitTable P scope base units) (hbase : Segmented scope base)
    (hnames : FragmentNames P scope base) : ∀ r ∈ units, r.textUnitUuid ≠ "" := by
  intro r hr
  by_cases hmem : r ∈ base
  · exact hbase.named r hmem
  · obtain ⟨index, span, -, -, rfl⟩ := h.fragment r hr hmem
    exact hnames.named span

/-- The text of every unit of the table is its slice of the message. -/
lemma text (h : TextUnitTable P scope base units) (hbase : Segmented scope base) :
    ∀ r ∈ units, r.text = slice scope.rawText r.startChar r.endChar := by
  intro r hr
  by_cases hmem : r ∈ base
  · exact hbase.text r hmem
  · obtain ⟨index, span, -, -, rfl⟩ := h.fragment r hr hmem
    rfl

/-- A new fragment has a name that the table does not have. -/
lemma fresh (h : TextUnitTable P scope base units) (hnames : FragmentNames P scope base)
    {span : Span} (hspan : span.stop ≤ scope.rawText.length)
    (hnone : ∀ r ∈ units, ¬r.span.Contains span) :
    ∀ r ∈ units, r.textUnitUuid ≠ fragmentUuid P scope span := by
  intro r hr huuid
  by_cases hmem : r ∈ base
  · exact hnames.fresh r hmem span huuid
  · obtain ⟨index, s, -, hs, rfl⟩ := h.fragment r hr hmem
    obtain rfl := hnames.inj s span hs hspan huuid
    exact hnone _ hr ⟨le_rfl, le_rfl⟩

end TextUnitTable

lemma mem_uncontained {u : SemanticUnit} : u ∈ uncontained units semanticOutput ↔
    u ∈ semanticOutput.semanticUnits ∧ ∀ r ∈ units, ¬r.span.Contains u.span := by
  simp [uncontained]

lemma nodup_newFragments (units : List TextUnitRow) (hnames : FragmentNames P scope base)
    (haccepted : AcceptedFor P scope semanticOutput) :
    ((newFragments P scope units semanticOutput).map TextUnitRow.textUnitUuid).Nodup := by
  obtain ⟨report, facts⟩ := haccepted.facts
  have hmap : (newFragments P scope units semanticOutput).map TextUnitRow.textUnitUuid =
      (uncontained units semanticOutput).map fun u => fragmentUuid P scope u.span := by
    have : (fragmentUuid P scope ∘ TextUnitRow.span) ∘
        (fun p : SemanticUnit × ℕ => fragmentRow P scope p.2 p.1.span) =
          TextUnitRow.textUnitUuid ∘ fun p => fragmentRow P scope p.2 p.1.span := rfl
    have hspans := congrArg (List.map (fragmentUuid P scope))
      (map_span_fragmentRows P scope (startIndex units) (uncontained units semanticOutput))
    rw [List.map_map, List.map_map, fragmentRows, List.map_map, this, ← List.map_map] at hspans
    exact hspans
  rw [hmap]
  have hnodup : (uncontained units semanticOutput).Nodup :=
    (List.Nodup.of_map _ facts.nodup).filter _
  refine hnodup.map_on fun u hu v hv huv => ?_
  have hu := (mem_uncontained.mp hu).1
  have hv := (mem_uncontained.mp hv).1
  have hspan := hnames.inj u.span v.span (facts.le_length u hu) (facts.le_length v hv) huv
  refine haccepted.eq_of_overlaps hu hv ?_
  rw [hspan]
  exact ⟨facts.lt v hv, facts.lt v hv⟩

/-- A run on the table of a message adds the fragments of the uncontained units and loads one
authority a text unit. -/
theorem semanticRun_eq (hbase : Segmented scope base) (hnames : FragmentNames P scope base)
    (htable : TextUnitTable P scope base units) (haccepted : AcceptedFor P scope semanticOutput)
    (store : Store) (signals : String → List SignalRow) :
    TextUnitTable P scope base (units ++ newFragments P scope units semanticOutput) ∧
      ∃ authorities, semanticRun P store scope signals semanticOutput units =
          .ok (units ++ newFragments P scope units semanticOutput, authorities) ∧
        Corresponds (fun unit a => authorityOfUnit P.unicode signals unit = .ok a)
          (units ++ newFragments P scope units semanticOutput) authorities := by
  obtain ⟨report, facts⟩ := haccepted.facts
  have hnew : ∀ new ∈ newFragments P scope units semanticOutput, ∃ u ∈ semanticOutput.semanticUnits,
      (∀ r ∈ units, ¬r.span.Contains u.span) ∧
        ∃ index, startIndex units ≤ index ∧ new = fragmentRow P scope index u.span := by
    intro new hnew
    obtain ⟨u, hu, index, hindex, rfl⟩ := mem_fragmentRows hnew
    obtain ⟨hu, hnone⟩ := mem_uncontained.mp hu
    exact ⟨u, hu, hnone, index, hindex, rfl⟩
  have hfresh : ∀ new ∈ newFragments P scope units semanticOutput, ∀ r ∈ units,
      r.textUnitUuid ≠ new.textUnitUuid := by
    intro new hmem
    obtain ⟨u, hu, hnone, index, -, rfl⟩ := hnew new hmem
    exact htable.fresh hnames (facts.le_length u hu) hnone
  have hnodup := nodup_newFragments units hnames haccepted
  have htable' : TextUnitTable P scope base (units ++ newFragments P scope units semanticOutput) := by
    refine ⟨List.subset_append_of_subset_left _ htable.base_subset, fun r hr hmem => ?_, ?_⟩
    · rcases List.mem_append.mp hr with hr | hr
      · exact htable.fragment r hr hmem
      · obtain ⟨u, hu, -, index, -, rfl⟩ := hnew r hr
        exact ⟨index, u.span, facts.lt u hu, facts.le_length u hu, rfl⟩
    · rw [List.map_append, List.nodup_append]
      refine ⟨htable.nodup, hnodup, ?_⟩
      intro a ha b hb
      obtain ⟨r, hr, rfl⟩ := List.mem_map.mp ha
      obtain ⟨new, hnew, rfl⟩ := List.mem_map.mp hb
      exact hfresh new hnew r hr
  obtain ⟨before, hbefore⟩ := exists_authorities P.unicode signals htable.nodup
    (htable.lt hbase) (htable.named hbase hnames)
  obtain ⟨after, hafter⟩ := exists_authorities P.unicode signals htable'.nodup
    (htable'.lt hbase) (htable'.named hbase hnames)
  have hmissing : missingUnits semanticOutput before = uncontained units semanticOutput := by
    refine List.filter_congr fun u _ => congrArg not (Eq.symm ?_)
    refine (load_corresponds htable.nodup hbefore).any_eq fun row a ha => ?_
    rw [(authorityOfUnit_facts ha).span]
  have hinsert : insertMissingSemanticTextUnits P store scope semanticOutput before units =
      .ok (units ++ newFragments P scope units semanticOutput) := by
    rw [insertMissingSemanticTextUnits, hmissing]
    refine foldlM_insertTextUnit hfresh (fun new hmem r hr => ?_) hnodup
      (pairwise_unitIndex_fragmentRows _ _)
    obtain ⟨u, -, -, index, hindex, rfl⟩ := hnew new hmem
    exact (lt_startIndex hr).trans_le hindex
  refine ⟨htable', after, ?_, load_corresponds htable'.nodup hafter⟩
  simp only [semanticRun, ensureSemanticSpanAuthorities, hbefore, hinsert, hafter, Checks.ok_bind,
    pure, Except.pure]

/-- The table of a message stays one over any number of runs. -/
theorem textUnitTable_of_runs (hbase : Segmented scope base) (hnames : FragmentNames P scope base)
    {earlier : List SemanticAnalysisV1Output}
    (hruns : Runs (SemanticStep P scope) base earlier units) : TextUnitTable P scope base units := by
  refine hruns.invariant (I := TextUnitTable P scope base) ?_ (textUnitTable_base hbase)
  rintro units output units' htable ⟨haccepted, store, signals, authorities, hrun⟩
  obtain ⟨htable', after, hafter, -⟩ := semanticRun_eq hbase hnames htable haccepted store signals
  rw [hafter, Except.ok.injEq, Prod.mk.injEq] at hrun
  rwa [hrun.1] at htable'

/-! ### How many authorities a unit has -/

/-- The text units of a table that contain a semantic unit. -/
def holders (units : List TextUnitRow) (unit : SemanticUnit) : List TextUnitRow :=
  units.filter fun row => row.span.Contains unit.span

lemma mem_holders {unit : SemanticUnit} {row : TextUnitRow} :
    row ∈ holders units unit ↔ row ∈ units ∧ row.span.Contains unit.span := by
  simp [holders]

/-- The only new fragment that may contain a unit of the answer is its own. -/
lemma holders_newFragments (haccepted : AcceptedFor P scope semanticOutput) {u : SemanticUnit}
    (hu : u ∈ semanticOutput.semanticUnits) :
    (holders (newFragments P scope units semanticOutput) u).map TextUnitRow.span =
      if holders units u = [] then [u.span] else [] := by
  obtain ⟨report, facts⟩ := haccepted.facts
  have hspans : (holders (newFragments P scope units semanticOutput) u).map TextUnitRow.span =
      ((uncontained units semanticOutput).filter (· = u)).map SemanticUnit.span := by
    have hmap := congrArg (List.filter fun span => span.Contains u.span)
      (map_span_fragmentRows P scope (startIndex units) (uncontained units semanticOutput))
    rw [List.filter_map, List.filter_map] at hmap
    refine hmap.trans (congrArg _ (List.filter_congr fun v hv => decide_eq_decide.mpr ?_))
    constructor
    · intro hcontains
      exact haccepted.eq_of_overlaps (mem_uncontained.mp hv).1 hu
        (hcontains.overlaps (facts.lt u hu))
    · rintro rfl
      exact ⟨le_rfl, le_rfl⟩
  have hnodup : (uncontained units semanticOutput).Nodup :=
    (List.Nodup.of_map _ facts.nodup).filter _
  rw [hspans, List.filter_eq]
  split_ifs with hnone
  · have hmem : u ∈ uncontained units semanticOutput :=
      mem_uncontained.mpr ⟨hu, fun r hr hcontains =>
        List.ne_nil_of_mem (mem_holders.mpr ⟨hr, hcontains⟩) hnone⟩
    rw [List.count_eq_one_of_mem hnodup hmem]
    rfl
  · have hmem : u ∉ uncontained units semanticOutput := by
      intro hmem
      obtain ⟨row, hrow⟩ := List.exists_mem_of_ne_nil _ hnone
      obtain ⟨hrow, hcontains⟩ := mem_holders.mp hrow
      exact (mem_uncontained.mp hmem).2 row hrow hcontains
    rw [List.count_eq_zero.mpr hmem]
    rfl

/-- After a run a unit has as many authorities as text units held it, and one if none did. -/
lemma length_containing_run (haccepted : AcceptedFor P scope semanticOutput)
    (hloaded : Corresponds (fun unit a => authorityOfUnit P.unicode signals unit = .ok a)
      (units ++ newFragments P scope units semanticOutput) authorities) {u : SemanticUnit}
    (hu : u ∈ semanticOutput.semanticUnits) :
    ((AuthorityIndex.ofAuthorities authorities).containing u.rawStart u.rawEnd).length =
      max 1 (holders units u).length := by
  obtain ⟨report, facts⟩ := haccepted.facts
  have hcount : (holders (units ++ newFragments P scope units semanticOutput) u).length =
      (authorities.filter fun a => a.span.Contains ⟨u.rawStart, u.rawEnd⟩).length := by
    refine (hloaded.filter fun row _ a ha => ?_).length_eq
    rw [(authorityOfUnit_facts ha).span]
    rfl
  have hnew : (holders (newFragments P scope units semanticOutput) u).length =
      if holders units u = [] then 1 else 0 := by
    rw [← List.length_map TextUnitRow.span, holders_newFragments haccepted hu]
    split_ifs <;> rfl
  rw [length_containing authorities (facts.lt u hu), ← hcount, holders, List.filter_append,
    List.length_append, ← holders, ← holders, hnew]
  split_ifs with hnone
  · simp [hnone]
  · have := List.length_pos_iff.mpr hnone
    omega

/-- At most one text unit holds a unit when no second one holds it beside a fragment. -/
lemma length_holders_le_one (hbase : Segmented scope base)
    (htable : TextUnitTable P scope base units) {u : SemanticUnit} (hlt : u.rawStart < u.rawEnd) :
    (holders units u).length ≤ 1 ↔
      ∀ fragment ∈ units, fragment ∉ base → fragment.span.Contains u.span →
        ∀ row ∈ units, row.span.Contains u.span → row = fragment := by
  constructor
  · intro hle fragment hfragment _ hcontains row hrow hcontains'
    have hf := mem_holders.mpr ⟨hfragment, hcontains⟩
    have hr := mem_holders.mpr ⟨hrow, hcontains'⟩
    obtain ⟨only, honly⟩ := List.length_eq_one_iff.mp
      (le_antisymm hle (List.length_pos_of_mem hf))
    rw [honly, List.mem_singleton] at hf hr
    rw [hf, hr]
  · intro hone
    have hall : ∀ r ∈ holders units u, ∀ s ∈ holders units u, r = s := by
      intro r hr s hs
      obtain ⟨hr, hrc⟩ := mem_holders.mp hr
      obtain ⟨hs, hsc⟩ := mem_holders.mp hs
      by_cases hrb : r ∈ base
      · by_cases hsb : s ∈ base
        · -- two units of the segmenter would overlap in the unit
          by_contra hne
          have : Std.Symm fun r s : TextUnitRow => ¬r.span.Overlaps s.span :=
            ⟨fun _ _ hab hba => hab hba.symm⟩
          exact hbase.disjoint.forall hrb hsb hne
            (hrc.overlaps_of_overlaps (hsc.overlaps hlt).symm)
        · exact hone s hs hsb hsc r hr hrc
      · exact (hone r hr hrb hrc s hs hsc).symm
    have hnodup : (holders units u).Nodup := (List.Nodup.of_map _ htable.nodup).filter _
    match hholders : holders units u with
    | [] => exact Nat.zero_le _
    | [_] => exact le_rfl
    | r :: s :: rest =>
        rw [hholders] at hall hnodup
        have hrs := hall r (by simp) s (by simp)
        exact absurd hnodup (by simp [hrs])

/-- However many runs came before, each accepted unit has exactly one authority after the next run
exactly when none lies in an earlier fragment and in a second text unit. -/
theorem authorities_exact_iff (hbase : Segmented scope base) (hnames : FragmentNames P scope base)
    {earlier : List SemanticAnalysisV1Output}
    (hruns : Runs (SemanticStep P scope) base earlier units)
    (haccepted : AcceptedFor P scope semanticOutput) (store : Store)
    (signals : String → List SignalRow) :
    ∃ units' authorities,
      semanticRun P store scope signals semanticOutput units = .ok (units', authorities) ∧
      ((∀ u ∈ semanticOutput.semanticUnits, (holders base u).length ≤ 1 →
          ((AuthorityIndex.ofAuthorities authorities).containing u.rawStart u.rawEnd).length = 1) ↔
        ∀ u ∈ semanticOutput.semanticUnits, ∀ fragment ∈ units, fragment ∉ base →
          fragment.span.Contains u.span → ∀ row ∈ units, row.span.Contains u.span →
            row = fragment) := by
  obtain ⟨report, facts⟩ := haccepted.facts
  have htable := textUnitTable_of_runs hbase hnames hruns
  obtain ⟨-, authorities, hrun, hloaded⟩ :=
    semanticRun_eq hbase hnames htable haccepted store signals
  refine ⟨_, authorities, hrun, forall₂_congr fun u hu => ?_⟩
  have hbase_le : (holders base u).length ≤ 1 :=
    (length_holders_le_one (P := P) hbase (textUnitTable_base hbase) (facts.lt u hu)).mpr
      fun fragment hfragment hnot => absurd hfragment hnot
  rw [← length_holders_le_one hbase htable (facts.lt u hu),
    length_containing_run haccepted hloaded hu]
  constructor
  · intro h
    have := h hbase_le
    omega
  · intro h _
    omega

/-- A unit in two authorities waits for a review. -/
lemma decideUnit_of_several {U : UnicodeData} {value : CoveragePlannerInput} {unit : SemanticUnit}
    {containing : List PersistedUnitAuthority} (h : 1 < containing.length) :
    (decideUnit U value unit containing).disposition = .needsReview ∧
      "cross_authority_span" ∈ (decideUnit U value unit containing).reasons := by
  have hauthority : unitAuthority U value unit containing = none := by
    match containing with
    | [] => rfl
    | [_] => exact absurd h (by simp)
    | _ :: _ :: _ => rfl
  simp [decideUnit, hauthority, dispositionForUnit, authorityNeedsReview, authorityReasons, h]

/-- Names that keep what they name do not collide. -/
lemma FragmentNames.of_injective (hinj : Function.Injective (P.uuid5 semanticTextUnitNamespace))
    (hnamed : ∀ name, P.uuid5 semanticTextUnitNamespace name ≠ "")
    (hfresh : ∀ r ∈ base, ∀ name, r.textUnitUuid ≠ P.uuid5 semanticTextUnitNamespace name) :
    FragmentNames P scope base :=
  ⟨fun _ _ _ _ h => fragmentIdentity_injective (hinj h), fun r hr _ => hfresh r hr _,
    fun _ => hnamed _⟩

end

/-! ### A fragment across two sentences -/

/-- The Latin platform under names that keep what they name. -/
def namingPlatform : Platform := { latinPlatform with uuid5 := fun space name => space ++ name }

lemma namingPlatform_uuid5_toList (space name : String) :
    (namingPlatform.uuid5 space name).toList = space.toList ++ name.toList := String.toList_append

lemma namingPlatform_names {scope : CurrentContextScope} {base : List TextUnitRow}
    (hfresh : ∀ r ∈ base, r.textUnitUuid.length < semanticTextUnitNamespace.length) :
    FragmentNames namingPlatform scope base := by
  refine .of_injective (fun a b h => ?_) (fun name h => ?_) fun r hr name h => ?_
  · have := congrArg String.toList h
    rw [namingPlatform_uuid5_toList, namingPlatform_uuid5_toList,
      List.append_cancel_left_eq] at this
    exact String.toList_inj.mp this
  · have := congrArg String.toList h
    rw [namingPlatform_uuid5_toList, String.toList_empty] at this
    exact absurd (List.append_eq_nil_iff.mp this).1 (by decide)
  · have hlt := hfresh r hr
    have := congrArg (fun s => s.toList.length) h
    rw [namingPlatform_uuid5_toList, List.length_append] at this
    simp only [String.length_toList] at this
    omega

/-- Two sentences. -/
def twoScope : CurrentContextScope := ⟨"m1", "A b. C d.".toList⟩

/-- Their text units. -/
def twoSentences : List TextUnitRow :=
  [⟨"t1", 0, .sentence, "A b.".toList, 0, 4⟩, ⟨"t2", 1, .sentence, "C d.".toList, 5, 9⟩]

lemma twoSentences_segmented : Segmented twoScope twoSentences :=
  ⟨by decide, by decide, by decide, by decide, by decide⟩

lemma twoSentences_names : FragmentNames namingPlatform twoScope twoSentences :=
  namingPlatform_names (by decide)

/-- A quote across both sentences. -/
def acrossQuote : SemanticAnalysisV1Output := quoteAnalysis twoScope.rawText ⟨2, 6⟩

/-- A quote inside the first sentence. -/
def insideQuote : SemanticAnalysisV1Output := quoteAnalysis twoScope.rawText ⟨2, 4⟩

lemma acceptedFor_quote {span : Span}
    (h : ∃ report, validateSemanticBinding namingPlatform (quoteManifest twoScope.rawText)
      (quoteAnalysis twoScope.rawText span) = .ok report) :
    AcceptedFor namingPlatform twoScope (quoteAnalysis twoScope.rawText span) := by
  obtain ⟨report, hreport⟩ := h
  exact ⟨_, report, hreport, rfl, rfl⟩

lemma across_accepted : AcceptedFor namingPlatform twoScope acrossQuote :=
  acceptedFor_quote (exists_accepted (by decide) (by decide) (by decide)
    (by decide))

lemma inside_accepted : AcceptedFor namingPlatform twoScope insideQuote :=
  acceptedFor_quote (exists_accepted (by decide) (by decide) (by decide)
    (by decide))

/-- The text units after the first quote. -/
def acrossUnits : List TextUnitRow :=
  twoSentences ++ newFragments namingPlatform twoScope twoSentences acrossQuote

lemma across_runs : Runs (SemanticStep namingPlatform twoScope) twoSentences [acrossQuote]
    acrossUnits := by
  obtain ⟨-, authorities, hrun, -⟩ := semanticRun_eq twoSentences_segmented twoSentences_names
    (textUnitTable_base twoSentences_segmented) across_accepted .sqlite fun _ => []
  exact Runs.refl.tail ⟨across_accepted, .sqlite, _, authorities, hrun⟩

/-- The fragment of the first quote turns the second, which one sentence holds, into an item across
authorities. -/
theorem fragment_splits_authority : ∃ units units' authorities,
    Runs (SemanticStep namingPlatform twoScope) twoSentences [acrossQuote] units ∧
      AcceptedFor namingPlatform twoScope insideQuote ∧
      semanticRun namingPlatform .sqlite twoScope (fun _ => []) insideQuote units =
        .ok (units', authorities) ∧
      ∃ u ∈ insideQuote.semanticUnits, (holders twoSentences u).length = 1 ∧
        ((AuthorityIndex.ofAuthorities authorities).containing u.rawStart u.rawEnd).length = 2 ∧
        ∀ value, (decideUnit basicLatin value u
          ((AuthorityIndex.ofAuthorities authorities).containing u.rawStart u.rawEnd)).disposition
            = .needsReview := by
  have htable := textUnitTable_of_runs twoSentences_segmented twoSentences_names across_runs
  obtain ⟨-, authorities, hrun, hloaded⟩ := semanticRun_eq twoSentences_segmented
    twoSentences_names htable inside_accepted .sqlite fun _ => []
  refine ⟨acrossUnits, _, authorities, across_runs, inside_accepted, hrun, ?_⟩
  have htwo : ∀ u ∈ insideQuote.semanticUnits, (holders twoSentences u).length = 1 ∧
      (holders acrossUnits u).length = 2 := by decide
  obtain ⟨u, hu⟩ : ∃ u, u ∈ insideQuote.semanticUnits := ⟨_, List.mem_cons_self⟩
  have hlength := length_containing_run inside_accepted hloaded hu
  rw [(htwo u hu).2] at hlength
  exact ⟨u, hu, (htwo u hu).1, hlength, fun value =>
    (decideUnit_of_several (by rw [hlength]; decide)).1⟩

theorem authorities_exact_across : ∃ units' authorities,
    semanticRun namingPlatform .sqlite twoScope (fun _ => []) acrossQuote twoSentences =
      .ok (units', authorities) ∧
    ∀ u ∈ acrossQuote.semanticUnits,
      ((AuthorityIndex.ofAuthorities authorities).containing u.rawStart u.rawEnd).length = 1 := by
  obtain ⟨units', authorities, hrun, hiff⟩ := authorities_exact_iff twoSentences_segmented
    twoSentences_names .refl across_accepted .sqlite fun _ => []
  refine ⟨units', authorities, hrun, fun u hu => hiff.mpr ?_ u hu ?_⟩
  · exact fun _ _ fragment hfragment hnot => absurd hfragment hnot
  · revert u
    decide

end Memorist
