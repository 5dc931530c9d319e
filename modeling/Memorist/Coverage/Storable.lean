import Memorist.Coverage.Persisted
import Memorist.Coverage.Planable

/-!
A plan can be stored.

* `CoverageItemRow.Apart`, `foldlM_insertItem_of_apart`: rows without a unique column in common are
  inserted;
* `PlanParts.item_bounds`, `Plannable.items_apart`: the items of a plan have ranges, and no unique
  column in common;
* `Plannable.exists_stored`: **the plan of an accepted answer is stored in empty tables.**
-/

namespace Memorist

open Checks (require)

/-! ### Rows apart -/

/-- Two items without a unique column in common. -/
structure CoverageItemRow.Apart (row other : CoverageItemRow) : Prop where
  ids : row.coverageItemUuid ≠ other.coverageItemUuid
  proposals : ∀ id, row.proposalUuid = some id → other.proposalUuid ≠ some id
  units : ∀ id, row.semanticUnitId = some id → other.semanticUnitId ≠ some id

/-- What the checks of the table ask of an item. -/
structure CoverageItemRow.Checked (row : CoverageItemRow) : Prop where
  lt : row.rawStart < row.rawEnd
  durable : row.disposition = .durableCandidate ↔ row.proposalUuid.isSome = true

/-- A checked item apart from all others is inserted. -/
lemma insertItem_of_apart {items : Table CoverageItemRow String CoverageItemRow.coverageItemUuid}
    {row : CoverageItemRow} (hchecked : row.Checked)
    (hapart : ∀ other ∈ items.rows, other.Apart row) :
    insertItem items row = .ok (items.insert row) := by
  simp only [insertItem, Checks.check_bind_eq_ok, Checks.require_eq_ok]
  refine ⟨hchecked.lt, hchecked.durable, Table.insertUnique_eq_ok.mpr ⟨?_, ?_, rfl⟩⟩
  · rw [Table.get?_eq_none]
    intro hmem
    obtain ⟨other, hother, hid⟩ := List.mem_map.mp hmem
    exact (hapart other hother).ids hid
  · intro index hindex other hother
    have h := hapart other hother
    simp only [List.mem_cons, List.not_mem_nil, or_false] at hindex
    rcases hindex with rfl | rfl
    · cases hproposal : row.proposalUuid with
      | none => simp [hproposal]
      | some id =>
          have hne : some id ≠ other.proposalUuid := fun heq => h.proposals id heq.symm hproposal
          simp [hproposal, hne]
    · cases hunit : row.semanticUnitId with
      | none => simp [hunit]
      | some id =>
          have hne : some id ≠ other.semanticUnitId := fun heq => h.units id heq.symm hunit
          simp [hunit, hne]

/-- Checked items apart from each other and from all others are inserted. -/
lemma foldlM_insertItem_of_apart {bindings : CoveragePersistenceBindings} {runUuid : String}
    {planned : List CoverageItem} {rows : List CoverageItemRow}
    {items : Table CoverageItemRow String CoverageItemRow.coverageItemUuid}
    (hvalues : List.Forall₂ (fun item row => itemValues bindings runUuid item = .ok row) planned
      rows)
    (hchecked : ∀ row ∈ rows, row.Checked)
    (hpairs : rows.Pairwise CoverageItemRow.Apart)
    (hapart : ∀ other ∈ items.rows, ∀ row ∈ rows, other.Apart row) :
    ∃ items', planned.foldlM (fun items item => do
      let row ← itemValues bindings runUuid item
      insertItem items row) items = .ok items' := by
  induction hvalues generalizing items with
  | nil => exact ⟨items, rfl⟩
  | @cons item row planned rows hvalue _ ih =>
      obtain ⟨hrow, hrest⟩ := List.forall_mem_cons.mp hchecked
      obtain ⟨hhead, htail⟩ := List.pairwise_cons.mp hpairs
      have hinsert := insertItem_of_apart hrow fun other hother =>
        hapart other hother row List.mem_cons_self
      obtain ⟨-, -, hrows⟩ := insertItem_eq_ok hinsert
      have hnext : ∀ other ∈ (items.insert row).rows, ∀ row ∈ rows, other.Apart row := by
        intro other hother row' hrow'
        rw [hrows] at hother
        rcases List.mem_append.mp hother with hother | hother
        · exact hapart other hother row' (List.mem_cons_of_mem _ hrow')
        · exact List.mem_singleton.mp hother ▸ hhead row' hrow'
      simp only [List.foldlM_cons, hvalue, hinsert, Checks.ok_bind]
      exact ih hrest htail hnext

/-! ### The items of a plan -/

section

variable {P : Platform} {value : CoveragePlannerInput} {plan : CoveragePlan}
  {proposals : List CandidateProposal}

/-- The range of an item lies in the text. -/
lemma PlanParts.item_bounds {planned : List (CoverageItem × Option CandidateProposal)}
    {uncovered : List CoverageItem} (hparts : PlanParts P value plan proposals planned uncovered)
    (h : Plannable P value) {item : CoverageItem} (hitem : item ∈ plan.items) :
    item.rawStart < item.rawEnd ∧ item.rawEnd ≤ value.currentRawText.length := by
  have hspan := hparts.spans_perm.mem_iff.mp (List.mem_map_of_mem hitem)
  rcases List.mem_append.mp hspan with hspan | hspan
  · obtain ⟨unit, hunit, hspan⟩ := List.mem_map.mp hspan
    obtain ⟨hstart, hstop⟩ := Span.mk.inj hspan
    rw [← hstart, ← hstop]
    exact ⟨h.lt unit hunit, h.unitEnd unit hunit⟩
  · obtain ⟨group, hgroup, hspan⟩ := List.mem_map.mp hspan
    have hbounds := h.groupSpan_bounds hgroup
    rw [hspan] at hbounds
    exact hbounds

/-- The items of a plan have no unique column in common. -/
theorem Plannable.items_apart (h : Plannable P value) (hsha : Function.Injective P.sha256)
    (huuid : ∀ space, Function.Injective (P.uuid5 space))
    (hnamed : ∀ space name, P.uuid5 space name ≠ "")
    (hplan : planCandidateCoverage P value = .ok (plan, proposals)) :
    plan.items.Pairwise fun item other => item.coverageItemId ≠ other.coverageItemId ∧
      (∀ id, item.proposalId = some id → other.proposalId ≠ some id) ∧
      ∀ id, item.semanticUnitId = some id → other.semanticUnitId ≠ some id := by
  obtain ⟨_, _, hplan', hids, hdurable, hnodup⟩ := h.exists_plan hsha huuid hnamed
  obtain ⟨rfl, rfl⟩ := Prod.mk.inj (Except.ok.inj (hplan.symm.trans hplan'))
  obtain ⟨planned, uncovered, hparts⟩ := planCandidateCoverage_eq_ok.mp hplan
  have hcomplete := assertComplete_eq_ok.mp hparts.complete
  -- the proposals that the durable items name are distinct
  have hnames : plan.items.Pairwise fun item other =>
      item.disposition = .durableCandidate → other.disposition = .durableCandidate →
        item.proposalId ≠ other.proposalId := by
    have hsome : (proposals.map fun p => some p.proposalId).Nodup := by
      have hmap := hnodup.map (Option.some_injective String)
      rwa [List.map_map] at hmap
    have hpairs := List.pairwise_map.mp (hdurable.nodup_iff.mpr hsome)
    simpa [List.pairwise_filter] using hpairs
  have hunits := List.pairwise_filterMap.mp hcomplete.unitIds
  refine ((List.pairwise_map.mp hids).and (hnames.and hunits)).imp_of_mem ?_
  rintro item other hitem hother ⟨hid, hname, hunit⟩
  refine ⟨hid, fun id hi ho => ?_, fun id hi ho => hunit id hi id ho rfl⟩
  exact hname (hcomplete.named item hitem (by rw [hi]; rfl))
    (hcomplete.named other hother (by rw [ho]; rfl)) (hi.trans ho.symm)

/-- A plan that was made has a row. -/
lemma PlanParts.exists_runValues {planned : List (CoverageItem × Option CandidateProposal)}
    {uncovered : List CoverageItem} (hparts : PlanParts P value plan proposals planned uncovered)
    (bindings : CoveragePersistenceBindings) : ∃ run, runValues P plan bindings = .ok run := by
  have hitems := validValue_planMaterial.mp (canonicalHashIjson_eq_ok.mp hparts.hash_eq).1
  have hvalid : ValidValue P.unicode none plan.json := by
    rw [CoveragePlan.json, validValue_fields ["coverage_plan_version", "message_uuid",
      "raw_text_hash", "processing_run_uuid", "semantic_prompt_execution_uuid",
      "semantic_contract_hash", "status", "items", "warnings", "coverage_hash"]
      (by decide +kernel) rfl]
    simpa [field, validValue_arr] using hitems
  simp only [runValues, dumpIjson, Checks.bind_eq_ok, Checks.pure_eq_ok]
  exact ⟨_, _, ⟨(), hvalid, rfl⟩, rfl⟩

/-- The plan of an answer is stored in empty tables when every unit has its fingerprint. -/
theorem Plannable.exists_stored (h : Plannable P value) (hsha : Function.Injective P.sha256)
    (huuid : ∀ space, Function.Injective (P.uuid5 space))
    (hnamed : ∀ space name, P.uuid5 space name ≠ "")
    (hplan : planCandidateCoverage P value = .ok (plan, proposals))
    (bindings : CoveragePersistenceBindings)
    (hfingerprints : ∀ u ∈ value.semanticAnalysis.semanticUnits,
      (bindings.semanticUnitFingerprints.get? u.id).isSome = true) :
    ∃ s, persistPlan P plan bindings .empty = .ok (s, .created) := by
  obtain ⟨planned, uncovered, hparts⟩ := planCandidateCoverage_eq_ok.mp hplan
  have hcomplete := assertComplete_eq_ok.mp hparts.complete
  have hunit : ∀ item ∈ plan.items, ∀ id, item.semanticUnitId = some id →
      (bindings.semanticUnitFingerprints.get? id).isSome = true := by
    intro item hitem id hid
    have hmem : id ∈ plan.items.filterMap CoverageItem.semanticUnitId :=
      List.mem_filterMap.mpr ⟨item, hitem, hid⟩
    rw [hparts.items_eq, (unitIds_perm hparts.units hparts.uncovered_eq).mem_iff] at hmem
    obtain ⟨u, hu, rfl⟩ := List.mem_map.mp hmem
    exact hfingerprints u hu
  have hvalue : ∀ item ∈ plan.items, ∃ row,
      itemValues bindings (coverageRunUuid P plan.coverageHash) item = .ok row := by
    intro item hitem
    simp only [itemValues, Checks.check_bind_eq_ok, Checks.require_eq_ok, Checks.pure_eq_ok]
    refine ⟨_, fun hsome => ?_, rfl⟩
    obtain ⟨id, hid⟩ := Option.isSome_iff_exists.mp hsome
    rw [hid, Option.bind_some]
    exact hunit item hitem id hid
  obtain ⟨rows, hrows⟩ := Checks.exists_forall₂ hvalue
  have hchecked : ∀ row ∈ rows, row.Checked := by
    intro row hrow
    obtain ⟨item, hitem, hvalues⟩ := Checks.exists_of_mem_right hrows hrow
    simp only [itemValues, Checks.check_bind_eq_ok, Checks.pure_eq_ok] at hvalues
    obtain ⟨-, rfl⟩ := hvalues
    refine ⟨(hparts.item_bounds h hitem).1, fun hd => ?_, hcomplete.named item hitem⟩
    obtain ⟨id, -, hid⟩ := hcomplete.proposed item hitem hd
    exact Option.isSome_iff_exists.mpr ⟨id, hid⟩
  have hpairs : rows.Pairwise CoverageItemRow.Apart := by
    refine Correspond.pairwise_right hrows (h.items_apart hsha huuid hnamed hplan) ?_
    intro item other row row' hvalues hvalues' hapart
    simp only [itemValues, Checks.check_bind_eq_ok, Checks.pure_eq_ok] at hvalues hvalues'
    obtain ⟨-, rfl⟩ := hvalues
    obtain ⟨-, rfl⟩ := hvalues'
    exact ⟨hapart.1, hapart.2.1, hapart.2.2⟩
  have hempty : ∀ other ∈ CoverageStore.empty.items.rows, ∀ row ∈ rows, other.Apart row :=
    fun _ hother => absurd hother List.not_mem_nil
  obtain ⟨items, hitems⟩ := foldlM_insertItem_of_apart hrows hchecked hpairs hempty
  obtain ⟨run, hrun⟩ := hparts.exists_runValues bindings
  have hruns : insertRun CoverageStore.empty.runs run = .ok (Table.insert .empty run) :=
    Table.insertUnique_eq_ok.mpr ⟨rfl, fun _ _ _ hrow => absurd hrow List.not_mem_nil, rfl⟩
  have hrunless : CoverageStore.empty.runs.get? (coverageRunUuid P plan.coverageHash) = none := rfl
  simp only [persistPlan, hrunless, hrun, hruns, hitems, Checks.ok_bind]
  exact ⟨_, rfl⟩

end

end Memorist
