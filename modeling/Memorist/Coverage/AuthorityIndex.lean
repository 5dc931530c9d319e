import Memorist.Library.KeySort
import Memorist.Coverage.Contracts

/-!
The index of authority spans (`_AuthorityIndex` of
`memory_worker/semantic/coverage/planner.py`).

* `AuthorityIndex.ofAuthorities`, `AuthorityIndex.containing`: authorities in the order
  of their spans, looked up by bisection unless two of them overlap;
* `containing_eq_filter`, `containing_exhaustive`: either way the lookup finds every authority that
  contains the span.
-/

namespace Memorist

/-- The order of authorities: by start, end and name. -/
def authorityKey (a : PersistedUnitAuthority) : ℕ ×ₗ ℕ ×ₗ List Char :=
  toLex (a.rawStart, toLex (a.rawEnd, a.textUnitUuid.toList))

/-- Python's `bisect_right` on an ascending list. -/
def bisectRight (xs : List ℕ) (x : ℕ) : ℕ := (xs.takeWhile fun y => y ≤ x).length

/-- Authorities in the order of their spans. -/
structure AuthorityIndex where
  authorities : List PersistedUnitAuthority
  starts : List ℕ
  overlapping : Bool

namespace AuthorityIndex

/-- The index of a list of authorities. -/
def ofAuthorities (authorities : List PersistedUnitAuthority) : AuthorityIndex :=
  let sorted := KeySort.sortBy authorityKey authorities
  { authorities := sorted
    starts := sorted.map PersistedUnitAuthority.rawStart
    overlapping := (sorted.zip sorted.tail).any fun (previous, current) =>
      current.rawStart < previous.rawEnd }

/-- The authorities that contain `[start, stop)`. -/
def containing (index : AuthorityIndex) (start stop : ℕ) : List PersistedUnitAuthority :=
  if index.overlapping then
    index.authorities.filter fun a => a.rawStart ≤ start ∧ stop ≤ a.rawEnd
  else
    match bisectRight index.starts start with
    | 0 => []
    | i + 1 =>
        match index.authorities[i]? with
        | none => []
        | some a => if stop ≤ a.rawEnd then [a] else []

end AuthorityIndex

/-! ### The lookup is exhaustive -/

/-- Neighbours that do not overlap leave every earlier span before every later one. -/
lemma separated_of_zip_tail {as : List PersistedUnitAuthority}
    (h : (as.zip as.tail).any (fun p => p.2.rawStart < p.1.rawEnd) = false) :
    as.Pairwise fun a b => a.rawEnd ≤ b.rawStart := by
  induction as with
  | nil => exact List.Pairwise.nil
  | cons a as ih =>
      cases as with
      | nil => exact List.pairwise_singleton _ _
      | cons b as =>
          simp only [List.tail_cons, List.zip_cons_cons, List.any_cons, Bool.or_eq_false_iff,
            decide_eq_false_iff_not, not_lt] at h ih
          have hpair := ih h.2
          refine List.pairwise_cons.mpr ⟨fun c hc => ?_, hpair⟩
          rcases List.mem_cons.mp hc with rfl | hc
          · exact h.1
          · exact h.1.trans (b.orderedSpan.le.trans ((List.pairwise_cons.mp hpair).1 c hc))

/-- Among separated spans the last one to begin by `start` is the only one that may contain a
non-empty span from `start`. -/
lemma filter_contains_of_separated {start stop : ℕ} (hlt : start < stop) :
    ∀ {as : List PersistedUnitAuthority}, (as.Pairwise fun a b => a.rawEnd ≤ b.rawStart) →
      (as.filter fun a => a.rawStart ≤ start ∧ stop ≤ a.rawEnd) =
        match bisectRight (as.map PersistedUnitAuthority.rawStart) start with
        | 0 => []
        | i + 1 =>
            match as[i]? with
            | none => []
            | some a => if stop ≤ a.rawEnd then [a] else [] := by
  intro as
  induction as with
  | nil => intro _; rfl
  | cons a as ih =>
      intro hpair
      obtain ⟨ha, hpair⟩ := List.pairwise_cons.mp hpair
      by_cases hstart : a.rawStart ≤ start
      · have hcount : bisectRight ((a :: as).map PersistedUnitAuthority.rawStart) start =
            bisectRight (as.map PersistedUnitAuthority.rawStart) start + 1 := by
          simp [bisectRight, hstart]
        rw [hcount]
        cases hrest : bisectRight (as.map PersistedUnitAuthority.rawStart) start with
        | zero =>
            have htail := ih hpair
            rw [hrest] at htail
            rw [List.filter_cons, htail]
            simp [hstart]
        | succ i =>
            -- a later span begins by `start`, so the first one ends by then
            have hlen : i < as.length := by
              have := (List.takeWhile_sublist (l := as.map PersistedUnitAuthority.rawStart)
                fun y => decide (y ≤ start)).length_le
              rw [bisectRight] at hrest
              rw [hrest, List.length_map] at this
              exact this
            have hfirst : ∃ b ∈ as, b.rawStart ≤ start := by
              cases as with
              | nil => simp at hlen
              | cons b as =>
                  refine ⟨b, List.mem_cons_self, ?_⟩
                  by_contra hb
                  simp [bisectRight, hb] at hrest
            obtain ⟨b, hb, hbs⟩ := hfirst
            have hnot : ¬stop ≤ a.rawEnd := by
              have := ha b hb
              omega
            have htail := ih hpair
            rw [hrest] at htail
            rw [List.filter_cons, if_neg (by simp [hnot]), htail]
            simp only [List.getElem?_cons_succ]
      · have hnone : (a :: as).filter (fun a => a.rawStart ≤ start ∧ stop ≤ a.rawEnd) = [] := by
          refine List.filter_eq_nil_iff.mpr fun b hb => ?_
          have hb' : start < b.rawStart := by
            rcases List.mem_cons.mp hb with rfl | hb
            · omega
            · have := ha b hb
              have := a.orderedSpan
              omega
          simp only [decide_eq_true_eq, not_and]
          omega
        have hcount : bisectRight ((a :: as).map PersistedUnitAuthority.rawStart) start = 0 := by
          simp [bisectRight, hstart]
        rw [hnone, hcount]

/-- The lookup finds every authority that contains a non-empty span, in the order of spans. -/
theorem containing_eq_filter (authorities : List PersistedUnitAuthority) {start stop : ℕ}
    (hlt : start < stop) :
    (AuthorityIndex.ofAuthorities authorities).containing start stop =
      (KeySort.sortBy authorityKey authorities).filter fun a =>
        a.span.Contains ⟨start, stop⟩ := by
  have hspan : (fun a : PersistedUnitAuthority => decide (a.span.Contains ⟨start, stop⟩)) =
      fun a => decide (a.rawStart ≤ start ∧ stop ≤ a.rawEnd) := rfl
  rw [hspan, AuthorityIndex.containing]
  by_cases hover : (AuthorityIndex.ofAuthorities authorities).overlapping = true
  · rw [if_pos hover]
    rfl
  · rw [if_neg hover]
    exact (filter_contains_of_separated hlt
      (separated_of_zip_tail (Bool.eq_false_iff.mpr hover))).symm

/-- With overlapping authorities or without, the lookup is the sorted list of the authorities that
contain a non-empty span. -/
theorem containing_exhaustive (authorities : List PersistedUnitAuthority) {start stop : ℕ}
    (hlt : start < stop) :
    (AuthorityIndex.ofAuthorities authorities).containing start stop =
      KeySort.sortBy authorityKey
        (authorities.filter fun a => a.rawStart ≤ start ∧ stop ≤ a.rawEnd) := by
  rw [containing_eq_filter authorities hlt, KeySort.sortBy_filter]
  rfl

/-- An authority over a range. -/
def authorityOver (textUnitUuid : String) (rawStart rawEnd : ℕ) (orderedSpan : rawStart < rawEnd) :
    PersistedUnitAuthority where
  textUnitUuid := textUnitUuid
  rawStart := rawStart
  rawEnd := rawEnd
  annotationUuid := none
  gateDecisionUuid := none
  gateDecision := none
  routeUuid := none
  routeType := none
  routeStatus := none
  privacyCeiling := .normal
  privacyStorageAllowed := true
  orderedSpan := orderedSpan

/-- A nested pair, out of order. -/
theorem containing_exhaustive_nested :
    (AuthorityIndex.ofAuthorities
        [authorityOver "b" 2 5 (by decide), authorityOver "a" 0 9 (by decide)]).containing 3 4 =
      KeySort.sortBy authorityKey
        ([authorityOver "b" 2 5 (by decide), authorityOver "a" 0 9 (by decide)].filter
          fun a => a.rawStart ≤ 3 ∧ 4 ≤ a.rawEnd) :=
  containing_exhaustive _ (by decide)

/-- A span has one authority exactly when one of the list contains it. -/
lemma containing_eq_singleton {authorities : List PersistedUnitAuthority} {start stop : ℕ}
    (hlt : start < stop) {a : PersistedUnitAuthority} :
    (AuthorityIndex.ofAuthorities authorities).containing start stop = [a] ↔
      (authorities.filter fun b => b.span.Contains ⟨start, stop⟩) = [a] := by
  rw [containing_eq_filter authorities hlt]
  have hperm := (KeySort.sortBy_perm authorityKey authorities).filter
    fun b => b.span.Contains ⟨start, stop⟩
  constructor
  · intro h
    exact List.perm_singleton.mp ((hperm.symm).trans (List.Perm.of_eq h))
  · intro h
    exact List.perm_singleton.mp (hperm.trans (List.Perm.of_eq h))

lemma length_containing (authorities : List PersistedUnitAuthority) {start stop : ℕ}
    (hlt : start < stop) :
    ((AuthorityIndex.ofAuthorities authorities).containing start stop).length =
      (authorities.filter fun b => b.span.Contains ⟨start, stop⟩).length := by
  rw [containing_eq_filter authorities hlt]
  exact ((KeySort.sortBy_perm authorityKey authorities).filter _).length_eq

end Memorist
