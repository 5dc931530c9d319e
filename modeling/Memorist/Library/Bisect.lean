import Mathlib.Tactic

/-!
Bisection of a list, as Python's `bisect` does it.

* `search`: a range of positions is halved until it is empty;
* `right`, `left`: the positions past the elements up to a bound, and past those below it;
* `lt_right_iff`, `lt_left_iff`: in an ascending list, a position lies before the result exactly when
  its element does.
-/

namespace Bisect

section

variable {α : Type}

/-- Halve the positions from `lo` to `hi`: past an element that passes the test, or up to it. -/
def search (passes : α → Bool) (xs : List α) : ℕ → ℕ → ℕ → ℕ
  | 0, lo, _ => lo
  | fuel + 1, lo, hi =>
      if lo < hi then
        let mid := (lo + hi) / 2
        if (xs[mid]?).any passes then search passes xs fuel (mid + 1) hi
        else search passes xs fuel lo mid
      else lo

/-- A test that holds of every element before one that passes it. -/
def Descends (passes : α → Bool) (xs : List α) : Prop :=
  xs.Pairwise fun x y => passes y = true → passes x = true

variable {passes : α → Bool} {xs : List α}

lemma Descends.any_of_le (h : Descends passes xs) {i j : ℕ} (hij : i ≤ j)
    (hj : (xs[j]?).any passes = true) : (xs[i]?).any passes = true := by
  rcases hij.eq_or_lt with rfl | hlt
  · exact hj
  · obtain ⟨y, hy, hpass⟩ := (Option.any_eq_true _ _).mp hj
    obtain ⟨hjlen, rfl⟩ := List.getElem?_eq_some_iff.mp hy
    rw [List.getElem?_eq_getElem (hlt.trans hjlen), Option.any_some]
    exact List.pairwise_iff_getElem.mp h i j _ hjlen hlt hpass

/-- What lies before the result passes the test, and what lies from it on does not. -/
lemma any_search_iff (h : Descends passes xs) : ∀ (fuel lo hi : ℕ), hi - lo ≤ fuel →
    (∀ i < lo, (xs[i]?).any passes = true) → (∀ i, hi ≤ i → (xs[i]?).any passes = false) →
    ∀ i, i < search passes xs fuel lo hi ↔ (xs[i]?).any passes = true := by
  intro fuel
  induction fuel with
  | zero =>
      intro lo hi hfuel hlow hhigh i
      rw [search]
      refine ⟨hlow i, fun hpass => ?_⟩
      by_contra hle
      rw [hhigh i (by omega)] at hpass
      exact Bool.false_ne_true hpass
  | succ fuel ih =>
      intro lo hi hfuel hlow hhigh i
      rw [search]
      dsimp only
      split_ifs with hlt hmid
      · refine ih _ _ (by omega) (fun j hj => ?_) hhigh i
        exact h.any_of_le (by omega : j ≤ (lo + hi) / 2) hmid
      · refine ih _ _ (by omega) hlow (fun j hj => ?_) i
        by_contra hpass
        exact hmid (h.any_of_le hj (Bool.not_eq_false _ ▸ hpass))
      · refine ⟨hlow i, fun hpass => ?_⟩
        by_contra hle
        rw [hhigh i (by omega)] at hpass
        exact Bool.false_ne_true hpass

end

/-! ### Bounds in an ascending list -/

section

variable {α : Type} [LinearOrder α]

/-- `bisect_right(xs, x)`. -/
def right (xs : List α) (x : α) : ℕ := search (fun y => !decide (x < y)) xs xs.length 0 xs.length

/-- `bisect_left(xs, x)`. -/
def left (xs : List α) (x : α) : ℕ := search (fun y => decide (y < x)) xs xs.length 0 xs.length

variable {xs : List α} {x : α}

omit [LinearOrder α] in
lemma lt_search_length_iff {passes : α → Bool} (h : Descends passes xs) {i : ℕ} :
    i < search passes xs xs.length 0 xs.length ↔ (xs[i]?).any passes = true := by
  refine any_search_iff h xs.length 0 xs.length (Nat.sub_le _ _)
    (fun _ hi => absurd hi (Nat.not_lt_zero _)) (fun j hj => ?_) i
  rw [List.getElem?_eq_none hj, Option.any_none]

/-- A position lies before the right bound when its element is at most the bound. -/
lemma lt_right_iff (h : xs.Pairwise (· ≤ ·)) {i : ℕ} :
    i < right xs x ↔ ∃ y, xs[i]? = some y ∧ y ≤ x := by
  rw [right, lt_search_length_iff]
  · cases xs[i]? <;> simp
  · refine h.imp fun hxy hpass => ?_
    simp only [Bool.not_eq_true', decide_eq_false_iff_not, not_lt] at hpass ⊢
    exact hxy.trans hpass

/-- A position lies before the left bound when its element is below the bound. -/
lemma lt_left_iff (h : xs.Pairwise (· ≤ ·)) {i : ℕ} :
    i < left xs x ↔ ∃ y, xs[i]? = some y ∧ y < x := by
  rw [left, lt_search_length_iff]
  · cases xs[i]? <;> simp
  · refine h.imp fun hxy hpass => ?_
    simp only [decide_eq_true_eq] at hpass ⊢
    exact hxy.trans_lt hpass

end

end Bisect
