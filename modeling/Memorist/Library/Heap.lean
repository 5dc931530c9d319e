import Mathlib.Data.List.Basic
import Mathlib.Tactic

/-!
Binary heaps in a list, as the `heapq` of Python keeps them.

* `swap`: the entries at two positions change places;
* `siftdown`, `siftup`: an entry moves up to its place, or to a leaf and up from there;
* `heappush`, `heapify`: an entry added, and the heap made from any list;
* `heappush_perm`, `heapify_perm`: no entry is lost or added.
-/

namespace Heap

variable {α : Type} {xs : List α}

/-- The entries at two positions change places. -/
def swap (xs : List α) (i j : ℕ) : List α :=
  match xs[i]?, xs[j]? with
  | some a, some b => (xs.set i b).set j a
  | _, _ => xs

lemma swap_perm (xs : List α) (i j : ℕ) : (swap xs i j).Perm xs := by
  unfold swap
  split
  · rename_i a b ha hb
    obtain ⟨hi, rfl⟩ := List.getElem?_eq_some_iff.mp ha
    obtain ⟨hj, rfl⟩ := List.getElem?_eq_some_iff.mp hb
    exact List.set_set_perm hi hj
  · exact .refl _

variable (lt : α → α → Bool)

/-- The entry at one position is less than the entry at another, both in the list. -/
def less (xs : List α) (i j : ℕ) : Bool :=
  match xs[i]?, xs[j]? with
  | some a, some b => lt a b
  | _, _ => false

/-- `_siftdown`: the entry moves up past the parents that are greater, as far as `start`. -/
def siftdown (xs : List α) (start pos : ℕ) : List α :=
  if start < pos then
    if less lt xs pos ((pos - 1) / 2) then siftdown (swap xs pos ((pos - 1) / 2)) start ((pos - 1) / 2)
    else xs
  else xs
termination_by pos
decreasing_by omega

lemma siftdown_perm (xs : List α) (start pos : ℕ) : (siftdown lt xs start pos).Perm xs := by
  induction xs, pos using siftdown.induct lt start with
  | case1 xs pos hpos hless ih =>
      rw [siftdown, if_pos hpos, if_pos hless]
      exact ih.trans (swap_perm _ _ _)
  | case2 xs pos hpos hless => rw [siftdown, if_pos hpos, if_neg hless]
  | case3 xs pos hpos => rw [siftdown, if_neg hpos]

/-- The lesser of the two children, the right one unless the left one is less. -/
def lesserChild (xs : List α) (pos : ℕ) : ℕ :=
  if 2 * pos + 2 < xs.length ∧ less lt xs (2 * pos + 1) (2 * pos + 2) = false then 2 * pos + 2
  else 2 * pos + 1

/-- The way down of `_siftup`: the entry changes places with the lesser child until it is a leaf,
and then moves up. The fuel is the number of entries. -/
def siftupFrom (start : ℕ) : ℕ → List α → ℕ → List α
  | 0, xs, pos => siftdown lt xs start pos
  | fuel + 1, xs, pos =>
    if 2 * pos + 1 < xs.length then
      siftupFrom start fuel (swap xs pos (lesserChild lt xs pos)) (lesserChild lt xs pos)
    else siftdown lt xs start pos

/-- `_siftup`. -/
def siftup (xs : List α) (pos : ℕ) : List α := siftupFrom lt pos xs.length xs pos

lemma siftupFrom_perm (start fuel : ℕ) (xs : List α) (pos : ℕ) :
    (siftupFrom lt start fuel xs pos).Perm xs := by
  induction fuel generalizing xs pos with
  | zero => exact siftdown_perm lt xs start pos
  | succ fuel ih =>
      rw [siftupFrom]
      split_ifs
      · exact (ih _ _).trans (swap_perm _ _ _)
      · exact siftdown_perm lt xs start pos

/-- `heapq.heappush`. -/
def heappush (xs : List α) (x : α) : List α := siftdown lt (xs ++ [x]) 0 xs.length

/-- `heapq.heapify`: the positions that have children, the last one first. -/
def heapify (xs : List α) : List α := (List.range (xs.length / 2)).reverse.foldl (siftup lt) xs

theorem heappush_perm (xs : List α) (x : α) : (heappush lt xs x).Perm (x :: xs) :=
  (siftdown_perm lt _ _ _).trans (List.perm_append_singleton x xs)

theorem heapify_perm (xs : List α) : (heapify lt xs).Perm xs := by
  suffices ∀ (positions : List ℕ) (ys : List α), (positions.foldl (siftup lt) ys).Perm ys from
    this _ xs
  intro positions
  induction positions with
  | nil => exact fun ys => .refl ys
  | cons pos positions ih => exact fun ys => (ih _).trans (siftupFrom_perm lt pos _ ys pos)

end Heap
