import Mathlib.Tactic

/-!
Cutting a list at positions.

* `pieces cut i xs`: the pieces of a list that begins at position `i`, each with where it begins;
* `pieces_append`: a list with a cut is cut part by part;
* `pieces_shift`: where the list begins only moves its pieces;
* `pieces_eq_cons`: the first piece ends at the first cut, or with the list;
* `exists_end_iff`, `mem_pieces`: where pieces end and begin, and what they hold.
-/

namespace Pieces

variable {α : Type}

/-- The pieces of a list. -/
def pieces (cut : ℕ → Prop) [DecidablePred cut] : ℕ → List α → List (ℕ × List α)
  | _, [] => []
  | i, x :: xs =>
      match pieces cut (i + 1) xs with
      | [] => [(i, [x])]
      | (j, piece) :: rest =>
          if cut (i + 1) then (i, [x]) :: (j, piece) :: rest else (i, x :: piece) :: rest

variable {cut : ℕ → Prop} [DecidablePred cut] {i : ℕ} {xs ys : List α}

/-- The first piece begins where the list does. -/
lemma exists_pieces_cons (x : α) (xs : List α) :
    ∃ piece rest, pieces cut i (x :: xs) = (i, piece) :: rest := by
  rw [pieces]
  cases pieces cut (i + 1) xs with
  | nil => exact ⟨[x], [], rfl⟩
  | cons q rest =>
      dsimp only
      split_ifs
      · exact ⟨[x], q :: rest, rfl⟩
      · exact ⟨x :: q.2, rest, rfl⟩

/-- A list with a cut is cut part by part. -/
theorem pieces_append (hxs : xs ≠ []) (hys : ys ≠ []) (hcut : cut (i + xs.length)) :
    pieces cut i (xs ++ ys) = pieces cut i xs ++ pieces cut (i + xs.length) ys := by
  induction xs generalizing i with
  | nil => exact absurd rfl hxs
  | cons x xs ih =>
      cases xs with
      | nil =>
          obtain ⟨y, ys, rfl⟩ := List.exists_cons_of_ne_nil hys
          obtain ⟨piece, rest, hrest⟩ := @exists_pieces_cons _ cut _ (i + 1) y ys
          rw [List.length_singleton] at hcut ⊢
          rw [List.singleton_append, pieces, hrest]
          dsimp only
          rw [if_pos hcut]
          rfl
      | cons x' xs =>
          have hlength : i + (x :: x' :: xs).length = i + 1 + (x' :: xs).length := by
            simp only [List.length_cons]
            omega
          rw [hlength] at hcut ⊢
          have hstep := ih (List.cons_ne_nil x' xs) hcut
          obtain ⟨piece, rest, hrest⟩ := @exists_pieces_cons _ cut _ (i + 1) x' xs
          rw [hrest, List.cons_append] at hstep
          rw [List.cons_append, List.cons_append, pieces, hstep, pieces.eq_2 cut i x, hrest]
          dsimp only
          split_ifs <;> rfl

/-- A list without cuts is one piece. -/
lemma pieces_of_not_cut (hxs : xs ≠ []) (h : ∀ k, i < k → k < i + xs.length → ¬ cut k) :
    pieces cut i xs = [(i, xs)] := by
  induction xs generalizing i with
  | nil => exact absurd rfl hxs
  | cons x xs ih =>
      cases xs with
      | nil => rfl
      | cons x' xs =>
          rw [List.length_cons] at h
          have hrest := ih (i := i + 1) (List.cons_ne_nil x' xs)
            fun k hk hk' => h k (by omega) (by omega)
          rw [pieces, hrest]
          dsimp only
          rw [if_neg (h (i + 1) (Nat.lt_succ_self i) (by rw [List.length_cons]; omega))]

/-- Only the cuts inside of a list matter. -/
lemma pieces_congr {cut' : ℕ → Prop} [DecidablePred cut']
    (h : ∀ k, i < k → k < i + xs.length → (cut k ↔ cut' k)) :
    pieces cut i xs = pieces cut' i xs := by
  induction xs generalizing i with
  | nil => rfl
  | cons x xs ih =>
      rw [List.length_cons] at h
      have hrest := ih (i := i + 1) fun k hk hk' => h k (by omega) (by omega)
      cases xs with
      | nil => rfl
      | cons x' xs =>
          have hhere := h (i + 1) (Nat.lt_succ_self i) (by rw [List.length_cons]; omega)
          obtain ⟨piece, rest, hrest'⟩ := @exists_pieces_cons _ cut' _ (i + 1) x' xs
          rw [pieces.eq_2 cut i x, pieces.eq_2 cut' i x, hrest, hrest']
          dsimp only
          rw [if_congr hhere rfl rfl]

/-- Where a list begins only moves its pieces. -/
lemma pieces_shift (n : ℕ) : pieces cut (n + i) xs =
    (pieces (fun k => cut (n + k)) i xs).map fun q => (n + q.1, q.2) := by
  induction xs generalizing i with
  | nil => rfl
  | cons x xs ih =>
      rw [pieces, pieces, Nat.add_assoc, ih]
      cases pieces (fun k => cut (n + k)) (i + 1) xs with
      | nil => rfl
      | cons q rest =>
          dsimp only [List.map_cons]
          split_ifs <;> rfl

/-- A piece that ends at the first cut, or with the list, comes first. -/
lemma pieces_eq_cons_of_cut {k : ℕ} (hpos : 0 < k) (hle : k ≤ xs.length)
    (hnone : ∀ j, i < j → j < i + k → ¬ cut j) (hend : k = xs.length ∨ cut (i + k)) :
    pieces cut i xs = (i, xs.take k) :: pieces cut (i + k) (xs.drop k) := by
  have htake : (xs.take k).length = k := List.length_take_of_le hle
  have hfirst : xs.take k ≠ [] := List.ne_nil_of_length_pos (by rw [htake]; exact hpos)
  have hone : pieces cut i (xs.take k) = [(i, xs.take k)] :=
    pieces_of_not_cut hfirst fun j hj hj' => hnone j hj (by rw [htake] at hj'; exact hj')
  rcases eq_or_ne (xs.drop k) [] with hdrop | hdrop
  · have hall : xs.take k = xs := by
      have happend := List.take_append_drop k xs
      rwa [hdrop, List.append_nil] at happend
    rw [hdrop]
    rwa [hall] at hone ⊢
  · have hcut : cut (i + (xs.take k).length) := by
      rw [htake]
      refine hend.resolve_left fun heq => hdrop ?_
      rw [heq, List.drop_length]
    have happend := pieces_append hfirst hdrop hcut
    rw [List.take_append_drop, hone, htake] at happend
    exact happend

/-- The first piece ends at the first cut, or with the list. -/
theorem pieces_eq_cons (hxs : xs ≠ []) : ∃ k, 0 < k ∧ k ≤ xs.length ∧
    (∀ j, i < j → j < i + k → ¬ cut j) ∧ (k = xs.length ∨ cut (i + k)) ∧
      pieces cut i xs = (i, xs.take k) :: pieces cut (i + k) (xs.drop k) := by
  have hlength := List.length_pos_of_ne_nil hxs
  have hends : ∃ k, 0 < k ∧ (k = xs.length ∨ cut (i + k)) := ⟨xs.length, hlength, .inl rfl⟩
  have hle : Nat.find hends ≤ xs.length := Nat.find_min' hends ⟨hlength, .inl rfl⟩
  obtain ⟨hpos, hend⟩ := Nat.find_spec hends
  have hnone : ∀ j, i < j → j < i + Nat.find hends → ¬ cut j := by
    intro j hj hj' hcut
    refine Nat.find_min hends (show j - i < Nat.find hends by omega) ⟨by omega, .inr ?_⟩
    rw [Nat.add_sub_cancel' hj.le]
    exact hcut
  exact ⟨_, hpos, hle, hnone, hend, pieces_eq_cons_of_cut hpos hle hnone hend⟩

/-- Pieces end at the cuts, and at the end of the list. -/
theorem exists_end_iff {e : ℕ} : (∃ q ∈ pieces cut i xs, q.1 + q.2.length = e) ↔
    i < e ∧ (e = i + xs.length ∨ e < i + xs.length ∧ cut e) := by
  induction hn : xs.length using Nat.strong_induction_on generalizing i xs with
  | _ n ih =>
      subst hn
      rcases eq_or_ne xs [] with rfl | hxs
      · simp only [pieces, List.not_mem_nil, false_and, exists_false, List.length_nil, false_iff]
        omega
      · obtain ⟨k, hpos, hle, hnone, hend, heq⟩ := @pieces_eq_cons _ cut _ i xs hxs
        have hrest := ih (xs.drop k).length (by rw [List.length_drop]; omega) (i := i + k) rfl
        rw [List.length_drop] at hrest
        simp only [heq, List.mem_cons, or_and_right, exists_or, exists_eq_left, hrest,
          List.length_take_of_le hle]
        constructor
        · rintro (rfl | ⟨hlt, h⟩)
          · refine ⟨by omega, ?_⟩
            rcases hend with rfl | hcut
            · exact .inl rfl
            · rcases hle.lt_or_eq with hlt | rfl
              · exact .inr ⟨by omega, hcut⟩
              · exact .inl rfl
          · refine ⟨by omega, ?_⟩
            rcases h with rfl | ⟨h, hcut⟩
            · exact .inl (by omega)
            · exact .inr ⟨by omega, hcut⟩
        · rintro ⟨hlt, h⟩
          rcases lt_trichotomy e (i + k) with hlow | rfl | hhigh
          · rcases h with rfl | ⟨-, hcut⟩
            · omega
            · exact absurd hcut (hnone e hlt hlow)
          · exact .inl rfl
          · refine .inr ⟨hhigh, ?_⟩
            rcases h with rfl | ⟨h, hcut⟩
            · exact .inl (by omega)
            · exact .inr ⟨by omega, hcut⟩

/-- What a piece holds, and where it begins. -/
theorem mem_pieces {q : ℕ × List α} (h : q ∈ pieces cut i xs) :
    i ≤ q.1 ∧ q.2 ≠ [] ∧ q.2 <+: xs.drop (q.1 - i) ∧ q.1 + q.2.length ≤ i + xs.length ∧
      (q.1 = i ∨ cut q.1) := by
  induction hn : xs.length using Nat.strong_induction_on generalizing i xs with
  | _ n ih =>
      subst hn
      rcases eq_or_ne xs [] with rfl | hxs
      · exact absurd h List.not_mem_nil
      · obtain ⟨k, hpos, hle, -, hend, heq⟩ := @pieces_eq_cons _ cut _ i xs hxs
        rw [heq, List.mem_cons] at h
        rcases h with rfl | h
        · refine ⟨le_rfl, ?_, ?_, ?_, .inl rfl⟩
          · exact List.ne_nil_of_length_pos (by rw [List.length_take_of_le hle]; exact hpos)
          · rw [Nat.sub_self, List.drop_zero]
            exact List.take_prefix k xs
          · rw [List.length_take_of_le hle]
            omega
        · have hlength : (xs.drop k).length < xs.length := by
            rw [List.length_drop]
            omega
          obtain ⟨hbegin, hne, hprefix, hstop, hcut⟩ := ih _ hlength h rfl
          rw [List.length_drop] at hstop
          rw [List.drop_drop, show k + (q.1 - (i + k)) = q.1 - i by omega] at hprefix
          refine ⟨by omega, hne, hprefix, by omega, ?_⟩
          rcases hcut with hcut | hcut
          · rcases hend with rfl | hend
            · rw [List.drop_length] at h
              exact absurd h List.not_mem_nil
            · exact .inr (by rw [hcut]; exact hend)
          · exact .inr hcut

end Pieces
