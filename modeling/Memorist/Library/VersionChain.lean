import Mathlib.Tactic

/-!
Chains of versions: rows numbered from one on, of which the last alone is open.

* `IsVersionChain`: the rows are numbered `1, …, n`, the `n`-th is the current one and no other is
  open;
* `IsVersionChain.number_current`: what the chain says of one row;
* `IsVersionChain.append`: the current row is closed and a next one added;
* `IsVersionChain.map`: the chain stays when other columns change.
-/

/-- Rows are numbered `1, …, n`; the `n`-th is the current one and no other is open. Without a
current row there is none. -/
structure IsVersionChain {ρ κ : Type} (ident : ρ → κ) (number : ρ → ℕ) (isOpen : ρ → Prop)
    (rows : List ρ) (current : Option κ) : Prop where
  numbers : (rows.map number).Perm (List.range' 1 rows.length)
  last : ∀ k, current = some k → ∃ r ∈ rows, ident r = k ∧ number r = rows.length
  isOpen_iff : ∀ r ∈ rows, isOpen r ↔ number r = rows.length
  empty : current = none → rows = []

namespace IsVersionChain

variable {ρ κ : Type} {ident : ρ → κ} {number : ρ → ℕ} {isOpen : ρ → Prop}
variable {rows : List ρ} {current : Option κ} {r r' : ρ}

/-- No rows, none of them current. -/
lemma nil : IsVersionChain ident number isOpen [] none :=
  ⟨List.Perm.nil, fun _ h => absurd h (by simp), fun _ h => absurd h List.not_mem_nil, fun _ => rfl⟩

lemma number_mem (h : IsVersionChain ident number isOpen rows current) (hr : r ∈ rows) :
    1 ≤ number r ∧ number r ≤ rows.length := by
  have hmem := h.numbers.mem_iff.mp (List.mem_map_of_mem hr)
  rw [List.mem_range'_1] at hmem
  omega

/-- A number names one row. -/
lemma eq_of_number_eq (h : IsVersionChain ident number isOpen rows current) (hr : r ∈ rows)
    (hr' : r' ∈ rows) (heq : number r = number r') : r = r' :=
  List.inj_on_of_nodup_map (h.numbers.nodup_iff.mpr List.nodup_range') hr hr' heq

/-- The current row has the last number. -/
lemma number_current (h : IsVersionChain ident number isOpen rows current)
    (hident : ∀ r ∈ rows, ∀ r' ∈ rows, ident r = ident r' → r = r') (hr : r ∈ rows)
    (hcurrent : current = some (ident r)) : number r = rows.length := by
  obtain ⟨last, hlast, hid, hnumber⟩ := h.last _ hcurrent
  rwa [← hident last hlast r hr hid]

/-- A change that closes the open rows keeps the numbers; a row with the next number makes the
chain complete again. -/
theorem append {f : ρ → ρ} {next : ρ} (h : IsVersionChain ident number isOpen rows current)
    (hnumber : ∀ r ∈ rows, number (f r) = number r)
    (hclosed : ∀ r ∈ rows, current = some (ident r) → ¬ isOpen (f r))
    (hother : ∀ r ∈ rows, isOpen (f r) → isOpen r)
    (hnext : number next = rows.length + 1) (hopen : isOpen next) :
    IsVersionChain ident number isOpen (rows.map f ++ [next]) (some (ident next)) := by
  have hlength : (rows.map f ++ [next]).length = rows.length + 1 := by simp
  have hmap : (rows.map f).map number = rows.map number := by
    rw [List.map_map]
    exact List.map_congr_left hnumber
  refine ⟨?_, ?_, ?_, by simp⟩
  · rw [hlength, List.map_append, hmap, List.map_singleton, hnext, List.range'_concat]
    simpa [Nat.add_comm] using h.numbers.append_right [rows.length + 1]
  · intro k hk
    refine ⟨next, by simp, Option.some_inj.mp hk, ?_⟩
    rw [hnext, hlength]
  · intro r' hr'
    rw [hlength]
    rcases List.mem_append.mp hr' with hr' | hr'
    · obtain ⟨r, hr, rfl⟩ := List.mem_map.mp hr'
      rw [hnumber r hr]
      refine ⟨fun hopen' => ?_, fun hlast => ?_⟩
      · -- an open row is the last one, and the last one is current
        have hlast := (h.isOpen_iff r hr).mp (hother r hr hopen')
        rcases current with _ | k
        · rw [h.empty rfl] at hr
          exact absurd hr List.not_mem_nil
        · obtain ⟨last, hmem, rfl, hnum⟩ := h.last k rfl
          obtain rfl := h.eq_of_number_eq hmem hr (hnum.trans hlast.symm)
          exact absurd hopen' (hclosed last hr rfl)
      · exact absurd (h.number_mem hr).2 (by omega)
    · obtain rfl := List.mem_singleton.mp hr'
      exact ⟨fun _ => hnext, fun _ => hopen⟩

/-- The chain stays when the columns it is about stay. -/
theorem map {f : ρ → ρ} (h : IsVersionChain ident number isOpen rows current)
    (hident : ∀ r ∈ rows, ident (f r) = ident r) (hnumber : ∀ r ∈ rows, number (f r) = number r)
    (hopen : ∀ r ∈ rows, isOpen (f r) ↔ isOpen r) :
    IsVersionChain ident number isOpen (rows.map f) current := by
  have hmap : (rows.map f).map number = rows.map number := by
    rw [List.map_map]
    exact List.map_congr_left hnumber
  refine ⟨?_, ?_, ?_, fun hnone => by rw [h.empty hnone, List.map_nil]⟩
  · rw [hmap, List.length_map]
    exact h.numbers
  · intro k hk
    obtain ⟨r, hr, rfl, hnum⟩ := h.last k hk
    refine ⟨f r, List.mem_map_of_mem hr, hident r hr, ?_⟩
    rw [hnumber r hr, hnum, List.length_map]
  · intro r' hr'
    obtain ⟨r, hr, rfl⟩ := List.mem_map.mp hr'
    rw [hopen r hr, h.isOpen_iff r hr, hnumber r hr, List.length_map]

end IsVersionChain
