import Mathlib.Tactic

/-!
Half-open ranges of positions.

* `Overlaps`, `Contains`: the two relations of ranges;
* `Separated`: each range of a list ends before the next begins, so that ranges with none
  in between are neighbours (`Separated.neighbours`).
-/

/-- The range `[start, stop)`. -/
structure Span where
  start : ℕ
  stop : ℕ
  deriving DecidableEq, Repr

namespace Span

/-- Two ranges share a position, when both have one. -/
def Overlaps (a b : Span) : Prop := a.start < b.stop ∧ b.start < a.stop

/-- A range lies inside another. -/
def Contains (a b : Span) : Prop := a.start ≤ b.start ∧ b.stop ≤ a.stop

/-- A position of a range. -/
def Has (a : Span) (i : ℕ) : Prop := a.start ≤ i ∧ i < a.stop

instance (a b : Span) : Decidable (a.Overlaps b) := inferInstanceAs (Decidable (_ ∧ _))

instance (a b : Span) : Decidable (a.Contains b) := inferInstanceAs (Decidable (_ ∧ _))

instance (a : Span) (i : ℕ) : Decidable (a.Has i) := inferInstanceAs (Decidable (_ ∧ _))

variable {a b c : Span}

lemma Overlaps.symm (h : a.Overlaps b) : b.Overlaps a := ⟨h.2, h.1⟩

lemma not_overlaps : ¬a.Overlaps b ↔ b.stop ≤ a.start ∨ a.stop ≤ b.start := by
  rw [Overlaps, not_and_or, not_lt, not_lt]

lemma Contains.overlaps (h : a.Contains b) (hb : b.start < b.stop) : a.Overlaps b :=
  ⟨h.1.trans_lt hb, hb.trans_le h.2⟩

lemma Contains.overlaps_of_overlaps (h₁ : a.Contains b) (h₂ : b.Overlaps c) : a.Overlaps c :=
  ⟨h₁.1.trans_lt h₂.1, h₂.2.trans_le h₁.2⟩

/-- The ranges of a list follow one another. -/
def Separated (ranges : List Span) : Prop := ranges.Pairwise fun s t => s.stop ≤ t.start

/-- Two ranges of a separated list with none in between are neighbours. -/
lemma Separated.neighbours {ranges : List Span} (hsep : Separated ranges)
    (hlt : ∀ r ∈ ranges, r.start < r.stop) {s t : Span} (hs : s ∈ ranges) (ht : t ∈ ranges)
    (hst : s.stop ≤ t.start) (hnone : ∀ r ∈ ranges, s.stop ≤ r.start → ¬r.stop ≤ t.start) :
    [s, t] <:+: ranges := by
  induction ranges with
  | nil => exact absurd hs List.not_mem_nil
  | cons a ranges ih =>
      obtain ⟨ha, hrest⟩ := List.pairwise_cons.mp hsep
      have hslt := hlt s hs
      have htlt := hlt t ht
      rcases List.mem_cons.mp hs with rfl | hs
      · have ht : t ∈ ranges := (List.mem_cons.mp ht).resolve_left (by rintro rfl; omega)
        cases ranges with
        | nil => exact absurd ht List.not_mem_nil
        | cons b ranges =>
            rcases List.mem_cons.mp ht with rfl | ht
            · exact List.IsPrefix.isInfix (by simp)
            · have hbt := (List.pairwise_cons.mp hrest).1 t ht
              exact absurd hbt (hnone b (by simp) (ha b List.mem_cons_self))
      · have has := ha s hs
        have ht : t ∈ ranges := (List.mem_cons.mp ht).resolve_left (by rintro rfl; omega)
        have hinfix := ih hrest (fun r hr => hlt r (List.mem_cons_of_mem _ hr)) hs ht
          fun r hr => hnone r (List.mem_cons_of_mem _ hr)
        exact hinfix.trans (List.suffix_cons _ _).isInfix

end Span
