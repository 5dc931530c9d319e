import Memorist.Library.Span

/-!
Ranges that cover the positions that matter.

* `Cover p a b ranges`: the ranges follow one another inside `[a, b)`, and every position of it that
  matters lies in one;
* `Cover.append`, `Cover.flatMap`: covers of neighbours, or of the ranges of a cover, are a cover;
* `Cover.existsUnique`: a position that matters lies in the range of exactly one entry.
-/

namespace Span

/-- Ranges that follow one another from `a` to `b`, and leave out no position that matters. -/
structure Cover (p : ℕ → Prop) (a b : ℕ) (ranges : List Span) : Prop where
  inside : ∀ r ∈ ranges, a ≤ r.start ∧ r.start < r.stop ∧ r.stop ≤ b
  separated : Separated ranges
  covered : ∀ i, a ≤ i → i < b → p i → ∃ r ∈ ranges, r.Has i

namespace Cover

variable {p : ℕ → Prop} {a b c : ℕ} {ranges ranges' : List Span}

/-- Nothing covers where nothing matters. -/
lemma nil (h : ∀ i, a ≤ i → i < b → ¬p i) : Cover p a b [] where
  inside := by simp
  separated := List.Pairwise.nil
  covered i ha hb hp := absurd hp (h i ha hb)

/-- One range covers what matters. -/
lemma singleton {r : Span} (ha : a ≤ r.start) (hlt : r.start < r.stop) (hb : r.stop ≤ b)
    (h : ∀ i, a ≤ i → i < b → p i → r.Has i) : Cover p a b [r] where
  inside s hs := by
    rw [List.mem_singleton.mp hs]
    exact ⟨ha, hlt, hb⟩
  separated := List.pairwise_singleton _ _
  covered i hai hib hp := ⟨r, List.mem_singleton_self r, h i hai hib hp⟩

/-- Covers of neighbours are a cover. -/
lemma append (h : Cover p a b ranges) (h' : Cover p b c ranges') (hab : a ≤ b) (hbc : b ≤ c) :
    Cover p a c (ranges ++ ranges') where
  inside r hr := by
    rcases List.mem_append.mp hr with hr | hr
    · obtain ⟨ha, hlt, hb⟩ := h.inside r hr
      exact ⟨ha, hlt, hb.trans hbc⟩
    · obtain ⟨hb, hlt, hc⟩ := h'.inside r hr
      exact ⟨hab.trans hb, hlt, hc⟩
  separated := by
    refine List.pairwise_append.mpr ⟨h.separated, h'.separated, fun s hs t ht => ?_⟩
    exact (h.inside s hs).2.2.trans (h'.inside t ht).1
  covered i ha hc hp := by
    rcases Nat.lt_or_ge i b with hb | hb
    · obtain ⟨r, hr, hi⟩ := h.covered i ha hb hp
      exact ⟨r, List.mem_append_left _ hr, hi⟩
    · obtain ⟨r, hr, hi⟩ := h'.covered i hb hc hp
      exact ⟨r, List.mem_append_right _ hr, hi⟩

/-- Covers of the ranges of a cover are a cover. -/
lemma flatMap {α : Type} {f : α → Span} {g : α → List Span} {xs : List α}
    (h : Cover p a b (xs.map f)) (hg : ∀ x ∈ xs, Cover p (f x).start (f x).stop (g x)) :
    Cover p a b (xs.flatMap g) where
  inside r hr := by
    obtain ⟨x, hx, hrx⟩ := List.mem_flatMap.mp hr
    obtain ⟨hstart, hlt, hstop⟩ := (hg x hx).inside r hrx
    obtain ⟨ha, -, hb⟩ := h.inside (f x) (List.mem_map_of_mem hx)
    exact ⟨ha.trans hstart, hlt, hstop.trans hb⟩
  separated := by
    refine List.pairwise_flatMap.mpr ⟨fun x hx => (hg x hx).separated, ?_⟩
    refine (List.pairwise_map.mp h.separated).imp_of_mem fun {x y} hx hy hxy r hr s hs => ?_
    exact ((hg x hx).inside r hr).2.2.trans (hxy.trans ((hg y hy).inside s hs).1)
  covered i ha hb hp := by
    obtain ⟨r, hr, hi⟩ := h.covered i ha hb hp
    obtain ⟨x, hx, rfl⟩ := List.mem_map.mp hr
    obtain ⟨s, hs, hsi⟩ := (hg x hx).covered i hi.1 hi.2 hp
    exact ⟨s, List.mem_flatMap.mpr ⟨x, hx, hs⟩, hsi⟩

/-- Ranges that hold nothing that matters can be left out. -/
lemma filter {α : Type} {f : α → Span} {xs : List α} {q : ℕ → Prop} {keep : α → Bool}
    (h : Cover p a b (xs.map f)) (hqp : ∀ i, q i → p i)
    (hdrop : ∀ x ∈ xs, keep x = false → ∀ i, (f x).Has i → ¬q i) :
    Cover q a b ((xs.filter keep).map f) where
  inside r hr := h.inside r ((List.filter_sublist.map f).subset hr)
  separated := List.Pairwise.sublist (List.filter_sublist.map f) h.separated
  covered i ha hb hq := by
    obtain ⟨r, hr, hi⟩ := h.covered i ha hb (hqp i hq)
    obtain ⟨x, hx, rfl⟩ := List.mem_map.mp hr
    cases hkeep : keep x with
    | false => exact absurd hq (hdrop x hx hkeep i hi)
    | true => exact ⟨f x, List.mem_map_of_mem (List.mem_filter.mpr ⟨hx, hkeep⟩), hi⟩

/-- What matters lies in the range of exactly one entry. -/
lemma existsUnique {α : Type} {f : α → Span} {xs : List α} (h : Cover p a b (xs.map f)) {i : ℕ}
    (ha : a ≤ i) (hb : i < b) (hp : p i) : ∃! x, x ∈ xs ∧ (f x).Has i := by
  obtain ⟨r, hr, hi⟩ := h.covered i ha hb hp
  obtain ⟨x, hx, rfl⟩ := List.mem_map.mp hr
  refine ⟨x, ⟨hx, hi⟩, ?_⟩
  rintro y ⟨hy, hyi⟩
  by_contra hne
  -- the ranges of two entries are apart
  have hpairwise : xs.Pairwise fun s t => (f s).stop ≤ (f t).start ∨ (f t).stop ≤ (f s).start :=
    (List.pairwise_map.mp h.separated).imp Or.inl
  have : Std.Symm fun s t : α => (f s).stop ≤ (f t).start ∨ (f t).stop ≤ (f s).start :=
    ⟨fun _ _ => Or.symm⟩
  rcases hpairwise.forall hy hx hne with hle | hle
  · have := hyi.2
    have := hi.1
    omega
  · have := hi.2
    have := hyi.1
    omega

end Cover

end Span
