import Mathlib.Data.List.ReduceOption
import Memorist.Library.KeySort
import Memorist.Library.Span

/-!
Leftmost-longest resolution of overlapping hits.

* `order`: hits further left come first, and of those at one position the longest;
* `sweep`, `resolve`: the hits in that order, each kept unless the last kept one reaches into it;
* `separated_sweep`, `exists_overlapping_sweep`: what is kept follows one another, and every hit
  overlaps a kept one that comes no later;
* `prefer`, `head?_resolve_flatten`: the first hit kept is the best of the first hits of each group.
-/

namespace LongestMatch

variable {α : Type} {span : α → Span} {consumed : ℕ} {a b : α} {xs : List α}

/-- The order of hits: by start, and the longest first. -/
def order (span : α → Span) (a : α) : ℕ ×ₗ ℤ := toLex ((span a).start, -((span a).stop : ℤ))

/-- Keep each hit that starts where the last kept one has ended. -/
def sweep (span : α → Span) : ℕ → List α → List α
  | _, [] => []
  | consumed, a :: rest =>
      if (span a).start < consumed then sweep span consumed rest
      else a :: sweep span (span a).stop rest

/-- The hits that are kept of a list in any order. -/
def resolve (span : α → Span) (xs : List α) : List α :=
  sweep span 0 (KeySort.sortBy (order span) xs)

lemma order_le_iff : order span a ≤ order span b ↔
    (span a).start < (span b).start ∨
      (span a).start = (span b).start ∧ (span b).stop ≤ (span a).stop := by
  rw [order, order, Prod.Lex.toLex_le_toLex]
  simp

lemma order_lt_iff : order span a < order span b ↔
    (span a).start < (span b).start ∨
      (span a).start = (span b).start ∧ (span b).stop < (span a).stop := by
  rw [order, order, Prod.Lex.toLex_lt_toLex]
  simp

lemma start_le_of_order_le (h : order span a ≤ order span b) :
    (span a).start ≤ (span b).start := by
  rcases order_le_iff.mp h with hlt | ⟨heq, -⟩
  · exact hlt.le
  · exact heq.le

/-! ### What is kept -/

lemma mem_of_mem_sweep : ∀ {xs : List α} {consumed : ℕ}, a ∈ sweep span consumed xs → a ∈ xs := by
  intro xs
  induction xs with
  | nil => exact fun h => h
  | cons b xs ih =>
      intro consumed h
      rw [sweep] at h
      split_ifs at h
      · exact List.mem_cons_of_mem _ (ih h)
      · rcases List.mem_cons.mp h with rfl | h
        · exact List.mem_cons_self
        · exact List.mem_cons_of_mem _ (ih h)

lemma le_start_of_mem_sweep (hlt : ∀ a ∈ xs, (span a).start < (span a).stop) :
    ∀ {consumed : ℕ}, a ∈ sweep span consumed xs → consumed ≤ (span a).start := by
  induction xs with
  | nil => exact fun h => absurd h List.not_mem_nil
  | cons b xs ih =>
      intro consumed h
      have hlt' : ∀ a ∈ xs, (span a).start < (span a).stop :=
        fun a ha => hlt a (List.mem_cons_of_mem _ ha)
      rw [sweep] at h
      split_ifs at h with hb
      · exact ih hlt' h
      · rcases List.mem_cons.mp h with rfl | h
        · exact not_lt.mp hb
        · exact (not_lt.mp hb).trans ((hlt b List.mem_cons_self).le.trans (ih hlt' h))

/-- What is kept follows one another. -/
lemma separated_sweep (hlt : ∀ a ∈ xs, (span a).start < (span a).stop) (consumed : ℕ) :
    (sweep span consumed xs).Pairwise fun a b => (span a).stop ≤ (span b).start := by
  induction xs generalizing consumed with
  | nil => exact List.Pairwise.nil
  | cons a xs ih =>
      have hlt' : ∀ b ∈ xs, (span b).start < (span b).stop :=
        fun b hb => hlt b (List.mem_cons_of_mem _ hb)
      rw [sweep]
      split_ifs
      · exact ih hlt' consumed
      · exact List.pairwise_cons.mpr ⟨fun b hb => le_start_of_mem_sweep hlt' hb, ih hlt' _⟩

/-- A hit in order is kept, or a kept one that comes no later reaches into it. -/
lemma exists_overlapping_sweep (hlt : ∀ a ∈ xs, (span a).start < (span a).stop)
    (hsorted : xs.Pairwise fun a b => order span a ≤ order span b) (ha : a ∈ xs)
    (hstart : consumed ≤ (span a).start) :
    ∃ b ∈ sweep span consumed xs, (span b).Overlaps (span a) ∧ order span b ≤ order span a := by
  induction xs generalizing consumed with
  | nil => exact absurd ha List.not_mem_nil
  | cons c xs ih =>
      obtain ⟨hc, hsorted⟩ := List.pairwise_cons.mp hsorted
      have hlt' : ∀ b ∈ xs, (span b).start < (span b).stop :=
        fun b hb => hlt b (List.mem_cons_of_mem _ hb)
      have hac := hlt a ha
      rw [sweep]
      rcases List.mem_cons.mp ha with rfl | ha
      · rw [if_neg (not_lt.mpr hstart)]
        exact ⟨a, List.mem_cons_self, ⟨hac, hac⟩, le_rfl⟩
      · split_ifs with hskip
        · exact ih hlt' hsorted ha hstart
        · -- the hit is covered by the one kept here, or starts after it
          rcases lt_or_ge (span a).start (span c).stop with hinside | hafter
          · have horder := hc a ha
            exact ⟨c, List.mem_cons_self, ⟨(start_le_of_order_le horder).trans_lt hac, hinside⟩,
              horder⟩
          · obtain ⟨b, hb, hover⟩ := ih hlt' hsorted ha hafter
            exact ⟨b, List.mem_cons_of_mem _ hb, hover⟩

lemma mem_of_mem_resolve (h : a ∈ resolve span xs) : a ∈ xs :=
  KeySort.mem_sortBy.mp (mem_of_mem_sweep h)

lemma separated_resolve (hlt : ∀ a ∈ xs, (span a).start < (span a).stop) :
    (resolve span xs).Pairwise fun a b => (span a).stop ≤ (span b).start :=
  separated_sweep (fun a ha => hlt a (KeySort.mem_sortBy.mp ha)) 0

/-- Every hit overlaps a kept one that comes no later. -/
theorem exists_overlapping_resolve (hlt : ∀ a ∈ xs, (span a).start < (span a).stop) (ha : a ∈ xs) :
    ∃ b ∈ resolve span xs, (span b).Overlaps (span a) ∧ order span b ≤ order span a :=
  exists_overlapping_sweep (fun a ha => hlt a (KeySort.mem_sortBy.mp ha))
    (KeySort.pairwise_sortBy _ _) (KeySort.mem_sortBy.mpr ha) (Nat.zero_le _)

/-! ### The first hit -/

/-- A hit that none comes before. -/
def IsFirst (span : α → Span) (xs : List α) (a : α) : Prop :=
  a ∈ xs ∧ ∀ b ∈ xs, order span a ≤ order span b

/-- Two first hits are the same, where the range tells the hits apart. -/
lemma IsFirst.unique (ha : IsFirst span xs a) (hb : IsFirst span xs b)
    (hinj : ∀ a ∈ xs, ∀ b ∈ xs, span a = span b → a = b) : a = b := by
  refine hinj a ha.1 b hb.1 ?_
  have hle := order_le_iff.mp (ha.2 b hb.1)
  have hge := order_le_iff.mp (hb.2 a ha.1)
  have hstart : (span a).start = (span b).start := by omega
  have hstop : (span a).stop = (span b).stop := by omega
  calc span a = ⟨(span a).start, (span a).stop⟩ := rfl
    _ = ⟨(span b).start, (span b).stop⟩ := by rw [hstart, hstop]
    _ = span b := rfl

/-- What is kept begins with a first hit. -/
lemma isFirst_of_head?_resolve (h : (resolve span xs).head? = some a) : IsFirst span xs a := by
  have hsorted := KeySort.pairwise_sortBy (order span) xs
  rw [resolve] at h
  rcases hlist : KeySort.sortBy (order span) xs with _ | ⟨c, rest⟩
  · simp [hlist, sweep] at h
  · rw [hlist, sweep, if_neg (Nat.not_lt_zero _), List.head?_cons, Option.some_inj] at h
    subst h
    rw [hlist] at hsorted
    refine ⟨KeySort.mem_sortBy.mp (hlist ▸ List.mem_cons_self), fun b hb => ?_⟩
    rcases List.mem_cons.mp (hlist ▸ KeySort.mem_sortBy.mpr hb) with rfl | hb
    · exact le_rfl
    · exact (List.pairwise_cons.mp hsorted).1 b hb

lemma resolve_eq_nil : resolve span xs = [] ↔ xs = [] := by
  constructor
  · intro h
    rcases hlist : KeySort.sortBy (order span) xs with _ | ⟨c, rest⟩
    · exact List.length_eq_zero_iff.mp (by
        have hlength : (KeySort.sortBy (order span) xs).length = xs.length := KeySort.length_sortBy
        rw [← hlength, hlist, List.length_nil])
    · simp [resolve, hlist, sweep] at h
  · rintro rfl
    rfl

/-- Take a hit that comes before the best so far. -/
def prefer (span : α → Span) (best : Option α) (hit : Option α) : Option α :=
  match hit, best with
  | none, best => best
  | some a, none => some a
  | some a, some b => if order span a < order span b then some a else some b

/-- The best hit of a fold is a first one of what it began with and what it met. -/
lemma isFirst_of_foldl_prefer : ∀ {hits : List (Option α)} {best : Option α},
    hits.foldl (prefer span) best = some a → IsFirst span (best.toList ++ hits.reduceOption) a := by
  intro hits
  induction hits with
  | nil =>
      intro best h
      obtain rfl : best = some a := h
      exact ⟨by simp, by simp⟩
  | cons hit hits ih =>
      intro best h
      obtain ⟨hmem, hle⟩ := @ih (prefer span best hit) h
      cases hit with
      | none => exact ⟨hmem, hle⟩
      | some c =>
          rw [List.reduceOption_cons_of_some]
          cases best with
          | none => exact ⟨hmem, hle⟩
          | some b =>
              rw [prefer] at hmem hle
              split_ifs at hmem hle with hlt
              · refine ⟨?_, fun d hd => ?_⟩
                · simp only [Option.toList_some, List.singleton_append, List.mem_cons] at hmem ⊢
                  exact .inr hmem
                · simp only [Option.toList_some, List.singleton_append, List.mem_cons] at hd hle
                  rcases hd with rfl | hd
                  · exact (hle c (.inl rfl)).trans hlt.le
                  · exact hle d hd
              · refine ⟨?_, fun d hd => ?_⟩
                · simp only [Option.toList_some, List.singleton_append, List.mem_cons] at hmem ⊢
                  exact hmem.imp_right .inr
                · simp only [Option.toList_some, List.singleton_append, List.mem_cons] at hd hle
                  rcases hd with rfl | rfl | hd
                  · exact hle d (.inl rfl)
                  · exact (hle b (.inl rfl)).trans (not_lt.mp hlt)
                  · exact hle d (.inr hd)

lemma foldl_prefer_eq_none {hits : List (Option α)} {best : Option α} :
    hits.foldl (prefer span) best = none ↔ best = none ∧ hits.reduceOption = [] := by
  induction hits generalizing best with
  | nil => simp
  | cons hit hits ih =>
      rw [List.foldl_cons, ih]
      cases hit with
      | none => simp [prefer]
      | some c =>
          cases best with
          | none => simp [prefer]
          | some b =>
              rw [prefer]
              split_ifs <;> simp

/-- **The first hit.** What is kept of groups of hits, each in order, begins with the best of their
first ones. -/
theorem head?_resolve_flatten {groups : List (List α)}
    (hinj : ∀ a ∈ groups.flatten, ∀ b ∈ groups.flatten, span a = span b → a = b)
    (hsorted : ∀ group ∈ groups, group.Pairwise fun a b => order span a ≤ order span b) :
    (groups.map List.head?).foldl (prefer span) none = (resolve span groups.flatten).head? := by
  have hhead : ∀ a ∈ (groups.map List.head?).reduceOption, a ∈ groups.flatten := by
    intro a ha
    obtain ⟨group, hgroup, hfirst⟩ := List.mem_map.mp (List.reduceOption_mem_iff.mp ha)
    exact List.mem_flatten.mpr ⟨group, hgroup, List.mem_of_head? hfirst⟩
  -- in each group nothing comes before its first hit
  have hbefore : ∀ b ∈ groups.flatten, ∃ a ∈ (groups.map List.head?).reduceOption,
      order span a ≤ order span b := by
    intro b hb
    obtain ⟨group, hgroup, hb⟩ := List.mem_flatten.mp hb
    rcases group with _ | ⟨a, rest⟩
    · exact absurd hb List.not_mem_nil
    · refine ⟨a, List.reduceOption_mem_iff.mpr (List.mem_map.mpr ⟨_, hgroup, rfl⟩), ?_⟩
      rcases List.mem_cons.mp hb with rfl | hb
      · exact le_rfl
      · exact (List.pairwise_cons.mp (hsorted _ hgroup)).1 b hb
  rcases hbest : (groups.map List.head?).foldl (prefer span) none with _ | a
  · obtain ⟨-, hnone⟩ := foldl_prefer_eq_none.mp hbest
    have hnil : groups.flatten = [] := by
      refine List.eq_nil_iff_forall_not_mem.mpr fun b hb => ?_
      obtain ⟨a, ha, -⟩ := hbefore b hb
      exact absurd (hnone ▸ ha) List.not_mem_nil
    rw [resolve_eq_nil.mpr hnil, List.head?_nil]
  · obtain ⟨hmem, hle⟩ := isFirst_of_foldl_prefer hbest
    rw [Option.toList_none, List.nil_append] at hmem hle
    have hfirst : IsFirst span groups.flatten a := by
      refine ⟨hhead a hmem, fun b hb => ?_⟩
      obtain ⟨c, hc, hcb⟩ := hbefore b hb
      exact (hle c hc).trans hcb
    rcases hkept : (resolve span groups.flatten).head? with _ | b
    · rw [List.head?_eq_none_iff, resolve_eq_nil] at hkept
      exact absurd (hkept ▸ hfirst.1) List.not_mem_nil
    · rw [hfirst.unique (isFirst_of_head?_resolve hkept) hinj]

end LongestMatch
