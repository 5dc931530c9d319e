import Memorist.Library.KeySort
import Memorist.Library.Span
import Mathlib.Data.List.TakeWhile
import Mathlib.Data.Prod.Lex

/-!
The interval sweep of the planner (`_merge_intervals`, `_tokens_outside_intervals` and the
grouping loop of `_uncovered_items` in `memory_worker/semantic/coverage/planner.py`).

* `mergeIntervals`, `tokensOutsideIntervals`: the tokens no interval overlaps, found by a
  pointer that only moves forward (`tokensOutsideIntervals_merge`);
* `groupTokens`: runs of tokens that belong together (`groupTokens_flatten`,
  `groupTokens_chain`, `groupTokens_adjacent`);
* `groupSpan`: the range of a run (`groupTokens_separated`);
* `exists_gap`: a range that meets a run without meeting a token of it lies between two
  neighbours of the run.
-/

namespace Memorist

/-! ### Merging -/

/-- Merge ascending intervals into the last one merged. -/
def mergeFrom : Span → List Span → List Span
  | last, [] => [last]
  | last, s :: rest =>
      if last.stop < s.start then last :: mergeFrom s rest
      else mergeFrom ⟨last.start, max last.stop s.stop⟩ rest

/-- The order of intervals as pairs. -/
def spanKey (s : Span) : ℕ ×ₗ ℕ := toLex (s.start, s.stop)

/-- Merge intervals that overlap or touch. -/
def mergeIntervals (intervals : List Span) : List Span :=
  match KeySort.sortBy spanKey intervals with
  | [] => []
  | s :: rest => mergeFrom s rest

/-- The tokens that overlap none of the covered intervals still ahead. -/
def tokensOutsideIntervals : List Span → List Span → List Span
  | [], _ => []
  | token :: tokens, covered =>
      let ahead := covered.dropWhile fun c => c.stop ≤ token.start
      if ahead.head?.any fun c => token.start < c.stop && c.start < token.stop then
        tokensOutsideIntervals tokens ahead
      else token :: tokensOutsideIntervals tokens ahead

lemma mergeFrom_starts {rest : List Span} : ∀ {last : Span},
    (∀ s ∈ rest, last.start ≤ s.start) → (rest.Pairwise fun s t => s.start ≤ t.start) →
    (∀ m ∈ mergeFrom last rest, last.start ≤ m.start) ∧
      (mergeFrom last rest).Pairwise fun s t => s.start ≤ t.start := by
  induction rest with
  | nil => simp [mergeFrom]
  | cons s rest ih =>
      intro last hlast hpair
      obtain ⟨hs, hrest⟩ := List.pairwise_cons.mp hpair
      rw [List.forall_mem_cons] at hlast
      rw [mergeFrom]
      split_ifs
      · obtain ⟨hmem, hmerged⟩ := ih hs hrest
        have hle : ∀ m ∈ mergeFrom s rest, last.start ≤ m.start := fun m hm =>
          hlast.1.trans (hmem m hm)
        exact ⟨List.forall_mem_cons.mpr ⟨le_rfl, hle⟩, List.pairwise_cons.mpr ⟨hle, hmerged⟩⟩
      · exact @ih ⟨last.start, max last.stop s.stop⟩ hlast.2 hrest

/-- Merging changes no overlap with a non-empty range. -/
lemma mergeFrom_overlaps {t : Span} (ht : t.start < t.stop) {rest : List Span} : ∀ {last : Span},
    (∀ s ∈ rest, last.start ≤ s.start) → (rest.Pairwise fun s t => s.start ≤ t.start) →
    ((∃ m ∈ mergeFrom last rest, m.Overlaps t) ↔ last.Overlaps t ∨ ∃ s ∈ rest, s.Overlaps t) := by
  induction rest with
  | nil => simp [mergeFrom]
  | cons s rest ih =>
      intro last hlast hpair
      obtain ⟨hs, hrest⟩ := List.pairwise_cons.mp hpair
      rw [List.forall_mem_cons] at hlast
      rw [mergeFrom, List.exists_mem_cons_iff]
      split_ifs with hgap
      · rw [List.exists_mem_cons_iff, ih hs hrest]
      · have hjoin : (⟨last.start, max last.stop s.stop⟩ : Span).Overlaps t ↔
            last.Overlaps t ∨ s.Overlaps t := by
          have := hlast.1
          simp only [Span.Overlaps]
          omega
        rw [@ih ⟨last.start, max last.stop s.stop⟩ hlast.2 hrest, hjoin, or_assoc]

lemma sortBy_spanKey_starts (intervals : List Span) :
    (KeySort.sortBy spanKey intervals).Pairwise fun s t => s.start ≤ t.start := by
  refine (KeySort.pairwise_sortBy spanKey intervals).imp fun {s t} h => ?_
  rcases (Prod.Lex.toLex_le_toLex).mp h with h | h
  · exact h.le
  · exact h.1.le

lemma mergeIntervals_starts (intervals : List Span) :
    (mergeIntervals intervals).Pairwise fun s t => s.start ≤ t.start := by
  have hsorted := sortBy_spanKey_starts intervals
  rw [mergeIntervals]
  cases h : KeySort.sortBy spanKey intervals with
  | nil => exact List.Pairwise.nil
  | cons s rest =>
      rw [h] at hsorted
      obtain ⟨hs, hrest⟩ := List.pairwise_cons.mp hsorted
      exact (mergeFrom_starts hs hrest).2

lemma mergeIntervals_overlaps {t : Span} (ht : t.start < t.stop) (intervals : List Span) :
    (∃ m ∈ mergeIntervals intervals, m.Overlaps t) ↔ ∃ s ∈ intervals, s.Overlaps t := by
  have hsorted := sortBy_spanKey_starts intervals
  have hmem : (∃ s ∈ intervals, s.Overlaps t) ↔
      ∃ s ∈ KeySort.sortBy spanKey intervals, s.Overlaps t := by
    simp only [KeySort.mem_sortBy]
  rw [hmem, mergeIntervals]
  cases h : KeySort.sortBy spanKey intervals with
  | nil => simp
  | cons s rest =>
      rw [h] at hsorted
      obtain ⟨hs, hrest⟩ := List.pairwise_cons.mp hsorted
      rw [mergeFrom_overlaps ht hs hrest, List.exists_mem_cons_iff]

/-- The first interval that ends after a token begins decides whether any interval overlaps it. -/
lemma head_dropWhile_overlaps {token : Span} {covered : List Span}
    (hpair : covered.Pairwise fun s t => s.start ≤ t.start) :
    ((covered.dropWhile fun c => c.stop ≤ token.start).head?.any fun c =>
      token.start < c.stop && c.start < token.stop) = true ↔
      ∃ c ∈ covered, c.Overlaps token := by
  induction covered with
  | nil => simp
  | cons c covered ih =>
      obtain ⟨hc, hpair⟩ := List.pairwise_cons.mp hpair
      rw [List.exists_mem_cons_iff, List.dropWhile_cons]
      by_cases hstop : c.stop ≤ token.start
      · rw [if_pos (by simpa using hstop), ih hpair]
        exact ⟨.inr, fun h => h.resolve_left fun h => absurd h.2 (by omega)⟩
      · rw [if_neg (by simpa using hstop)]
        simp only [List.head?_cons, Option.any_some, Bool.and_eq_true, decide_eq_true_eq]
        constructor
        · exact fun h => .inl ⟨h.2, h.1⟩
        · rintro (h | ⟨d, hd, h⟩)
          · exact ⟨h.2, h.1⟩
          · exact ⟨by omega, (hc d hd).trans_lt h.1⟩

/-- An interval left behind overlaps no later token. -/
lemma exists_dropWhile_overlaps {start : ℕ} {t : Span} (ht : start ≤ t.start)
    {covered : List Span} :
    (∃ c ∈ covered.dropWhile fun c => c.stop ≤ start, c.Overlaps t) ↔
      ∃ c ∈ covered, c.Overlaps t := by
  constructor
  · rintro ⟨c, hc, h⟩
    exact ⟨c, (List.dropWhile_sublist _).subset hc, h⟩
  · rintro ⟨c, hc, h⟩
    rw [← List.takeWhile_append_dropWhile (p := fun c : Span => decide (c.stop ≤ start))
      (l := covered), List.mem_append] at hc
    refine ⟨c, hc.resolve_left fun hc => ?_, h⟩
    have hstop : c.stop ≤ start := by simpa using List.mem_takeWhile_imp hc
    exact absurd h.2 (by omega)

/-- The sweep is the filter: it keeps the tokens that no interval overlaps. -/
theorem tokensOutsideIntervals_eq_filter {tokens : List Span} : ∀ {covered : List Span},
    (tokens.Pairwise fun s t => s.start ≤ t.start) →
    (covered.Pairwise fun s t => s.start ≤ t.start) →
    tokensOutsideIntervals tokens covered =
      tokens.filter fun t => ¬∃ c ∈ covered, c.Overlaps t := by
  induction tokens with
  | nil => intros; rfl
  | cons token tokens ih =>
      intro covered htokens hcovered
      obtain ⟨htoken, htokens⟩ := List.pairwise_cons.mp htokens
      have hahead : (covered.dropWhile fun c => c.stop ≤ token.start).Pairwise
          fun s t => s.start ≤ t.start :=
        hcovered.sublist (List.dropWhile_sublist _)
      have hrest : tokensOutsideIntervals tokens
          (covered.dropWhile fun c => c.stop ≤ token.start) =
            tokens.filter fun t => ¬∃ c ∈ covered, c.Overlaps t := by
        rw [ih htokens hahead]
        refine List.filter_congr fun t ht => ?_
        rw [decide_eq_decide, not_iff_not]
        exact exists_dropWhile_overlaps (htoken t ht)
      rw [tokensOutsideIntervals, hrest, List.filter_cons]
      by_cases h : ∃ c ∈ covered, c.Overlaps token
      · rw [if_pos ((head_dropWhile_overlaps hcovered).mpr h), if_neg (by simpa using h)]
      · rw [if_neg (fun h' => h ((head_dropWhile_overlaps hcovered).mp h')),
          if_pos (by simpa using h)]

/-- The sweep over merged intervals keeps the tokens that overlap none of the intervals, in whatever
order these come. -/
theorem tokensOutsideIntervals_merge {tokens intervals : List Span}
    (hstarts : tokens.Pairwise fun s t => s.start ≤ t.start)
    (hlt : ∀ t ∈ tokens, t.start < t.stop) :
    tokensOutsideIntervals tokens (mergeIntervals intervals) =
      tokens.filter fun t => ∀ i ∈ intervals, ¬i.Overlaps t := by
  rw [tokensOutsideIntervals_eq_filter hstarts (mergeIntervals_starts intervals)]
  refine List.filter_congr fun t ht => ?_
  rw [decide_eq_decide, mergeIntervals_overlaps (hlt t ht)]
  simp only [not_exists, not_and]

/-- Two tokens beside a unit, one inside it and one that reaches into two units. -/
theorem tokensOutsideIntervals_merge_three :
    tokensOutsideIntervals [⟨0, 2⟩, ⟨4, 7⟩, ⟨9, 12⟩, ⟨13, 15⟩]
        (mergeIntervals [⟨11, 13⟩, ⟨3, 8⟩, ⟨8, 10⟩]) =
      ([⟨0, 2⟩, ⟨4, 7⟩, ⟨9, 12⟩, ⟨13, 15⟩] : List Span).filter
        fun t => ∀ i ∈ ([⟨11, 13⟩, ⟨3, 8⟩, ⟨8, 10⟩] : List Span), ¬i.Overlaps t :=
  tokensOutsideIntervals_merge (by decide) (by decide)

/-! ### Runs of tokens -/

section

variable (joins : Span → Span → Bool)

/-- Collect tokens into runs: `group` is the run that ends with `previous`. -/
def groupFrom (group : List Span) (previous : Span) : List Span → List (List Span)
  | [] => [group]
  | token :: tokens =>
      if joins previous token then groupFrom (group ++ [token]) token tokens
      else group :: groupFrom [token] token tokens

/-- Collect tokens into runs of neighbours that belong together. -/
def groupTokens : List Span → List (List Span)
  | [] => []
  | token :: tokens => groupFrom joins [token] token tokens

variable {joins}

lemma groupFrom_flatten {tokens : List Span} : ∀ {group : List Span} {previous : Span},
    (groupFrom joins group previous tokens).flatten = group ++ tokens := by
  induction tokens with
  | nil => simp [groupFrom]
  | cons token tokens ih =>
      intro group previous
      rw [groupFrom]
      split_ifs
      · rw [ih, List.append_assoc, List.singleton_append]
      · rw [List.flatten_cons, ih, List.singleton_append]

/-- No token is lost or repeated. -/
lemma groupTokens_flatten (tokens : List Span) : (groupTokens joins tokens).flatten = tokens := by
  cases tokens with
  | nil => rfl
  | cons token tokens => exact groupFrom_flatten

lemma groupFrom_chain {tokens : List Span} : ∀ {group : List Span} {previous : Span},
    (group ++ [previous]).IsChain (fun s t => joins s t = true) →
    ∀ g ∈ groupFrom joins (group ++ [previous]) previous tokens,
      g ≠ [] ∧ g.IsChain fun s t => joins s t = true := by
  induction tokens with
  | nil => simp [groupFrom]
  | cons token tokens ih =>
      intro group previous hchain
      rw [groupFrom]
      split_ifs with hjoin
      · refine ih (hchain.append (List.isChain_singleton _) fun s hs t ht => ?_)
        simp only [List.getLast?_append, List.getLast?_singleton, Option.some_or,
          Option.mem_some_iff, List.head?_cons] at hs ht
        rw [← hs, ← ht]
        exact hjoin
      · rintro g (_ | ⟨_, hg⟩)
        · exact ⟨by simp, hchain⟩
        · exact @ih [] token (List.isChain_singleton _) g hg

/-- A run is not empty, and its neighbours belong together. -/
lemma groupTokens_chain {tokens g : List Span} (hg : g ∈ groupTokens joins tokens) :
    g ≠ [] ∧ g.IsChain fun s t => joins s t = true := by
  cases tokens with
  | nil => exact absurd hg List.not_mem_nil
  | cons token tokens => exact @groupFrom_chain joins tokens [] token (List.isChain_singleton _) g hg

lemma exists_groupFrom_start {tokens : List Span} : ∀ {group : List Span} {previous : Span},
    ∃ g ∈ groupFrom joins group previous tokens, group <+: g := by
  induction tokens with
  | nil => exact ⟨_, List.mem_singleton_self _, List.prefix_rfl⟩
  | cons token tokens ih =>
      intro group previous
      rw [groupFrom]
      split_ifs
      · obtain ⟨g, hg, hpre⟩ := @ih (group ++ [token]) token
        exact ⟨g, hg, (List.prefix_append _ _).trans hpre⟩
      · exact ⟨group, List.mem_cons_self, List.prefix_rfl⟩

lemma groupFrom_adjacent {s t : Span} (hjoin : joins s t = true) {tokens : List Span} :
    ∀ {group : List Span} {previous : Span}, [s, t] <:+: previous :: tokens →
      ∃ g ∈ groupFrom joins (group ++ [previous]) previous tokens, s ∈ g ∧ t ∈ g := by
  induction tokens with
  | nil => exact fun h => absurd h.length_le (by simp)
  | cons token tokens ih =>
      intro group previous h
      rw [groupFrom]
      rcases List.infix_cons_iff.mp h with h | h
      · obtain ⟨rfl, h'⟩ := List.cons_prefix_cons.mp h
        obtain ⟨rfl, -⟩ := List.cons_prefix_cons.mp h'
        obtain ⟨g, hg, hpre⟩ := @exists_groupFrom_start joins tokens (group ++ [s] ++ [t]) t
        rw [if_pos hjoin]
        exact ⟨g, hg, hpre.subset (by simp), hpre.subset (by simp)⟩
      · split_ifs
        · exact ih h
        · obtain ⟨g, hg, hmem⟩ := @ih [] token h
          exact ⟨g, List.mem_cons_of_mem _ hg, hmem⟩

/-- Neighbours that belong together share a run. -/
lemma groupTokens_adjacent {s t : Span} (hjoin : joins s t = true) {tokens : List Span}
    (h : [s, t] <:+: tokens) : ∃ g ∈ groupTokens joins tokens, s ∈ g ∧ t ∈ g := by
  cases tokens with
  | nil => exact absurd h.length_le (by simp)
  | cons token tokens => exact @groupFrom_adjacent joins s t hjoin tokens [] token h

end

/-- The range of a run, from its first token to its last. -/
def groupSpan (group : List Span) : Span :=
  ⟨(group.head?.map Span.start).getD 0, (group.getLast?.map Span.stop).getD 0⟩

@[simp] lemma groupSpan_singleton (s : Span) : groupSpan [s] = s := rfl

lemma groupSpan_cons_cons (s t : Span) (g : List Span) :
    groupSpan (s :: t :: g) = ⟨s.start, (groupSpan (t :: g)).stop⟩ := by
  simp [groupSpan]

/-- The range of a run of separated tokens contains them. -/
lemma groupSpan_contains {g : List Span} (hsep : Span.Separated g)
    (hlt : ∀ t ∈ g, t.start < t.stop) : ∀ t ∈ g, (groupSpan g).Contains t := by
  induction g with
  | nil => simp
  | cons s g ih =>
      cases g with
      | nil => simp [Span.Contains]
      | cons r g =>
          obtain ⟨hs, hsep⟩ := List.pairwise_cons.mp hsep
          have hrest := ih hsep fun t ht => hlt t (List.mem_cons_of_mem _ ht)
          have hfirst := hrest r List.mem_cons_self
          have hslt := hlt s List.mem_cons_self
          rw [groupSpan_cons_cons]
          rintro t (_ | ⟨_, ht⟩)
          · have hr := hlt r (List.mem_cons_of_mem _ List.mem_cons_self)
            have hsr := hs r List.mem_cons_self
            exact ⟨le_rfl, (hsr.trans hr.le).trans hfirst.2⟩
          · exact ⟨hslt.le.trans (hs t ht), (hrest t ht).2⟩

lemma exists_mem_groupSpan_start {g : List Span} (hg : g ≠ []) :
    ∃ t ∈ g, t.start = (groupSpan g).start := by
  cases g with
  | nil => exact absurd rfl hg
  | cons s g => exact ⟨s, List.mem_cons_self, rfl⟩

lemma exists_mem_groupSpan_stop {g : List Span} (hg : g ≠ []) :
    ∃ t ∈ g, t.stop = (groupSpan g).stop :=
  ⟨g.getLast hg, List.getLast_mem hg, by simp [groupSpan, List.getLast?_eq_some_getLast hg]⟩

/-- Runs of separated tokens follow one another. -/
lemma groupTokens_separated {joins : Span → Span → Bool} {tokens : List Span}
    (hsep : Span.Separated tokens) :
    Span.Separated ((groupTokens joins tokens).map groupSpan) := by
  have hpair : (groupTokens joins tokens).Pairwise
      fun g h => ∀ s ∈ g, ∀ t ∈ h, s.stop ≤ t.start := by
    rw [Span.Separated, ← groupTokens_flatten tokens] at hsep
    exact (List.pairwise_flatten.mp hsep).2
  refine List.pairwise_map.mpr (hpair.imp_of_mem fun hg hh hgh => ?_)
  obtain ⟨s, hs, hstop⟩ := exists_mem_groupSpan_stop (groupTokens_chain hg).1
  obtain ⟨t, ht, hstart⟩ := exists_mem_groupSpan_start (groupTokens_chain hh).1
  rw [← hstop, ← hstart]
  exact hgh s hs t ht

/-- A range that meets a run without meeting a token of it lies between two neighbours. -/
lemma exists_gap {x : Span} {g : List Span} (hmeet : (groupSpan g).Overlaps x)
    (hnone : ∀ t ∈ g, ¬t.Overlaps x) :
    ∃ s t, [s, t] <:+: g ∧ s.stop ≤ x.start ∧ x.stop ≤ t.start := by
  induction g with
  | nil => exact absurd hmeet.2 (by simp [groupSpan])
  | cons s g ih =>
      cases g with
      | nil => exact absurd hmeet (hnone s (List.mem_singleton_self s))
      | cons r g =>
          rw [groupSpan_cons_cons] at hmeet
          have hs : s.stop ≤ x.start :=
            (Span.not_overlaps.mp (hnone s List.mem_cons_self)).resolve_left
              (not_le.mpr hmeet.1)
          rcases le_or_gt x.stop r.start with hr | hr
          · exact ⟨s, r, List.IsPrefix.isInfix (by simp), hs, hr⟩
          · obtain ⟨p, q, hpq, h⟩ := ih ⟨hr, hmeet.2⟩
              fun t ht => hnone t (List.mem_cons_of_mem _ ht)
            exact ⟨p, q, hpq.trans (List.suffix_cons _ _).isInfix, h⟩

end Memorist
