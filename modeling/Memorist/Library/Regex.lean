import Mathlib.Tactic

/-!
Backtracking patterns over characters, as far as searching needs them: classes,
counted repetitions of a class, groups, and the zero-width assertions that look at
one character to the left or to the right.

* `Pattern.ends`: every position at which a match begun at a position can end;
* `search`: some position of the text begins a match;
* `sub`: the matches of a rule are replaced, but for the beginning that it keeps;
* `length_of_mem_ends`, `sub_of_length_lt`: a match has a least length, so that short
  texts have none;
* `search_iff`, `literal_ends`, `infix_append_iff`: literal characters are found where a text goes on
  with them, also across two texts.
-/

namespace Regex

/-- A place between two characters of the text: the character just read, if any, and what
remains to be read. -/
abbrev Position := Option Char × List Char

/-- A pattern. -/
inductive Pattern where
  /-- One character of a class. -/
  | cls (p : Char → Bool)
  /-- At least `n` characters of a class, `[..]{n,}`. -/
  | atLeast (n : ℕ) (p : Char → Bool)
  /-- At most `n` characters of a class, `[..]{0,n}`. -/
  | atMost (n : ℕ) (p : Char → Bool)
  | seq (a b : Pattern)
  /-- An optional group, `(..)?`. -/
  | opt (a : Pattern)
  /-- A repeated group, `(..)+`. -/
  | plus (a : Pattern)
  /-- No character of the class just before, `(?<![..])`. -/
  | notAfter (p : Char → Bool)
  /-- No character of the class just after, `(?![..])`. -/
  | notBefore (p : Char → Bool)
  /-- A word boundary `\b`, for the word characters `p`. -/
  | boundary (p : Char → Bool)

/-- Whether a neighbouring character exists and lies in the class. -/
def isIn (p : Char → Bool) : Option Char → Bool
  | some c => p c
  | none => false

/-- The positions reached by reading at least `n` characters of the class. -/
def runEnds (p : Char → Bool) : ℕ → Option Char → List Char → List Position
  | 0, prev, [] => [(prev, [])]
  | _ + 1, _, [] => []
  | 0, prev, c :: rest =>
      (prev, c :: rest) :: if p c then runEnds p 0 (some c) rest else []
  | n + 1, _, c :: rest => if p c then runEnds p n (some c) rest else []

/-- The positions reached by reading at most `n` characters of the class. -/
def upToEnds (p : Char → Bool) : ℕ → Option Char → List Char → List Position
  | 0, prev, rest => [(prev, rest)]
  | _ + 1, prev, [] => [(prev, [])]
  | n + 1, prev, c :: rest =>
      (prev, c :: rest) :: if p c then upToEnds p n (some c) rest else []

/-- The positions reached by one to `n` rounds of `f`. -/
def plusEnds (f : Position → List Position) : ℕ → Position → List Position
  | 0, _ => []
  | n + 1, q => (f q).flatMap fun q' => q' :: plusEnds f n q'

/-- The positions at which a match begun at the given position can end. -/
def Pattern.ends : Pattern → Position → List Position
  | cls p, (_, c :: rest) => if p c then [(some c, rest)] else []
  | cls _, (_, []) => []
  | atLeast n p, (prev, rest) => runEnds p n prev rest
  | atMost n p, (prev, rest) => upToEnds p n prev rest
  | seq a b, q => (a.ends q).flatMap b.ends
  | opt a, q => a.ends q ++ [q]
  -- a round of a group that is worth repeating reads a character
  | plus a, q => plusEnds a.ends (q.2.length + 1) q
  | notAfter p, q => if isIn p q.1 then [] else [q]
  | notBefore p, q => if isIn p q.2.head? then [] else [q]
  | boundary p, q => if isIn p q.1 == isIn p q.2.head? then [] else [q]

/-- The characters of `text`, one after the other. -/
def literal (same : Char → Char → Bool) : List Char → Pattern
  | [] => .atMost 0 fun _ => false
  | c :: rest => .seq (.cls (same c)) (literal same rest)

/-- Whether a match begins at this position or further on. -/
def searchFrom (r : Pattern) : Option Char → List Char → Bool
  | prev, [] => !(r.ends (prev, [])).isEmpty
  | prev, c :: rest => !(r.ends (prev, c :: rest)).isEmpty || searchFrom r (some c) rest

/-- Whether the pattern occurs in the text. -/
def search (r : Pattern) (text : List Char) : Bool := searchFrom r none text

/-! ### Replacing -/

/-- What is replaced: a match of the alternatives, each a beginning that is kept and the rest, for
which the replacement stands. -/
structure Rule where
  alternatives : List (Pattern × Pattern)
  replacement : List Char

/-- The longest match that begins at a position: where it ends. -/
def longestEnd (r : Pattern) (q : Position) : Option Position :=
  (r.ends q).foldl (fun best found => match best with
    | none => some found
    | some longest => if found.2.length < longest.2.length then some found else some longest) none

/-- The match of a rule at a position: what is kept of it, and how many characters it has. -/
def Rule.matchAt (rule : Rule) (q : Position) : Option (List Char × ℕ) :=
  rule.alternatives.findSome? fun alternative =>
    (longestEnd (.seq alternative.1 alternative.2) q).map fun found =>
      let kept := (longestEnd alternative.1 q).elim 0 fun keptEnd => q.2.length - keptEnd.2.length
      (q.2.take kept, q.2.length - found.2.length)

/-- The text after a position, with some characters of a match to skip. -/
def Rule.subFrom (rule : Rule) : ℕ → Option Char → List Char → List Char
  | _, _, [] => []
  | skip + 1, _, c :: rest => rule.subFrom skip (some c) rest
  | 0, prev, c :: rest =>
      match rule.matchAt (prev, c :: rest) with
      | some (kept, length) => kept ++ rule.replacement ++ rule.subFrom (length - 1) (some c) rest
      | none => c :: rule.subFrom 0 (some c) rest

/-- `re.sub`, for a rule that matches no empty text. -/
def Rule.sub (rule : Rule) (text : List Char) : List Char := rule.subFrom 0 none text

/-! ### The least length of a match -/

/-- How many characters a match has at least. -/
def Pattern.minLength : Pattern → ℕ
  | cls _ => 1
  | atLeast n _ => n
  | seq a b => a.minLength + b.minLength
  | plus a => a.minLength
  | atMost _ _ | opt _ | notAfter _ | notBefore _ | boundary _ => 0

lemma length_of_mem_runEnds {p : Char → Bool} {q' : Position} :
    ∀ {n : ℕ} {prev : Option Char} {text : List Char}, q' ∈ runEnds p n prev text →
      q'.2.length + n ≤ text.length := by
  intro n prev text
  induction text generalizing n prev with
  | nil => cases n <;> simp [runEnds]; rintro rfl; rfl
  | cons c rest ih =>
      cases n with
      | zero =>
          rw [runEnds, List.mem_cons]
          rintro (rfl | h)
          · simp
          · split_ifs at h
            · have := ih h
              rw [List.length_cons]
              omega
            · exact absurd h List.not_mem_nil
      | succ n =>
          rw [runEnds]
          intro h
          split_ifs at h
          · have := ih h
            rw [List.length_cons]
            omega
          · exact absurd h List.not_mem_nil

lemma length_of_mem_upToEnds {p : Char → Bool} {q' : Position} :
    ∀ {n : ℕ} {prev : Option Char} {text : List Char}, q' ∈ upToEnds p n prev text →
      q'.2.length ≤ text.length := by
  intro n prev text
  induction text generalizing n prev with
  | nil => cases n <;> simp [upToEnds] <;> rintro rfl <;> rfl
  | cons c rest ih =>
      cases n with
      | zero =>
          rw [upToEnds, List.mem_singleton]
          rintro rfl
          exact le_rfl
      | succ n =>
          rw [upToEnds, List.mem_cons]
          rintro (rfl | h)
          · exact le_rfl
          · split_ifs at h
            · exact (ih h).trans (by simp)
            · exact absurd h List.not_mem_nil

/-- A match has its least length. -/
theorem length_of_mem_ends {r : Pattern} {q q' : Position} (h : q' ∈ r.ends q) :
    q'.2.length + r.minLength ≤ q.2.length := by
  induction r generalizing q q' with
  | cls p =>
      obtain ⟨prev, _ | ⟨c, rest⟩⟩ := q
      · exact absurd h List.not_mem_nil
      · rw [Pattern.ends] at h
        split_ifs at h
        · rw [List.mem_singleton.mp h]
          exact le_rfl
        · exact absurd h List.not_mem_nil
  | atLeast n p => exact length_of_mem_runEnds h
  | atMost n p => exact length_of_mem_upToEnds h
  | seq a b iha ihb =>
      obtain ⟨mid, hmid, h⟩ := List.mem_flatMap.mp h
      have ha := iha hmid
      have hb := ihb h
      rw [Pattern.minLength]
      omega
  | opt a ih =>
      rcases List.mem_append.mp h with h | h
      · have := ih h
        rw [Pattern.minLength]
        omega
      · rw [List.mem_singleton.mp h]
        exact le_rfl
  | plus a ih =>
      have hplus : ∀ {n : ℕ} {q : Position}, q' ∈ plusEnds a.ends n q →
          q'.2.length + a.minLength ≤ q.2.length := by
        intro n
        induction n with
        | zero => exact fun h => absurd h List.not_mem_nil
        | succ n ihn =>
            intro q h
            obtain ⟨mid, hmid, h⟩ := List.mem_flatMap.mp h
            have hround := ih hmid
            rcases List.mem_cons.mp h with rfl | h
            · exact hround
            · have := ihn h
              omega
      exact hplus h
  | notAfter p | notBefore p | boundary p =>
      rw [Pattern.ends] at h
      split_ifs at h
      · exact absurd h List.not_mem_nil
      · rw [List.mem_singleton.mp h]
        exact le_rfl

lemma longestEnd_eq_none {r : Pattern} {q : Position} (h : r.ends q = []) :
    longestEnd r q = none := by
  rw [longestEnd, h]
  rfl

/-- A rule changes no text that is shorter than its matches. -/
theorem sub_of_length_lt {rule : Rule} {text : List Char}
    (h : ∀ alternative ∈ rule.alternatives,
      text.length < (Pattern.seq alternative.1 alternative.2).minLength) : rule.sub text = text := by
  have hfrom : ∀ {rest : List Char} {prev : Option Char}, rest.length ≤ text.length →
      rule.subFrom 0 prev rest = rest := by
    intro rest
    induction rest with
    | nil => exact fun _ => rfl
    | cons c rest ih =>
        intro prev hle
        have hnone : rule.matchAt (prev, c :: rest) = none := by
          refine List.findSome?_eq_none_iff.mpr fun alternative halternative => ?_
          have hends : (Pattern.seq alternative.1 alternative.2).ends (prev, c :: rest) = [] := by
            refine List.eq_nil_iff_forall_not_mem.mpr fun q' hq' => ?_
            have hlength := length_of_mem_ends hq'
            have hlong := h alternative halternative
            dsimp only at hlength
            omega
          rw [longestEnd_eq_none hends, Option.map_none]
        rw [Rule.subFrom, hnone]
        dsimp only
        rw [ih (by rw [List.length_cons] at hle; omega)]
  exact hfrom le_rfl

/-! ### Searching for literal characters -/

/-- A search finds a place from which the pattern matches. -/
lemma search_iff {r : Pattern} {text : List Char} : search r text = true ↔
    ∃ before rest, text = before ++ rest ∧ r.ends (before.getLast?, rest) ≠ [] := by
  have hfrom : ∀ prev, searchFrom r prev text = true ↔
      ∃ before rest, text = before ++ rest ∧ r.ends (before.getLast?.or prev, rest) ≠ [] := by
    induction text with
    | nil =>
        intro prev
        rw [searchFrom, Bool.not_eq_true', List.isEmpty_eq_false_iff]
        constructor
        · exact fun h => ⟨[], [], rfl, h⟩
        · rintro ⟨before, rest, heq, h⟩
          obtain ⟨rfl, rfl⟩ := List.append_eq_nil_iff.mp heq.symm
          exact h
    | cons c rest ih =>
        intro prev
        rw [searchFrom, Bool.or_eq_true, Bool.not_eq_true', List.isEmpty_eq_false_iff, ih]
        constructor
        · rintro (h | ⟨before, rest, rfl, h⟩)
          · exact ⟨[], _, rfl, h⟩
          · refine ⟨c :: before, rest, rfl, ?_⟩
            cases before with
            | nil => exact h
            | cons d before => rwa [List.getLast?_cons_cons]
        · rintro ⟨before, rest', heq, h⟩
          cases before with
          | nil =>
              obtain rfl := heq
              exact .inl h
          | cons d before =>
              obtain ⟨rfl, rfl⟩ := List.cons_eq_cons.mp heq
              refine .inr ⟨before, rest', rfl, ?_⟩
              cases before with
              | nil => exact h
              | cons d before => rwa [List.getLast?_cons_cons] at h
  rw [search, hfrom none]
  simp only [Option.or_none]

/-- Literal characters match where the text goes on with them. -/
lemma ends_literal (w : List Char) (prev : Option Char) (text : List Char) :
    (literal (· == ·) w).ends (prev, text) =
      if w <+: text then [(w.getLast?.or prev, text.drop w.length)] else [] := by
  induction w generalizing prev text with
  | nil =>
      cases text <;> simp [literal, Pattern.ends, upToEnds]
  | cons c w ih =>
      cases text with
      | nil => simp [literal, Pattern.ends]
      | cons d text =>
          rw [literal, Pattern.ends, Pattern.ends]
          by_cases hcd : c = d
          · subst hcd
            rw [if_pos (beq_self_eq_true c), List.flatMap_singleton, ih]
            simp only [List.cons_prefix_cons, true_and, List.length_cons, List.drop_succ_cons]
            cases w with
            | nil => rfl
            | cons d w => rw [List.getLast?_cons_cons]; rfl
          · rw [if_neg (by simpa using hcd), if_neg (by simp [hcd])]
            rfl

/-- A word that occurs in two texts joined occurs in one of them, if it cannot go on from the end of
the first one. -/
lemma infix_append_iff {w u v : List Char} (h : ∀ c ∈ u.getLast?, c ∉ w.dropLast) :
    w <:+: u ++ v ↔ w <:+: u ∨ w <:+: v := by
  constructor
  · rintro ⟨before, after, heq⟩
    rcases List.append_eq_append_iff.mp heq with ⟨behind, rfl, -⟩ | ⟨behind, hbehind, rfl⟩
    · exact .inl ⟨before, behind, rfl⟩
    · rcases List.append_eq_append_iff.mp hbehind with ⟨head, rfl, rfl⟩ | ⟨middle, rfl, rfl⟩
      · -- the word begins in the first text
        rcases List.eq_nil_or_concat head with rfl | ⟨head, c, rfl⟩
        · exact .inr ⟨[], after, by simp⟩
        · rcases List.eq_nil_or_concat behind with rfl | ⟨behind, d, rfl⟩
          · exact .inl ⟨before, [], by simp⟩
          · refine absurd ?_ (h c (by simp))
            rw [List.concat_eq_append, List.concat_eq_append, ← List.append_assoc,
              List.dropLast_concat]
            simp
      · exact .inr ⟨middle, after, rfl⟩
  · rintro (h | h)
    · exact List.infix_append_of_infix_left h
    · exact List.infix_append_of_infix_right h

lemma exists_run {p : Char → Bool} {q : Position} {n : ℕ} {prev : Option Char} {text : List Char}
    (h : q ∈ runEnds p n prev text) :
    ∃ run, text = run ++ q.2 ∧ ∀ c ∈ run, p c = true := by
  induction text generalizing n prev with
  | nil =>
      cases n with
      | zero => exact ⟨[], by rw [List.mem_singleton.mp h]; rfl, by simp⟩
      | succ n => exact absurd h List.not_mem_nil
  | cons c rest ih =>
      have hmore : ∀ {m}, p c = true → q ∈ runEnds p m (some c) rest →
          ∃ run, c :: rest = run ++ q.2 ∧ ∀ d ∈ run, p d = true := by
        intro m hc hq
        obtain ⟨run, hrest, hrun⟩ := ih hq
        exact ⟨c :: run, by rw [hrest]; rfl, List.forall_mem_cons.mpr ⟨hc, hrun⟩⟩
      cases n with
      | zero =>
          rw [runEnds, List.mem_cons] at h
          rcases h with rfl | h
          · exact ⟨[], rfl, by simp⟩
          · split_ifs at h with hc
            · exact hmore hc h
            · exact absurd h List.not_mem_nil
      | succ n =>
          rw [runEnds] at h
          split_ifs at h with hc
          · exact hmore hc h
          · exact absurd h List.not_mem_nil

lemma literal_ends {w text : List Char} {prev : Option Char} :
    (literal (· == ·) w).ends (prev, text) ≠ [] ↔ w <+: text := by
  rw [ends_literal]
  split_ifs with h <;> simp [h]

lemma seq_literal_ends {w text : List Char} {prev : Option Char} {r : Pattern} :
    (Pattern.seq (literal (· == ·) w) r).ends (prev, text) ≠ [] ↔
      w <+: text ∧ r.ends (w.getLast?.or prev, text.drop w.length) ≠ [] := by
  rw [Pattern.ends, ends_literal]
  split_ifs with h <;> simp [h]

lemma seq_opt_ends {a r : Pattern} {q : Position} : (Pattern.seq (.opt a) r).ends q ≠ [] ↔
    (Pattern.seq a r).ends q ≠ [] ∨ r.ends q ≠ [] := by
  rw [Pattern.ends, Pattern.ends, Pattern.ends, List.flatMap_append, List.flatMap_singleton,
    ne_eq, List.append_eq_nil_iff, not_and_or]

lemma prefix_drop_iff {v w text : List Char} :
    v <+: text ∧ w <+: text.drop v.length ↔ v ++ w <+: text := by
  constructor
  · rintro ⟨⟨mid, rfl⟩, hw⟩
    rw [List.drop_left] at hw
    exact (List.prefix_append_right_inj v).mpr hw
  · rintro ⟨behind, rfl⟩
    exact ⟨⟨w ++ behind, by simp⟩, ⟨behind, by simp⟩⟩

end Regex
