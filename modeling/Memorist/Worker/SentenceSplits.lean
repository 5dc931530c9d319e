import Memorist.Library.Pieces
import Memorist.Worker.SentenceSegmenter

/-!
Splitting a text at the end of one of its sentences (`_split_sentences`).

* `openQuotes`, `SplitsAt`: the decision at a mark, by the quotes that are open and `_can_split_at`;
* `CutAt`: where a sentence that is split off ends, behind the quotes that close it;
* `splitSentences_eq`: the sentences of a text are its pieces between the cuts;
* `SplitsApart`, `DecidedApart`: splitting a text is splitting what is before a position and what is
  behind it; the marks before and behind it are decided alike on their side;
* `splitsApart_iff_decidedApart`: at the end of a sentence, the first holds exactly when the second
  does.
-/

namespace Memorist

namespace SentenceSegmenter

/-! ### Marks and cuts -/

/-- The quotes that a text leaves open, the innermost first. -/
def openQuotes (text : Text) : List Char := text.foldl updateQuoteStack []

/-- Whether a mark stands at a position. -/
def isMark (text : Text) (index : ℕ) : Bool := text[index]?.any sentencePunctuation.contains

section

variable (U : UnicodeTables)

/-- Whether a sentence is split off behind the mark at a position. -/
def SplitsAt (text : Text) (index : ℕ) : Prop :=
  openQuotes (text.take (index + 1)) = [] ∧ isMark text index = true ∧
    canSplitAt U text index = true

instance (text : Text) (index : ℕ) : Decidable (SplitsAt U text index) :=
  inferInstanceAs (Decidable (_ ∧ _ ∧ _))

/-- Whether a sentence that is split off ends at a position. -/
def CutAt (text : Text) (position : ℕ) : Prop :=
  ∃ i < position, SplitsAt U text i ∧ consumeClosingQuotes text (i + 1) = position

instance (text : Text) : DecidablePred (CutAt U text) :=
  fun position => inferInstanceAs (Decidable (∃ i < position, _ ∧ _))

end

section

variable {U : UnicodeTables} {text : Text} {i j p : ℕ}

lemma exists_of_isMark (h : isMark text i = true) :
    ∃ c ∈ sentencePunctuation, text[i]? = some c := by
  rw [isMark, Option.any_eq_true] at h
  obtain ⟨c, hc, hmem⟩ := h
  exact ⟨c, List.contains_iff_mem.mp hmem, hc⟩

lemma lt_length_of_isMark (h : isMark text i = true) : i < text.length := by
  obtain ⟨c, -, hc⟩ := exists_of_isMark h
  exact (List.getElem?_eq_some_iff.mp hc).1

lemma lt_length_of_splitsAt (h : SplitsAt U text i) : i < text.length := lt_length_of_isMark h.2.1

/-- The quotes behind a mark are behind it, and in the text. -/
lemma consumeClosingQuotes_bounds (h : i < text.length) :
    i < consumeClosingQuotes text (i + 1) ∧ consumeClosingQuotes text (i + 1) ≤ text.length :=
  skipWhile_bounds h

/-- A mark is no quote that closes a sentence. -/
lemma not_closing_of_isMark {c : Char} (h : isMark text i = true) (hc : text[i]? = some c) :
    closingMarks.contains c = false := by
  rw [isMark, hc, Option.any_some] at h
  revert h
  simp only [sentencePunctuation, closingMarks, List.contains_eq_mem, List.mem_cons,
    List.not_mem_nil, or_false, decide_eq_true_eq, decide_eq_false_iff_not]
  rintro (rfl | rfl | rfl | rfl | rfl | rfl) <;> decide

/-- The quotes that close a sentence end before the next mark. -/
lemma consumeClosingQuotes_le (hij : i < j) (hj : isMark text j = true) :
    consumeClosingQuotes text (i + 1) ≤ j := by
  by_contra hlt
  obtain ⟨c, hc, hclosing⟩ := class_of_lt_skipWhile hij (not_le.mp hlt)
  rw [not_closing_of_isMark hj hc] at hclosing
  exact Bool.false_ne_true hclosing

/-- A mark has its own end. -/
lemma eq_of_consumeClosingQuotes_eq (hi : isMark text i = true) (hj : isMark text j = true)
    (h : consumeClosingQuotes text (i + 1) = consumeClosingQuotes text (j + 1)) : i = j := by
  have hi' := (consumeClosingQuotes_bounds (lt_length_of_isMark hi)).1
  have hj' := (consumeClosingQuotes_bounds (lt_length_of_isMark hj)).1
  rcases lt_trichotomy i j with hlt | heq | hlt
  · have := consumeClosingQuotes_le hlt hj
    omega
  · exact heq
  · have := consumeClosingQuotes_le hlt hi
    omega

/-- The text is cut behind a mark exactly when it is split there. -/
lemma cutAt_iff (h : isMark text i = true) :
    CutAt U text (consumeClosingQuotes text (i + 1)) ↔ SplitsAt U text i := by
  constructor
  · rintro ⟨j, -, hsplits, hend⟩
    rw [← eq_of_consumeClosingQuotes_eq hsplits.2.1 h hend]
    exact hsplits
  · exact fun hsplits => ⟨i, (consumeClosingQuotes_bounds (lt_length_of_isMark h)).1, hsplits, rfl⟩

/-! ### Sentences are pieces -/

/-- Move a sentence. -/
def shift (n : ℕ) (s : ℕ × Text) : ℕ × Text := (n + s.1, s.2)

/-- What holds of the scan before every character: the sentences found so far are the pieces up to
where the next one begins, and every split so far ends there or before. -/
structure SentenceScan.Cuts (U : UnicodeTables) (text : Text) (absoluteStart index : ℕ)
    (s : SentenceScan) : Prop where
  quoteStack : s.quoteStack = openQuotes (text.take index)
  start_le : s.start ≤ text.length
  begins : s.start = 0 ∨
    ∃ i < index, SplitsAt U text i ∧ consumeClosingQuotes text (i + 1) = s.start
  split : ∀ i < index, SplitsAt U text i → consumeClosingQuotes text (i + 1) ≤ s.start
  spans : s.spans ++ (Pieces.pieces (CutAt U text) s.start (text.drop s.start)).map
    (shift absoluteStart) = (Pieces.pieces (CutAt U text) 0 text).map (shift absoluteStart)

lemma SentenceScan.Cuts.step {absoluteStart index : ℕ} {s : SentenceScan}
    (h : s.Cuts U text absoluteStart index) :
    (s.step U text absoluteStart index).Cuts U text absoluteStart (index + 1) := by
  rw [SentenceScan.step]
  cases hc : text[index]? with
  | none =>
      have hlength := List.getElem?_eq_none_iff.mp hc
      refine ⟨?_, h.start_le, ?_, fun i hi hsplits => ?_, h.spans⟩
      · rw [h.quoteStack, List.take_of_length_le hlength,
          List.take_of_length_le (Nat.le_succ_of_le hlength)]
      · refine h.begins.imp_right ?_
        rintro ⟨i, hi, hsplits⟩
        exact ⟨i, Nat.lt_succ_of_lt hi, hsplits⟩
      · exact h.split i ((lt_length_of_splitsAt hsplits).trans_le hlength) hsplits
  | some c =>
      have hstack : updateQuoteStack s.quoteStack c = openQuotes (text.take (index + 1)) := by
        rw [h.quoteStack, List.take_add_one, hc, Option.toList_some, openQuotes, openQuotes,
          List.foldl_append, List.foldl_cons, List.foldl_nil]
      have hmark : isMark text index = sentencePunctuation.contains c := by
        rw [isMark, hc, Option.any_some]
      have hsplits : (openQuotes (text.take (index + 1))).isEmpty = true ∧
          sentencePunctuation.contains c = true ∧ canSplitAt U text index = true ↔
          SplitsAt U text index := by
        rw [SplitsAt, hmark, List.isEmpty_iff]
      dsimp only
      rw [hstack]
      split_ifs with hcond
      · have hindex := hsplits.mp hcond
        have hstart : s.start ≤ index := by
          rcases h.begins with hzero | ⟨i, hi, -, hend⟩
          · rw [hzero]
            exact Nat.zero_le index
          · rw [← hend]
            exact consumeClosingQuotes_le hi hindex.2.1
        obtain ⟨hlt, hle⟩ := consumeClosingQuotes_bounds (lt_length_of_splitsAt hindex)
        have hearlier : ∀ i < index, SplitsAt U text i →
            consumeClosingQuotes text (i + 1) ≤ s.start := h.split
        have hother : ∀ e, s.start < e → e < consumeClosingQuotes text (index + 1) →
            ¬ CutAt U text e := by
          rintro e hbefore hbehind ⟨i, hi, hi', rfl⟩
          rcases lt_trichotomy i index with hlow | rfl | hhigh
          · exact absurd (hearlier i hlow hi') (not_le.mpr hbefore)
          · exact absurd hbehind (lt_irrefl _)
          · have := consumeClosingQuotes_le hhigh hi'.2.1
            omega
        have hcut : CutAt U text (consumeClosingQuotes text (index + 1)) :=
          ⟨index, hlt, hindex, rfl⟩
        refine ⟨rfl, hle, .inr ⟨index, Nat.lt_succ_self index, hindex, rfl⟩, fun i hi hi' => ?_, ?_⟩
        · rcases Nat.lt_succ_iff_lt_or_eq.mp hi with hlow | rfl
          · exact (hearlier i hlow hi').trans (hstart.trans hlt.le)
          · exact le_rfl
        · dsimp only
          generalize consumeClosingQuotes text (index + 1) = stop at hlt hle hother hcut ⊢
          have hend : s.start + (stop - s.start) = stop := by omega
          have hpieces : Pieces.pieces (CutAt U text) s.start (text.drop s.start) =
              (s.start, slice text s.start stop) ::
                Pieces.pieces (CutAt U text) stop (text.drop stop) := by
            rw [Pieces.pieces_eq_cons_of_cut (k := stop - s.start) (by omega)
              (by rw [List.length_drop]; omega) (by rw [hend]; exact hother)
              (.inr (by rw [hend]; exact hcut)), List.drop_drop, hend]
            rfl
          rw [← h.spans, hpieces, List.map_cons, List.append_assoc]
          rfl
      · refine ⟨rfl, h.start_le, ?_, fun i hi hi' => ?_, h.spans⟩
        · refine h.begins.imp_right ?_
          rintro ⟨i, hi, hi'⟩
          exact ⟨i, Nat.lt_succ_of_lt hi, hi'⟩
        · rcases Nat.lt_succ_iff_lt_or_eq.mp hi with hlow | rfl
          · exact h.split i hlow hi'
          · exact absurd (hsplits.mpr hi') hcond

lemma SentenceScan.Cuts.foldl (absoluteStart n : ℕ) :
    ((List.range n).foldl (SentenceScan.step U text absoluteStart) ⟨[], 0, []⟩).Cuts U text
      absoluteStart n := by
  induction n with
  | zero => exact ⟨rfl, Nat.zero_le _, .inl rfl, fun i hi => absurd hi (Nat.not_lt_zero i), rfl⟩
  | succ n ih =>
      rw [List.range_succ, List.foldl_append, List.foldl_cons, List.foldl_nil]
      exact ih.step

/-- The sentences of a text are its pieces, but for white space. -/
theorem splitSentences_eq (U : UnicodeTables) (text : Text) (absoluteStart : ℕ) :
    splitSentences U text absoluteStart =
      ((Pieces.pieces (CutAt U text) 0 text).map (shift absoluteStart)).filter
        fun s => !isBlankText U s.2 := by
  have hscan := @SentenceScan.Cuts.foldl U text absoluteStart text.length
  rw [splitSentences]
  generalize (List.range text.length).foldl (SentenceScan.step U text absoluteStart) ⟨[], 0, []⟩ =
    s at hscan ⊢
  rw [← hscan.spans]
  congr 1
  split_ifs with hlt
  · have hne : text.drop s.start ≠ [] := by
      rw [Ne, List.drop_eq_nil_iff]
      exact not_le.mpr hlt
    rw [Pieces.pieces_of_not_cut hne]
    · rfl
    · rintro e he - ⟨i, hi, hsplits, rfl⟩
      exact absurd (hscan.split i (lt_length_of_splitsAt hsplits) hsplits) (not_le.mpr he)
  · rw [List.drop_eq_nil_of_le (not_lt.mp hlt)]
    exact (List.append_nil _).symm

variable (U) in
/-- Whether a sentence of a text ends at a position. -/
def EndsSentence (text : Text) (absoluteStart position : ℕ) : Prop :=
  ∃ s ∈ splitSentences U text absoluteStart, s.1 + s.2.length = absoluteStart + position

instance (text : Text) (absoluteStart position : ℕ) :
    Decidable (EndsSentence U text absoluteStart position) :=
  inferInstanceAs (Decidable (∃ s ∈ splitSentences U text absoluteStart, _ = _))

lemma mem_splitSentences_iff {absoluteStart : ℕ} {s : ℕ × Text} :
    s ∈ splitSentences U text absoluteStart ↔
      ∃ q ∈ Pieces.pieces (CutAt U text) 0 text, isBlankText U q.2 = false ∧
        shift absoluteStart q = s := by
  rw [splitSentences_eq, List.mem_filter, List.mem_map, Bool.not_eq_true']
  constructor
  · rintro ⟨⟨q, hq, rfl⟩, hblank⟩
    exact ⟨q, hq, hblank, rfl⟩
  · rintro ⟨q, hq, hblank, rfl⟩
    exact ⟨⟨q, hq, rfl⟩, hblank⟩

/-- A sentence is in the text. -/
lemma splitSentences_bounds {absoluteStart : ℕ} {s : ℕ × Text}
    (h : s ∈ splitSentences U text absoluteStart) : absoluteStart ≤ s.1 ∧ 0 < s.2.length ∧
      s.1 + s.2.length ≤ absoluteStart + text.length := by
  obtain ⟨q, hq, -, rfl⟩ := mem_splitSentences_iff.mp h
  obtain ⟨-, hne, -, hle, -⟩ := Pieces.mem_pieces hq
  rw [Nat.zero_add] at hle
  refine ⟨Nat.le_add_right _ _, List.length_pos_of_ne_nil hne, ?_⟩
  rw [shift, Nat.add_assoc]
  exact Nat.add_le_add_left hle absoluteStart

/-- Before the end of the text, sentences end at the cuts: what is split off holds its mark. -/
lemma endsSentence_iff (hink : ∀ c ∈ sentencePunctuation, U.isspace c = false)
    {absoluteStart e : ℕ} (he : e < text.length) :
    EndsSentence U text absoluteStart e ↔ CutAt U text e := by
  constructor
  · rintro ⟨s, hs, hend⟩
    obtain ⟨q, hq, -, rfl⟩ := mem_splitSentences_iff.mp hs
    rw [shift, Nat.add_assoc, Nat.add_right_inj] at hend
    obtain ⟨-, hlast | ⟨-, hcut⟩⟩ := Pieces.exists_end_iff.mp ⟨q, hq, hend⟩
    · omega
    · exact hcut
  · rintro ⟨i, hi, hsplits, hend⟩
    have hcut : CutAt U text e := ⟨i, hi, hsplits, hend⟩
    obtain ⟨q, hq, hqe⟩ := Pieces.exists_end_iff.mpr
      ⟨show 0 < e by omega, .inr ⟨by rw [Nat.zero_add]; exact he, hcut⟩⟩
    obtain ⟨-, hne, hprefix, -, hbegins⟩ := Pieces.mem_pieces hq
    have hlength := List.length_pos_of_ne_nil hne
    -- the sentence begins before its mark
    have hle : q.1 ≤ i := by
      rcases hbegins with hzero | ⟨j, -, hj, hjend⟩
      · omega
      · rcases lt_trichotomy j i with hlt | rfl | hlt
        · rw [← hjend]
          exact consumeClosingQuotes_le hlt hsplits.2.1
        · omega
        · have := consumeClosingQuotes_le hlt hj.2.1
          have := (consumeClosingQuotes_bounds (lt_length_of_splitsAt hj)).1
          omega
    obtain ⟨c, hpunctuation, hc⟩ := exists_of_isMark hsplits.2.1
    have hmem : c ∈ q.2 := by
      rw [List.prefix_iff_eq_take.mp hprefix, Nat.sub_zero,
        show q.2.length = q.1 + q.2.length - q.1 by omega]
      exact mem_slice_of_getElem? hc hle (by omega)
    have hblank : isBlankText U q.2 = false := by
      rw [← Bool.not_eq_true, isBlankText_iff]
      intro hall
      have hspace := hall c hmem
      rw [hink c hpunctuation] at hspace
      exact Bool.false_ne_true hspace
    refine ⟨shift absoluteStart q, mem_splitSentences_iff.mpr ⟨q, hq, hblank, rfl⟩, ?_⟩
    rw [shift, Nat.add_assoc, hqe]

/-! ### A text and its parts -/

/-- Where the closing quotes end, by the rest of the text. -/
lemma consumeClosingQuotes_eq (text : Text) (k : ℕ) : consumeClosingQuotes text k =
    k + ((text.drop k).takeWhile closingMarks.contains).length := by
  rw [consumeClosingQuotes, skipWhile, slice, List.take_of_length_le (by rw [List.length_drop])]

lemma consumeClosingQuotes_take (hi : i < p) :
    consumeClosingQuotes (text.take p) (i + 1) = min p (consumeClosingQuotes text (i + 1)) := by
  rw [consumeClosingQuotes_eq, consumeClosingQuotes_eq, List.drop_take, ← List.take_takeWhile,
    List.length_take]
  omega

lemma consumeClosingQuotes_drop (text : Text) (p i : ℕ) :
    p + consumeClosingQuotes (text.drop p) (i + 1) = consumeClosingQuotes text (p + i + 1) := by
  rw [consumeClosingQuotes_eq, consumeClosingQuotes_eq, List.drop_drop, Nat.add_assoc p i 1,
    Nat.add_assoc p]

lemma isMark_take (hi : i < p) : isMark (text.take p) i = isMark text i := by
  rw [isMark, isMark, List.getElem?_take_of_lt hi]

lemma isMark_drop : isMark (text.drop p) i = isMark text (p + i) := by
  rw [isMark, isMark, List.getElem?_drop]

variable (U) in
/-- Whether splitting a text is splitting what is before a position and what is behind it. -/
def SplitsApart (text : Text) (absoluteStart position : ℕ) : Prop :=
  splitSentences U text absoluteStart = splitSentences U (text.take position) absoluteStart ++
    (splitSentences U (text.drop position) absoluteStart).map (shift position)

instance (text : Text) (absoluteStart position : ℕ) :
    Decidable (SplitsApart U text absoluteStart position) :=
  inferInstanceAs (Decidable (_ = _))

/-- The marks before and behind a position are decided on their side of it as in the whole text. Marks
with nothing but closing quotes up to the position, or up to the end, are left out. -/
structure DecidedApart (U : UnicodeTables) (text : Text) (position : ℕ) : Prop where
  finished : ∀ i, consumeClosingQuotes text (i + 1) < position →
    (SplitsAt U (text.take position) i ↔ SplitsAt U text i)
  following : ∀ i, consumeClosingQuotes text (position + i + 1) < text.length →
    (SplitsAt U (text.drop position) i ↔ SplitsAt U text (position + i))

lemma le_consumeClosingQuotes (text : Text) (k : ℕ) : k ≤ consumeClosingQuotes text k :=
  (Nat.le_add_right k _).trans_eq (consumeClosingQuotes_eq text k).symm

/-- The marks before a position are decided alike exactly when the text up to there is cut alike. -/
lemma finished_iff : (∀ i, consumeClosingQuotes text (i + 1) < p →
      (SplitsAt U (text.take p) i ↔ SplitsAt U text i)) ↔
    ∀ e < p, CutAt U (text.take p) e ↔ CutAt U text e := by
  constructor
  · intro h e he
    constructor
    · rintro ⟨i, hi, hsplits, hend⟩
      rw [consumeClosingQuotes_take (hi.trans he)] at hend
      exact ⟨i, hi, (h i (by omega)).mp hsplits, by omega⟩
    · rintro ⟨i, hi, hsplits, rfl⟩
      refine ⟨i, hi, (h i he).mpr hsplits, ?_⟩
      rw [consumeClosingQuotes_take (hi.trans he), min_eq_right he.le]
  · intro h i hlt
    have hi : i < p := (le_consumeClosingQuotes text (i + 1)).trans_lt hlt |>.le
    cases hmark : isMark text i with
    | false =>
        refine iff_of_false (fun hsplits => ?_) fun hsplits => ?_
        · exact Bool.false_ne_true (hmark ▸ isMark_take hi ▸ hsplits.2.1)
        · exact Bool.false_ne_true (hmark ▸ hsplits.2.1)
    | true =>
        rw [← cutAt_iff hmark, ← cutAt_iff ((isMark_take hi).trans hmark),
          consumeClosingQuotes_take hi, min_eq_right hlt.le]
        exact h _ hlt

/-- The marks behind a position where a sentence is split off are decided alike exactly when the text
from there on is cut alike. -/
lemma following_iff (hp : CutAt U text p) :
    (∀ i, consumeClosingQuotes text (p + i + 1) < text.length →
      (SplitsAt U (text.drop p) i ↔ SplitsAt U text (p + i))) ↔
    ∀ e, 0 < e → p + e < text.length → (CutAt U (text.drop p) e ↔ CutAt U text (p + e)) := by
  constructor
  · intro h e hpos he
    constructor
    · rintro ⟨i, hi, hsplits, hend⟩
      have hend' : consumeClosingQuotes text (p + i + 1) = p + e := by
        rw [← consumeClosingQuotes_drop, hend]
      exact ⟨p + i, by omega, (h i (by omega)).mp hsplits, hend'⟩
    · rintro ⟨j, hj, hsplits, hend⟩
      -- no mark before the position ends behind it
      have hpj : p ≤ j := by
        obtain ⟨k, hk, hk', hpend⟩ := hp
        by_contra hlt
        rcases lt_trichotomy j k with hjk | rfl | hjk
        · have := consumeClosingQuotes_le hjk hk'.2.1
          omega
        · omega
        · have := consumeClosingQuotes_le hjk hsplits.2.1
          omega
      obtain ⟨i, rfl⟩ := Nat.exists_eq_add_of_le hpj
      have hend' : consumeClosingQuotes (text.drop p) (i + 1) = e := by
        rw [← consumeClosingQuotes_drop] at hend
        omega
      exact ⟨i, by omega, (h i (by omega)).mpr hsplits, hend'⟩
  · intro h i hlt
    have hpos := le_consumeClosingQuotes (text.drop p) (i + 1)
    cases hmark : isMark text (p + i) with
    | false =>
        refine iff_of_false (fun hsplits => ?_) fun hsplits => ?_
        · exact Bool.false_ne_true (hmark ▸ isMark_drop ▸ hsplits.2.1)
        · exact Bool.false_ne_true (hmark ▸ hsplits.2.1)
    | true =>
        rw [← consumeClosingQuotes_drop] at hlt
        rw [← cutAt_iff hmark, ← cutAt_iff (isMark_drop.trans hmark), ← consumeClosingQuotes_drop]
        exact h _ (by omega) hlt

/-- Splitting a text at the end of a sentence splits its two parts, if the marks are decided so. -/
lemma splitsApart_of_decidedApart {absoluteStart : ℕ} (hp : CutAt U text p) (hlt : p < text.length)
    (h : DecidedApart U text p) : SplitsApart U text absoluteStart p := by
  have hpos : 0 < p := by
    obtain ⟨i, hi, -⟩ := hp
    omega
  have htake : (text.take p).length = p := List.length_take_of_le hlt.le
  have hdrop : (text.drop p).length = text.length - p := List.length_drop
  have hbefore : Pieces.pieces (CutAt U text) 0 (text.take p) =
      Pieces.pieces (CutAt U (text.take p)) 0 (text.take p) :=
    Pieces.pieces_congr fun e _ he => (finished_iff.mp h.finished e (by omega)).symm
  have hbehind : Pieces.pieces (CutAt U text) (p + 0) (text.drop p) =
      (Pieces.pieces (CutAt U (text.drop p)) 0 (text.drop p)).map (shift p) := by
    rw [Pieces.pieces_shift]
    congr 1
    exact Pieces.pieces_congr fun e he he' =>
      ((following_iff hp).mp h.following e he (by omega)).symm
  have hpieces : Pieces.pieces (CutAt U text) 0 text =
      Pieces.pieces (CutAt U (text.take p)) 0 (text.take p) ++
        (Pieces.pieces (CutAt U (text.drop p)) 0 (text.drop p)).map (shift p) := by
    have happend := @Pieces.pieces_append _ (CutAt U text) _ 0 (text.take p) (text.drop p)
      (List.ne_nil_of_length_pos (by omega)) (List.ne_nil_of_length_pos (by omega))
      (by rw [htake, Nat.zero_add]; exact hp)
    rw [List.take_append_drop, htake, Nat.zero_add, hbefore] at happend
    rw [happend, ← hbehind, Nat.add_zero]
  have hcomm : shift absoluteStart ∘ shift p = shift p ∘ shift absoluteStart := by
    funext s
    exact Prod.ext (Nat.add_left_comm absoluteStart p s.1) rfl
  rw [SplitsApart, splitSentences_eq, splitSentences_eq, splitSentences_eq, hpieces,
    List.map_append, List.filter_append, List.map_map, hcomm, ← List.map_map]
  congr 1
  exact List.filter_map

/-- The sentences of the first part are those that end in it. -/
lemma endsSentence_take {absoluteStart e : ℕ} (h : SplitsApart U text absoluteStart p)
    (he : e < p) :
    EndsSentence U (text.take p) absoluteStart e ↔ EndsSentence U text absoluteStart e := by
  rw [EndsSentence, EndsSentence, h]
  constructor
  · rintro ⟨s, hs, hend⟩
    exact ⟨s, List.mem_append_left _ hs, hend⟩
  · rintro ⟨s, hs, hend⟩
    rcases List.mem_append.mp hs with hs | hs
    · exact ⟨s, hs, hend⟩
    · obtain ⟨r, hr, rfl⟩ := List.mem_map.mp hs
      have hbounds := splitSentences_bounds hr
      simp only [shift] at hend
      omega

/-- The sentences of the second part are those that end behind the first. -/
lemma endsSentence_drop {absoluteStart e : ℕ} (h : SplitsApart U text absoluteStart p)
    (he : 0 < e) :
    EndsSentence U (text.drop p) absoluteStart e ↔ EndsSentence U text absoluteStart (p + e) := by
  rw [EndsSentence, EndsSentence, h]
  constructor
  · rintro ⟨r, hr, hend⟩
    refine ⟨shift p r, List.mem_append_right _ (List.mem_map_of_mem hr), ?_⟩
    rw [shift, Nat.add_assoc, hend]
    exact Nat.add_left_comm p absoluteStart e
  · rintro ⟨s, hs, hend⟩
    rcases List.mem_append.mp hs with hs | hs
    · have hbounds := splitSentences_bounds hs
      have htake := List.length_take_le p text
      omega
    · obtain ⟨r, hr, rfl⟩ := List.mem_map.mp hs
      simp only [shift] at hend
      exact ⟨r, hr, by omega⟩

/-- Splitting a text at the end of one of its sentences before its end is splitting its two parts,
exactly when the marks before and behind it are decided alike on their side. -/
lemma splitsApart_iff_decidedApart (hink : ∀ c ∈ sentencePunctuation, U.isspace c = false)
    {absoluteStart : ℕ} (hcut : CutAt U text p) (hlt : p < text.length) :
    SplitsApart U text absoluteStart p ↔ DecidedApart U text p := by
  have htake : (text.take p).length = p := List.length_take_of_le hlt.le
  have hdrop : (text.drop p).length = text.length - p := List.length_drop
  refine ⟨fun h => ⟨finished_iff.mpr fun e he => ?_, (following_iff hcut).mpr fun e hpos he => ?_⟩,
    splitsApart_of_decidedApart hcut hlt⟩
  · have hends := endsSentence_take h he
    rwa [endsSentence_iff hink (by omega), endsSentence_iff hink (by omega)] at hends
  · have hends := endsSentence_drop h hpos
    rwa [endsSentence_iff hink (by omega), endsSentence_iff hink he] at hends

end

end SentenceSegmenter

end Memorist
