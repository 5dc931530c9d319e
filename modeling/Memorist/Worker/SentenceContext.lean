import Memorist.Worker.SentenceSplits

/-!
What the decision at a mark reads on the other side of the end of a sentence.

* `canSplitAt_iff`: a sentence ends behind a period that belongs to no number, abbreviation or link;
* `canSplitAt_take`, `canSplitAt_drop`: the decision before and behind the end of a sentence, and what
  it reads across;
* `openQuotes_take`: what is open at the end of a sentence;
* `KeptApart`, `splitsApart_iff`: **splitting a text at the end of one of its sentences is splitting
  its two parts, exactly when nothing is read across the end.**
-/

namespace Memorist

namespace SentenceSegmenter

/-! ### What a decision reads -/

/-- The characters behind which a sentence ends. -/
def endMarks : List Char := sentencePunctuation ++ closingMarks

/-- What a link begins with. -/
def linkHeads : List String := ["http://", "https://", "www."]

/-- A link is found by one of the beginnings of a link. -/
lemma holdsUrl_iff {text : Text} :
    holdsUrl text = true ↔ ∃ head ∈ linkHeads, head.toList <:+: text := by
  have hinfix : ∀ {w : Text}, w <:+: text ↔ ∃ before rest, text = before ++ rest ∧ w <+: rest := by
    intro w
    constructor
    · rintro ⟨before, behind, rfl⟩
      exact ⟨before, w ++ behind, by simp, behind, rfl⟩
    · rintro ⟨before, _, rfl, behind, rfl⟩
      exact ⟨before, behind, by simp⟩
  have hlink : ∀ {prev rest}, (Regex.Pattern.seq (word "http") (.seq (.opt (word "s"))
      (word "://"))).ends (prev, rest) ≠ [] ↔
        "http://".toList <+: rest ∨ "https://".toList <+: rest := by
    intro prev rest
    have hplain : "http".toList ++ "://".toList = "http://".toList := rfl
    have hsecure : "http".toList ++ ("s".toList ++ "://".toList) = "https://".toList := rfl
    rw [word, word, word, Regex.seq_literal_ends, Regex.seq_opt_ends, Regex.seq_literal_ends,
      Regex.literal_ends, Regex.literal_ends, and_or_left, Regex.prefix_drop_iff,
      Regex.prefix_drop_iff, Regex.prefix_drop_iff, hplain, hsecure, or_comm]
  have hwww : ∀ {prev rest}, (word "www.").ends (prev, rest) ≠ [] ↔ "www.".toList <+: rest :=
    Regex.literal_ends
  rw [holdsUrl, Bool.or_eq_true, Regex.search_iff, Regex.search_iff]
  simp only [hlink, hwww, linkHeads, List.mem_cons, List.not_mem_nil, or_false,
    exists_eq_or_imp, exists_eq_left, hinfix, and_or_left, exists_or, or_assoc]

section

variable {U : UnicodeTables} {text : Text} {i p : ℕ}

/-- No link stands across the end of a sentence. -/
lemma holdsUrl_append {u v : Text} (h : ∀ c ∈ u.getLast?, c ∈ endMarks) :
    holdsUrl (u ++ v) = (holdsUrl u || holdsUrl v) := by
  have hall : (linkHeads.all fun head => endMarks.all fun c =>
      !head.toList.dropLast.contains c) = true := by decide
  have hheads : ∀ head ∈ linkHeads, ∀ c ∈ endMarks, c ∉ head.toList.dropLast := by
    intro head hhead c hc
    have hnot := List.all_eq_true.mp (List.all_eq_true.mp hall head hhead) c hc
    simpa using hnot
  rw [Bool.eq_iff_iff, Bool.or_eq_true, holdsUrl_iff, holdsUrl_iff, holdsUrl_iff, ← exists_or]
  refine exists_congr fun head => ?_
  rw [← and_or_left]
  exact and_congr_right fun hhead =>
    Regex.infix_append_iff fun c hc => hheads head hhead c (h c hc)

variable (U)

/-- Whether what follows a mark lets a sentence end behind it. -/
def canFollow (text : Text) (index : ℕ) : Bool :=
  if index + 1 = text.length then true
  else text[index + 1]?.any fun c => U.isspace c || closingMarks.contains c

/-- Whether a period belongs to a number. -/
def inNumber (text : Text) (index : ℕ) : Bool :=
  0 < index && index + 1 < text.length && text[index - 1]?.any U.isdigit &&
    (text[index + 1]?.any U.isdigit || isListMarkerPeriod U text index)

/-- Whether a word is an abbreviation, but for the periods at its end. -/
def isAbbreviation (word : Text) : Bool :=
  (abbreviations.map String.toList).contains (rstripPeriods (U.lowerText word))

variable {U}

/-- A sentence can end behind a mark that is no period, or one that belongs to no number, abbreviation
or link. -/
lemma canSplitAt_iff : canSplitAt U text i = true ↔ canFollow U text i = true ∧
    (text[i]? = some '.' → inNumber U text i = false ∧
      isAbbreviation U (lastWord U.toUnicodeData (slice text (i - 16) (i + 1))) = false ∧
        holdsUrl (slice text (i - 16) (i + 16)) = false) := by
  have hcan : canSplitAt U text i = if text[i]? = some '.' ∧ (inNumber U text i = true ∨
      (abbreviations.map String.toList).contains
        (((words U.toUnicodeData (U.strip (slice text (i - 16) (i + 1)))).getLast?.map fun last =>
          rstripPeriods (U.lowerText last)).getD []) = true ∨
      holdsUrl (slice text (i - 16) (i + 1) ++ slice text (i + 1) (i + 16)) = true) then false
      else canFollow U text i := rfl
  rw [hcan]
  by_cases hperiod : text[i]? = some '.'
  · have hspace : U.isspace '.' = false := U.isspace_ascii '.' (by decide)
    have hlt : i < text.length := (List.getElem?_eq_some_iff.mp hperiod).1
    have hlast : (slice text (i - 16) (i + 1)).getLast? = some '.' :=
      (slice_getLast? (by omega) hlt).trans hperiod
    have hword : ∀ word, (abbreviations.map String.toList).contains
        (rstripPeriods (U.lowerText word)) = isAbbreviation U word := fun _ => rfl
    rw [getLast?_words_strip hlast hspace, Option.map_some, Option.getD_some, hword,
      slice_append (by omega) (by omega)]
    simp only [hperiod, true_and, forall_const]
    cases inNumber U text i <;> cases holdsUrl (slice text (i - 16) (i + 16)) <;>
      cases isAbbreviation U (lastWord U.toUnicodeData (slice text (i - 16) (i + 1))) <;> simp
  · rw [if_neg fun h => hperiod h.1]
    exact (and_iff_left fun h => absurd h hperiod).symm

/-- What is split off ends with a mark, or with a quote that closes it. -/
lemma CutAt.exists_endMark (h : CutAt U text p) : ∃ c ∈ endMarks, text[p - 1]? = some c := by
  obtain ⟨i, hi, hsplits, hend⟩ := h
  rcases (Nat.le_sub_one_of_lt hi).eq_or_lt with rfl | hlt
  · obtain ⟨c, hmem, hc⟩ := exists_of_isMark hsplits.2.1
    exact ⟨c, List.mem_append_left _ hmem, hc⟩
  · obtain ⟨c, hc, hclosing⟩ := class_of_lt_skipWhile (Nat.succ_le_of_lt hlt)
      (show p - 1 < consumeClosingQuotes text (i + 1) by omega)
    exact ⟨c, List.mem_append_right _ (List.contains_iff_mem.mp hclosing), hc⟩

/-- A link lies before the end of a sentence or behind it. -/
lemma holdsUrl_slice {a b : ℕ} (hmark : ∃ c ∈ endMarks, text[p - 1]? = some c)
    (hp : p ≤ text.length) (ha : a ≤ p) (hb : p ≤ b) :
    holdsUrl (slice text a b) = (holdsUrl (slice text a p) || holdsUrl (slice text p b)) := by
  obtain ⟨c, hmem, hc⟩ := hmark
  rw [← slice_append ha hb, holdsUrl_append]
  intro d hd
  rcases ha.eq_or_lt with rfl | hlt
  · rw [slice, Nat.sub_self, List.take_zero] at hd
    exact absurd hd (by simp)
  · rw [slice_getLast? hlt hp, hc] at hd
    exact Option.some_inj.mp hd ▸ hmem

lemma canFollow_take (hi : i + 1 < p) (hp : p ≤ text.length) :
    canFollow U (text.take p) i = canFollow U text i := by
  rw [canFollow, canFollow, List.length_take_of_le hp, if_neg (by omega), if_neg (by omega),
    List.getElem?_take_of_lt hi]

lemma inNumber_take (hi : i + 1 < p) (hp : p ≤ text.length) :
    inNumber U (text.take p) i = inNumber U text i := by
  have hhead : isListMarkerPeriod U (text.take p) i = isListMarkerPeriod U text i := by
    rw [isListMarkerPeriod, isListMarkerPeriod, slice_take, min_eq_left hi.le]
  have hlength : decide (i + 1 < p) = decide (i + 1 < text.length) := by
    rw [decide_eq_decide]
    omega
  rw [inNumber, inNumber, hhead, List.length_take_of_le hp, hlength, List.getElem?_take_of_lt hi,
    List.getElem?_take_of_lt (by omega)]

/-- A mark that stands before the end of a sentence is decided by what stands there, and by the links
behind it. -/
lemma canSplitAt_take (hmark : ∃ c ∈ endMarks, text[p - 1]? = some c) (hi : i + 1 < p)
    (hp : p ≤ text.length) : canSplitAt U text i = true ↔ canSplitAt U (text.take p) i = true ∧
      (text[i]? = some '.' → holdsUrl (slice text p (i + 16)) = false) := by
  have hurl : holdsUrl (slice text (i - 16) (i + 16)) = false ↔
      holdsUrl (slice (text.take p) (i - 16) (i + 16)) = false ∧
        holdsUrl (slice text p (i + 16)) = false := by
    rw [slice_take]
    rcases le_total p (i + 16) with hle | hle
    · rw [min_eq_right hle, holdsUrl_slice hmark hp (by omega) hle, Bool.or_eq_false_iff]
    · have hnone : slice text p (i + 16) = [] := by
        rw [slice, Nat.sub_eq_zero_of_le hle, List.take_zero]
      rw [min_eq_left hle, hnone]
      exact (and_iff_left (by decide)).symm
  rw [canSplitAt_iff, canSplitAt_iff, canFollow_take hi hp, inNumber_take hi hp,
    List.getElem?_take_of_lt (by omega), slice_take, min_eq_left hi.le, hurl]
  constructor
  · rintro ⟨hfollow, h⟩
    exact ⟨⟨hfollow, fun hperiod => ⟨(h hperiod).1, (h hperiod).2.1, (h hperiod).2.2.1⟩⟩,
      fun hperiod => (h hperiod).2.2.2⟩
  · rintro ⟨⟨hfollow, h⟩, hlink⟩
    exact ⟨hfollow, fun hperiod =>
      ⟨(h hperiod).1, (h hperiod).2.1, (h hperiod).2.2, hlink hperiod⟩⟩

end

section

variable (U : UnicodeTables)

/-- What the tables of the interpreter say of marks and closing quotes. -/
structure MarksPlain : Prop where
  isspace : ∀ c ∈ endMarks, U.isspace c = false
  isdigit : ∀ c ∈ endMarks, U.isdigit c = false
  lower : ∀ c ∈ closingMarks, U.lower c = [c]

/-- Whether a text is the number that opens a line, up to its period. -/
def opensNumber (text : Text) : Bool :=
  matchWholeLine (.seq (.atLeast 0 U.isspace)
    (.seq (.atLeast 1 isListDigit) (.cls (· == '.')))) text

/-- A link that was said before a position is near a period behind it. -/
def LinkNear (text : Text) (position i : ℕ) : Prop :=
  text[position + i]? = some '.' ∧ holdsUrl (slice text (position + i - 16) position) = true

/-- What is said from a position up to a period is a number or an abbreviation there, but not in the
whole text: there the number opens no line, and the word is glued to what was said before. -/
def OpensAlone (text : Text) (position i : ℕ) : Prop :=
  text[position + i]? = some '.' ∧
    (text[position + i - 1]?.any U.isdigit = true ∧
        opensNumber U (slice text position (position + i + 1)) = true ∨
      i < 16 ∧ (∀ c ∈ slice text position (position + i + 1), U.isspace c = false) ∧
        isAbbreviation U (slice text position (position + i + 1)) = true)

end

section

variable {U : UnicodeTables} {text : Text} {i p : ℕ}

/-! ### Numbers that open a line -/

lemma mem_of_opensNumber (h : opensNumber U text = true) {c : Char} (hc : c ∈ text.dropLast) :
    U.isspace c = true ∨ isListDigit c = true := by
  obtain ⟨q, hq, hend⟩ := List.any_eq_true.mp h
  obtain ⟨q₁, hq₁, hq⟩ := List.mem_flatMap.mp hq
  obtain ⟨q₂, hq₂, hq⟩ := List.mem_flatMap.mp hq
  obtain ⟨blank, hblank, hspace⟩ := Regex.exists_run hq₁
  obtain ⟨digits, hdigits, hdigit⟩ := Regex.exists_run hq₂
  obtain ⟨prev, _ | ⟨d, rest⟩⟩ := q₂
  · exact absurd hq List.not_mem_nil
  rw [Regex.Pattern.ends] at hq
  split_ifs at hq
  · obtain rfl := List.mem_singleton.mp hq
    obtain rfl := List.isEmpty_iff.mp hend
    rw [hblank, hdigits, ← List.append_assoc, List.dropLast_concat] at hc
    rcases List.mem_append.mp hc with hc | hc
    · exact .inl (hspace c hc)
    · exact .inr (hdigit c hc)
  · exact absurd hq List.not_mem_nil

/-- A number opens a line where a text or a line begins with it. -/
lemma isListMarkerPeriod_iff : isListMarkerPeriod U text i = true ↔
    ∃ before line, text.take (i + 1) = before ++ line ∧
      (before = [] ∨ before.getLast? = some '\n') ∧ opensNumber U line = true := by
  have hhead : slice text 0 (i + 1) = text.take (i + 1) := rfl
  rw [isListMarkerPeriod, hhead, List.any_eq_true]
  constructor
  · rintro ⟨k, hk, h⟩
    rw [Bool.and_eq_true, Bool.or_eq_true, decide_eq_true_eq, decide_eq_true_eq] at h
    refine ⟨_, _, (List.take_append_drop k _).symm, ?_, h.2⟩
    rcases k.eq_zero_or_pos with rfl | hpos
    · exact .inl List.take_zero
    · rw [List.mem_range, Nat.lt_succ_iff] at hk
      rw [List.getLast?_eq_getElem?, List.length_take_of_le hk, List.getElem?_take_of_lt (by omega)]
      exact .inr (h.1.resolve_left hpos.ne')
  · rintro ⟨before, line, heq, hbefore, hline⟩
    refine ⟨before.length, ?_, ?_⟩
    · rw [List.mem_range, heq, List.length_append]
      omega
    · rw [Bool.and_eq_true, Bool.or_eq_true, decide_eq_true_eq, decide_eq_true_eq, heq,
        List.drop_left]
      refine ⟨?_, hline⟩
      rcases before.eq_nil_or_concat with rfl | ⟨front, c, rfl⟩
      · exact .inl rfl
      · have hbreak := hbefore.resolve_left (by simp)
        simpa using hbreak

/-- Behind the end of a sentence a number opens a line, if it does so in the whole text, or if it is
the first that follows. -/
lemma isListMarkerPeriod_drop (hplain : MarksPlain U) (hmark : ∃ c ∈ endMarks, text[p - 1]? = some c)
    (hpos : 0 < p) (hi : p + i < text.length) : isListMarkerPeriod U (text.drop p) i = true ↔
      isListMarkerPeriod U text (p + i) = true ∨ opensNumber U (slice text p (p + i + 1)) = true := by
  obtain ⟨c, hmem, hc⟩ := hmark
  have hdigits : (endMarks.all fun c => !isListDigit c && c != '\n') = true := by decide
  have hend := List.all_eq_true.mp hdigits c hmem
  rw [Bool.and_eq_true, Bool.not_eq_true', bne_iff_ne] at hend
  have hlast : (text.take p).getLast? = some c := by
    rw [List.getLast?_eq_getElem?, List.length_take_of_le (by omega),
      List.getElem?_take_of_lt (by omega), hc]
  have hpart : slice text p (p + i + 1) = (text.drop p).take (i + 1) := by
    rw [slice, Nat.add_assoc, Nat.add_sub_cancel_left]
  have hne : (text.drop p).take (i + 1) ≠ [] := by
    rw [ne_eq, ← List.length_eq_zero_iff, List.length_take, List.length_drop]
    omega
  have hwhole : text.take (p + i + 1) = text.take p ++ (text.drop p).take (i + 1) := by
    rw [Nat.add_assoc, List.take_add]
  have hnot : ∀ before, before.getLast? = some c → ¬(before = [] ∨ before.getLast? = some '\n') := by
    rintro before hbefore (rfl | hbreak)
    · cases hbefore
    · exact hend.2 (Option.some_inj.mp (hbefore.symm.trans hbreak))
  rw [isListMarkerPeriod_iff, isListMarkerPeriod_iff, hwhole, hpart]
  constructor
  · rintro ⟨before, line, heq, hbefore, hline⟩
    rcases hbefore with rfl | hbreak
    · exact .inr (heq ▸ hline)
    · refine .inl ⟨text.take p ++ before, line, by rw [heq, List.append_assoc], .inr ?_, hline⟩
      rw [List.getLast?_append, hbreak, Option.some_or]
  · rintro (⟨before, line, heq, hbefore, hline⟩ | hline)
    · rcases List.append_eq_append_iff.mp heq with ⟨middle, rfl, hsplit⟩ | ⟨middle, hsplit, rfl⟩
      · refine ⟨middle, line, hsplit, ?_, hline⟩
        rcases middle.eq_nil_or_concat with rfl | ⟨front, d, rfl⟩
        · exact .inl rfl
        · refine .inr ?_
          have hbreak := hbefore.resolve_left (by simp)
          rw [List.concat_eq_append, ← List.append_assoc, List.getLast?_concat] at hbreak
          rw [List.concat_eq_append, List.getLast?_concat, hbreak]
      · rcases middle.eq_nil_or_concat with rfl | ⟨front, d, rfl⟩
        · rw [List.append_nil] at hsplit
          exact absurd hbefore (hnot before (hsplit ▸ hlast))
        · -- the number would begin before the end of the sentence
          rw [hsplit, List.concat_eq_append, ← List.append_assoc, List.getLast?_concat,
            Option.some_inj] at hlast
          subst hlast
          have hmem' : d ∈ (front.concat d ++ (text.drop p).take (i + 1)).dropLast := by
            rw [List.dropLast_append_of_ne_nil hne]
            simp
          rcases mem_of_opensNumber hline hmem' with hspace | hdigit
          · rw [hplain.isspace d hmem] at hspace
            exact absurd hspace Bool.false_ne_true
          · rw [hend.1] at hdigit
            exact absurd hdigit Bool.false_ne_true
    · exact ⟨[], _, rfl, .inl rfl, hline⟩

/-! ### The decision behind the end of a sentence -/

lemma canFollow_drop :
    canFollow U (text.drop p) i = canFollow U text (p + i) := by
  have hlength : i + 1 = (text.drop p).length ↔ p + i + 1 = text.length := by
    rw [List.length_drop]
    omega
  simp only [canFollow, hlength, List.getElem?_drop, Nat.add_assoc]

lemma inNumber_drop (hplain : MarksPlain U) (hmark : ∃ c ∈ endMarks, text[p - 1]? = some c)
    (hpos : 0 < p) (hi : p + i + 1 < text.length) : inNumber U (text.drop p) i = true ↔
      inNumber U text (p + i) = true ∨ text[p + i - 1]?.any U.isdigit = true ∧
        opensNumber U (slice text p (p + i + 1)) = true := by
  have hmarker := isListMarkerPeriod_drop hplain hmark hpos (by omega : p + i < text.length)
  have hdigit : 0 < i ∧ (text.drop p)[i - 1]?.any U.isdigit = true ↔
      text[p + i - 1]?.any U.isdigit = true := by
    rcases i.eq_zero_or_pos with rfl | hpos'
    · obtain ⟨c, hmem, hc⟩ := hmark
      rw [Nat.add_zero, hc, Option.any_some, hplain.isdigit c hmem]
      simp
    · rw [List.getElem?_drop, Nat.add_sub_assoc hpos']
      exact and_iff_right hpos'
  have hnumber : ∀ {t : Text} {j : ℕ}, j + 1 < t.length → (inNumber U t j = true ↔
      (0 < j ∧ t[j - 1]?.any U.isdigit = true) ∧
        (t[j + 1]?.any U.isdigit = true ∨ isListMarkerPeriod U t j = true)) := by
    intro t j hj
    rw [inNumber, Bool.and_eq_true, Bool.and_eq_true, Bool.and_eq_true, Bool.or_eq_true,
      decide_eq_true_eq, decide_eq_true_eq, and_iff_left hj]
  rw [hnumber hi, hnumber (by rw [List.length_drop]; omega), hdigit, hmarker, List.getElem?_drop,
    and_iff_right (show 0 < p + i by omega), ← or_assoc, and_or_left, Nat.add_assoc p i 1]

/-- No abbreviation holds a closing quote. -/
lemma isAbbreviation_of_mem (hplain : MarksPlain U) {c : Char} {word : Text}
    (hc : c ∈ closingMarks) (hmem : c ∈ word) : isAbbreviation U word = false := by
  have hall : (abbreviations.all fun a => closingMarks.all fun c => !a.toList.contains c) = true := by
    decide
  have hlower : c ∈ U.lowerText word :=
    List.mem_flatMap.mpr ⟨c, hmem, by rw [hplain.lower c hc]; exact List.mem_singleton_self c⟩
  have hstripped : c ∈ rstripPeriods (U.lowerText word) := by
    rw [rstripPeriods, List.mem_reverse]
    have hsplit := List.takeWhile_append_dropWhile (p := (· = '.')) (l := (U.lowerText word).reverse)
    rw [← List.mem_reverse, ← hsplit, List.mem_append] at hlower
    refine hlower.resolve_left fun hperiod => ?_
    have := List.mem_takeWhile_imp hperiod
    rw [decide_eq_true_eq] at this
    subst this
    exact absurd hc (by decide)
  rw [← Bool.not_eq_true, isAbbreviation, List.contains_iff_mem, List.mem_map]
  rintro ⟨a, ha, heq⟩
  have hnot := List.all_eq_true.mp (List.all_eq_true.mp hall a ha) c hc
  rw [Bool.not_eq_true', ← Bool.not_eq_true, List.contains_iff_mem, heq] at hnot
  exact hnot hstripped

/-- What is split off ends with a closing quote, or with a mark that white space follows. -/
lemma CutAt.closes (h : CutAt U text p) (hp : p < text.length) : ∃ c, text[p - 1]? = some c ∧
    (c ∈ closingMarks ∨ ∃ d, text[p]? = some d ∧ U.isspace d = true) := by
  obtain ⟨c, hmem, hc⟩ := h.exists_endMark
  refine ⟨c, hc, ?_⟩
  obtain ⟨i, hi, hsplits, hend⟩ := h
  rcases (Nat.le_sub_one_of_lt hi).eq_or_lt with rfl | hlt
  · right
    obtain ⟨d, hd, hclosing⟩ := class_skipWhile le_rfl (hend.trans_lt hp)
    have hfollow := (canSplitAt_iff.mp hsplits.2.2).1
    rw [consumeClosingQuotes] at hend
    rw [hend] at hd
    rw [canFollow, if_neg (by omega), show p - 1 + 1 = p by omega, hd, Option.any_some, hclosing,
      Bool.or_false] at hfollow
    exact ⟨d, hd, hfollow⟩
  · obtain ⟨d, hd, hclosing⟩ := class_of_lt_skipWhile (Nat.succ_le_of_lt hlt)
      (show p - 1 < consumeClosingQuotes text (i + 1) by omega)
    rw [hd, Option.some_inj] at hc
    exact .inl (List.contains_iff_mem.mp (hc ▸ hclosing))

/-- Behind the end of a sentence a word is an abbreviation, if it is one in the whole text, or if it is
glued to what was said before and would be one without it. -/
lemma isAbbreviation_drop (hplain : MarksPlain U) (hcut : CutAt U text p)
    (hi : p + i < text.length) :
    isAbbreviation U (lastWord U.toUnicodeData (slice (text.drop p) (i - 16) (i + 1))) = true ↔
      isAbbreviation U (lastWord U.toUnicodeData (slice text (p + i - 16) (p + i + 1))) = true ∨
        i < 16 ∧ (∀ c ∈ slice text p (p + i + 1), U.isspace c = false) ∧
          isAbbreviation U (slice text p (p + i + 1)) = true := by
  obtain ⟨c, hc, hclosing⟩ := hcut.closes (by omega)
  have hpos : 0 < p := by
    obtain ⟨j, hj, -⟩ := hcut
    omega
  rw [slice_drop]
  rcases Nat.lt_or_ge i 16 with hlt | hge
  swap
  · rw [Nat.add_sub_assoc hge, Nat.add_assoc, iff_self_or]
    exact fun h => absurd h.1 (not_lt.mpr hge)
  rw [Nat.sub_eq_zero_of_le hlt.le, Nat.add_zero, ← slice_append (by omega : p + i - 16 ≤ p)
    (by omega : p ≤ p + i + 1), ← Nat.add_assoc]
  by_cases hblank : ∀ d ∈ slice text p (p + i + 1), U.isspace d = false
  · rw [lastWord_eq_self hblank, lastWord_append hblank]
    have hquote : c ∈ closingMarks := by
      refine hclosing.resolve_right ?_
      rintro ⟨d, hd, hspace⟩
      rw [hblank d (mem_slice_of_getElem? hd le_rfl (by omega))] at hspace
      exact Bool.false_ne_true hspace
    have hword : c ∈ lastWord U.toUnicodeData (slice text (p + i - 16) p) :=
      mem_lastWord ((slice_getLast? (by omega) (by omega)).trans hc)
        (hplain.isspace c (List.mem_append_right _ hquote))
    rw [isAbbreviation_of_mem hplain hquote (List.mem_append_left _ hword)]
    exact ⟨fun h => .inr ⟨hlt, hblank, h⟩, fun h => (h.resolve_left Bool.false_ne_true).2.2⟩
  · have hwords : lastWord U.toUnicodeData (slice text (p + i - 16) p ++
        slice text p (p + i + 1)) = lastWord U.toUnicodeData (slice text p (p + i + 1)) := by
      push Not at hblank
      obtain ⟨d, hd, hspace⟩ := hblank
      obtain ⟨before, behind, heq⟩ := List.append_of_mem hd
      rw [heq, ← List.append_assoc, lastWord_append_cons (Bool.not_eq_false _ ▸ hspace),
        lastWord_append_cons (Bool.not_eq_false _ ▸ hspace)]
    rw [hwords]
    exact (or_iff_left fun h => hblank h.2.1).symm

lemma holdsUrl_drop (hmark : ∃ c ∈ endMarks, text[p - 1]? = some c) (hp : p ≤ text.length) :
    holdsUrl (slice text (p + i - 16) (p + i + 16)) =
      (holdsUrl (slice text (p + i - 16) p) ||
        holdsUrl (slice (text.drop p) (i - 16) (i + 16))) := by
  rw [slice_drop]
  rcases Nat.lt_or_ge i 16 with hlt | hge
  · rw [Nat.sub_eq_zero_of_le hlt.le, Nat.add_zero, ← Nat.add_assoc]
    exact holdsUrl_slice hmark hp (by omega) (by omega)
  · have hnone : slice text (p + i - 16) p = [] := by
      rw [slice, Nat.sub_eq_zero_of_le (by omega), List.take_zero]
    rw [hnone, Nat.add_sub_assoc hge, Nat.add_assoc]
    rfl

/-- A mark behind the end of a sentence is decided by what follows there, but for the links that were
said before, and for what is a number or an abbreviation only there. -/
lemma canSplitAt_drop (hplain : MarksPlain U) (hcut : CutAt U text p)
    (hi : p + i + 1 < text.length) : ∃ free : Prop,
      (canSplitAt U text (p + i) = true ↔ free ∧ ¬LinkNear text p i) ∧
        (canSplitAt U (text.drop p) i = true ↔ free ∧ ¬OpensAlone U text p i) := by
  have hpos : 0 < p := by
    obtain ⟨j, hj, -⟩ := hcut
    omega
  have hmark := hcut.exists_endMark
  have hnumber := inNumber_drop hplain hmark hpos hi
  have hword := isAbbreviation_drop hplain hcut (by omega : p + i < text.length)
  have hurl : holdsUrl (slice text (p + i - 16) (p + i + 16)) = _ := holdsUrl_drop hmark (by omega)
  rw [canSplitAt_iff, canSplitAt_iff, canFollow_drop, List.getElem?_drop, LinkNear, OpensAlone]
  by_cases hperiod : text[p + i]? = some '.'
  · refine ⟨canFollow U text (p + i) = true ∧ inNumber U text (p + i) = false ∧
      isAbbreviation U (lastWord U.toUnicodeData (slice text (p + i - 16) (p + i + 1))) = false ∧
        holdsUrl (slice (text.drop p) (i - 16) (i + 16)) = false, ?_, ?_⟩
    · rw [hurl, Bool.or_eq_false_iff, and_iff_right hperiod, Bool.not_eq_true]
      constructor
      · rintro ⟨hfollow, h⟩
        obtain ⟨hnot, hnone, hlink, hbehind⟩ := h hperiod
        exact ⟨⟨hfollow, hnot, hnone, hbehind⟩, hlink⟩
      · rintro ⟨⟨hfollow, hnot, hnone, hbehind⟩, hlink⟩
        exact ⟨hfollow, fun _ => ⟨hnot, hnone, hlink, hbehind⟩⟩
    · rw [and_iff_right hperiod, not_or]
      rw [← Bool.not_eq_true, hnumber, not_or] 
      constructor
      · rintro ⟨hfollow, h⟩
        obtain ⟨⟨hnot, halone⟩, hnone, hbehind⟩ := h hperiod
        rw [← Bool.not_eq_true, hword, not_or] at hnone
        exact ⟨⟨hfollow, Bool.eq_false_iff.mpr hnot, Bool.eq_false_iff.mpr hnone.1, hbehind⟩,
          halone, hnone.2⟩
      · rintro ⟨⟨hfollow, hnot, hnone, hbehind⟩, halone, hglued⟩
        refine ⟨hfollow, fun _ => ⟨⟨Bool.eq_false_iff.mp hnot, halone⟩, ?_, hbehind⟩⟩
        rw [← Bool.not_eq_true, hword, not_or]
        exact ⟨Bool.eq_false_iff.mp hnone, hglued⟩
  · exact ⟨canFollow U text (p + i) = true, by simp [hperiod], by simp [hperiod]⟩

end

/-! ### Quotes that close a sentence -/

/-- The quotes at the end of a text, the last one first. -/
def closingRun (text : Text) : Text := text.reverse.takeWhile closingMarks.contains

/-- What is open behind a number of plain quotes. -/
def openAfter (n : ℕ) : List Char := if n % 2 = 1 then ['"'] else []

section

variable {U : UnicodeTables} {text : Text} {i p : ℕ}

/-- Only the plain ones among closing quotes open or close. -/
lemma foldl_updateQuoteStack {quotes : Text} (h : ∀ c ∈ quotes, c ∈ closingMarks) (n : ℕ) :
    quotes.foldl updateQuoteStack (openAfter n) = openAfter (n + quotes.count '"') := by
  induction quotes generalizing n with
  | nil => rfl
  | cons c rest ih =>
      obtain ⟨hc, hrest⟩ := List.forall_mem_cons.mp h
      have hstep : updateQuoteStack (openAfter n) c = openAfter (n + if c = '"' then 1 else 0) := by
        simp only [closingMarks, List.mem_cons, List.not_mem_nil, or_false] at hc
        rcases Nat.mod_two_eq_zero_or_one n with hn | hn <;>
          rcases hc with rfl | rfl | rfl | rfl <;>
          simp [openAfter, updateQuoteStack, Nat.add_mod, hn]
      rw [List.foldl_cons, hstep, ih hrest, List.count_cons, Nat.add_assoc,
        Nat.add_comm (if c = '"' then 1 else 0)]
      simp only [beq_iff_eq]

/-- What is open at the end of a sentence: a plain quote, if an odd number of them was moved over. -/
lemma openQuotes_take (hcut : CutAt U text p) :
    openQuotes (text.take p) = openAfter ((closingRun (text.take p)).count '"') := by
  obtain ⟨j, hj, hsplits, hend⟩ := hcut
  obtain ⟨c, hpunctuation, hc⟩ := exists_of_isMark hsplits.2.1
  have hhead : text.take (j + 1) = text.take j ++ [c] := by
    rw [List.take_add_one, hc]
    rfl
  have hsplit : text.take p = text.take (j + 1) ++ slice text (j + 1) p := by
    rw [slice, ← List.take_add, Nat.add_sub_cancel' (Nat.succ_le_of_lt hj)]
  have hclosing : ∀ d ∈ slice text (j + 1) p, d ∈ closingMarks := by
    intro d hd
    obtain ⟨k, hk⟩ := List.mem_iff_getElem?.mp hd
    have hlt : k < (slice text (j + 1) p).length := (List.getElem?_eq_some_iff.mp hk).1
    rw [slice_length] at hlt
    rw [slice_getElem? text (by omega)] at hk
    obtain ⟨e, he, hmem⟩ := class_of_lt_skipWhile (Nat.le_add_right (j + 1) k)
      (show j + 1 + k < consumeClosingQuotes text (j + 1) by omega)
    rw [hk, Option.some_inj] at he
    exact List.contains_iff_mem.mp (he ▸ hmem)
  have hrun : closingRun (text.take p) = (slice text (j + 1) p).reverse := by
    rw [closingRun, hsplit, hhead, List.reverse_append, List.takeWhile_append_of_pos,
      List.reverse_concat, List.takeWhile_cons_of_neg, List.append_nil]
    · rw [not_closing_of_isMark hsplits.2.1 hc]
      exact Bool.false_ne_true
    · exact fun d hd => List.contains_iff_mem.mpr (hclosing d (List.mem_reverse.mp hd))
  have hopen : openQuotes (text.take (j + 1)) = openAfter 0 := hsplits.1
  rw [hrun, List.count_reverse, hsplit, openQuotes, List.foldl_append]
  change (slice text (j + 1) p).foldl updateQuoteStack (openQuotes (text.take (j + 1))) = _
  rw [hopen, foldl_updateQuoteStack hclosing, Nat.zero_add]

/-- A quote that is open before a text and one that is not are never both closed in it. -/
lemma openQuotes_differ (text : Text) :
    text.foldl updateQuoteStack ['"'] = text.foldl updateQuoteStack [] ++ ['"'] ∨
      text.foldl updateQuoteStack [] = text.foldl updateQuoteStack ['"'] ++ ['"'] := by
  have hstep : ∀ stack c, updateQuoteStack (stack ++ ['"']) c = updateQuoteStack stack c ++ ['"'] ∨
      updateQuoteStack stack c = updateQuoteStack (stack ++ ['"']) c ++ ['"'] := by
    intro stack c
    cases stack with
    | nil =>
        simp only [updateQuoteStack]
        split_ifs <;> simp_all
    | cons top below =>
        rw [List.cons_append, updateQuoteStack, updateQuoteStack]
        split_ifs <;> simp
  induction text using List.reverseRecOn with
  | nil => exact .inl rfl
  | append_singleton text c ih =>
      simp only [List.foldl_append, List.foldl_cons, List.foldl_nil]
      rcases ih with h | h <;> rw [h]
      · exact hstep _ c
      · exact (hstep _ c).symm

end

/-- What is said on one side of a position is not read on the other: an odd number of plain quotes
that close the sentence before it has no sentence split off behind it, no sentence that ends before
it has a link near its period behind it, no sentence that ends behind it has a link near its period
before it, and none ends with what is a number or an abbreviation only there. -/
structure KeptApart (U : UnicodeTables) (text : Text) (position : ℕ) : Prop where
  quotes : (closingRun (text.take position)).count '"' % 2 = 1 → ∀ i,
    consumeClosingQuotes text (position + i + 1) < text.length →
      ¬SplitsAt U (text.drop position) i ∧ ¬SplitsAt U text (position + i)
  linkBehind : ∀ i, SplitsAt U (text.take position) i →
    consumeClosingQuotes text (i + 1) < position → text[i]? = some '.' →
      holdsUrl (slice text position (i + 16)) = false
  linkBefore : ∀ i, SplitsAt U (text.drop position) i →
    consumeClosingQuotes text (position + i + 1) < text.length → ¬LinkNear text position i
  opening : ∀ i, SplitsAt U text (position + i) →
    consumeClosingQuotes text (position + i + 1) < text.length → ¬OpensAlone U text position i

section

variable {U : UnicodeTables} {text : Text} {i p : ℕ}

lemma splitsAt_take (hi : i < p) : SplitsAt U (text.take p) i ↔
    openQuotes (text.take (i + 1)) = [] ∧ isMark text i = true ∧
      canSplitAt U (text.take p) i = true := by
  rw [SplitsAt, List.take_take, min_eq_left (Nat.succ_le_of_lt hi), isMark_take hi]

/-- The marks before the end of a sentence are decided alike exactly when no link behind it is near
them. -/
lemma finished_iff_linkBehind (hcut : CutAt U text p) (hp : p ≤ text.length) :
    (∀ i, consumeClosingQuotes text (i + 1) < p →
      (SplitsAt U (text.take p) i ↔ SplitsAt U text i)) ↔
    ∀ i, SplitsAt U (text.take p) i → consumeClosingQuotes text (i + 1) < p →
      text[i]? = some '.' → holdsUrl (slice text p (i + 16)) = false := by
  have hsplits : ∀ i, consumeClosingQuotes text (i + 1) < p → (SplitsAt U text i ↔
      SplitsAt U (text.take p) i ∧
        (text[i]? = some '.' → holdsUrl (slice text p (i + 16)) = false)) := by
    intro i hlt
    have hi : i + 1 < p := (le_consumeClosingQuotes text (i + 1)).trans_lt hlt
    rw [splitsAt_take (Nat.lt_of_succ_lt hi), SplitsAt,
      canSplitAt_take hcut.exists_endMark hi hp, and_assoc, and_assoc]
  refine forall_congr' fun i => ?_
  constructor
  · exact fun h hpart hlt => ((hsplits i hlt).mp ((h hlt).mp hpart)).2
  · intro h hlt
    rw [hsplits i hlt]
    exact (and_iff_left_of_imp fun hpart => h hpart hlt).symm

/-- The decisions behind the end of a sentence, but for the quotes that are open. -/
lemma exists_free (hplain : MarksPlain U) (hcut : CutAt U text p)
    (hlt : consumeClosingQuotes text (p + i + 1) < text.length) : ∃ free : Prop,
      (SplitsAt U text (p + i) ↔
        openQuotes (text.take (p + i + 1)) = [] ∧ free ∧ ¬LinkNear text p i) ∧
      (SplitsAt U (text.drop p) i ↔
        openQuotes ((text.drop p).take (i + 1)) = [] ∧ free ∧ ¬OpensAlone U text p i) := by
  obtain ⟨free, hwhole, hpart⟩ :=
    canSplitAt_drop hplain hcut ((le_consumeClosingQuotes _ _).trans_lt hlt)
  refine ⟨isMark text (p + i) = true ∧ free, ?_, ?_⟩
  · rw [SplitsAt, hwhole, and_assoc]
  · rw [SplitsAt, isMark_drop, hpart, and_assoc]

/-- The marks are decided alike on both sides of the end of a sentence exactly when nothing is read
across it. -/
lemma decidedApart_iff (hplain : MarksPlain U) (hcut : CutAt U text p) (hp : p < text.length) :
    DecidedApart U text p ↔ KeptApart U text p := by
  have hquotes : ∀ i, openQuotes (text.take (p + i + 1)) = ((text.drop p).take (i + 1)).foldl
      updateQuoteStack (openAfter ((closingRun (text.take p)).count '"')) := by
    intro i
    rw [← openQuotes_take hcut, Nat.add_assoc, List.take_add, openQuotes, List.foldl_append]
    rfl
  constructor
  · intro h
    refine ⟨fun hodd i hlt => ?_, (finished_iff_linkBehind hcut hp.le).mp h.finished,
      fun i hsplits hlt => ?_, fun i hsplits hlt => ?_⟩
    · have hnot : ¬SplitsAt U (text.drop p) i := by
        intro hsplits
        have hpart : ((text.drop p).take (i + 1)).foldl updateQuoteStack [] = [] := hsplits.1
        have hwhole := ((h.following i hlt).mp hsplits).1
        rw [hquotes, openAfter, if_pos hodd] at hwhole
        rcases openQuotes_differ ((text.drop p).take (i + 1)) with hopen | hopen <;>
          rw [hpart, hwhole] at hopen <;> cases hopen
      exact ⟨hnot, (h.following i hlt).not.mp hnot⟩
    · obtain ⟨free, hwhole, -⟩ := exists_free hplain hcut hlt
      exact (hwhole.mp ((h.following i hlt).mp hsplits)).2.2
    · obtain ⟨free, -, hpart⟩ := exists_free hplain hcut hlt
      exact (hpart.mp ((h.following i hlt).mpr hsplits)).2.2
  · intro h
    refine ⟨(finished_iff_linkBehind hcut hp.le).mpr h.linkBehind, fun i hlt => ?_⟩
    by_cases hodd : (closingRun (text.take p)).count '"' % 2 = 1
    · exact iff_of_false (h.quotes hodd i hlt).1 (h.quotes hodd i hlt).2
    have hopen : openQuotes (text.take (p + i + 1)) = openQuotes ((text.drop p).take (i + 1)) := by
      rw [hquotes, openAfter, if_neg hodd, openQuotes]
    obtain ⟨free, hwhole, hpart⟩ := exists_free hplain hcut hlt
    constructor
    · intro hsplits
      obtain ⟨hclosed, hfree, -⟩ := hpart.mp hsplits
      exact hwhole.mpr ⟨hopen.trans hclosed, hfree, h.linkBefore i hsplits hlt⟩
    · intro hsplits
      obtain ⟨hclosed, hfree, -⟩ := hwhole.mp hsplits
      exact hpart.mpr ⟨hopen.symm.trans hclosed, hfree, h.opening i hsplits hlt⟩

/-- **Splitting a text at the end of one of its sentences is splitting its two parts, exactly when
nothing is read across the end.** -/
theorem splitsApart_iff (hplain : MarksPlain U) {absoluteStart : ℕ}
    (hp : EndsSentence U text absoluteStart p) :
    SplitsApart U text absoluteStart p ↔ KeptApart U text p := by
  have hink : ∀ c ∈ sentencePunctuation, U.isspace c = false := fun c hc =>
    hplain.isspace c (List.mem_append_left _ hc)
  have hle : p ≤ text.length := by
    obtain ⟨s, hs, hend⟩ := hp
    have := splitSentences_bounds hs
    omega
  rcases hle.eq_or_lt with rfl | hlt
  · -- nothing follows the end of the text
    have hbehind : ∀ i, ¬consumeClosingQuotes text (text.length + i + 1) < text.length := by
      intro i
      have := le_consumeClosingQuotes text (text.length + i + 1)
      omega
    have hnone : ∀ n, slice text text.length n = [] := fun n => by
      rw [slice, List.drop_length, List.take_nil]
    refine iff_of_true ?_ ⟨fun _ i h => absurd h (hbehind i), fun i _ _ _ => ?_,
      fun i _ h => absurd h (hbehind i), fun i _ h => absurd h (hbehind i)⟩
    · rw [SplitsApart, List.take_length, List.drop_length]
      exact (List.append_nil _).symm
    · rw [hnone]
      decide
  · have hcut := (endsSentence_iff hink hlt).mp hp
    rw [splitsApart_iff_decidedApart hink hcut hlt, decidedApart_iff hplain hcut hlt]

lemma marksPlain_basicLatin : MarksPlain basicLatinTables := by
  have hall : (endMarks.all fun c => !basicLatinTables.isspace c && !basicLatinTables.isdigit c) =
      true := by decide
  have hplain : ∀ c ∈ endMarks, basicLatinTables.isspace c = false ∧
      basicLatinTables.isdigit c = false := by
    intro c hc
    have hc' := List.all_eq_true.mp hall c hc
    rwa [Bool.and_eq_true, Bool.not_eq_true', Bool.not_eq_true'] at hc'
  have hlower : (closingMarks.all fun c => basicLatinTables.lower c == [c]) = true := by decide
  exact ⟨fun c hc => (hplain c hc).1, fun c hc => (hplain c hc).2,
    fun c hc => eq_of_beq (List.all_eq_true.mp hlower c hc)⟩

/-- Two sentences without quotes. -/
theorem splitsApart_iff_greeting : SplitsApart basicLatinTables "Hi there. Go on.".toList 0 9 ↔
    KeptApart basicLatinTables "Hi there. Go on.".toList 9 :=
  splitsApart_iff marksPlain_basicLatin (by decide +kernel)

end

/-! ### A quote and a link in what was said before, and a link in what follows -/

/-- A sentence closed by a quote that it does not open. -/
def quotedStop : Text := "Stop.\" Go. Run.".toList

/-- A link, and two sentences. -/
def linkBefore : Text := "See www.x.com! Ok. Go.".toList

/-- Two sentences, and a link. -/
def linkBehind : Text := "Go. Ok? www.x".toList

/-- The quote that closes a sentence is opened behind it, so that no later one is split off; a link
in a finished sentence keeps the next one from ending; a link that follows a sentence keeps one
before it from ending. -/
theorem not_splitsApart :
    (EndsSentence basicLatinTables quotedStop 0 6 ∧ ¬ SplitsApart basicLatinTables quotedStop 0 6) ∧
      (EndsSentence basicLatinTables linkBefore 0 14 ∧
        ¬ SplitsApart basicLatinTables linkBefore 0 14) ∧
      EndsSentence basicLatinTables linkBehind 0 7 ∧
        ¬ SplitsApart basicLatinTables linkBehind 0 7 := by
  decide +kernel

end SentenceSegmenter

end Memorist
