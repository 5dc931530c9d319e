import Memorist.Library.Correspond
import Memorist.Library.Cover
import Memorist.Text.FencedCode
import Memorist.Text.Lines

/-!
Sentence spans over the raw text (`textsemantics/segmentation.py`).

* `proseRanges`: the scan of a block of prose, which stops at terminators, at blank lines and at list
  items;
* `segmentSentences`: the spans of all blocks;
* `ProseScan.Covers`: what holds of the scan before every character. The ranges found so far are tight
  and cover the ink up to the cursor;
* `segmentSentences_covers`: **the spans are in order, and every character that is not white space lies
  in exactly one of them.**
-/

namespace Memorist

/-! ### Marks -/

/-- The marks that end a sentence when white space follows. -/
def sentenceTerminators : List Char :=
  ['.', '!', '?', '؟', '۔', '‼', '⁇', '⁈', '⁉', '。', '！', '？']

/-- What may close behind a terminator. -/
def closingQuotes : List Char := ['"', '\'', '”', '»', '’', ')', ']', '}']

/-- The words that keep a period from ending a sentence. -/
def abbreviations : List String :=
  ["e.g", "i.e", "etc", "vs", "mr", "mrs", "ms", "dr", "prof", "fig", "no", "al", "inc", "ltd"]

/-- The bullets of a list item. -/
def listBullets : List Char := ['-', '*', '+', '•', '—', '–']

/-- How far back an abbreviation is looked for. -/
def maxAbbreviationLookback : ℕ := 16

/-! ### Runs of characters -/

section

variable (p : Char → Bool)

/-- The position behind a run of characters of a class. -/
def skipWhile (raw : Text) (start stop : ℕ) : ℕ :=
  start + ((slice raw start stop).takeWhile p).length

/-- The position before a run of characters of a class. -/
def skipBackWhile (raw : Text) (start stop : ℕ) : ℕ :=
  stop - ((slice raw start stop).reverse.takeWhile p).length

end

section

variable (U : UnicodeTables)

/-- Tighten a range onto characters that are not white space. -/
def trim (raw : Text) (start stop : ℕ) : Option Span :=
  let first := skipWhile U.isspace raw start stop
  let last := skipBackWhile U.isspace raw first stop
  if first < last then some ⟨first, last⟩ else none

/-- The position behind the quotes that close a sentence. -/
def consumeClosing (raw : Text) (index stop : ℕ) : ℕ :=
  skipWhile closingQuotes.contains raw index stop

/-- Whether a period belongs to a number at the beginning of its line. -/
def isEnumerator (raw : Text) (index : ℕ) : Bool :=
  let number := U.strip ((slice raw 0 index).reverse.takeWhile (· ≠ '\n')).reverse
  number.all U.isdigit && !number.isEmpty

/-- `word.strip(".")`. -/
def stripPeriods (word : Text) : Text :=
  ((word.dropWhile (· = '.')).reverse.dropWhile (· = '.')).reverse

/-- Whether a period ends an abbreviation. -/
def precedingAbbreviation (raw : Text) (index : ℕ) : Bool :=
  match (words U.toUnicodeData (slice raw (index - maxAbbreviationLookback) index)).getLast? with
  | none => false
  | some word => (abbreviations.map String.toList).contains (stripPeriods (U.lowerText word))

/-- Whether a terminator ends a sentence. -/
def terminates (raw : Text) (index stop : ℕ) : Bool :=
  let before := if 0 < index then raw[index - 1]? else none
  let after := if index + 1 < stop then raw[index + 1]? else none
  if raw[index]? = some '.' ∧ (before.any U.isalnum ∧ after.any U.isalnum ∨
      precedingAbbreviation U raw index ∨ isEnumerator U raw index) then false
  else
    let closed := consumeClosing raw (index + 1) stop
    stop ≤ closed || raw[closed]?.any U.isspace

/-- The end of white space with two line breaks. -/
def blankRunEnd (raw : Text) (index stop : ℕ) : Option ℕ :=
  if 2 ≤ ((slice raw index stop).takeWhile U.isspace).count '\n' then
    some (skipWhile U.isspace raw index stop)
  else none

/-- Whether the line that begins at a position is a list item. -/
def opensListItem (raw : Text) (start stop : ℕ) : Bool :=
  let cursor := skipWhile isBlank raw start stop
  if stop ≤ cursor then false
  else if raw[cursor]?.any listBullets.contains then
    cursor + 1 < stop && raw[cursor + 1]?.any isBlank
  else
    let digits := skipWhile U.isdigit raw cursor stop
    if digits = cursor then false
    else digits + 1 < stop && raw[digits]?.any (fun c => c == '.' || c == ')') &&
      raw[digits + 1]?.any isBlank

/-! ### The scan of prose -/

/-- The ranges found so far and their reasons, where the next one begins, what is read, and whether a
mark was seen. -/
structure ProseScan where
  ranges : List (Span × String)
  cursor : ℕ
  index : ℕ
  reason : String
  sawBoundary : Bool
  warnings : List String

namespace ProseScan

variable (s : ProseScan)

/-- The range from the cursor on, without white space around it. -/
def rangeTo (raw : Text) (stop : ℕ) : List (Span × String) :=
  ((trim U raw s.cursor stop).map fun range => (range, s.reason)).toList

/-- Close a range at a mark, and go on behind it. -/
def cut (raw : Text) (stop next : ℕ) (reason : String) : ProseScan where
  ranges := s.ranges ++ s.rangeTo U raw stop
  cursor := next
  index := next
  reason := reason
  sawBoundary := true
  warnings := s.warnings

/-- Read a character. -/
def step (raw : Text) (stop : ℕ) : ProseScan :=
  if raw[s.index]?.any sentenceTerminators.contains && terminates U raw s.index stop then
    let closed := consumeClosing raw (s.index + 1) stop
    s.cut U raw closed closed "sentence_terminator"
  else if raw[s.index]? = some '\n' then
    match blankRunEnd U raw s.index stop with
    | some blank => s.cut U raw s.index blank "blank_line"
    | none =>
        if opensListItem U raw (s.index + 1) stop then
          s.cut U raw s.index (s.index + 1) "list_item"
        else
          -- a line break that is not a boundary is recorded
          { s with
            index := s.index + 1
            warnings := s.warnings ++ ["line_break_not_a_boundary"] }
  else { s with index := s.index + 1 }

/-- Read on up to a position. -/
def run (raw : Text) (stop : ℕ) : ℕ → ProseScan → ProseScan
  | 0, s => s
  | fuel + 1, s => if s.index < stop then run raw stop fuel (s.step U raw stop) else s

end ProseScan

/-- The scan of a block of prose, each step of which reads a character. -/
def proseScan (raw : Text) (start stop : ℕ) : ProseScan :=
  ProseScan.run U raw stop (stop - start) ⟨[], start, start, "block_start", false, []⟩

/-- The ranges of a block of prose. -/
def proseRanges (raw : Text) (start stop : ℕ) : List (Span × String) :=
  let s := proseScan U raw start stop
  s.ranges ++ s.rangeTo U raw stop

/-- The warnings of a block of prose. -/
def proseWarnings (raw : Text) (start stop : ℕ) : List String :=
  let s := proseScan U raw start stop
  s.warnings ++
    if !(s.rangeTo U raw stop).isEmpty && !s.sawBoundary then ["no_explicit_boundary_mark"] else []

end

/-! ### Sentences -/

/-- A range between the marks of the writer. -/
structure SentenceSpan where
  index : ℕ
  rawStart : ℕ
  rawEnd : ℕ
  text : Text
  normalizedStart : Option ℕ
  normalizedEnd : Option ℕ
  blockIndex : ℕ
  isCode : Bool
  boundaryReason : String
  languageHints : List String

/-- The raw range of a sentence. -/
def SentenceSpan.span (s : SentenceSpan) : Span := ⟨s.rawStart, s.rawEnd⟩

/-- A range that was found in a block. -/
structure FoundRange where
  range : Span
  blockIndex : ℕ
  reason : String
  isCode : Bool

/-- The scripts of a text. -/
def languageHints (text : Text) : List String :=
  let hints :=
    (if text.any fun c => (0x0600 ≤ c.toNat && c.toNat ≤ 0x06FF) ||
        (0x0750 ≤ c.toNat && c.toNat ≤ 0x077F) then ["fa"] else []) ++
      if text.any fun c => isAscii c && c.isAlpha then ["en"] else []
  if hints.isEmpty then ["und"] else hints

/-- The sentence of a range. -/
def sentence (raw : Text) (resolved : NormalizedText) (index : ℕ) (found : FoundRange) :
    Except String SentenceSpan := do
  let normalized ← resolved.normalizedSpan found.range.start found.range.stop
  let text := slice raw found.range.start found.range.stop
  pure
    { index
      rawStart := found.range.start
      rawEnd := found.range.stop
      text
      normalizedStart := normalized.map Prod.fst
      normalizedEnd := normalized.map Prod.snd
      blockIndex := found.blockIndex
      isCode := found.isCode
      boundaryReason := found.reason
      languageHints := languageHints text }

section

variable (U : UnicodeTables)

/-- The ranges of a block. -/
def blockRanges (raw : Text) (b : TextBlock × ℕ) : List FoundRange :=
  match b.1.kind with
  | .code =>
      ((trim U raw b.1.start b.1.stop).map fun range => ⟨range, b.2, "code_block", true⟩).toList
  | .prose =>
      (proseRanges U raw b.1.start b.1.stop).map fun range => ⟨range.1, b.2, range.2, false⟩

/-- The warnings of a block. -/
def blockWarnings (raw : Text) (b : TextBlock) : List String :=
  match b.kind with
  | .code => []
  | .prose => proseWarnings U raw b.start b.stop

/-- Split a text at the marks of the writer. -/
def segmentSentences (raw : Text) (normalized : Option NormalizedText)
    (contract : NormalizationContract) : Except String (List SentenceSpan × List String) := do
  let resolved := normalized.getD (normalizeWithMapping U.toUnicodeData contract raw)
  let blocks := scanBlocks U.toUnicodeData raw
  let found := blocks.zipIdx.flatMap (blockRanges U raw)
  let sentences ← found.zipIdx.mapM fun f => sentence raw resolved f.2 f.1
  pure (sentences, blocks.flatMap (blockWarnings U raw))

end

/-! ### What a run leaves -/

section

variable {p : Char → Bool}

lemma getElem?_of_lt_takeWhile {text : Text} {j : ℕ} (h : j < (text.takeWhile p).length) :
    ∃ c, text[j]? = some c ∧ p c = true := by
  induction text generalizing j with
  | nil => exact absurd h (Nat.not_lt_zero _)
  | cons c text ih =>
      rw [List.takeWhile_cons] at h
      split_ifs at h with hc
      · cases j with
        | zero => exact ⟨c, rfl, hc⟩
        | succ j =>
            rw [List.length_cons, Nat.succ_lt_succ_iff] at h
            simpa only [List.getElem?_cons_succ] using ih h
      · exact absurd h (Nat.not_lt_zero _)

lemma getElem?_length_takeWhile {text : Text} (h : (text.takeWhile p).length < text.length) :
    ∃ c, text[(text.takeWhile p).length]? = some c ∧ p c = false := by
  induction text with
  | nil => exact absurd h (Nat.not_lt_zero _)
  | cons c text ih =>
      cases hc : p c with
      | false => exact ⟨c, by simp [hc], hc⟩
      | true =>
          rw [List.takeWhile_cons, hc, if_pos rfl, List.length_cons, List.length_cons] at h
          obtain ⟨d, hd, hpd⟩ := ih (by omega)
          refine ⟨d, ?_, hpd⟩
          rw [List.takeWhile_cons, hc, if_pos rfl, List.length_cons, List.getElem?_cons_succ, hd]

variable {raw : Text} {start stop : ℕ}

lemma skipWhile_bounds (hle : start ≤ stop) :
    start ≤ skipWhile p raw start stop ∧ skipWhile p raw start stop ≤ stop := by
  have hlen := (List.takeWhile_prefix (l := slice raw start stop) p).length_le
  rw [slice_length] at hlen
  rw [skipWhile]
  omega

/-- What a run skips is of the class. -/
lemma class_of_lt_skipWhile {i : ℕ} (hstart : start ≤ i) (hi : i < skipWhile p raw start stop) :
    ∃ c, raw[i]? = some c ∧ p c = true := by
  rw [skipWhile] at hi
  have hrun : i - start < ((slice raw start stop).takeWhile p).length := by omega
  obtain ⟨c, hc, hp⟩ := getElem?_of_lt_takeWhile hrun
  have hlen := (List.getElem?_eq_some_iff.mp hc).1
  rw [slice_length] at hlen
  rw [slice_getElem? raw (by omega), Nat.add_sub_cancel' hstart] at hc
  exact ⟨c, hc, hp⟩

/-- A run ends at its end, or before a character of another class. -/
lemma class_skipWhile (hlen : stop ≤ raw.length) (h : skipWhile p raw start stop < stop) :
    ∃ c, raw[skipWhile p raw start stop]? = some c ∧ p c = false := by
  rw [skipWhile] at h ⊢
  have hrun : ((slice raw start stop).takeWhile p).length < (slice raw start stop).length := by
    rw [slice_length]
    omega
  obtain ⟨c, hc, hp⟩ := getElem?_length_takeWhile hrun
  rw [slice_getElem? raw (by omega)] at hc
  exact ⟨c, hc, hp⟩

lemma reverse_slice_getElem? (hlen : stop ≤ raw.length) {j : ℕ} (hj : start + j < stop) :
    (slice raw start stop).reverse[j]? = raw[stop - 1 - j]? := by
  rw [List.getElem?_reverse (by rw [slice_length]; omega), slice_length,
    slice_getElem? raw (by omega)]
  congr 1
  omega

lemma skipBackWhile_bounds (hle : start ≤ stop) :
    start ≤ skipBackWhile p raw start stop ∧ skipBackWhile p raw start stop ≤ stop := by
  have hlen := (List.takeWhile_prefix (l := (slice raw start stop).reverse) p).length_le
  rw [List.length_reverse, slice_length] at hlen
  rw [skipBackWhile]
  omega

/-- What is skipped backwards is of the class. -/
lemma class_of_skipBackWhile_le (hlen : stop ≤ raw.length) {i : ℕ}
    (hi : skipBackWhile p raw start stop ≤ i) (hstop : i < stop) :
    ∃ c, raw[i]? = some c ∧ p c = true := by
  have hrun := (List.takeWhile_prefix (l := (slice raw start stop).reverse) p).length_le
  rw [List.length_reverse, slice_length] at hrun
  rw [skipBackWhile] at hi
  have hread : stop - 1 - i < ((slice raw start stop).reverse.takeWhile p).length := by omega
  obtain ⟨c, hc, hp⟩ := getElem?_of_lt_takeWhile hread
  rw [reverse_slice_getElem? hlen (by omega)] at hc
  rw [show stop - 1 - (stop - 1 - i) = i by omega] at hc
  exact ⟨c, hc, hp⟩

/-- A run backwards ends at its start, or behind a character of another class. -/
lemma class_skipBackWhile (hlen : stop ≤ raw.length) (h : start < skipBackWhile p raw start stop) :
    ∃ c, raw[skipBackWhile p raw start stop - 1]? = some c ∧ p c = false := by
  rw [skipBackWhile] at h ⊢
  have hrun : ((slice raw start stop).reverse.takeWhile p).length <
      (slice raw start stop).reverse.length := by
    rw [List.length_reverse, slice_length]
    omega
  obtain ⟨c, hc, hp⟩ := getElem?_length_takeWhile hrun
  rw [reverse_slice_getElem? hlen (by omega)] at hc
  refine ⟨c, ?_, hp⟩
  rw [← hc]
  congr 1
  omega

end

/-! ### Trimmed ranges -/

/-- A character that is not white space. -/
def Ink (U : UnicodeData) (raw : Text) (i : ℕ) : Prop :=
  ∃ c, raw[i]? = some c ∧ U.isspace c = false

/-- A range that begins and ends with ink. -/
def Tight (U : UnicodeData) (raw : Text) (r : Span) : Prop :=
  Ink U raw r.start ∧ Ink U raw (r.stop - 1)

section

variable {U : UnicodeTables} {raw : Text} {start stop : ℕ}

lemma not_ink_of_isspace {i : ℕ} (h : ∃ c, raw[i]? = some c ∧ U.isspace c = true) :
    ¬ Ink U.toUnicodeData raw i := by
  rintro ⟨c, hc, hink⟩
  obtain ⟨d, hd, hspace⟩ := h
  rw [hc, Option.some_inj] at hd
  rw [hd, hspace] at hink
  exact Bool.false_ne_true hink.symm

/-- A trimmed range is tight, and covers the ink. -/
lemma trim_cover (hle : start ≤ stop) (hlen : stop ≤ raw.length) :
    Span.Cover (Ink U.toUnicodeData raw) start stop (trim U raw start stop).toList ∧
      ∀ r ∈ trim U raw start stop, Tight U.toUnicodeData raw r := by
  rw [trim]
  have hfirst := @skipWhile_bounds U.isspace raw start stop hle
  have hskipped := @class_of_lt_skipWhile U.isspace raw start stop
  have hhead := @class_skipWhile U.isspace raw start stop hlen
  generalize skipWhile U.isspace raw start stop = first at hfirst hskipped hhead ⊢
  have hlast := @skipBackWhile_bounds U.isspace raw first stop hfirst.2
  have htail := @class_of_skipBackWhile_le U.isspace raw first stop hlen
  have hend := @class_skipBackWhile U.isspace raw first stop hlen
  generalize skipBackWhile U.isspace raw first stop = last at hlast htail hend ⊢
  split_ifs with hlt
  · refine ⟨.singleton hfirst.1 hlt hlast.2 fun i hi hstop hink => ⟨?_, ?_⟩, fun r hr => ?_⟩
    · by_contra hbefore
      exact not_ink_of_isspace (hskipped hi (not_le.mp hbefore)) hink
    · by_contra hafter
      exact not_ink_of_isspace (htail (not_lt.mp hafter) hstop) hink
    · rw [Option.mem_some_iff] at hr
      rw [← hr]
      exact ⟨hhead (by omega), hend hlt⟩
  · refine ⟨.nil fun i hi hstop => not_ink_of_isspace ?_, by simp⟩
    rcases Nat.lt_or_ge i first with hbefore | hafter
    · exact hskipped hi hbefore
    · exact htail (by omega) hstop

/-! ### The scan -/

/-- What holds of the scan before every character: the ranges found are tight and cover the ink up to
the cursor. -/
structure ProseScan.Covers (U : UnicodeTables) (raw : Text) (start stop : ℕ) (s : ProseScan) :
    Prop where
  cover : Span.Cover (Ink U.toUnicodeData raw) start s.cursor (s.ranges.map Prod.fst)
  tight : ∀ r ∈ s.ranges.map Prod.fst, Tight U.toUnicodeData raw r
  start_le : start ≤ s.cursor
  cursor_le : s.cursor ≤ s.index
  index_le : s.index ≤ stop

namespace ProseScan.Covers

variable {s : ProseScan}

/-- The range from the cursor on covers the ink behind it. -/
lemma rangeTo_cover (h : s.Covers U raw start stop) {upTo : ℕ} (hle : s.cursor ≤ upTo)
    (hlen : upTo ≤ raw.length) :
    Span.Cover (Ink U.toUnicodeData raw) start upTo
        ((s.ranges ++ s.rangeTo U raw upTo).map Prod.fst) ∧
      ∀ r ∈ (s.ranges ++ s.rangeTo U raw upTo).map Prod.fst, Tight U.toUnicodeData raw r := by
  obtain ⟨hcover, htight⟩ := trim_cover (U := U) hle hlen
  have hrange : (s.rangeTo U raw upTo).map Prod.fst = (trim U raw s.cursor upTo).toList := by
    rw [rangeTo]
    cases trim U raw s.cursor upTo <;> rfl
  rw [List.map_append, hrange]
  refine ⟨h.cover.append hcover h.start_le hle, fun r hr => ?_⟩
  rcases List.mem_append.mp hr with hr | hr
  · exact h.tight r hr
  · exact htight r (Option.mem_toList.mp hr)

/-- A range that is closed before white space leaves out no ink. -/
lemma cut (h : s.Covers U raw start stop) {upTo next : ℕ} {reason : String}
    (hle : s.cursor ≤ upTo) (hnext : upTo ≤ next) (hstop : next ≤ stop) (hlen : stop ≤ raw.length)
    (hblank : ∀ i, upTo ≤ i → i < next → ¬ Ink U.toUnicodeData raw i) :
    (s.cut U raw upTo next reason).Covers U raw start stop := by
  obtain ⟨hcover, htight⟩ := h.rangeTo_cover hle (hnext.trans (hstop.trans hlen))
  have hall := hcover.append (.nil hblank) (h.start_le.trans hle) hnext
  rw [List.append_nil] at hall
  exact ⟨hall, htight, h.start_le.trans (hle.trans hnext), le_rfl, hstop⟩

/-- A step reads a character, at least, and leaves out no ink. -/
lemma step (h : s.Covers U raw start stop) (hlt : s.index < stop) (hlen : stop ≤ raw.length) :
    (s.step U raw stop).Covers U raw start stop ∧ s.index < (s.step U raw stop).index := by
  have hread : ∀ warnings, ({ s with index := s.index + 1, warnings := warnings } :
      ProseScan).Covers U raw start stop := fun warnings =>
    ⟨h.cover, h.tight, h.start_le, h.cursor_le.trans (Nat.le_succ _), hlt⟩
  have hcursor := h.cursor_le
  rw [ProseScan.step]
  by_cases hterminator : (raw[s.index]?.any sentenceTerminators.contains &&
    terminates U raw s.index stop) = true
  · rw [if_pos hterminator]
    have hclosed := @skipWhile_bounds closingQuotes.contains raw (s.index + 1) stop hlt
    dsimp only
    rw [consumeClosing]
    refine ⟨h.cut (by omega) le_rfl hclosed.2 hlen fun i hi hi' => by omega, ?_⟩
    exact hclosed.1
  rw [if_neg hterminator]
  by_cases hbreak : raw[s.index]? = some '\n'
  · rw [if_pos hbreak]
    have hspace : U.isspace '\n' = true := U.isspace_ascii '\n' (by decide)
    split
    · next blank hblank =>
        rw [blankRunEnd] at hblank
        split_ifs at hblank with hcount
        obtain rfl := Option.some_inj.mp hblank
        have hbounds := @skipWhile_bounds U.isspace raw s.index stop hlt.le
        refine ⟨h.cut hcursor hbounds.1 hbounds.2 hlen fun i hi hi' =>
          not_ink_of_isspace (class_of_lt_skipWhile hi hi'), ?_⟩
        have hlong := hcount.trans List.count_le_length
        have hskip : skipWhile U.isspace raw s.index stop = s.index +
          ((slice raw s.index stop).takeWhile U.isspace).length := rfl
        rw [ProseScan.cut]
        dsimp only
        omega
    · split_ifs
      · refine ⟨h.cut hcursor (Nat.le_succ _) hlt hlen fun i hi hi' => ?_, Nat.lt_succ_self _⟩
        obtain rfl : i = s.index := by omega
        exact not_ink_of_isspace ⟨'\n', hbreak, hspace⟩
      · exact ⟨hread _, Nat.lt_succ_self _⟩
  · rw [if_neg hbreak]
    exact ⟨hread s.warnings, Nat.lt_succ_self _⟩

lemma run (hlen : stop ≤ raw.length) : ∀ (fuel : ℕ) {s : ProseScan}, s.Covers U raw start stop →
    stop - s.index ≤ fuel →
    (ProseScan.run U raw stop fuel s).Covers U raw start stop ∧
      stop ≤ (ProseScan.run U raw stop fuel s).index := by
  intro fuel
  induction fuel with
  | zero => exact fun h hfuel => ⟨h, by rw [ProseScan.run]; omega⟩
  | succ fuel ih =>
      intro s h hfuel
      rw [ProseScan.run]
      split_ifs with hlt
      · obtain ⟨hstep, hread⟩ := h.step hlt hlen
        exact ih hstep (by omega)
      · exact ⟨h, not_lt.mp hlt⟩

end ProseScan.Covers

/-- The scan of a block reads all of it. -/
lemma proseScan_covers (hle : start ≤ stop) (hlen : stop ≤ raw.length) :
    (proseScan U raw start stop).Covers U raw start stop ∧
      (proseScan U raw start stop).index = stop := by
  have hinit : ProseScan.Covers U raw start stop ⟨[], start, start, "block_start", false, []⟩ :=
    ⟨.nil fun i hi hi' => absurd hi' (by dsimp only; omega), by simp, le_rfl, le_rfl, hle⟩
  obtain ⟨hcovers, hend⟩ := ProseScan.Covers.run hlen (stop - start) hinit le_rfl
  exact ⟨hcovers, hcovers.index_le.antisymm hend⟩

/-- The ranges of a block are tight, and cover its ink. -/
lemma blockRanges_cover {b : TextBlock} (hlt : b.start < b.stop) (hlen : b.stop ≤ raw.length)
    (k : ℕ) :
    Span.Cover (Ink U.toUnicodeData raw) b.start b.stop
        ((blockRanges U raw (b, k)).map FoundRange.range) ∧
      ∀ f ∈ blockRanges U raw (b, k), Tight U.toUnicodeData raw f.range ∧ f.blockIndex = k := by
  cases hkind : b.kind with
  | code =>
      have hranges : blockRanges U raw (b, k) =
          ((trim U raw b.start b.stop).map fun range => ⟨range, k, "code_block", true⟩).toList := by
        rw [blockRanges]
        simp only [hkind]
      obtain ⟨hcover, htight⟩ := trim_cover (U := U) hlt.le hlen
      rw [hranges]
      cases htrim : trim U raw b.start b.stop with
      | none =>
          rw [htrim] at hcover
          exact ⟨hcover, by simp⟩
      | some r =>
          rw [htrim] at hcover
          refine ⟨hcover, fun f hf => ?_⟩
          obtain rfl : f = ⟨r, k, "code_block", true⟩ := by simpa using hf
          exact ⟨htight r htrim, rfl⟩
  | prose =>
      have hranges : blockRanges U raw (b, k) = (proseRanges U raw b.start b.stop).map
          fun range => ⟨range.1, k, range.2, false⟩ := by
        rw [blockRanges]
        simp only [hkind]
      obtain ⟨hscan, hend⟩ := proseScan_covers (U := U) hlt.le hlen
      obtain ⟨hcover, htight⟩ := hscan.rangeTo_cover (hscan.cursor_le.trans hend.le) hlen
      rw [hranges, List.map_map]
      refine ⟨hcover, fun f hf => ?_⟩
      obtain ⟨range, hrange, rfl⟩ := List.mem_map.mp hf
      exact ⟨htight range.1 (List.mem_map_of_mem hrange), rfl⟩

/-- The ranges of the blocks of a tiling cover the ink of the tiling. -/
lemma flatMap_blockRanges_cover {bs : List TextBlock} (hbs : BlocksFrom start bs stop)
    (hlen : stop ≤ raw.length) (k : ℕ) :
    Span.Cover (Ink U.toUnicodeData raw) start stop
      (((bs.zipIdx k).flatMap (blockRanges U raw)).map FoundRange.range) := by
  induction bs generalizing start k with
  | nil =>
      rw [BlocksFrom] at hbs
      exact .nil fun i hi hi' => by omega
  | cons b bs ih =>
      obtain ⟨rfl, hlt, hrest⟩ := hbs
      rw [List.zipIdx_cons, List.flatMap_cons, List.map_append]
      exact (blockRanges_cover hlt (hrest.le.trans hlen) k).1.append (ih hrest (k + 1)) hlt.le
        hrest.le

/-! ### All sentences -/

/-- The sentences of a text: in order, tight, inside of their blocks and equal to what they range over;
and all ink lies in exactly one of them. -/
structure SentencesCover (U : UnicodeTables) (raw : Text) (sentences : List SentenceSpan) : Prop where
  index : sentences.map SentenceSpan.index = List.range sentences.length
  ordered : sentences.Pairwise fun s t => s.rawEnd ≤ t.rawStart
  tight : ∀ s ∈ sentences, s.rawStart < s.rawEnd ∧ Tight U.toUnicodeData raw s.span
  block : ∀ s ∈ sentences, ∃ b, (scanBlocks U.toUnicodeData raw)[s.blockIndex]? = some b ∧
    b.start ≤ s.rawStart ∧ s.rawEnd ≤ b.stop
  text : ∀ s ∈ sentences, s.text = slice raw s.rawStart s.rawEnd
  covered : ∀ i, Ink U.toUnicodeData raw i →
    ∃! s, s ∈ sentences ∧ s.rawStart ≤ i ∧ i < s.rawEnd

/-- The ranges found in all blocks. -/
def foundRanges (U : UnicodeTables) (raw : Text) : List FoundRange :=
  (scanBlocks U.toUnicodeData raw).zipIdx.flatMap (blockRanges U raw)

/-- A range is found in its block. -/
lemma block_of_mem_foundRanges {f : FoundRange} (hf : f ∈ foundRanges U raw) :
    Tight U.toUnicodeData raw f.range ∧ f.range.start < f.range.stop ∧ f.range.stop ≤ raw.length ∧
      ∃ b, (scanBlocks U.toUnicodeData raw)[f.blockIndex]? = some b ∧
        b.start ≤ f.range.start ∧ f.range.stop ≤ b.stop := by
  obtain ⟨⟨b, k⟩, hb, hfb⟩ := List.mem_flatMap.mp hf
  have hget : (scanBlocks U.toUnicodeData raw)[k]? = some b := List.mem_zipIdx_iff_getElem?.mp hb
  obtain ⟨-, hlt, hle⟩ :=
    (scanBlocks_blocksFrom U.toUnicodeData raw).bounds (List.mem_of_getElem? hget)
  obtain ⟨hcover, htight⟩ := blockRanges_cover (U := U) hlt hle k
  obtain ⟨hstart, hrange, hstop⟩ := hcover.inside f.range (List.mem_map_of_mem hfb)
  obtain ⟨htight, hindex⟩ := htight f hfb
  exact ⟨htight, hrange, hstop.trans hle, b, hindex ▸ hget, hstart, hstop⟩

/-- What the sentence of a range is. -/
lemma sentence_eq_ok {resolved : NormalizedText} {index : ℕ} {found : FoundRange}
    {s : SentenceSpan} (h : sentence raw resolved index found = .ok s) :
    s.index = index ∧ s.span = found.range ∧ s.text = slice raw s.rawStart s.rawEnd ∧
      s.blockIndex = found.blockIndex := by
  rw [sentence, Checks.bind_eq_ok] at h
  obtain ⟨normalized, -, hs⟩ := h
  rw [Checks.pure_eq_ok] at hs
  subst hs
  exact ⟨rfl, rfl, rfl, rfl⟩

/-- A valid range has its sentence. -/
lemma exists_sentence {resolved : NormalizedText} (hraw : resolved.raw = raw) (index : ℕ)
    {found : FoundRange} (hlt : found.range.start < found.range.stop)
    (hle : found.range.stop ≤ raw.length) : ∃ s, sentence raw resolved index found = .ok s := by
  have hvalid : ∃ range, resolved.normalizedSpan found.range.start found.range.stop = .ok range := by
    rw [NormalizedText.normalizedSpan, if_neg (by rw [hraw]; omega)]
    dsimp only
    split_ifs
    · exact ⟨_, rfl⟩
    · exact ⟨_, rfl⟩
  obtain ⟨range, hrange⟩ := hvalid
  rw [sentence, hrange, Checks.ok_bind]
  exact ⟨_, rfl⟩

variable (U raw)

/-- The sentences of a text are in order and tight, each inside of its block, and every character that
is not white space lies in exactly one of them; and a text is always split. -/
theorem segmentSentences_covers (normalized : Option NormalizedText)
    (contract : NormalizationContract) :
    (∀ sentences warnings, segmentSentences U raw normalized contract = .ok (sentences, warnings) →
      SentencesCover U raw sentences) ∧
    ((∀ n ∈ normalized, n.raw = raw) →
      ∃ result, segmentSentences U raw normalized contract = .ok result) := by
  constructor
  · intro sentences warnings h
    rw [segmentSentences, Checks.bind_eq_ok] at h
    obtain ⟨result, hresult, hpure⟩ := h
    rw [Checks.pure_eq_ok] at hpure
    obtain rfl := (Prod.mk.inj hpure).1
    rw [Checks.mapM_eq_ok] at hresult
    have hfacts := hresult.imp fun f s hs => sentence_eq_ok hs
    -- the sentences are those of the ranges, one each
    have hspans : result.map SentenceSpan.span = (foundRanges U raw).map FoundRange.range := by
      have hmap := Correspond.map_eq_of_forall₂ (hfacts.imp fun f s hs => hs.2.1.symm)
      rw [← hmap, ← List.zipIdx_map_fst 0 (foundRanges U raw), List.map_map]
      rfl
    have hindex : result.map SentenceSpan.index = List.range result.length := by
      have hmap := Correspond.map_eq_of_forall₂ (hfacts.imp fun f s hs => hs.1.symm)
      rw [← hmap, ← hresult.length_eq, List.length_zipIdx, List.range_eq_range',
        ← List.zipIdx_map_snd]
    have hof : ∀ s ∈ result, ∃ f ∈ foundRanges U raw, s.span = f.range ∧
        s.text = slice raw s.rawStart s.rawEnd ∧ s.blockIndex = f.blockIndex := by
      intro s hs
      obtain ⟨f, hf, -, hfact⟩ := Checks.exists_of_mem_right hfacts hs
      exact ⟨f.1, (List.mem_zipIdx_iff_getElem?.mp hf) |> List.mem_of_getElem?, hfact⟩
    have hcover := flatMap_blockRanges_cover (U := U) (scanBlocks_blocksFrom U.toUnicodeData raw)
      le_rfl 0
    have hcover' : Span.Cover (Ink U.toUnicodeData raw) 0 raw.length
        (result.map SentenceSpan.span) := by
      rw [hspans]
      exact hcover
    refine ⟨hindex, List.pairwise_map.mp hcover'.separated, fun s hs => ?_, fun s hs => ?_,
      fun s hs => ?_, fun i hi => ?_⟩
    · obtain ⟨f, hf, hspan, -, -⟩ := hof s hs
      obtain ⟨htight, hlt, -⟩ := block_of_mem_foundRanges hf
      rw [← hspan] at htight hlt
      exact ⟨hlt, htight⟩
    · obtain ⟨f, hf, hspan, -, hblock⟩ := hof s hs
      obtain ⟨-, -, -, b, hb, hstart, hstop⟩ := block_of_mem_foundRanges hf
      rw [← hspan] at hstart hstop
      exact ⟨b, hblock ▸ hb, hstart, hstop⟩
    · obtain ⟨f, -, -, htext, -⟩ := hof s hs
      exact htext
    · obtain ⟨c, hc, -⟩ := id hi
      exact hcover'.existsUnique (f := SentenceSpan.span) (Nat.zero_le i)
        (List.getElem?_eq_some_iff.mp hc).1 hi
  · intro hraw
    have hresolved : (normalized.getD (normalizeWithMapping U.toUnicodeData contract raw)).raw =
        raw := by
      cases normalized with
      | none => rfl
      | some n => exact hraw n rfl
    obtain ⟨sentences, hsentences⟩ : ∃ sentences, List.Forall₂ (fun f s => sentence raw
        (normalized.getD (normalizeWithMapping U.toUnicodeData contract raw)) f.2 f.1 = .ok s)
        (foundRanges U raw).zipIdx sentences :=
      Checks.exists_forall₂ fun f hf => by
        have hmem := List.mem_of_getElem? (List.mem_zipIdx_iff_getElem?.mp hf)
        obtain ⟨-, hlt, hle, -⟩ := block_of_mem_foundRanges hmem
        exact exists_sentence hresolved f.2 hlt hle
    have hmapM := Checks.mapM_eq_ok.mpr hsentences
    rw [foundRanges] at hmapM
    rw [segmentSentences, hmapM, Checks.ok_bind]
    exact ⟨_, rfl⟩

end

end Memorist
