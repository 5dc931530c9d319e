import Memorist.Library.Regex
import Memorist.Coverage.Fragments
import Memorist.Text.Sentences

/-!
The text units of a message (`memory_worker/segmentation/sentence_segmenter.py`,
`memory_worker/segmentation/rules.py`).

* `lineGroups`: lines are joined to code blocks, list items, headings, quotes and paragraphs;
* `splitSentences`: a group is split behind punctuation outside of quotes;
* `segment`, `toTextUnits`: the units of a message;
* `lineGroups_cover`, `splitSentences_cover`: either step covers the ink of what it reads;
* `text_units_tile`: **units are numbered, in order, named apart, and hold every character that is not
  white space once, so that authorities built from them never overlap.**
-/

namespace Memorist

namespace SentenceSegmenter

/-! ### Rules -/

/-- The marks behind which a sentence may end. -/
def sentencePunctuation : List Char := ['.', '!', '?', '؟', '۔', '؛']

/-- The words that keep a period from ending a sentence. -/
def abbreviations : List String :=
  ["mr", "mrs", "ms", "dr", "prof", "sr", "jr", "e.g", "i.e", "etc", "vs", "fig", "no"]

/-- The length up to which a heading is joined with what follows. -/
def conjoiningHeadingMaxChars : ℕ := 120

/-- What may close a sentence. -/
def closingMarks : List Char := ['"', '\'', '”', '»']

/-- `[0-9۰-۹٠-٩]`. -/
def isListDigit (c : Char) : Bool := ('0' ≤ c && c ≤ '9') || isArabicDigit c

/-- `[A-Za-z]`. -/
def isLatinLetter (c : Char) : Bool := ('A' ≤ c && c ≤ 'Z') || ('a' ≤ c && c ≤ 'z')

/-- The Arabic block. -/
def isPersianBlock (c : Char) : Bool := 0x0600 ≤ c.toNat && c.toNat ≤ 0x06FF

/-- A digit or a mark of a label. -/
def isLabelMark (c : Char) : Bool := c.isDigit || [' ', '_', '/', '-'].contains c

/-- Whether a pattern matches the beginning of a line. -/
def matchLine (pattern : Regex.Pattern) (line : Text) : Bool :=
  !(pattern.ends (none, line)).isEmpty

/-- Whether a pattern matches a whole line. -/
def matchWholeLine (pattern : Regex.Pattern) (line : Text) : Bool :=
  (pattern.ends (none, line)).any fun position => position.2.isEmpty

/-- The characters of a literal. -/
def word (text : String) : Regex.Pattern := Regex.literal (· == ·) text.toList

section

variable (U : UnicodeTables)

/-- `LIST_ITEM_RE`: white space, a bullet, a number or a letter, and white space. -/
def isListItem (line : Text) : Bool :=
  let marker : List Regex.Pattern :=
    [.cls ['-', '*', '+', '•'].contains,
      .seq (.atLeast 1 isListDigit) (.cls ['.', ')'].contains),
      .seq (.cls isLatinLetter) (.cls ['.', ')'].contains)]
  marker.any fun m => matchLine (.seq (.atLeast 0 U.isspace) (.seq m (.atLeast 1 U.isspace))) line

/-- `MARKDOWN_HEADING_RE`. -/
def isMarkdownHeading (line : Text) : Bool :=
  matchLine (.seq (.atMost 3 U.isspace) (.seq (.cls (· == '#')) (.seq (.atMost 5 (· == '#'))
    (.seq (.atLeast 1 U.isspace) (.cls fun c => !U.isspace c))))) line

/-- `HEADING_LABEL_RE`: a label of up to sixty characters, and a colon. -/
def isHeadingLabel (line : Text) : Bool :=
  let latin := fun c : Char => isLatinLetter c || isLabelMark c
  let persian := fun c : Char => isPersianBlock c || isLabelMark c
  let label : List Regex.Pattern :=
    [.seq (.cls fun c => 'A' ≤ c && c ≤ 'Z') (.seq (.cls latin) (.atMost 59 latin)),
      .seq (.cls persian) (.seq (.cls persian) (.atMost 58 persian))]
  label.any fun l => matchWholeLine (.seq (.atLeast 0 U.isspace) (.seq l
    (.seq (.atLeast 0 U.isspace) (.seq (.cls [':', '：'].contains) (.atLeast 0 U.isspace))))) line

/-- `QUOTE_LINE_RE`. -/
def isQuoteLine (line : Text) : Bool :=
  matchLine (.seq (.atLeast 0 U.isspace) (.cls ['>', '"', '\'', '“', '”', '«'].contains)) line

/-- `FENCE_RE`. -/
def isFence (line : Text) : Bool := matchLine (.seq (.atLeast 0 U.isspace) (word "```")) line

/-- `URL_RE`. -/
def holdsUrl (text : Text) : Bool :=
  Regex.search (.seq (word "http") (.seq (.opt (word "s")) (word "://"))) text ||
    Regex.search (word "www.") text

/-- Whether a line is a heading. -/
def isHeading (line : Text) : Bool := isMarkdownHeading U line || isHeadingLabel U line

/-- Whether a text is white space only. -/
def isBlankText (text : Text) : Bool := (U.strip text).isEmpty

/-- Whether a heading is joined with the next line. -/
def headingShouldJoin (heading nextLine : Text) : Bool :=
  if isBlankText U nextLine then false
  else if isListItem U nextLine || isFence U nextLine || isQuoteLine U nextLine then false
  else (U.strip heading).length ≤ conjoiningHeadingMaxChars

/-! ### Groups of lines -/

/-- How sure the segmenter is of a unit. -/
inductive SegmentationConfidence where
  | high
  | medium
  | low
  deriving DecidableEq, Repr

/-- A group of lines, where it begins, and whether its sentences are split. -/
structure LineGroup where
  start : ℕ
  text : Text
  confidence : SegmentationConfidence
  notes : Option String
  allowSentenceSplit : Bool

/-- How sure the segmenter is of a paragraph. -/
def confidence (text : Text) : SegmentationConfidence :=
  if sentencePunctuation.any text.contains then .high
  else if (U.strip text).contains '\n' then .medium
  else .low

/-- How many more lines belong to a code block: those up to the next fence. -/
def fenceLines (rest : List Text) : ℕ :=
  match rest.findIdx? (isFence U) with
  | some i => i + 1
  | none => rest.length

/-- Whether a line ends a list item or a paragraph. -/
def breaksGroup (line : Text) : Bool :=
  isBlankText U line || isListItem U line || isFence U line || isHeading U line ||
    isQuoteLine U line

/-- The group of a line: how many more lines it takes, and what it is. -/
def groupOf (start : ℕ) (line : Text) (rest : List Text) : ℕ × LineGroup :=
  let group (count : ℕ) (confidence : SegmentationConfidence) (notes : Option String)
      (split : Bool) : ℕ × LineGroup :=
    (count, ⟨start, (line :: rest.take count).flatten, confidence, notes, split⟩)
  let more := (rest.takeWhile fun next => !breaksGroup U next).length
  let paragraph := group more (confidence U (line :: rest.take more).flatten) none true
  let quoteOrParagraph :=
    if isQuoteLine U line then
      group (rest.takeWhile (isQuoteLine U)).length .medium (some "quoted example preserved") false
    else paragraph
  if isFence U line then group (fenceLines U rest) .low (some "technical code block") false
  else if isListItem U line then
    group more .high (some "list item treated as sentence unit") true
  else if isHeading U line then
    match rest with
    | next :: _ =>
        if headingShouldJoin U line next then
          group 1 .medium (some "heading joined with following sentence") true
        else group 0 .medium (some "standalone heading") false
    | [] => quoteOrParagraph
  else quoteOrParagraph

/-- The groups of lines, the first of which begins at `start`; each round takes a line. -/
def lineGroups : ℕ → ℕ → List Text → List LineGroup
  | 0, _, _ => []
  | _ + 1, _, [] => []
  | fuel + 1, start, line :: rest =>
      if isBlankText U line then lineGroups fuel (start + line.length) rest
      else
        let (count, group) := groupOf U start line rest
        group :: lineGroups fuel (start + group.text.length) (rest.drop count)

/-- The lines of a text after the beginning of one, with their ends. -/
def linesWithEnds (line : Text) : Text → List Text
  | [] => if line.isEmpty then [] else [line]
  | '\r' :: '\n' :: rest => (line ++ ['\r', '\n']) :: linesWithEnds [] rest
  | c :: rest =>
      if isLineBoundary c then (line ++ [c]) :: linesWithEnds [] rest
      else linesWithEnds (line ++ [c]) rest

/-- The groups of a text, over `text.splitlines(keepends=True)`. -/
def textGroups (text : Text) : List LineGroup :=
  let lines := linesWithEnds [] text
  lineGroups U lines.length 0 lines

/-! ### Sentences of a group -/

/-- The open quotes behind a character, the innermost first. -/
def updateQuoteStack (stack : List Char) (c : Char) : List Char :=
  if c = '“' then '”' :: stack
  else if c = '«' then '»' :: stack
  else match stack with
    | top :: below => if c = top then below else if c = '"' then '"' :: stack else stack
    | [] => if c = '"' then ['"'] else []

/-- The position behind the quotes that close a sentence. -/
def consumeClosingQuotes (text : Text) (index : ℕ) : ℕ :=
  skipWhile closingMarks.contains text index text.length

/-- Whether a period belongs to a number that opens a line. -/
def isListMarkerPeriod (text : Text) (index : ℕ) : Bool :=
  let head := slice text 0 (index + 1)
  (List.range (head.length + 1)).any fun i =>
    (i = 0 || head[i - 1]? = some '\n') && matchWholeLine (.seq (.atLeast 0 U.isspace)
      (.seq (.atLeast 1 isListDigit) (.cls (· == '.')))) (head.drop i)

/-- `word.rstrip(".")`. -/
def rstripPeriods (text : Text) : Text := (text.reverse.dropWhile (· = '.')).reverse

/-- Whether a sentence can end behind a mark. -/
def canSplitAt (text : Text) (index : ℕ) : Bool :=
  let before := slice text (index - 16) (index + 1)
  let after := slice text (index + 1) (index + 16)
  let token := ((words U.toUnicodeData (U.strip before)).getLast?.map fun last =>
    rstripPeriods (U.lowerText last)).getD []
  let inNumber := 0 < index && index + 1 < text.length && text[index - 1]?.any U.isdigit &&
    (text[index + 1]?.any U.isdigit || isListMarkerPeriod U text index)
  if text[index]? = some '.' ∧ (inNumber ∨ (abbreviations.map String.toList).contains token ∨
      holdsUrl (before ++ after)) then false
  else if index + 1 = text.length then true
  else text[index + 1]?.any fun c => U.isspace c || closingMarks.contains c

/-- The sentences found so far, where the next one begins, and the open quotes. -/
structure SentenceScan where
  spans : List (ℕ × Text)
  start : ℕ
  quoteStack : List Char

/-- Read the character at a position of a text that begins at `absoluteStart`. -/
def SentenceScan.step (text : Text) (absoluteStart : ℕ) (s : SentenceScan) (index : ℕ) :
    SentenceScan :=
  match text[index]? with
  | none => s
  | some c =>
      let stack := updateQuoteStack s.quoteStack c
      if stack.isEmpty ∧ sentencePunctuation.contains c ∧ canSplitAt U text index then
        let stop := consumeClosingQuotes text (index + 1)
        { spans := s.spans ++ [(absoluteStart + s.start, slice text s.start stop)]
          start := stop
          quoteStack := stack }
      else { s with quoteStack := stack }

/-- The sentences of a text that begins at `absoluteStart`. -/
def splitSentences (text : Text) (absoluteStart : ℕ) : List (ℕ × Text) :=
  let s := (List.range text.length).foldl (SentenceScan.step U text absoluteStart) ⟨[], 0, []⟩
  let spans := if s.start < text.length then
      s.spans ++ [(absoluteStart + s.start, text.drop s.start)]
    else s.spans
  spans.filter fun span => !isBlankText U span.2

/-- A range of a message that becomes a unit. -/
structure SentencePiece where
  start : ℕ
  text : Text
  confidence : SegmentationConfidence
  notes : Option String

/-- The range of a piece. -/
def SentencePiece.span (piece : SentencePiece) : Span :=
  ⟨piece.start, piece.start + piece.text.length⟩

/-- The pieces of a group: its sentences, if there are several. -/
def groupPieces (group : LineGroup) : List SentencePiece :=
  let whole := [⟨group.start, group.text, group.confidence, group.notes⟩]
  if group.allowSentenceSplit then
    let sentences := splitSentences U group.text group.start
    if 1 < sentences.length then
      sentences.map fun s => ⟨s.1, s.2, group.confidence, group.notes⟩
    else whole
  else whole

end

/-! ### Units -/

/-- A unit of a message. Its range is as long as its text. -/
structure SentenceUnit where
  unitUuid : String
  sentenceIndex : ℕ
  text : Text
  charStart : ℕ
  charEnd : ℕ
  contentHash : String
  languageHint : String
  segmentationConfidence : SegmentationConfidence
  segmentationNotes : Option String
  sentenceIndex_pos : 1 ≤ sentenceIndex
  charStart_lt : charStart < charEnd
  length_text : charEnd - charStart = text.length

/-- The namespace of unit names, `NAMESPACE_URL`. -/
def unitNamespace : String := "6ba7b811-9dad-11d1-80b4-00c04fd430c8"

/-- The scripts of a unit. -/
def detectLanguage (text : Text) : String :=
  if text.any isPersianBlock then if text.any isLatinLetter then "mixed" else "fa"
  else if text.any isLatinLetter then "en"
  else "unknown"

section

variable (P : Platform) (U : UnicodeTables)

/-- What a unit is named by. -/
def unitIdentity (messageUuid : String) (sentenceIndex : ℕ) (contentHash : String) : String :=
  "memorist:" ++ messageUuid ++ ":" ++ toString sentenceIndex ++ ":" ++ contentHash

/-- The unit of a piece. -/
def unit (messageUuid : String) (sentenceIndex : ℕ) (piece : SentencePiece) :
    Except String SentenceUnit :=
  let contentHash := P.sha256 piece.text
  if hindex : 1 ≤ sentenceIndex then
    if htext : 0 < piece.text.length then
      .ok
        { unitUuid := P.uuid5 unitNamespace (unitIdentity messageUuid sentenceIndex contentHash)
          sentenceIndex
          text := piece.text
          charStart := piece.start
          charEnd := piece.start + piece.text.length
          contentHash
          languageHint := detectLanguage piece.text
          segmentationConfidence := piece.confidence
          segmentationNotes := piece.notes
          sentenceIndex_pos := hindex
          charStart_lt := Nat.lt_add_of_pos_right htext
          length_text := Nat.add_sub_cancel_left _ _ }
    else .error "String should have at least 1 character"
  else .error "Input should be greater than or equal to 1"

/-- The pieces of a message. -/
def pieces (text : Text) : List SentencePiece := (textGroups U text).flatMap (groupPieces U)

/-- The units of a message. -/
def segment (messageUuid : String) (text : Text) : Except String (List SentenceUnit) :=
  if isBlankText U text then .ok []
  else ((pieces U text).zipIdx.filter fun piece => !isBlankText U piece.1.text).mapM fun piece =>
    unit P messageUuid (piece.2 + 1) piece.1

/-- The row of a unit. -/
def textUnitRow (unit : SentenceUnit) : TextUnitRow where
  textUnitUuid := unit.unitUuid
  unitIndex := unit.sentenceIndex - 1
  unitType := .sentence
  text := unit.text
  startChar := unit.charStart
  endChar := unit.charEnd

/-- The text units of a message. -/
def toTextUnits (messageUuid : String) (text : Text) : Except String (List TextUnitRow) := do
  let units ← segment P U messageUuid text
  pure (units.map textUnitRow)

end

/-! ### Lines -/

/-- Lines are what they are lines of. -/
lemma flatten_linesWithEnds (line text : Text) :
    (linesWithEnds line text).flatten = line ++ text := by
  fun_induction linesWithEnds line text with
  | case1 line hempty => simpa using hempty
  | case2 line hempty => simp
  | case3 line rest ih => rw [List.flatten_cons, ih]; simp
  | case4 line c rest hnot hboundary ih => rw [List.flatten_cons, ih]; simp
  | case5 line c rest hnot hboundary ih => rw [ih]; simp

section

variable {U : UnicodeTables}

lemma lstrip_eq_nil {text : Text} : U.lstrip text = [] ↔ ∀ c ∈ text, U.isspace c = true :=
  List.dropWhile_eq_nil_iff

/-- A blank text is white space. -/
lemma isBlankText_iff {text : Text} :
    isBlankText U text = true ↔ ∀ c ∈ text, U.isspace c = true := by
  rw [isBlankText, List.isEmpty_iff, UnicodeData.strip, List.reverse_eq_nil_iff, lstrip_eq_nil]
  constructor
  · intro h
    -- what is left begins with ink, unless nothing is left
    rw [← lstrip_eq_nil]
    by_contra hne
    have hhead := List.head_mem hne
    have hspace := h _ (List.mem_reverse.mpr hhead)
    have hink := List.head_dropWhile_not U.isspace hne
    exact Bool.false_ne_true (hink.symm.trans hspace)
  · intro h c hc
    rw [lstrip_eq_nil.mpr h] at hc
    exact absurd hc (by simp)

variable {raw : Text}

/-- A blank range holds no ink. -/
lemma not_ink_of_isBlankText {start stop i : ℕ} {text : Text} (htext : text = slice raw start stop)
    (h : isBlankText U text = true) (hstart : start ≤ i) (hstop : i < stop) :
    ¬ Ink U.toUnicodeData raw i := by
  rintro ⟨c, hc, hink⟩
  have hmem := mem_slice_of_getElem? hc hstart hstop
  rw [isBlankText_iff, htext] at h
  rw [h c hmem] at hink
  exact Bool.false_ne_true hink.symm

/-- A text that is not blank is not empty. -/
lemma length_pos_of_not_blank {text : Text} (h : isBlankText U text = false) : 0 < text.length := by
  refine List.length_pos_of_ne_nil fun hnil => ?_
  rw [hnil, show isBlankText U [] = true from isBlankText_iff.mpr (by simp)] at h
  exact Bool.false_ne_true h.symm

/-! ### Groups -/

/-- A text that stands at a position of a message. -/
def StandsAt (raw : Text) (start : ℕ) (text : Text) : Prop :=
  text = slice raw start (start + text.length) ∧ start + text.length ≤ raw.length

lemma standsAt_of_drop {start : ℕ} {text rest : Text} (h : raw.drop start = text ++ rest)
    (hle : start ≤ raw.length) :
    StandsAt raw start text ∧ raw.drop (start + text.length) = rest := by
  have hlength := congrArg List.length h
  rw [List.length_drop, List.length_append] at hlength
  refine ⟨⟨?_, by omega⟩, ?_⟩
  · rw [slice, h, Nat.add_sub_cancel_left, List.take_left]
  · rw [← List.drop_drop, h, List.drop_left]

/-- The range of a group. -/
def LineGroup.span (group : LineGroup) : Span := ⟨group.start, group.start + group.text.length⟩

/-- A group holds its lines. -/
lemma groupOf_spec (start : ℕ) (line : Text) (rest : List Text) :
    (groupOf U start line rest).2.start = start ∧ (groupOf U start line rest).2.text =
      (line :: rest.take (groupOf U start line rest).1).flatten := by
  unfold groupOf
  dsimp only
  repeat' split
  all_goals exact ⟨rfl, rfl⟩

/-- The groups of lines cover their ink, and none of them is blank. -/
lemma lineGroups_cover : ∀ (fuel start : ℕ) (lines : List Text), lines.length ≤ fuel →
    raw.drop start = lines.flatten → start ≤ raw.length →
    Span.Cover (Ink U.toUnicodeData raw) start raw.length
        ((lineGroups U fuel start lines).map LineGroup.span) ∧
      ∀ group ∈ lineGroups U fuel start lines,
        StandsAt raw group.start group.text ∧ isBlankText U group.text = false := by
  intro fuel
  induction fuel with
  | zero =>
      intro start lines hfuel hlines hle
      obtain rfl := List.length_eq_zero_iff.mp (Nat.le_zero.mp hfuel)
      rw [List.flatten_nil, List.drop_eq_nil_iff] at hlines
      exact ⟨.nil fun i hi hi' => by omega, by simp [lineGroups]⟩
  | succ fuel ih =>
      intro start lines hfuel hlines hle
      cases lines with
      | nil =>
          rw [List.flatten_nil, List.drop_eq_nil_iff] at hlines
          exact ⟨.nil fun i hi hi' => by omega, by simp [lineGroups]⟩
      | cons line rest =>
          rw [lineGroups]
          cases hblank : isBlankText U line with
          | true =>
              rw [if_pos rfl]
              rw [List.flatten_cons] at hlines
              obtain ⟨hstands, hrest⟩ := standsAt_of_drop hlines hle
              obtain ⟨hcover, hgroups⟩ := ih _ rest (Nat.le_of_succ_le_succ hfuel) hrest hstands.2
              have hnil : Span.Cover (Ink U.toUnicodeData raw) start (start + line.length) [] :=
                .nil fun i => not_ink_of_isBlankText hstands.1 hblank
              exact ⟨hnil.append hcover (Nat.le_add_right _ _) hstands.2, hgroups⟩
          | false =>
              rw [if_neg Bool.false_ne_true]
              obtain ⟨hstart, htext⟩ := groupOf_spec (U := U) start line rest
              generalize groupOf U start line rest = grouped at hstart htext
              obtain ⟨count, group⟩ := grouped
              dsimp only at hstart htext ⊢
              have hsplit : (line :: rest).flatten = group.text ++ (rest.drop count).flatten := by
                rw [htext, ← List.flatten_append, List.cons_append, List.take_append_drop]
              rw [hsplit] at hlines
              obtain ⟨hstands, hrest⟩ := standsAt_of_drop hlines hle
              have hlength : (rest.drop count).length ≤ fuel := by
                rw [List.length_drop]
                rw [List.length_cons] at hfuel
                omega
              obtain ⟨hcover, hgroups⟩ := ih _ _ hlength hrest hstands.2
              have hgroup : isBlankText U group.text = false := by
                rw [← Bool.not_eq_true, isBlankText_iff] at hblank ⊢
                exact fun hall => hblank fun c hc => hall c (by
                  rw [htext, List.flatten_cons]
                  exact List.mem_append_left _ hc)
              have hone : Span.Cover (Ink U.toUnicodeData raw) start (start + group.text.length)
                  [group.span] := by
                rw [LineGroup.span, hstart]
                exact .singleton le_rfl (Nat.lt_add_of_pos_right (length_pos_of_not_blank hgroup))
                  le_rfl fun i hi hi' _ => ⟨hi, hi'⟩
              refine ⟨hone.append hcover (Nat.le_add_right _ _) hstands.2, fun g hg => ?_⟩
              rcases List.mem_cons.mp hg with rfl | hg
              · rw [hstart]
                exact ⟨hstands, hgroup⟩
              · exact hgroups g hg

/-! ### Sentences -/

/-- The range of a sentence. -/
def sentenceSpan (s : ℕ × Text) : Span := ⟨s.1, s.1 + s.2.length⟩

/-- A part of a text that stands at a position stands at its own. -/
lemma StandsAt.slice {start a b : ℕ} {text : Text} (h : StandsAt raw start text) (hab : a ≤ b)
    (hb : b ≤ text.length) :
    StandsAt raw (start + a) (slice text a b) ∧ start + a + (slice text a b).length = start + b := by
  obtain ⟨htext, hle⟩ := h
  have hlength : (Memorist.slice text a b).length = b - a := by rw [slice_length]; omega
  refine ⟨⟨?_, by omega⟩, by omega⟩
  rw [hlength, show start + a + (b - a) = start + b by omega]
  conv_lhs => rw [htext]
  rw [Memorist.slice, Memorist.slice, Memorist.slice, List.drop_take, List.drop_drop, List.take_take]
  congr 1
  omega

/-- What holds of the scan before every character: the sentences found tile what lies before the next
one, and only closing quotes were read ahead. -/
structure SentenceScan.Tiles (raw text : Text) (absoluteStart index : ℕ) (s : SentenceScan) : Prop where
  cover : Span.Cover (fun _ => True) absoluteStart (absoluteStart + s.start)
    (s.spans.map sentenceSpan)
  stands : ∀ q ∈ s.spans, StandsAt raw q.1 q.2
  start_le : s.start ≤ text.length
  ahead : ∀ k, index ≤ k → k < s.start → ∃ c, text[k]? = some c ∧ closingMarks.contains c = true

/-- A text that is cut tiles what it ranges over. -/
lemma cover_concat {absoluteStart a b : ℕ} {text : Text} {spans : List (ℕ × Text)}
    (h : Span.Cover (fun _ => True) absoluteStart (absoluteStart + a) (spans.map sentenceSpan))
    (hstands : ∀ q ∈ spans, StandsAt raw q.1 q.2) (htext : StandsAt raw absoluteStart text)
    (hab : a < b) (hb : b ≤ text.length) :
    Span.Cover (fun _ => True) absoluteStart (absoluteStart + b)
        ((spans ++ [(absoluteStart + a, Memorist.slice text a b)]).map sentenceSpan) ∧
      ∀ q ∈ spans ++ [(absoluteStart + a, Memorist.slice text a b)], StandsAt raw q.1 q.2 := by
  obtain ⟨hpart, hend⟩ := htext.slice hab.le hb
  have hone : Span.Cover (fun _ => True) (absoluteStart + a) (absoluteStart + b)
      [sentenceSpan (absoluteStart + a, Memorist.slice text a b)] := by
    rw [sentenceSpan, hend]
    exact .singleton le_rfl (by dsimp only; omega) le_rfl fun i hi hi' _ => ⟨hi, hi'⟩
  rw [List.map_append, List.map_singleton]
  refine ⟨h.append hone (Nat.le_add_right _ _) (by omega), fun q hq => ?_⟩
  rcases List.mem_append.mp hq with hq | hq
  · exact hstands q hq
  · rw [List.mem_singleton.mp hq]
    exact hpart

lemma SentenceScan.Tiles.step {text : Text} {absoluteStart index : ℕ} {s : SentenceScan}
    (h : s.Tiles raw text absoluteStart index) (htext : StandsAt raw absoluteStart text) :
    (s.step U text absoluteStart index).Tiles raw text absoluteStart (index + 1) := by
  have hahead : ∀ k, index + 1 ≤ k → k < s.start →
      ∃ c, text[k]? = some c ∧ closingMarks.contains c = true :=
    fun k hk => h.ahead k (Nat.le_of_succ_le hk)
  rw [SentenceScan.step]
  cases hc : text[index]? with
  | none => exact ⟨h.cover, h.stands, h.start_le, hahead⟩
  | some c =>
      dsimp only
      split_ifs with hsplit
      · obtain ⟨-, hpunctuation, -⟩ := hsplit
        have hlt := (List.getElem?_eq_some_iff.mp hc).1
        -- the mark is not one of the quotes that were read ahead
        have hstart : s.start ≤ index := by
          by_contra hread
          obtain ⟨d, hd, hclosing⟩ := h.ahead index le_rfl (not_le.mp hread)
          obtain rfl := Option.some_inj.mp (hc.symm.trans hd)
          simp only [sentencePunctuation, closingMarks, List.contains_eq_mem, List.mem_cons,
            List.not_mem_nil, or_false, decide_eq_true_eq] at hpunctuation hclosing
          rcases hpunctuation with rfl | rfl | rfl | rfl | rfl | rfl <;>
            exact absurd hclosing (by decide)
        have hstop := @skipWhile_bounds closingMarks.contains text (index + 1) text.length hlt
        obtain ⟨hcover, hstands⟩ := cover_concat h.cover h.stands htext
          (show s.start < consumeClosingQuotes text (index + 1) by
            rw [consumeClosingQuotes]; omega) hstop.2
        exact ⟨hcover, hstands, hstop.2, fun k hk hk' => class_of_lt_skipWhile hk hk'⟩
      · exact ⟨h.cover, h.stands, h.start_le, hahead⟩

lemma SentenceScan.Tiles.foldl {text : Text} {absoluteStart : ℕ}
    (htext : StandsAt raw absoluteStart text) (n : ℕ) :
    ((List.range n).foldl (SentenceScan.step U text absoluteStart) ⟨[], 0, []⟩).Tiles raw text
      absoluteStart n := by
  induction n with
  | zero =>
      exact ⟨.nil fun i hi hi' => absurd hi' (not_lt.mpr hi), by simp, Nat.zero_le _,
        fun k _ hk => absurd hk (Nat.not_lt_zero k)⟩
  | succ n ih =>
      rw [List.range_succ, List.foldl_append, List.foldl_cons, List.foldl_nil]
      exact ih.step htext

/-- The sentences of a text cover its ink, and none of them is blank. -/
lemma splitSentences_cover {text : Text} {absoluteStart : ℕ}
    (htext : StandsAt raw absoluteStart text) :
    Span.Cover (Ink U.toUnicodeData raw) absoluteStart (absoluteStart + text.length)
        ((splitSentences U text absoluteStart).map sentenceSpan) ∧
      ∀ q ∈ splitSentences U text absoluteStart,
        StandsAt raw q.1 q.2 ∧ isBlankText U q.2 = false := by
  have hscan := SentenceScan.Tiles.foldl (U := U) htext text.length
  rw [splitSentences]
  generalize (List.range text.length).foldl (SentenceScan.step U text absoluteStart) ⟨[], 0, []⟩ =
    s at hscan ⊢
  generalize hspans : (if s.start < text.length then
    s.spans ++ [(absoluteStart + s.start, text.drop s.start)] else s.spans) = spans
  have hall : Span.Cover (fun _ => True) absoluteStart (absoluteStart + text.length)
      (spans.map sentenceSpan) ∧ ∀ q ∈ spans, StandsAt raw q.1 q.2 := by
    rw [← hspans]
    split_ifs with hlt
    · have hrest : text.drop s.start = Memorist.slice text s.start text.length := by
        rw [Memorist.slice, List.take_of_length_le (by rw [List.length_drop])]
      rw [hrest]
      exact cover_concat hscan.cover hscan.stands htext hlt le_rfl
    · rw [show text.length = s.start by have := hscan.start_le; omega]
      exact ⟨hscan.cover, hscan.stands⟩
  refine ⟨hall.1.filter (fun _ _ => trivial) fun q hq hblank i hi => ?_, fun q hq => ?_⟩
  · rw [Bool.not_eq_false'] at hblank
    exact not_ink_of_isBlankText (hall.2 q hq).1 hblank hi.1 hi.2
  · obtain ⟨hmem, hblank⟩ := List.mem_filter.mp hq
    exact ⟨hall.2 q hmem, by simpa using hblank⟩

/-! ### Pieces -/

/-- The pieces of a group cover its ink, and none of them is blank. -/
lemma groupPieces_cover {group : LineGroup} (hgroup : StandsAt raw group.start group.text)
    (hblank : isBlankText U group.text = false) :
    Span.Cover (Ink U.toUnicodeData raw) group.start (group.start + group.text.length)
        ((groupPieces U group).map SentencePiece.span) ∧
      ∀ piece ∈ groupPieces U group,
        StandsAt raw piece.start piece.text ∧ isBlankText U piece.text = false := by
  have hwhole : ∀ piece ∈ [(⟨group.start, group.text, group.confidence, group.notes⟩ :
      SentencePiece)], StandsAt raw piece.start piece.text ∧ isBlankText U piece.text = false := by
    intro piece hpiece
    rw [List.mem_singleton.mp hpiece]
    exact ⟨hgroup, hblank⟩
  have hone : Span.Cover (Ink U.toUnicodeData raw) group.start (group.start + group.text.length)
      [(⟨group.start, group.start + group.text.length⟩ : Span)] :=
    .singleton le_rfl (Nat.lt_add_of_pos_right (length_pos_of_not_blank hblank)) le_rfl
      fun i hi hi' _ => ⟨hi, hi'⟩
  obtain ⟨hcover, hsentences⟩ := splitSentences_cover (U := U) hgroup
  rw [groupPieces]
  dsimp only
  split_ifs
  · rw [List.map_map]
    refine ⟨hcover, fun piece hpiece => ?_⟩
    obtain ⟨s, hs, rfl⟩ := List.mem_map.mp hpiece
    exact hsentences s hs
  · exact ⟨hone, hwhole⟩
  · exact ⟨hone, hwhole⟩

variable (U raw) in
/-- The pieces of a message cover its ink, and none of them is blank. -/
lemma pieces_cover :
    Span.Cover (Ink U.toUnicodeData raw) 0 raw.length ((pieces U raw).map SentencePiece.span) ∧
      ∀ piece ∈ pieces U raw,
        StandsAt raw piece.start piece.text ∧ isBlankText U piece.text = false := by
  obtain ⟨hcover, hgroups⟩ := @lineGroups_cover U raw (linesWithEnds [] raw).length 0
    (linesWithEnds [] raw) le_rfl (flatten_linesWithEnds [] raw).symm (Nat.zero_le _)
  rw [pieces, List.map_flatMap]
  refine ⟨hcover.flatMap fun group hgroup => ?_, fun piece hpiece => ?_⟩
  · obtain ⟨hstands, hblank⟩ := hgroups group hgroup
    exact (groupPieces_cover hstands hblank).1
  · obtain ⟨group, hgroup, hpiece⟩ := List.mem_flatMap.mp hpiece
    obtain ⟨hstands, hblank⟩ := hgroups group hgroup
    exact (groupPieces_cover hstands hblank).2 piece hpiece

end

/-! ### Units of a message -/

/-- The range of a unit. -/
def SentenceUnit.span (unit : SentenceUnit) : Span := ⟨unit.charStart, unit.charEnd⟩

/-- The units of a message are numbered from one, in order, equal to what they range over, and hold
all ink once. -/
structure UnitsTile (U : UnicodeTables) (raw : Text) (units : List SentenceUnit) : Prop where
  index : units.map SentenceUnit.sentenceIndex = List.range' 1 units.length
  ordered : units.Pairwise fun s t => s.charEnd ≤ t.charStart
  text : ∀ u ∈ units, u.text = slice raw u.charStart u.charEnd
  covered : ∀ i, Ink U.toUnicodeData raw i →
    ∃! u, u ∈ units ∧ u.charStart ≤ i ∧ i < u.charEnd

section

variable {P : Platform} {U : UnicodeTables} {raw : Text} {messageUuid : String}

/-- The unit of a piece that is not blank. -/
lemma exists_unit {piece : SentencePiece} (hstands : StandsAt raw piece.start piece.text)
    (hblank : isBlankText U piece.text = false) (index : ℕ) :
    ∃ u, unit P messageUuid (index + 1) piece = .ok u ∧ u.sentenceIndex = index + 1 ∧
      u.span = piece.span ∧ u.text = slice raw u.charStart u.charEnd ∧
      u.unitUuid = P.uuid5 unitNamespace (unitIdentity messageUuid u.sentenceIndex
        (P.sha256 u.text)) := by
  have htext := length_pos_of_not_blank hblank
  have hindex : 1 ≤ index + 1 := Nat.le_add_left 1 index
  unfold unit
  rw [dif_pos hindex, dif_pos htext]
  exact ⟨_, rfl, rfl, rfl, hstands.1, rfl⟩

/-- The number of a unit can be read off what it is named by. -/
lemma sentenceIndex_of_unitIdentity {i j : ℕ} {h h' : String}
    (heq : unitIdentity messageUuid i h = unitIdentity messageUuid j h') : i = j := by
  have htext := congrArg String.toList heq
  have hcolon : ":".toList = [':'] := rfl
  simp only [unitIdentity, String.toList_append, List.append_assoc, List.append_cancel_left_eq,
    toList_toString_nat, hcolon, List.singleton_append] at htext
  have hrest : IJson.NoDigit (':' :: h.toList) := IJson.noDigit_cons (by decide)
  have hrest' : IJson.NoDigit (':' :: h'.toList) := IJson.noDigit_cons (by decide)
  exact (IJson.toDigits_append_inj hrest hrest' (List.cons.inj htext).2).1

/-- Every message is segmented, into units that tile it and that are named by their numbers. -/
lemma exists_segment (P : Platform) (U : UnicodeTables) (messageUuid : String) (raw : Text) :
    ∃ units, segment P U messageUuid raw = .ok units ∧ UnitsTile U raw units ∧
      ∀ u ∈ units, u.unitUuid = P.uuid5 unitNamespace (unitIdentity messageUuid u.sentenceIndex
        (P.sha256 u.text)) := by
  cases hblank : isBlankText U raw with
  | true =>
      rw [segment, if_pos hblank]
      refine ⟨[], rfl, ⟨rfl, List.Pairwise.nil, by simp, fun i hi => absurd hi ?_⟩, by simp⟩
      rintro ⟨c, hc, hink⟩
      rw [isBlankText_iff.mp hblank c (List.mem_of_getElem? hc)] at hink
      exact Bool.false_ne_true hink.symm
  | false =>
      obtain ⟨hcover, hpieces⟩ := pieces_cover U raw
      have hkept : (pieces U raw).zipIdx.filter (fun piece => !isBlankText U piece.1.text) =
          (pieces U raw).zipIdx := by
        refine List.filter_eq_self.mpr fun piece hpiece => ?_
        rw [(hpieces piece.1 (List.mem_of_getElem? (List.mem_zipIdx_iff_getElem?.mp hpiece))).2]
        rfl
      obtain ⟨units, hunits⟩ := Checks.exists_forall₂
        fun piece (hpiece : piece ∈ (pieces U raw).zipIdx) =>
          have hmem := List.mem_of_getElem? (List.mem_zipIdx_iff_getElem?.mp hpiece)
          @exists_unit P U raw messageUuid piece.1 (hpieces piece.1 hmem).1
            (hpieces piece.1 hmem).2 piece.2
      have hspans : units.map SentenceUnit.span = (pieces U raw).map SentencePiece.span := by
        have hmap := Correspond.map_eq_of_forall₂ (hunits.imp fun piece u hu => hu.2.2.1.symm)
        have hfst := congrArg (List.map SentencePiece.span) (List.zipIdx_map_fst 0 (pieces U raw))
        rw [List.map_map] at hfst
        exact hmap.symm.trans hfst
      have hindex : units.map SentenceUnit.sentenceIndex = List.range' 1 units.length := by
        have hmap := Correspond.map_eq_of_forall₂ (hunits.imp fun piece u hu => hu.2.1.symm)
        have hsnd := congrArg (List.map (1 + ·)) (List.zipIdx_map_snd 0 (pieces U raw))
        rw [List.map_map, List.map_add_range', Nat.add_zero] at hsnd
        rw [← hmap, ← hunits.length_eq, List.length_zipIdx, ← hsnd]
        exact List.map_congr_left fun piece _ => Nat.add_comm piece.2 1
      rw [← hspans] at hcover
      rw [segment, if_neg (by rw [hblank]; exact Bool.false_ne_true), hkept]
      refine ⟨units, Checks.mapM_eq_ok.mpr (hunits.imp fun piece u hu => hu.1),
        ⟨hindex, List.pairwise_map.mp hcover.separated, fun u hu => ?_, fun i hi => ?_⟩,
        fun u hu => ?_⟩
      · obtain ⟨piece, -, hfact⟩ := Checks.exists_of_mem_right hunits hu
        exact hfact.2.2.2.1
      · obtain ⟨c, hc, -⟩ := id hi
        exact hcover.existsUnique (f := SentenceUnit.span) (Nat.zero_le i)
          (List.getElem?_eq_some_iff.mp hc).1 hi
      · obtain ⟨piece, -, hfact⟩ := Checks.exists_of_mem_right hunits hu
        exact hfact.2.2.2.2

/-- Units that are named by their numbers have names of their own. -/
lemma nodup_unitUuid {units : List SentenceUnit} (htile : UnitsTile U raw units)
    (hnamed : ∀ u ∈ units, u.unitUuid = P.uuid5 unitNamespace (unitIdentity messageUuid
      u.sentenceIndex (P.sha256 u.text)))
    (huuid : Function.Injective (P.uuid5 unitNamespace)) :
    (units.map SentenceUnit.unitUuid).Nodup := by
  have hnodup : (units.map SentenceUnit.sentenceIndex).Nodup := by
    rw [htile.index]
    exact List.nodup_range' 1
  rw [List.Nodup, List.pairwise_map] at hnodup ⊢
  refine hnodup.imp_of_mem fun {u v} hu hv hne hsame => hne ?_
  rw [hnamed u hu, hnamed v hv] at hsame
  exact sentenceIndex_of_unitIdentity (huuid hsame)

end

/-! ### Authorities of units -/

/-- Neighbours of a list that is related throughout are related. -/
lemma rel_of_mem_zip_tail {α : Type} {R : α → α → Prop} {xs : List α} (h : xs.Pairwise R) {a b : α}
    (hab : (a, b) ∈ xs.zip xs.tail) : R a b := by
  induction xs with
  | nil => exact absurd hab List.not_mem_nil
  | cons x xs ih =>
      obtain ⟨hx, hrest⟩ := List.pairwise_cons.mp h
      cases xs with
      | nil => exact absurd hab List.not_mem_nil
      | cons y xs =>
          rcases List.mem_cons.mp hab with heq | hab
          · obtain ⟨rfl, rfl⟩ := Prod.mk.inj heq
            exact hx b List.mem_cons_self
          · exact ih hrest hab

/-- Authorities whose ranges do not overlap are looked up by bisection. -/
lemma overlapping_eq_false {authorities : List PersistedUnitAuthority}
    (h : authorities.Pairwise fun a b => ¬ a.span.Overlaps b.span) :
    (AuthorityIndex.ofAuthorities authorities).overlapping = false := by
  have hsorted := KeySort.pairwise_sortBy authorityKey authorities
  have hapart : (KeySort.sortBy authorityKey authorities).Pairwise
      fun a b => ¬ a.span.Overlaps b.span :=
    ((KeySort.sortBy_perm authorityKey authorities).pairwise_iff fun {a b} hab hba =>
      hab hba.symm).mpr h
  rw [AuthorityIndex.ofAuthorities]
  dsimp only
  generalize KeySort.sortBy authorityKey authorities = sorted at hsorted hapart
  rw [List.any_eq_false]
  rintro ⟨a, b⟩ hab hoverlap
  have hkey : a.rawStart ≤ b.rawStart := Prod.Lex.monotone_fst _ _ (rel_of_mem_zip_tail hsorted hab)
  rcases Span.not_overlaps.mp (rel_of_mem_zip_tail hapart hab) with hle | hle
  · have hlt := b.orderedSpan
    have hle' : b.rawEnd ≤ a.rawStart := hle
    omega
  · exact absurd (of_decide_eq_true hoverlap) (not_lt.mpr hle)

variable {P : Platform} {U : UnicodeTables} {raw : Text}

/-- The ranges of units do not overlap. -/
lemma UnitsTile.disjoint {units : List SentenceUnit} (h : UnitsTile U raw units) :
    (units.map textUnitRow).Pairwise fun r s => ¬ r.span.Overlaps s.span :=
  List.pairwise_map.mpr (h.ordered.imp fun hle hoverlaps => absurd hoverlaps.2 (not_lt.mpr hle))

/-- The text units of a message are what its semantic runs start from. -/
theorem segmented_of_segment (hempty : ∀ name, P.uuid5 unitNamespace name ≠ "")
    (huuid : Function.Injective (P.uuid5 unitNamespace)) {scope : CurrentContextScope}
    {units : List SentenceUnit} (h : segment P U scope.messageUuid scope.rawText = .ok units) :
    Segmented scope (units.map textUnitRow) := by
  obtain ⟨units', hunits', htile, hnamed⟩ := exists_segment P U scope.messageUuid scope.rawText
  obtain rfl := Except.ok.inj (h.symm.trans hunits')
  refine ⟨htile.disjoint, fun r hr => ?_, fun r hr => ?_, ?_, fun r hr => ?_⟩
  · obtain ⟨u, -, rfl⟩ := List.mem_map.mp hr
    exact u.charStart_lt
  · obtain ⟨u, hu, rfl⟩ := List.mem_map.mp hr
    exact htile.text u hu
  · rw [List.map_map]
    exact nodup_unitUuid htile hnamed huuid
  · obtain ⟨u, hu, rfl⟩ := List.mem_map.mp hr
    rw [textUnitRow, hnamed u hu]
    exact hempty _

/-- Every message is segmented. Its units are numbered from one, in order and equal to what they range
over, and every character that is not white space lies in exactly one of them; and where names do not
collide they are named apart, and the authorities built from them are looked up by bisection. -/
theorem text_units_tile (P : Platform) (U : UnicodeTables) (messageUuid : String) (raw : Text) :
    ∃ units, segment P U messageUuid raw = .ok units ∧ UnitsTile U raw units ∧
      (Function.Injective (P.uuid5 unitNamespace) →
        (units.map SentenceUnit.unitUuid).Nodup ∧
        ∀ signals authorities,
          loadPersistedAuthorities U.toUnicodeData signals (units.map textUnitRow) =
            .ok authorities →
          (AuthorityIndex.ofAuthorities authorities).overlapping = false) := by
  obtain ⟨units, hunits, htile, hnamed⟩ := exists_segment P U messageUuid raw
  refine ⟨units, hunits, htile, fun huuid => ?_⟩
  have hnodup := nodup_unitUuid htile hnamed huuid
  refine ⟨hnodup, fun signals authorities hload => ?_⟩
  have hnames : ((units.map textUnitRow).map TextUnitRow.textUnitUuid).Nodup := by
    rw [List.map_map]
    exact hnodup
  obtain ⟨loaded, hloaded, hperm⟩ := load_corresponds hnames hload
  -- authorities have the ranges of their units
  have hspans : (units.map textUnitRow).map TextUnitRow.span =
      loaded.map PersistedUnitAuthority.span :=
    Correspond.map_eq_of_forall₂ (hloaded.imp fun unit a ha => (authorityOfUnit_facts ha).span.symm)
  have hapart : loaded.Pairwise fun a b => ¬ a.span.Overlaps b.span := by
    rw [← List.pairwise_map (f := PersistedUnitAuthority.span)
      (R := fun s t => ¬ Span.Overlaps s t), ← hspans, List.pairwise_map]
    exact htile.disjoint
  exact overlapping_eq_false ((hperm.pairwise_iff fun {a b} hab hba => hab hba.symm).mp hapart)

end SentenceSegmenter

end Memorist
