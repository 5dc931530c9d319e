import Memorist.Text.Normalize

/-!
Token boundaries and phrase matching (`textsemantics/tokens.py`,
`textsemantics/lexicon.py`).

* `tokenize`: the maximal runs of alphanumeric characters of a normalized text, a
  combining mark staying with the run it decorates;
* `findAnyPhrase`, `Lexicon.search`: whole-token phrases, leftmost and longest;
* `TokensOf`: what the map back to the raw text says of a token stream. Tokens are
  non-empty raw ranges that hold an alphanumeric character and follow one another
  without overlap (`tokenize_tokensOf`).
-/

namespace Memorist

/-- The characters that hold a phrase together. -/
def phraseSeparators : List Char := ['_', '-', '\'', Char.ofNat 0x2019]

/-- A token, in normalized and in raw coordinates. -/
structure Token where
  text : Text
  key : Text
  index : ℕ
  start : ℕ
  stop : ℕ
  rawStart : ℕ
  rawEnd : ℕ
  inCode : Bool
  deriving DecidableEq, Repr

/-- A phrase hit, anchored to exact raw evidence. -/
structure LexicalMatch where
  text : Text
  evidence : Text
  rawStart : ℕ
  rawEnd : ℕ
  tokenStart : ℕ
  tokenEnd : ℕ
  deriving DecidableEq, Repr

/-- The raw range of the normalized slice `[start, stop)`; no range for an invalid slice. -/
def NormalizedText.rawSpan (n : NormalizedText) (start stop : ℕ) : Option (ℕ × ℕ) :=
  if start < stop ∧ stop ≤ n.glyphs.length then
    match n.glyphs[start]?, n.glyphs[stop - 1]? with
    | some first, some last => some (first.start, last.stop)
    | _, _ => none
  else none

section

variable (U : UnicodeData)

/-- The token at the normalized slice `[start, stop)`. -/
def token (n : NormalizedText) (start stop index : ℕ) : Token :=
  let text := slice n.text start stop
  let raw := (n.rawSpan start stop).getD (0, 0)
  { text
    -- the characters of code are copied, so the comparison key is normalized here
    key := if n.isCode start then normalizeText U n.contract text else text
    index, start, stop
    rawStart := raw.1
    rawEnd := raw.2
    inCode := n.isCode start }

/-- The tokens still to come at `index`, when the current run began at `start` and `count`
tokens were emitted. -/
def tokensFrom (n : NormalizedText) : ℕ → Option ℕ → ℕ → Text → List Token
  | _, none, _, [] => []
  | index, some start, count, [] => [token U n start index count]
  | index, none, count, c :: rest =>
      if U.isalnum c then tokensFrom n (index + 1) (some index) count rest
      else tokensFrom n (index + 1) none count rest
  | index, some start, count, c :: rest =>
      if U.isalnum c || U.combining c != 0 then tokensFrom n (index + 1) (some start) count rest
      else token U n start index count :: tokensFrom n (index + 1) none (count + 1) rest

/-- The tokens of a normalized text, those of fenced code only on request. -/
def tokenize (n : NormalizedText) (includeCode : Bool) : List Token :=
  let tokens := tokensFrom U n 0 none 0 n.text
  if includeCode then tokens else tokens.filter fun t => !t.inCode

/-- The normalized token sequence of a lexicon entry. -/
def phraseTokens (phrase : Text) : List Text :=
  (tokenize U (normalizeWithMapping U defaultNormalizationContract phrase) false).map Token.key

/-- Whether the window is one contiguous phrase in the source. -/
def adjacent (n : NormalizedText) (window : List Token) : Bool :=
  (window.zip window.tail).all fun (current, following) =>
    following.index == current.index + 1 &&
      (slice n.text current.stop following.start).all fun c =>
        phraseSeparators.contains c || U.isspace c

/-- The match a non-empty window of tokens stands for. -/
def spanMatch (n : NormalizedText) (first last : Token) : LexicalMatch where
  text := slice n.text first.start last.stop
  evidence := slice n.raw first.rawStart last.rawEnd
  rawStart := first.rawStart
  rawEnd := last.rawEnd
  tokenStart := first.index
  tokenEnd := last.index + 1

/-- The first occurrence of the needle as a token sequence. -/
def matchTokens (n : NormalizedText) (tokens : List Token) (needle : List Text) :
    Option LexicalMatch :=
  if needle.length = 0 ∨ tokens.length < needle.length then none
  else (List.range (tokens.length - needle.length + 1)).findSome? fun offset =>
    let window := (tokens.drop offset).take needle.length
    match window.head?, window.getLast? with
    | some first, some last =>
        if window.map Token.key = needle ∧ adjacent U n window then some (spanMatch n first last)
        else none
    | _, _ => none

/-- Whether a match is preferred to the best so far: further left, then longer. -/
def LexicalMatch.before (m best : LexicalMatch) : Bool :=
  m.tokenStart < best.tokenStart ||
    (m.tokenStart == best.tokenStart && best.tokenEnd < m.tokenEnd)

/-- The leftmost match across the phrases, the longest at one position. -/
def findAnyPhrase (haystack : NormalizedText) (phrases : List Text) (includeCode : Bool) :
    Option LexicalMatch :=
  let tokens := tokenize U haystack includeCode
  phrases.foldl (fun best phrase =>
    match matchTokens U haystack tokens (phraseTokens U phrase), best with
    | none, best => best
    | some m, none => some m
    | some m, some b => if m.before b then some m else some b) none

/-- An ordered set of phrases matched on token boundaries. -/
structure Lexicon where
  name : String
  phrases : List String

/-- The leftmost, longest whole-token hit. -/
def Lexicon.search (lexicon : Lexicon) (text : NormalizedText) (includeCode : Bool) :
    Option LexicalMatch :=
  findAnyPhrase U text (lexicon.phrases.map String.toList) includeCode

end

/-! ### The raw ranges of a token stream -/

/-- A token of a normalized text: a non-empty slice that starts at an alphanumeric glyph and
carries the raw range of its first and last glyph. -/
structure IsTokenOf (U : UnicodeData) (n : NormalizedText) (t : Token) : Prop where
  lt : t.start < t.stop
  first : ∃ g, n.glyphs[t.start]? = some g ∧ U.isalnum g.char = true ∧ t.rawStart = g.start
  last : ∃ g, n.glyphs[t.stop - 1]? = some g ∧ t.rawEnd = g.stop

/-- The raw ranges of a stream of tokens of `raw`. -/
structure TokensOf (U : UnicodeData) (raw : Text) (tokens : List Token) : Prop where
  lt : ∀ t ∈ tokens, t.rawStart < t.rawEnd
  le_length : ∀ t ∈ tokens, t.rawEnd ≤ raw.length
  separated : tokens.Pairwise fun s t => s.rawEnd ≤ t.rawStart
  alnum : ∀ t ∈ tokens, ∃ c, raw[t.rawStart]? = some c ∧ U.isalnum c = true

section

variable {U : UnicodeData} {n : NormalizedText}

lemma isTokenOf_token {start stop : ℕ} (index : ℕ) (hlt : start < stop)
    (hle : stop ≤ n.glyphs.length)
    (hal : ∃ g, n.glyphs[start]? = some g ∧ U.isalnum g.char = true) :
    IsTokenOf U n (token U n start stop index) := by
  obtain ⟨g, hg, hal⟩ := hal
  obtain ⟨l, hl⟩ : ∃ l, n.glyphs[stop - 1]? = some l :=
    ⟨_, List.getElem?_eq_getElem (by omega)⟩
  have hspan : n.rawSpan start stop = some (g.start, l.stop) := by
    rw [NormalizedText.rawSpan, if_pos ⟨hlt, hle⟩, hg, hl]
  exact ⟨hlt, ⟨g, hg, hal, by simp [token, hspan]⟩, ⟨l, hl, by simp [token, hspan]⟩⟩

/-- The scan emits tokens from the current run on, one after the other. -/
lemma tokensFrom_spec (rest : Text) : ∀ (index : ℕ) (start : Option ℕ) (count : ℕ),
    n.text.drop index = rest → index ≤ n.glyphs.length →
    (∀ s ∈ start, s < index ∧ ∃ g, n.glyphs[s]? = some g ∧ U.isalnum g.char = true) →
    (∀ t ∈ tokensFrom U n index start count rest,
      IsTokenOf U n t ∧ start.getD index ≤ t.start) ∧
    (tokensFrom U n index start count rest).Pairwise fun s t => s.stop ≤ t.start := by
  induction rest with
  | nil =>
      intro index start count _ hle hstart
      cases start with
      | none => simp [tokensFrom]
      | some s =>
          obtain ⟨hlt, hal⟩ := hstart s rfl
          simp only [tokensFrom, List.mem_singleton, forall_eq, List.pairwise_singleton, and_true]
          exact ⟨isTokenOf_token count hlt hle hal, le_rfl⟩
  | cons c rest ih =>
      intro index start count hdrop hle hstart
      have hget : n.text[index]? = some c := by
        rw [← List.head?_drop, hdrop, List.head?_cons]
      have hlt : index < n.glyphs.length := by
        have := (List.getElem?_eq_some_iff.mp hget).1
        simpa [NormalizedText.text] using this
      have hdrop' : n.text.drop (index + 1) = rest := by
        rw [← List.drop_drop, hdrop, List.drop_one, List.tail_cons]
      have hnone := ih (index + 1) none
      have hsome := ih (index + 1)
      cases start with
      | none =>
          rw [tokensFrom]
          split_ifs with hal
          · refine (hsome (some index) count hdrop' hlt fun s hs => ?_)
            rw [Option.mem_some_iff] at hs
            subst hs
            refine ⟨Nat.lt_succ_self _, ?_⟩
            rw [NormalizedText.text, List.getElem?_map, Option.map_eq_some_iff] at hget
            obtain ⟨g, hg, rfl⟩ := hget
            exact ⟨g, hg, hal⟩
          · obtain ⟨hmem, hpair⟩ := hnone count hdrop' hlt (by simp)
            exact ⟨fun t ht => ⟨(hmem t ht).1, Nat.le_of_succ_le (hmem t ht).2⟩, hpair⟩
      | some s =>
          obtain ⟨hs, hal⟩ := hstart s rfl
          rw [tokensFrom]
          split_ifs
          · refine (hsome (some s) count hdrop' hlt fun s' hs' => ?_)
            rw [Option.mem_some_iff] at hs'
            subst hs'
            exact ⟨hs.trans (Nat.lt_succ_self _), hal⟩
          · obtain ⟨hmem, hpair⟩ := hnone (count + 1) hdrop' hlt (by simp)
            refine ⟨fun t ht => ?_, List.pairwise_cons.mpr ⟨fun t ht => ?_, hpair⟩⟩
            · rcases List.mem_cons.mp ht with rfl | ht
              · exact ⟨isTokenOf_token count hs hle hal, le_rfl⟩
              · exact ⟨(hmem t ht).1, hs.le.trans (Nat.le_of_succ_le (hmem t ht).2)⟩
            · exact Nat.le_of_succ_le (hmem t ht).2

/-- The raw ranges of tokens in ascending order of a well-mapped text. -/
lemma tokensOf_of_isTokenOf {raw : Text} {tokens : List Token}
    (h : WellMapped U raw raw.length n.glyphs) (htok : ∀ t ∈ tokens, IsTokenOf U n t)
    (hpair : tokens.Pairwise fun s t => s.stop ≤ t.start) : TokensOf U raw tokens := by
  have hordered := List.pairwise_iff_getElem.mp h.ordered
  have hseparated := List.pairwise_iff_getElem.mp h.separated
  constructor
  · intro t ht
    obtain ⟨hlt, ⟨g, hg, -, hstart⟩, ⟨l, hl, hend⟩⟩ := htok t ht
    obtain ⟨hgi, rfl⟩ := List.getElem?_eq_some_iff.mp hg
    obtain ⟨hli, rfl⟩ := List.getElem?_eq_some_iff.mp hl
    have hrange := (h.range _ (List.getElem_mem hgi)).1
    rw [hstart, hend]
    rcases Nat.eq_or_lt_of_le (Nat.le_sub_one_of_lt hlt) with heq | hlt'
    · simpa only [heq] using hrange
    · exact hrange.trans_le (hordered _ _ hgi hli hlt')
  · intro t ht
    obtain ⟨-, -, ⟨l, hl, hend⟩⟩ := htok t ht
    rw [hend]
    exact (h.range l (List.mem_of_getElem? hl)).2
  · refine hpair.imp_of_mem fun {s t} hs ht hst => ?_
    obtain ⟨hlt, -, ⟨l, hl, hend⟩⟩ := htok s hs
    obtain ⟨-, ⟨g, hg, hal, hstart⟩, -⟩ := htok t ht
    obtain ⟨hgi, rfl⟩ := List.getElem?_eq_some_iff.mp hg
    obtain ⟨hli, rfl⟩ := List.getElem?_eq_some_iff.mp hl
    rw [hend, hstart]
    exact hseparated _ _ hli hgi (by omega) hal
  · intro t ht
    obtain ⟨-, ⟨g, hg, hal, hstart⟩, -⟩ := htok t ht
    rw [hstart]
    exact h.anchored g (List.mem_of_getElem? hg) hal

/-- The tokens of a text are separated raw ranges with an alphanumeric character each. -/
theorem tokenize_tokensOf (U : UnicodeData) (contract : NormalizationContract) (raw : Text)
    (includeCode : Bool) :
    TokensOf U raw (tokenize U (normalizeWithMapping U contract raw) includeCode) := by
  have hmap := normalizeWithMapping_wellMapped U contract raw
  obtain ⟨hmem, hpair⟩ := tokensFrom_spec (U := U) (n := normalizeWithMapping U contract raw)
    _ 0 none 0 rfl (Nat.zero_le _) (by simp)
  rw [List.drop_zero] at hmem hpair
  have hall := tokensOf_of_isTokenOf hmap (fun t ht => (hmem t ht).1) hpair
  rw [tokenize]
  split_ifs
  · exact hall
  · have hsub := List.filter_sublist (p := fun t : Token => !t.inCode)
      (l := tokensFrom U (normalizeWithMapping U contract raw) 0 none 0
        (normalizeWithMapping U contract raw).text)
    exact ⟨fun t ht => hall.lt t (hsub.subset ht), fun t ht => hall.le_length t (hsub.subset ht),
      hall.separated.sublist hsub, fun t ht => hall.alnum t (hsub.subset ht)⟩

end

end Memorist
