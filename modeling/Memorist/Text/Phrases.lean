import Memorist.Library.LongestMatch
import Memorist.Text.Tokens

/-!
All the phrases of a text (`textsemantics/tokens.py`).

* `findAllPhrases`: every whole-token hit, overlaps resolved to the leftmost and longest;
* `Occurs`: an occurrence of a phrase, as a window of adjacent tokens;
* `tokenize_index`: the tokens of a text have ascending indices, so that a hit is known by its range;
* `phrases_found`: **the hits follow one another, every occurrence overlaps one that comes no later,
  and `find_any_phrase` is the first of them.**
-/

namespace Memorist

section

variable (U : UnicodeData)

/-- Every occurrence of the needle as a token sequence. -/
def matchAllTokens (n : NormalizedText) (tokens : List Token) (needle : List Text) :
    List LexicalMatch :=
  if needle.length = 0 ∨ tokens.length < needle.length then []
  else (List.range (tokens.length - needle.length + 1)).filterMap fun offset =>
    let window := (tokens.drop offset).take needle.length
    match window.head?, window.getLast? with
    | some first, some last =>
        if window.map Token.key = needle ∧ adjacent U n window then some (spanMatch n first last)
        else none
    | _, _ => none

/-- The tokens of a hit. -/
def LexicalMatch.tokens (m : LexicalMatch) : Span := ⟨m.tokenStart, m.tokenEnd⟩

/-- Keep leftmost-longest hits, dropping anything they cover. -/
def resolveOverlaps (found : List LexicalMatch) : List LexicalMatch :=
  LongestMatch.resolve LexicalMatch.tokens found

/-- Every hit of the phrases that overlaps no better one. -/
def findAllPhrases (haystack : NormalizedText) (phrases : List Text) (includeCode : Bool) :
    List LexicalMatch :=
  let tokens := tokenize U haystack includeCode
  resolveOverlaps (phrases.flatMap fun phrase =>
    matchAllTokens U haystack tokens (phraseTokens U phrase))

/-- A phrase occurs as a window of adjacent whole tokens. -/
def Occurs (n : NormalizedText) (tokens : List Token) (needle : List Text) (m : LexicalMatch) :
    Prop :=
  ∃ before window after first last, tokens = before ++ window ++ after ∧
    window.map Token.key = needle ∧ adjacent U n window ∧
    window.head? = some first ∧ window.getLast? = some last ∧ m = spanMatch n first last

variable {U} {n : NormalizedText} {tokens : List Token} {needle : List Text} {m m' : LexicalMatch}

/-! ### The order of tokens -/

lemma tokensFrom_index (rest : Text) : ∀ (index : ℕ) (start : Option ℕ) (count : ℕ),
    (∀ t ∈ tokensFrom U n index start count rest, count ≤ t.index) ∧
      (tokensFrom U n index start count rest).Pairwise fun s t => s.index < t.index := by
  induction rest with
  | nil =>
      intro index start count
      cases start with
      | none => simp [tokensFrom]
      | some s => simp [tokensFrom, token]
  | cons c rest ih =>
      intro index start count
      cases start with
      | none =>
          rw [tokensFrom]
          split_ifs
          · exact ih _ _ _
          · exact ih _ _ _
      | some s =>
          rw [tokensFrom]
          split_ifs
          · exact ih _ _ _
          · obtain ⟨hle, hpair⟩ := ih (index + 1) none (count + 1)
            refine ⟨fun t ht => ?_, List.pairwise_cons.mpr ⟨fun t ht => ?_, hpair⟩⟩
            · rcases List.mem_cons.mp ht with rfl | ht
              · exact le_rfl
              · exact (Nat.le_succ count).trans (hle t ht)
            · exact hle t ht

/-- The tokens of a text have ascending indices. -/
lemma tokenize_index (U : UnicodeData) (n : NormalizedText) (includeCode : Bool) :
    (tokenize U n includeCode).Pairwise fun s t => s.index < t.index := by
  have hpair := (tokensFrom_index (U := U) (n := n) n.text 0 none 0).2
  rw [tokenize]
  split_ifs
  · exact hpair
  · exact hpair.sublist List.filter_sublist

/-! ### Hits -/

/-- The first hit of a phrase is the first of all its hits. -/
lemma head?_matchAllTokens :
    (matchAllTokens U n tokens needle).head? = matchTokens U n tokens needle := by
  rw [matchAllTokens, matchTokens]
  split_ifs
  · rfl
  · exact List.head?_filterMap

/-- A hit of an offset is a window that begins there. -/
lemma mem_matchAllTokens : m ∈ matchAllTokens U n tokens needle ↔ Occurs U n tokens needle m := by
  constructor
  · intro h
    rw [matchAllTokens] at h
    split_ifs at h with hwidth
    · exact absurd h List.not_mem_nil
    obtain ⟨offset, -, h⟩ := List.mem_filterMap.mp h
    dsimp only at h
    split at h
    case h_1 first last hfirst hlast =>
      split_ifs at h with hwindow
      refine ⟨tokens.take offset, _, (tokens.drop offset).drop needle.length, first, last, ?_,
        hwindow.1, hwindow.2, hfirst, hlast, (Option.some.inj h).symm⟩
      rw [List.append_assoc, List.take_append_drop, List.take_append_drop]
    case h_2 => exact absurd h (by simp)
  · rintro ⟨before, window, after, first, last, rfl, rfl, hadjacent, hfirst, hlast, rfl⟩
    have hne : window ≠ [] := by
      rintro rfl
      simp at hfirst
    have hlength := List.length_pos_iff.mpr hne
    rw [matchAllTokens, if_neg (by simp only [List.length_map, List.length_append]; omega)]
    refine List.mem_filterMap.mpr ⟨before.length, ?_, ?_⟩
    · rw [List.mem_range]
      simp only [List.length_map, List.length_append]
      omega
    · have hwindow : ((before ++ window ++ after).drop before.length).take
          (window.map Token.key).length = window := by
        rw [List.append_assoc, List.drop_left, List.length_map, List.take_left]
      dsimp only
      rw [hwindow]
      simp only [hfirst, hlast, hadjacent, and_self, if_true]

/-- A hit reaches from its first token to the end of its last one. -/
lemma Occurs.tokenRange (h : Occurs U n tokens needle m)
    (hindex : tokens.Pairwise fun s t => s.index < t.index) :
    ∃ first ∈ tokens, ∃ last ∈ tokens, first.index ≤ last.index ∧ m = spanMatch n first last := by
  obtain ⟨before, window, after, first, last, rfl, -, -, hfirst, hlast, rfl⟩ := h
  have hmem : ∀ t ∈ window, t ∈ before ++ window ++ after := fun t ht =>
    List.mem_append_left _ (List.mem_append_right _ ht)
  have hpair : window.Pairwise fun s t => s.index < t.index :=
    (List.pairwise_append.mp (List.pairwise_append.mp hindex).1).2.1
  refine ⟨first, hmem _ (List.mem_of_head? hfirst), last, hmem _ (List.mem_of_getLast? hlast), ?_,
    rfl⟩
  rcases window with _ | ⟨t, window⟩
  · simp at hfirst
  · obtain rfl : t = first := by simpa using hfirst
    rcases List.mem_cons.mp (List.mem_of_getLast? hlast) with rfl | hmem
    · exact le_rfl
    · exact ((List.pairwise_cons.mp hpair).1 last hmem).le

lemma Occurs.lt (h : Occurs U n tokens needle m)
    (hindex : tokens.Pairwise fun s t => s.index < t.index) : m.tokenStart < m.tokenEnd := by
  obtain ⟨first, -, last, -, hle, rfl⟩ := h.tokenRange hindex
  exact Nat.lt_succ_of_le hle

/-- The range of its tokens tells a hit apart, whatever the phrase. -/
lemma Occurs.eq_of_tokens {needle' : List Text} (h : Occurs U n tokens needle m)
    (h' : Occurs U n tokens needle' m')
    (hindex : tokens.Pairwise fun s t => s.index < t.index) (htokens : m.tokens = m'.tokens) :
    m = m' := by
  have hnodup : (tokens.map Token.index).Nodup := hindex.map _ fun _ _ h => h.ne
  obtain ⟨first, hfirst, last, hlast, -, rfl⟩ := h.tokenRange hindex
  obtain ⟨first', hfirst', last', hlast', -, rfl⟩ := h'.tokenRange hindex
  obtain ⟨hstart, hstop⟩ := Span.mk.inj htokens
  rw [List.inj_on_of_nodup_map hnodup hfirst hfirst' hstart,
    List.inj_on_of_nodup_map hnodup hlast hlast' (Nat.succ.inj hstop)]

/-- The hits of a phrase come in the order of the tokens. -/
lemma matchAllTokens_sorted (hindex : tokens.Pairwise fun s t => s.index < t.index) :
    (matchAllTokens U n tokens needle).Pairwise fun m m' => m.tokenStart < m'.tokenStart := by
  rw [matchAllTokens]
  split_ifs with hwidth
  · exact List.Pairwise.nil
  have hpos : needle.length ≠ 0 := fun h => hwidth (.inl h)
  refine List.pairwise_lt_range.filterMap _ fun offset offset' hlt m hm m' hm' => ?_
  -- a hit begins with the token of its offset
  have hstart : ∀ {offset m}, m ∈ (match ((tokens.drop offset).take needle.length).head?,
      ((tokens.drop offset).take needle.length).getLast? with
      | some first, some last =>
          if ((tokens.drop offset).take needle.length).map Token.key = needle ∧
              adjacent U n ((tokens.drop offset).take needle.length) then
            some (spanMatch n first last)
          else none
      | _, _ => none) → ∃ t, tokens[offset]? = some t ∧ m.tokenStart = t.index := by
    intro offset m hm
    split at hm
    case h_1 first last hfirst _ =>
      rw [List.head?_take, if_neg hpos, List.head?_drop] at hfirst
      split_ifs at hm with hwindow
      · obtain rfl := Option.some.inj hm
        exact ⟨first, hfirst, rfl⟩
      · exact absurd hm (by simp)
    case h_2 => exact absurd hm (by simp)
  obtain ⟨s, hs, hms⟩ := hstart hm
  obtain ⟨t, ht, hmt⟩ := hstart hm'
  obtain ⟨hlen, rfl⟩ := List.getElem?_eq_some_iff.mp hs
  obtain ⟨hlen', rfl⟩ := List.getElem?_eq_some_iff.mp ht
  rw [hms, hmt]
  exact List.pairwise_iff_getElem.mp hindex offset offset' hlen hlen' hlt

/-! ### The first hit and all hits -/

lemma before_iff : m.before m' = true ↔
    LongestMatch.order LexicalMatch.tokens m < LongestMatch.order LexicalMatch.tokens m' := by
  rw [LongestMatch.order_lt_iff]
  simp [LexicalMatch.before, LexicalMatch.tokens]

/-- `find_any_phrase` takes the best of the first hits of the phrases. -/
lemma findAnyPhrase_eq (haystack : NormalizedText) (phrases : List Text) (includeCode : Bool) :
    findAnyPhrase U haystack phrases includeCode =
      ((phrases.map fun phrase => matchAllTokens U haystack (tokenize U haystack includeCode)
        (phraseTokens U phrase)).map List.head?).foldl (LongestMatch.prefer LexicalMatch.tokens)
          none := by
  rw [findAnyPhrase, List.map_map, List.foldl_map]
  congr 1
  funext best phrase
  rw [Function.comp_apply, head?_matchAllTokens]
  cases matchTokens U haystack (tokenize U haystack includeCode) (phraseTokens U phrase) with
  | none => rfl
  | some m =>
      cases best with
      | none => rfl
      | some b => simp only [LongestMatch.prefer, before_iff]

end

/-- **The phrases of a text.** The hits that `find_all_phrases` returns follow one another in the
order of the tokens, each is an occurrence of a phrase, and every occurrence of a phrase overlaps one
that starts no later and, if it starts there too, is at least as long. The first of them is what
`find_any_phrase` returns. -/
theorem phrases_found (U : UnicodeData) (haystack : NormalizedText) (phrases : List Text)
    (includeCode : Bool) :
    (findAllPhrases U haystack phrases includeCode).Pairwise
        (fun m m' => m.tokenStart < m'.tokenStart ∧ m.tokenEnd ≤ m'.tokenStart) ∧
      (∀ m ∈ findAllPhrases U haystack phrases includeCode, ∃ phrase ∈ phrases,
        Occurs U haystack (tokenize U haystack includeCode) (phraseTokens U phrase) m) ∧
      (∀ phrase ∈ phrases, ∀ m,
        Occurs U haystack (tokenize U haystack includeCode) (phraseTokens U phrase) m →
        ∃ kept ∈ findAllPhrases U haystack phrases includeCode, kept.tokens.Overlaps m.tokens ∧
          kept.tokenStart ≤ m.tokenStart ∧
          (kept.tokenStart = m.tokenStart → m.tokenEnd ≤ kept.tokenEnd)) ∧
      findAnyPhrase U haystack phrases includeCode =
        (findAllPhrases U haystack phrases includeCode).head? := by
  have hindex := tokenize_index U haystack includeCode
  set tokens := tokenize U haystack includeCode with htokens
  set groups := phrases.map fun phrase =>
    matchAllTokens U haystack tokens (phraseTokens U phrase) with hgroups
  have hall : findAllPhrases U haystack phrases includeCode =
      LongestMatch.resolve LexicalMatch.tokens groups.flatten := by
    rw [findAllPhrases, resolveOverlaps, List.flatMap_def]
  have hocc : ∀ m ∈ groups.flatten, ∃ phrase ∈ phrases,
      Occurs U haystack tokens (phraseTokens U phrase) m := by
    intro m hm
    obtain ⟨group, hgroup, hm⟩ := List.mem_flatten.mp hm
    obtain ⟨phrase, hphrase, rfl⟩ := List.mem_map.mp hgroup
    exact ⟨phrase, hphrase, mem_matchAllTokens.mp hm⟩
  have hlt : ∀ m ∈ groups.flatten, m.tokens.start < m.tokens.stop := by
    intro m hm
    obtain ⟨phrase, -, hm⟩ := hocc m hm
    exact hm.lt hindex
  rw [hall]
  refine ⟨?_, fun m hm => hocc m (LongestMatch.mem_of_mem_resolve hm), fun phrase hphrase m hm => ?_,
    ?_⟩
  · refine (LongestMatch.separated_resolve hlt).imp_of_mem fun {m m'} hm _ hstop => ?_
    exact ⟨(hlt m (LongestMatch.mem_of_mem_resolve hm)).trans_le hstop, hstop⟩
  · have hmem : m ∈ groups.flatten :=
      List.mem_flatten.mpr ⟨_, List.mem_map_of_mem hphrase, mem_matchAllTokens.mpr hm⟩
    obtain ⟨kept, hkept, hover, horder⟩ := LongestMatch.exists_overlapping_resolve hlt hmem
    refine ⟨kept, hkept, hover, LongestMatch.start_le_of_order_le horder, fun hstart => ?_⟩
    rcases LongestMatch.order_le_iff.mp horder with hbefore | ⟨-, hstop⟩
    · exact absurd hstart hbefore.ne
    · exact hstop
  · rw [findAnyPhrase_eq]
    refine LongestMatch.head?_resolve_flatten (fun m hm m' hm' heq => ?_) fun group hgroup => ?_
    · obtain ⟨phrase, -, hm⟩ := hocc m hm
      obtain ⟨phrase', -, hm'⟩ := hocc m' hm'
      exact hm.eq_of_tokens hm' hindex heq
    · obtain ⟨phrase, -, rfl⟩ := List.mem_map.mp hgroup
      exact (matchAllTokens_sorted hindex).imp fun h => LongestMatch.order_le_iff.mpr (.inl h)

/-- The longer phrase wins over the one it begins with. -/
example : (findAllPhrases basicLatin
    (normalizeWithMapping basicLatin defaultNormalizationContract "a b b c".toList)
    ["b".toList, "a b".toList] true).map LexicalMatch.tokens = [⟨0, 2⟩, ⟨2, 3⟩] := by
  decide +kernel

end Memorist
