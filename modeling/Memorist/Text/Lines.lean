import Memorist.Text.Unicode

/-!
The lines and the words of a text (`str.splitlines`, `str.split`).

* `splitLines`: the lines of a text;
* `words`: what stands between its white space;
* `collapseSpaces`: the words, one space between them;
* `lastWord`, `getLast?_words_strip`: the last word of a text that does not end with white space.
-/

namespace Memorist

/-- The characters that end a line. -/
def isLineBoundary (c : Char) : Bool :=
  (0x0A ≤ c.toNat && c.toNat ≤ 0x0D) || (0x1C ≤ c.toNat && c.toNat ≤ 0x1E) || c.toNat = 0x85 ||
    c.toNat = 0x2028 || c.toNat = 0x2029

/-- The lines of a text after the beginning of one. -/
def splitLinesFrom (line : Text) : Text → List Text
  | [] => if line.isEmpty then [] else [line]
  | '\r' :: '\n' :: rest => line :: splitLinesFrom [] rest
  | c :: rest =>
      if isLineBoundary c then line :: splitLinesFrom [] rest else splitLinesFrom (line ++ [c]) rest

/-- Python's `text.splitlines()`. -/
def splitLines (text : Text) : List Text := splitLinesFrom [] text

section

variable (U : UnicodeData)

/-- The words of a text after the beginning of one. -/
def wordsFrom (word : Text) : Text → List Text
  | [] => if word.isEmpty then [] else [word]
  | c :: rest =>
      if U.isspace c then (if word.isEmpty then [] else [word]) ++ wordsFrom [] rest
      else wordsFrom (word ++ [c]) rest

/-- Python's `text.split()`. -/
def words (text : Text) : List Text := wordsFrom U [] text

/-- `" ".join(text.split())`. -/
def collapseSpaces (text : Text) : Text := List.intercalate [' '] (words U text)

end

section

variable {U : UnicodeData} {text : Text} {c : Char}

variable (U) in
/-- The characters up to the end of a text behind the last white space. -/
def lastWord (text : Text) : Text := (text.reverse.takeWhile fun c => !U.isspace c).reverse

lemma lastWord_eq_self (h : ∀ c ∈ text, U.isspace c = false) : lastWord U text = text := by
  rw [lastWord, List.takeWhile_eq_self_iff.mpr fun c hc => ?_, List.reverse_reverse]
  rw [h c (List.mem_reverse.mp hc), Bool.not_false]

/-- White space hides what stands before it. -/
lemma lastWord_append_cons (hc : U.isspace c = true) (before text : Text) :
    lastWord U (before ++ c :: text) = lastWord U text := by
  rw [lastWord, lastWord, List.reverse_append, List.reverse_cons, List.append_assoc,
    List.takeWhile_append, List.singleton_append, List.takeWhile_cons_of_neg (by simp [hc])]
  split_ifs with hall
  · rw [List.append_nil, (List.takeWhile_prefix _).eq_of_length hall]
  · rfl

/-- Without white space in it, the last word begins before it. -/
lemma lastWord_append (h : ∀ c ∈ text, U.isspace c = false) (before : Text) :
    lastWord U (before ++ text) = lastWord U before ++ text := by
  rw [lastWord, lastWord, List.reverse_append, List.takeWhile_append_of_pos,
    List.reverse_append, List.reverse_reverse]
  intro c hc
  rw [h c (List.mem_reverse.mp hc), Bool.not_false]

lemma mem_lastWord (hlast : text.getLast? = some c) (hc : U.isspace c = false) :
    c ∈ lastWord U text := by
  obtain ⟨before, rfl⟩ := List.getLast?_eq_some_iff.mp hlast
  rw [lastWord_append fun d hd => List.mem_singleton.mp hd ▸ hc]
  exact List.mem_append_right _ (List.mem_singleton_self c)

/-- The last of the words that are read behind the beginning of one. -/
lemma getLast?_wordsFrom {word : Text} (hne : word ++ text ≠ [])
    (hlast : ∀ c ∈ text.getLast?, U.isspace c = false) (hword : ∀ c ∈ word, U.isspace c = false) :
    (wordsFrom U word text).getLast? = some (lastWord U (word ++ text)) := by
  induction text generalizing word with
  | nil =>
      rw [List.append_nil] at hne ⊢
      rw [wordsFrom, if_neg (by simpa using hne), lastWord_eq_self hword]
      rfl
  | cons c rest ih =>
      rw [wordsFrom]
      by_cases hc : U.isspace c = true
      · have hrest : rest ≠ [] := by
          rintro rfl
          rw [hlast c rfl] at hc
          exact Bool.false_ne_true hc
        have hwords := @ih [] hrest (by rwa [List.getLast?_cons_of_ne_nil hrest] at hlast) (by simp)
        rw [if_pos hc, List.getLast?_append, hwords, Option.some_or, List.nil_append,
          lastWord_append_cons hc]
      · rw [if_neg hc, ih (by simp) ?_ ?_, List.append_assoc, List.singleton_append]
        · intro d hd
          cases rest with
          | nil => cases hd
          | cons e rest => exact hlast d (by rwa [List.getLast?_cons_cons])
        · intro d hd
          rcases List.mem_append.mp hd with hd | hd
          · exact hword d hd
          · rw [List.mem_singleton.mp hd]
            exact Bool.not_eq_true _ ▸ hc

lemma words_lstrip (text : Text) : words U (U.lstrip text) = words U text := by
  induction text with
  | nil => rfl
  | cons c rest ih =>
      rw [UnicodeData.lstrip]
      by_cases hc : U.isspace c = true
      · rw [List.dropWhile_cons_of_pos hc, words, words, wordsFrom, if_pos hc]
        exact ih
      · rw [List.dropWhile_cons_of_neg hc]

/-- The last word of a text that does not end with white space. -/
lemma getLast?_words_strip (hlast : text.getLast? = some c) (hc : U.isspace c = false) :
    (words U (U.strip text)).getLast? = some (lastWord U text) := by
  obtain ⟨before, rfl⟩ := List.getLast?_eq_some_iff.mp hlast
  have hstrip : U.strip (before ++ [c]) = U.lstrip (before ++ [c]) := by
    have hkept : ∃ front, U.lstrip (before ++ [c]) = front ++ [c] := by
      rw [UnicodeData.lstrip, List.dropWhile_append]
      split_ifs
      · exact ⟨[], List.dropWhile_cons_of_neg (by simp [hc])⟩
      · exact ⟨_, rfl⟩
    obtain ⟨front, hfront⟩ := hkept
    rw [UnicodeData.strip, hfront, List.reverse_append, List.reverse_singleton,
      List.singleton_append, UnicodeData.lstrip, List.dropWhile_cons_of_neg (by simp [hc]),
      ← List.reverse_concat, List.reverse_reverse]
  rw [hstrip, words_lstrip, words, getLast?_wordsFrom (by simp) ?_ (by simp), List.nil_append]
  simp [hc]

end

end Memorist
