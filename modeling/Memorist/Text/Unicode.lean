import Mathlib

/-!
Strings and characters as the interpreter sees them.

A `str` is the list of its code points (`Text`), and a slice `raw[a:b]` is
`slice raw a b`. The character database the code consults through `str.isalnum`,
`str.isspace`, `str.lower`, `str.casefold` and `unicodedata` is the structure
`UnicodeData`: its version is the interpreter's, not the repository's, so the
development is stated over every database that obeys the facts below, all of them
documented of the Unicode tables. `UnicodeTables` adds what every version says of ASCII.
`basicLatin` is the database restricted to ASCII and the Arabic letters and digits the
normalization maps name.
-/

namespace Memorist

/-- A Python `str`: the list of its code points. -/
abbrev Text := List Char

instance Text.lawfulBEq : LawfulBEq Text := inferInstance

/-- The slice `raw[start:stop]`. -/
def slice (raw : Text) (start stop : ℕ) : Text := (raw.drop start).take (stop - start)

@[simp] lemma slice_length (raw : Text) (start stop : ℕ) :
    (slice raw start stop).length = min (stop - start) (raw.length - start) := by
  simp [slice]

lemma slice_getElem? (raw : Text) {start stop i : ℕ} (h : start + i < stop) :
    (slice raw start stop)[i]? = raw[start + i]? := by
  rw [slice, List.getElem?_take, if_pos (by omega), List.getElem?_drop]

lemma mem_slice_of_getElem? {raw : Text} {start stop i : ℕ} {c : Char}
    (hi : raw[i]? = some c) (h₁ : start ≤ i) (h₂ : i < stop) : c ∈ slice raw start stop := by
  refine List.mem_of_getElem? (i := i - start) ?_
  rw [slice_getElem? raw (by omega), Nat.add_sub_cancel' h₁, hi]

lemma slice_append {raw : Text} {start mid stop : ℕ} (h₁ : start ≤ mid) (h₂ : mid ≤ stop) :
    slice raw start mid ++ slice raw mid stop = slice raw start stop := by
  rw [slice, slice, slice, show stop - start = (mid - start) + (stop - mid) by omega,
    List.take_add, List.drop_drop, Nat.add_sub_cancel' h₁]

lemma slice_take {raw : Text} {position start stop : ℕ} :
    slice (raw.take position) start stop = slice raw start (min stop position) := by
  rw [slice, slice, List.drop_take, List.take_take]
  congr 1
  omega

lemma slice_drop {raw : Text} {position start stop : ℕ} :
    slice (raw.drop position) start stop = slice raw (position + start) (position + stop) := by
  rw [slice, slice, List.drop_drop, Nat.add_sub_add_left]

/-- Python's `character.isascii()`. -/
def isAscii (c : Char) : Bool := c.toNat < 128

/-- The decimal digits of the Arabic block, in both of its alphabets. -/
def isArabicDigit (c : Char) : Bool :=
  (0x0660 ≤ c.toNat && c.toNat ≤ 0x0669) || (0x06F0 ≤ c.toNat && c.toNat ≤ 0x06F9)

/-- The Arabic letters that Persian text writes with a code point of its own. -/
def arabicVariantLetters : List Char := ['ي', 'ى', 'ك']

/-- The character database: the functions of `str` and `unicodedata` the code calls, with the
facts of the Unicode tables the proofs use. -/
structure UnicodeData where
  isalnum : Char → Bool
  isspace : Char → Bool
  /-- General category `Nd`, the class `\d` of a pattern. -/
  isdecimal : Char → Bool
  combining : Char → ℕ
  category : Char → String
  lower : Char → Text
  casefold : Char → Text
  /-- Composition, `unicodedata.normalize("NFC", _)`. -/
  nfc : Text → Text
  isalnum_ascii : ∀ c, isAscii c → isalnum c = c.isAlphanum
  /-- A mark with a combining class is never alphanumeric. -/
  isalnum_of_combining : ∀ c, combining c ≠ 0 → isalnum c = false
  isalnum_arabicDigit : ∀ c, isArabicDigit c → isalnum c = true
  isalnum_arabicVariant : ∀ c ∈ arabicVariantLetters, isalnum c = true
  /-- Lower-casing makes no character alphanumeric. -/
  isalnum_lower : ∀ c, isalnum c = false → ∀ d ∈ lower c, isalnum d = false
  /-- Past its first character a lower-case form holds marks only. -/
  isalnum_lower_tail : ∀ c, ∀ d ∈ (lower c).tail, isalnum d = false
  /-- The composition of a base with its marks is one base and marks that did not compose. -/
  isalnum_nfc_tail : ∀ b marks, (∀ m ∈ marks, combining m ≠ 0) →
    ∀ d ∈ (nfc (b :: marks)).tail, isalnum d = false
  /-- Composition makes no base alphanumeric. -/
  isalnum_nfc_head : ∀ b marks d, (∀ m ∈ marks, combining m ≠ 0) →
    (nfc (b :: marks)).head? = some d → isalnum d = true → isalnum b = true

namespace UnicodeData

variable (U : UnicodeData)

/-- The class `\w` of a pattern. -/
def isWord (c : Char) : Bool := U.isalnum c || c == '_'

/-- Lower case, character by character. -/
def lowerText (text : Text) : Text := text.flatMap U.lower

/-- Python's `text.casefold()`. -/
def casefoldText (text : Text) : Text := text.flatMap U.casefold

/-- Python's `text.lstrip()`. -/
def lstrip (text : Text) : Text := text.dropWhile U.isspace

/-- Python's `text.strip()`. -/
def strip (text : Text) : Text := (U.lstrip (U.lstrip text).reverse).reverse

lemma isalnum_space : U.isalnum ' ' = false := by
  rw [U.isalnum_ascii ' ' (by decide)]; decide

end UnicodeData

/-- The database knows the lower case of ASCII. -/
def LowersAscii (U : UnicodeData) : Prop := ∀ c, isAscii c → U.lower c = [c.toLower]

lemma lowerText_ascii {U : UnicodeData} (h : LowersAscii U) {text : Text} (hascii : text.all isAscii) :
    U.lowerText text = text.map Char.toLower := by
  induction text with
  | nil => rfl
  | cons c text ih =>
      rw [List.all_cons, Bool.and_eq_true] at hascii
      have hrest : text.flatMap U.lower = text.map Char.toLower := ih hascii.2
      rw [UnicodeData.lowerText, List.flatMap_cons, h c hascii.1, hrest, List.map_cons]
      rfl

/-! ### The database on ASCII and the mapped Arabic characters -/

/-- The whitespace of ASCII, with the four separators `str.isspace` counts. -/
def isAsciiSpace (c : Char) : Bool :=
  c == ' ' || (9 ≤ c.toNat && c.toNat ≤ 13) || (28 ≤ c.toNat && c.toNat ≤ 31)

private def basicAlnum (c : Char) : Bool :=
  c.isAlphanum || isArabicDigit c || arabicVariantLetters.contains c

private lemma basicAlnum_toLower (c : Char) (h : basicAlnum c = false) :
    basicAlnum c.toLower = false := by
  have hup : c.isUpper = false := by
    simp only [basicAlnum, Char.isAlphanum, Char.isAlpha, Bool.or_eq_false_iff] at h
    exact h.1.1.1.1
  have hc : c.toLower = c := by
    rw [Char.toLower, dif_neg]
    simpa [Char.isUpper] using hup
  rw [hc, h]

/-- The character database of ASCII text and of the Arabic letters and digits that the
normalization maps name; every other character is a symbol without case. -/
def basicLatin : UnicodeData where
  isalnum := basicAlnum
  isspace := isAsciiSpace
  isdecimal := fun c => c.isDigit || isArabicDigit c
  combining := fun _ => 0
  category := fun c => if c.toNat < 32 || c.toNat == 127 then "Cc" else "So"
  lower := fun c => [c.toLower]
  casefold := fun c => [c.toLower]
  nfc := id
  isalnum_ascii := by
    intro c hc
    have h1 : isArabicDigit c = false := by
      simp only [isAscii, isArabicDigit, decide_eq_true_eq] at hc ⊢
      simp only [Bool.or_eq_false_iff, Bool.and_eq_false_iff, decide_eq_false_iff_not]
      omega
    have h2 : arabicVariantLetters.contains c = false := by
      rw [List.contains_eq_mem, decide_eq_false_iff_not]
      intro hmem
      simp only [arabicVariantLetters, List.mem_cons, List.not_mem_nil, or_false] at hmem
      rcases hmem with rfl | rfl | rfl <;> exact absurd hc (by decide)
    rw [basicAlnum, h1, h2, Bool.or_false, Bool.or_false]
  isalnum_of_combining := fun c h => absurd rfl h
  isalnum_arabicDigit := fun c h => by simp [basicAlnum, h]
  isalnum_arabicVariant := fun c h => by simp [basicAlnum, h]
  isalnum_lower := by
    intro c h d hd
    rw [List.mem_singleton.mp hd]
    exact basicAlnum_toLower c h
  isalnum_lower_tail := fun c d hd => absurd hd (by simp)
  isalnum_nfc_tail := by
    intro b marks hm d hd
    exact absurd rfl (hm d (by simpa using hd))
  isalnum_nfc_head := by
    intro b marks d _ hd h
    rw [id, List.head?_cons, Option.some.injEq] at hd
    rw [hd, h]

/-- A character database that also knows `str.isdigit`, with what every version says of ASCII. -/
structure UnicodeTables extends UnicodeData where
  isdigit : Char → Bool
  isspace_ascii : ∀ c, isAscii c → isspace c = isAsciiSpace c
  combining_ascii : ∀ c, isAscii c → combining c = 0
  isdigit_ascii : ∀ c, isAscii c → isdigit c = c.isDigit

/-- The tables of `basicLatin`. -/
def basicLatinTables : UnicodeTables where
  toUnicodeData := basicLatin
  isdigit := fun c => c.isDigit || isArabicDigit c
  isspace_ascii := fun _ _ => rfl
  combining_ascii := fun _ _ => rfl
  isdigit_ascii := by
    intro c hc
    have harabic : isArabicDigit c = false := by
      simp only [isAscii, isArabicDigit, decide_eq_true_eq] at hc ⊢
      simp only [Bool.or_eq_false_iff, Bool.and_eq_false_iff, decide_eq_false_iff_not]
      omega
    rw [harabic, Bool.or_false]

end Memorist
