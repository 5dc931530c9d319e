import Mathlib.Data.List.TakeWhile
import Memorist.Library.Json

/-!
JSON texts: values with integer and other numbers, their compact text, and its reader.

* `Floats`: numbers with a point or an exponent, their text and their reader;
* `Json.print`: the text of a value, without spaces;
* `Json.read`: the value of a text, which names no member of an object twice;
* `read_print`: reading inverts printing.
-/

/-! ### Numbers -/

/-- The characters of a number. -/
def isNumberChar (c : Char) : Bool :=
  c.isDigit || c = '-' || c = '+' || c = '.' || c = 'e' || c = 'E'

/-- A number without its sign. -/
def unsigned : List Char → List Char
  | '-' :: rest => rest
  | text => text

/-- Digits that do not begin with a zero, or one zero. -/
def isWhole (text : List Char) : Bool :=
  text ≠ [] && text.all Char.isDigit && (text.head? ≠ some '0' || text.length = 1)

/-- `-?(0|[1-9][0-9]*)`. -/
def isIntLiteral (text : List Char) : Bool := isWhole (unsigned text)

/-- `([eE][-+]?[0-9]+)?`. -/
def isExponent : List Char → Bool
  | [] => true
  | e :: rest =>
      let digits := if rest.head? = some '+' || rest.head? = some '-' then rest.tail else rest
      (e = 'e' || e = 'E') && digits ≠ [] && digits.all Char.isDigit

/-- `(\.[0-9]+)?([eE][-+]?[0-9]+)?`. -/
def isFraction : List Char → Bool
  | '.' :: rest => rest.takeWhile Char.isDigit ≠ [] && isExponent (rest.dropWhile Char.isDigit)
  | text => isExponent text

/-- `-?(0|[1-9][0-9]*)(\.[0-9]+)?([eE][-+]?[0-9]+)?`, with a point or an exponent. -/
def isFloatLiteral (text : List Char) : Bool :=
  isWhole ((unsigned text).takeWhile Char.isDigit) &&
    (unsigned text).dropWhile Char.isDigit ≠ [] &&
    isFraction ((unsigned text).dropWhile Char.isDigit) && text.all isNumberChar

/-- The integer of a literal. -/
def intOfLiteral : List Char → ℤ
  | '-' :: rest => -(Nat.ofDigitChars 10 rest 0 : ℤ)
  | text => Nat.ofDigitChars 10 text 0

/-- Numbers with a point or an exponent: which are finite, their text, and the number of a literal.
The text of a finite one is a literal of it. -/
structure Floats (F : Type) where
  finite : F → Bool
  repr : F → List Char
  ofLiteral : List Char → F
  isFloatLiteral_repr : ∀ x, finite x → isFloatLiteral (repr x)
  ofLiteral_repr : ∀ x, finite x → ofLiteral (repr x) = x

/-! ### Values -/

/-- A JSON value. -/
inductive Json (F : Type) where
  | null
  | bool (b : Bool)
  | int (i : ℤ)
  | float (x : F)
  | str (s : List Char)
  | arr (items : List (Json F))
  | obj (members : List (List Char × Json F))

namespace Json

open IJson (printString printInt escapeChar hexDigit)

variable {F : Type}

section

variable (N : Floats F)

mutual

/-- The text of a value, its members in the order listed. -/
def print : Json F → List Char
  | null => ['n', 'u', 'l', 'l']
  | bool true => ['t', 'r', 'u', 'e']
  | bool false => ['f', 'a', 'l', 's', 'e']
  | int i => printInt i
  | float x => N.repr x
  | str s => printString s
  | arr [] => ['[', ']']
  | arr (x :: xs) => '[' :: (print x ++ printItems xs)
  | obj [] => ['{', '}']
  | obj ((k, x) :: ms) => '{' :: (printString k ++ ':' :: (print x ++ printMembers ms))

/-- The items of an array after the first, and its end. -/
def printItems : List (Json F) → List Char
  | [] => [']']
  | x :: xs => ',' :: (print x ++ printItems xs)

/-- The members of an object after the first, and its end. -/
def printMembers : List (List Char × Json F) → List Char
  | [] => ['}']
  | (k, x) :: ms => ',' :: (printString k ++ ':' :: (print x ++ printMembers ms))

end

/-! ### Reading -/

/-- White space between the parts of a text. -/
def isSpace (c : Char) : Bool := c = ' ' || c = '\t' || c = '\n' || c = '\r'

/-- A text without the white space at its beginning. -/
def skipSpace (text : List Char) : List Char := text.dropWhile isSpace

/-- The value of a hexadecimal digit. -/
def hexValue? (c : Char) : Option ℕ :=
  if c.isDigit then some (c.toNat - 48)
  else if 'a' ≤ c ∧ c ≤ 'f' then some (c.toNat - 87)
  else if 'A' ≤ c ∧ c ≤ 'F' then some (c.toNat - 55)
  else none

/-- Four hexadecimal digits. -/
def readHex : List Char → Option (ℕ × List Char)
  | a :: b :: c :: d :: rest => do
      let a ← hexValue? a
      let b ← hexValue? b
      let c ← hexValue? c
      let d ← hexValue? d
      some (((16 * a + b) * 16 + c) * 16 + d, rest)
  | _ => none

/-- What follows `\u`: a character, or a pair of surrogates. A surrogate alone is no character. -/
def readCodePoint (text : List Char) : Option (Char × List Char) := do
  let (high, rest) ← readHex text
  if 0xD800 ≤ high ∧ high < 0xE000 then
    if rest.take 2 = ['\\', 'u'] then
      let (low, rest) ← readHex (rest.drop 2)
      if high < 0xDC00 ∧ 0xDC00 ≤ low ∧ low < 0xE000 then
        some (Char.ofNat (0x10000 + (high - 0xD800) * 0x400 + (low - 0xDC00)), rest)
      else none
    else none
  else some (Char.ofNat high, rest)

/-- The character of a short escape. -/
def shortEscape (c : Char) : Option Char :=
  if c = '"' ∨ c = '\\' ∨ c = '/' then some c
  else if c = 'b' then some (Char.ofNat 8)
  else if c = 'f' then some (Char.ofNat 12)
  else if c = 'n' then some '\n'
  else if c = 'r' then some '\r'
  else if c = 't' then some '\t'
  else none

/-- What follows a backslash. -/
def readEscape : List Char → Option (Char × List Char)
  | [] => none
  | c :: rest => if c = 'u' then readCodePoint rest else (shortEscape c).map fun d => (d, rest)

/-- The characters of a string up to its closing quote. -/
def readString : ℕ → List Char → Option (List Char × List Char)
  | 0, _ => none
  | _ + 1, [] => none
  | fuel + 1, c :: rest =>
      if c = '"' then some ([], rest)
      else if c = '\\' then do
        let (d, rest) ← readEscape rest
        let (s, rest) ← readString fuel rest
        some (d :: s, rest)
      else if c.toNat < 32 then none
      else do
        let (s, rest) ← readString fuel rest
        some (c :: s, rest)

/-- A number: all characters that may belong to it have to. -/
def readNumber (text : List Char) : Option (Json F × List Char) :=
  let literal := text.takeWhile isNumberChar
  let rest := text.dropWhile isNumberChar
  if isIntLiteral literal then some (int (intOfLiteral literal), rest)
  else if isFloatLiteral literal then some (float (N.ofLiteral literal), rest)
  else none

/-- The words that are values. -/
def wordValues : List (List Char × Json F) :=
  [(['n', 'u', 'l', 'l'], null), (['t', 'r', 'u', 'e'], bool true),
    (['f', 'a', 'l', 's', 'e'], bool false)]

/-- A word that is a value. -/
def readWord (text : List Char) : Option (Json F × List Char) :=
  wordValues.findSome? fun (word, value) =>
    if word.isPrefixOf text then some (value, text.drop word.length) else none

/-- Whether no two members have one name. -/
def distinctNames (members : List (List Char × Json F)) : Bool := (members.map Prod.fst).Nodup

mutual

/-- A value at the beginning of a text, and what follows it. Each call but that for the first item
of an array takes a character, so that twice the length of the text is enough fuel. -/
def readValue : ℕ → List Char → Option (Json F × List Char)
  | 0, _ => none
  | _ + 1, [] => none
  | fuel + 1, c :: rest =>
      if c = '"' then (readString fuel rest).map fun (s, rest) => (str s, rest)
      else if c = '{' then
        if (skipSpace rest).head? = some '}' then some (obj [], (skipSpace rest).tail)
        else do
          let (members, rest) ← readMembers fuel (skipSpace rest)
          if distinctNames members then some (obj members, rest) else none
      else if c = '[' then
        if (skipSpace rest).head? = some ']' then some (arr [], (skipSpace rest).tail)
        else (readItems fuel (skipSpace rest)).map fun (items, rest) => (arr items, rest)
      else if isNumberChar c then readNumber N (c :: rest)
      else readWord (c :: rest)

/-- The items of an array, and what follows it. -/
def readItems : ℕ → List Char → Option (List (Json F) × List Char)
  | 0, _ => none
  | fuel + 1, text => do
      let (x, rest) ← readValue fuel text
      if (skipSpace rest).head? = some ',' then
        let (xs, rest) ← readItems fuel (skipSpace (skipSpace rest).tail)
        some (x :: xs, rest)
      else if (skipSpace rest).head? = some ']' then some ([x], (skipSpace rest).tail)
      else none

/-- The members of an object, and what follows it. -/
def readMembers : ℕ → List Char → Option (List (List Char × Json F) × List Char)
  | 0, _ => none
  | fuel + 1, text =>
      if text.head? = some '"' then do
        let (k, rest) ← readString fuel text.tail
        if (skipSpace rest).head? = some ':' then
          let (x, rest) ← readValue fuel (skipSpace (skipSpace rest).tail)
          if (skipSpace rest).head? = some ',' then
            let (ms, rest) ← readMembers fuel (skipSpace (skipSpace rest).tail)
            some ((k, x) :: ms, rest)
          else if (skipSpace rest).head? = some '}' then some ([(k, x)], (skipSpace rest).tail)
          else none
        else none
      else none

end

/-- The value of a text. -/
def read (text : List Char) : Option (Json F) :=
  match readValue N (2 * text.length) (skipSpace text) with
  | some (value, rest) => if skipSpace rest = [] then some value else none
  | none => none

end

/-! ### Strings -/

lemma hexValue?_hexDigit : ∀ n < 16, hexValue? (hexDigit n) = some n := by decide

/-- Reading inverts escaping. -/
lemma readString_escapeChar (c : Char) (fuel : ℕ) (rest : List Char) :
    readString (fuel + 1) (escapeChar c ++ rest) =
      (readString fuel rest).map fun (s, rest) => (c :: s, rest) := by
  have hmap : ∀ d : Char, ((readString fuel rest).bind fun (s, rest) => some (d :: s, rest)) =
      (readString fuel rest).map fun (s, rest) => (d :: s, rest) := fun d => by
    rcases readString fuel rest with _ | ⟨s, r⟩ <;> rfl
  have eq_of_toNat : ∀ n, c.toNat = n → Char.ofNat n = c := fun n h => by
    rw [← h, Char.ofNat_toNat]
  rw [escapeChar]
  split_ifs with h₁ h₂ h₃ h₄ h₅ h₆ h₇ h₈
  · subst h₁; exact hmap _
  · subst h₂; exact hmap _
  · have hlow : ¬ c.toNat < 32 := by omega
    rw [List.singleton_append, readString, if_neg h₁, if_neg h₂, if_neg hlow]
    exact hmap c
  · subst h₄; exact hmap _
  · subst h₅; exact hmap _
  · subst h₆; exact hmap _
  · rw [← eq_of_toNat 8 h₇]; exact hmap _
  · rw [← eq_of_toNat 12 h₈]; exact hmap _
  · have hhi : c.toNat / 16 < 16 := by omega
    have hlo : c.toNat % 16 < 16 := by omega
    have hhex : readHex ('0' :: '0' :: hexDigit (c.toNat / 16) :: hexDigit (c.toNat % 16) :: rest) =
        some (c.toNat, rest) := by
      have hsum : ((16 * 0 + 0) * 16 + c.toNat / 16) * 16 + c.toNat % 16 = c.toNat := by omega
      have hzero : hexValue? '0' = some 0 := rfl
      simp only [readHex, hzero, hexValue?_hexDigit _ hhi, hexValue?_hexDigit _ hlo, bind,
        Option.bind_some, hsum]
    have hpoint : readCodePoint ('0' :: '0' :: hexDigit (c.toNat / 16) ::
        hexDigit (c.toNat % 16) :: rest) = some (c, rest) := by
      have hplain : ¬ (0xD800 ≤ c.toNat ∧ c.toNat < 0xE000) := by omega
      simp only [readCodePoint, hhex, bind, Option.bind_some, if_neg hplain, Char.ofNat_toNat]
    simp only [List.cons_append, List.nil_append, readString]
    rw [if_neg (by decide), if_pos trivial]
    simp only [readEscape, if_true, hpoint, bind, Option.bind_some]
    exact hmap c

/-- A string literal is read whole. -/
lemma readString_print (s : List Char) {fuel : ℕ} (rest : List Char)
    (hfuel : (s.flatMap escapeChar).length < fuel) :
    readString fuel (s.flatMap escapeChar ++ '"' :: rest) = some (s, rest) := by
  induction s generalizing fuel with
  | nil =>
      obtain ⟨fuel, rfl⟩ : ∃ n, fuel = n + 1 := ⟨fuel - 1, by omega⟩
      rfl
  | cons c s ih =>
      obtain ⟨d, t, hd, -⟩ := IJson.escapeChar_head c
      rw [List.flatMap_cons, List.length_append, hd, List.length_cons] at hfuel
      obtain ⟨fuel, rfl⟩ : ∃ n, fuel = n + 1 := ⟨fuel - 1, by omega⟩
      rw [List.flatMap_cons, List.append_assoc, readString_escapeChar, ih (by omega)]
      rfl

/-! ### Numbers -/

/-- What follows a number does not go on with it. -/
def EndsNumber (rest : List Char) : Prop := ∀ c ∈ rest.head?, isNumberChar c = false

lemma endsNumber_nil : EndsNumber [] := by simp [EndsNumber]

lemma endsNumber_cons {c : Char} {rest : List Char} (h : isNumberChar c = false) :
    EndsNumber (c :: rest) := by
  simpa [EndsNumber] using h

lemma takeWhile_literal {literal rest : List Char} (hliteral : literal.all isNumberChar)
    (hrest : EndsNumber rest) :
    (literal ++ rest).takeWhile isNumberChar = literal ∧
      (literal ++ rest).dropWhile isNumberChar = rest := by
  have hall : ∀ c ∈ literal, isNumberChar c := List.all_eq_true.mp hliteral
  rw [List.takeWhile_append_of_pos hall, List.dropWhile_append_of_pos hall]
  cases rest with
  | nil => simp
  | cons c rest =>
      have hc := hrest c rfl
      rw [List.takeWhile_cons_of_neg (by simp [hc]), List.dropWhile_cons_of_neg (by simp [hc]),
        List.append_nil]
      exact ⟨rfl, rfl⟩

lemma isNumberChar_of_isDigit {c : Char} (h : c.isDigit) : isNumberChar c := by
  simp [isNumberChar, h]

/-- The digits of a number. -/
lemma all_isDigit_toDigits (n : ℕ) : (Nat.toDigits 10 n).all Char.isDigit :=
  List.all_eq_true.mpr fun _ hc => Nat.isDigit_of_mem_toDigits (by norm_num) (by norm_num) hc

/-- Only the number zero begins with a zero. -/
lemma toDigits_head_ne_zero {n : ℕ} (hn : 0 < n) : (Nat.toDigits 10 n).head? ≠ some '0' := by
  induction n using Nat.strong_induction_on with
  | _ n ih =>
      rcases Nat.lt_or_ge n 10 with hlt | hge
      · rw [Nat.toDigits_of_lt_base hlt]
        interval_cases n <;> decide
      · rw [Nat.toDigits_of_base_le (by norm_num) hge]
        have hne : Nat.toDigits 10 (n / 10) ≠ [] := Nat.toDigits_ne_nil
        rw [List.head?_append_of_ne_nil _ hne]
        exact ih (n / 10) (by omega) (by omega)

lemma isWhole_toDigits (n : ℕ) : isWhole (Nat.toDigits 10 n) := by
  have hne : Nat.toDigits 10 n ≠ [] := Nat.toDigits_ne_nil
  rcases Nat.eq_zero_or_pos n with rfl | hn
  · decide
  · simp [isWhole, hne, all_isDigit_toDigits, toDigits_head_ne_zero hn]

/-- The text of an integer is a literal of it. -/
lemma printInt_literal (i : ℤ) : isIntLiteral (printInt i) ∧ intOfLiteral (printInt i) = i ∧
    (printInt i).all isNumberChar := by
  have hdigits : ∀ n, Nat.ofDigitChars 10 (Nat.toDigits 10 n) 0 = n := fun n =>
    Nat.ofDigitChars_toDigits (by norm_num) (by norm_num)
  have hchars : ∀ n, (Nat.toDigits 10 n).all isNumberChar := fun n =>
    List.all_eq_true.mpr fun c hc =>
      isNumberChar_of_isDigit (List.all_eq_true.mp (all_isDigit_toDigits n) c hc)
  cases i with
  | ofNat n =>
      obtain ⟨c, rest, hc, hdigit⟩ := IJson.toDigits_head n
      have hne : c ≠ '-' := by rintro rfl; exact absurd hdigit (by decide)
      have hunsigned : unsigned (Nat.toDigits 10 n) = Nat.toDigits 10 n := by
        rw [hc]
        simp [unsigned, hne]
      have hint : intOfLiteral (Nat.toDigits 10 n) =
          (Nat.ofDigitChars 10 (Nat.toDigits 10 n) 0 : ℤ) := by
        rw [hc]
        simp [intOfLiteral, hne]
      refine ⟨?_, ?_, hchars n⟩
      · rw [printInt, isIntLiteral, hunsigned]
        exact isWhole_toDigits n
      · rw [printInt, hint, hdigits]
        rfl
  | negSucc n =>
      refine ⟨isWhole_toDigits (n + 1), ?_, ?_⟩
      · rw [printInt, intOfLiteral, hdigits]
        rfl
      · rw [printInt, List.all_cons, hchars]
        rfl

/-! ### Reading inverts printing -/

section

variable {N : Floats F}

variable (N) in
/-- A value is well formed: its numbers are finite, and no object names a member twice. -/
inductive WellFormed : Json F → Prop
  | null : WellFormed null
  | bool (b : Bool) : WellFormed (bool b)
  | int (i : ℤ) : WellFormed (int i)
  | float {x : F} (h : N.finite x) : WellFormed (float x)
  | str (s : List Char) : WellFormed (str s)
  | arr {items : List (Json F)} (h : ∀ x ∈ items, WellFormed x) : WellFormed (arr items)
  | obj {members : List (List Char × Json F)} (hnames : distinctNames members)
      (h : ∀ m ∈ members, WellFormed m.2) : WellFormed (obj members)

/-- A number is read whole. -/
lemma readNumber_int (i : ℤ) {rest : List Char} (hrest : EndsNumber rest) :
    readNumber N (printInt i ++ rest) = some (int i, rest) := by
  obtain ⟨hliteral, hvalue, hchars⟩ := printInt_literal i
  obtain ⟨htake, hdrop⟩ := takeWhile_literal hchars hrest
  rw [readNumber, htake, hdrop, if_pos hliteral, hvalue]

/-- A literal with a point or an exponent is that of no integer. -/
lemma not_isIntLiteral {literal : List Char} (h : isFloatLiteral literal) :
    ¬ isIntLiteral literal := by
  intro hint
  simp only [isFloatLiteral, Bool.and_eq_true, decide_eq_true_eq] at h
  simp only [isIntLiteral, isWhole, Bool.and_eq_true, List.all_eq_true] at hint
  exact h.1.1.2 (List.dropWhile_eq_nil_iff.mpr hint.1.2)

lemma readNumber_float {x : F} (hx : N.finite x) {rest : List Char} (hrest : EndsNumber rest) :
    readNumber N (N.repr x ++ rest) = some (float x, rest) := by
  have hliteral := N.isFloatLiteral_repr x hx
  have hchars : (N.repr x).all isNumberChar := by
    simp only [isFloatLiteral, Bool.and_eq_true] at hliteral
    exact hliteral.2
  obtain ⟨htake, hdrop⟩ := takeWhile_literal hchars hrest
  rw [readNumber, htake, hdrop, if_neg (not_isIntLiteral hliteral), if_pos hliteral,
    N.ofLiteral_repr x hx]

/-- The first character of a number. -/
lemma exists_numberChar {literal : List Char} (h : isIntLiteral literal ∨ isFloatLiteral literal)
    (hchars : literal.all isNumberChar) : ∃ c t, literal = c :: t ∧ isNumberChar c := by
  cases literal with
  | nil => rcases h with h | h <;> exact absurd h (by decide)
  | cons c t => exact ⟨c, t, rfl, List.all_eq_true.mp hchars c List.mem_cons_self⟩

/-- A text that begins like a number is one. -/
lemma readValue_number {c : Char} (hc : isNumberChar c) (fuel : ℕ) (rest : List Char) :
    readValue N (fuel + 1) (c :: rest) = readNumber N (c :: rest) := by
  have hne : ∀ d : Char, isNumberChar d = false → c ≠ d := by
    rintro d hd rfl
    exact absurd hc (by simp [hd])
  rw [readValue, if_neg (hne _ rfl), if_neg (hne _ rfl), if_neg (hne _ rfl), if_pos hc]

/-- The text of the items of an array, and its end. -/
def itemsText (N : Floats F) : List (Json F) → List Char
  | [] => []
  | x :: xs => print N x ++ printItems N xs

/-- The text of the members of an object, and its end. -/
def membersText (N : Floats F) : List (List Char × Json F) → List Char
  | [] => []
  | (k, x) :: ms => printString k ++ ':' :: (print N x ++ printMembers N ms)

/-- A character of a number is no white space and closes nothing. -/
lemma plain_of_isNumberChar {c : Char} (hc : isNumberChar c) : isSpace c = false ∧ c ≠ ']' := by
  have hne : ∀ d : Char, isNumberChar d = false → c ≠ d := by
    rintro d hd rfl
    exact absurd hc (by simp [hd])
  exact ⟨by simp [isSpace, hne ' ' rfl, hne '\t' rfl, hne '\n' rfl, hne '\r' rfl], hne _ rfl⟩

/-- The first character of a value. -/
lemma print_head {v : Json F} (hv : WellFormed N v) :
    ∃ c t, print N v = c :: t ∧ isSpace c = false ∧ c ≠ ']' := by
  cases hv with
  | null => exact ⟨_, _, rfl, rfl, by decide⟩
  | bool b => cases b <;> exact ⟨_, _, rfl, rfl, by decide⟩
  | int i =>
      obtain ⟨hliteral, -, hchars⟩ := printInt_literal i
      obtain ⟨c, t, hc, hnumber⟩ := exists_numberChar (.inl hliteral) hchars
      exact ⟨c, t, hc, plain_of_isNumberChar hnumber⟩
  | @float x h =>
      have hliteral := N.isFloatLiteral_repr x h
      have hchars := hliteral
      simp only [isFloatLiteral, Bool.and_eq_true] at hchars
      obtain ⟨c, t, hc, hnumber⟩ := exists_numberChar (.inr hliteral) hchars.2
      exact ⟨c, t, hc, plain_of_isNumberChar hnumber⟩
  | str s => exact ⟨_, _, rfl, rfl, by decide⟩
  | @arr items h => cases items <;> exact ⟨_, _, rfl, rfl, by decide⟩
  | @obj members hnames h =>
      rcases members with _ | ⟨⟨k, x⟩, ms⟩ <;> exact ⟨_, _, rfl, rfl, by decide⟩

lemma skipSpace_cons {c : Char} (hc : isSpace c = false) (t : List Char) :
    skipSpace (c :: t) = c :: t := List.dropWhile_cons_of_neg (by simp [hc])

lemma skipSpace_print {v : Json F} (hv : WellFormed N v) (rest : List Char) :
    skipSpace (print N v ++ rest) = print N v ++ rest := by
  obtain ⟨c, t, hc, hspace, -⟩ := print_head hv
  rw [hc, List.cons_append, skipSpace_cons hspace]

/-- The text of a string is read whole. -/
lemma readString_printString (s : List Char) {fuel : ℕ} (rest : List Char)
    (hfuel : (printString s).length ≤ fuel + 1) :
    readString fuel ((printString s).tail ++ rest) = some (s, rest) := by
  have htail : (printString s).tail ++ rest = s.flatMap escapeChar ++ '"' :: rest := by
    simp [printString]
  rw [printString, List.length_cons, List.length_append, List.length_singleton] at hfuel
  rw [htail, readString_print s rest (by omega)]

lemma printString_cons (s : List Char) : printString s = '"' :: (printString s).tail := rfl

mutual

/-- The text of a value is read whole, whatever follows it. -/
theorem readValue_print : ∀ (v : Json F), WellFormed N v → ∀ (fuel : ℕ) (rest : List Char),
    2 * (print N v).length ≤ fuel → EndsNumber rest →
      readValue N fuel (print N v ++ rest) = some (v, rest)
  | null, _, fuel, rest, hfuel, _ => by
      obtain ⟨fuel, rfl⟩ : ∃ n, fuel = n + 1 := ⟨fuel - 1, by simp [print] at hfuel; omega⟩
      rfl
  | bool true, _, fuel, rest, hfuel, _ => by
      obtain ⟨fuel, rfl⟩ : ∃ n, fuel = n + 1 := ⟨fuel - 1, by simp [print] at hfuel; omega⟩
      rfl
  | bool false, _, fuel, rest, hfuel, _ => by
      obtain ⟨fuel, rfl⟩ : ∃ n, fuel = n + 1 := ⟨fuel - 1, by simp [print] at hfuel; omega⟩
      rfl
  | int i, _, fuel, rest, hfuel, hrest => by
      obtain ⟨hliteral, -, hchars⟩ := printInt_literal i
      obtain ⟨c, t, hc, hnumber⟩ := exists_numberChar (.inl hliteral) hchars
      have hread := readNumber_int (N := N) i hrest
      rw [print, hc] at hfuel ⊢
      rw [hc] at hread
      obtain ⟨fuel, rfl⟩ : ∃ n, fuel = n + 1 := ⟨fuel - 1, by simp at hfuel; omega⟩
      rw [List.cons_append] at hread ⊢
      rw [readValue_number hnumber, hread]
  | float x, hv, fuel, rest, hfuel, hrest => by
      cases hv with
      | float hx =>
      have hliteral := N.isFloatLiteral_repr x hx
      have hchars := hliteral
      simp only [isFloatLiteral, Bool.and_eq_true] at hchars
      obtain ⟨c, t, hc, hnumber⟩ := exists_numberChar (.inr hliteral) hchars.2
      have hread := readNumber_float hx hrest
      rw [print, hc] at hfuel ⊢
      rw [hc] at hread
      obtain ⟨fuel, rfl⟩ : ∃ n, fuel = n + 1 := ⟨fuel - 1, by simp at hfuel; omega⟩
      rw [List.cons_append] at hread ⊢
      rw [readValue_number hnumber, hread]
  | str s, _, fuel, rest, hfuel, _ => by
      rw [print] at hfuel ⊢
      have hpos : 0 < (printString s).length := by rw [printString_cons]; simp
      obtain ⟨fuel, rfl⟩ : ∃ n, fuel = n + 1 := ⟨fuel - 1, by omega⟩
      rw [printString_cons, List.cons_append, readValue, if_pos rfl,
        readString_printString s rest (by omega)]
      rfl
  | arr [], _, fuel, rest, hfuel, _ => by
      obtain ⟨fuel, rfl⟩ : ∃ n, fuel = n + 1 := ⟨fuel - 1, by simp [print] at hfuel; omega⟩
      rfl
  | arr (x :: xs), hv, fuel, rest, hfuel, _ => by
      cases hv with
      | arr h =>
      have hx := h x List.mem_cons_self
      have hitems := readItems_print (x :: xs) h (by simp)
      obtain ⟨c, t, hc, hspace, hne⟩ := print_head hx
      have hskip : skipSpace (itemsText N (x :: xs) ++ rest) = itemsText N (x :: xs) ++ rest := by
        rw [itemsText, hc, List.cons_append, List.cons_append, skipSpace_cons hspace]
      have hhead : (itemsText N (x :: xs) ++ rest).head? ≠ some ']' := by
        rw [itemsText, hc]
        simpa using hne
      have hprint : print N (arr (x :: xs)) = '[' :: itemsText N (x :: xs) := by
        rw [print, itemsText]
      rw [hprint, List.length_cons] at hfuel
      obtain ⟨fuel, rfl⟩ : ∃ n, fuel = n + 1 := ⟨fuel - 1, by omega⟩
      rw [hprint, List.cons_append, readValue, if_neg (by decide), if_neg (by decide), if_pos rfl,
        hskip, if_neg hhead, hitems _ _ (by omega)]
      rfl
  | obj [], _, fuel, rest, hfuel, _ => by
      obtain ⟨fuel, rfl⟩ : ∃ n, fuel = n + 1 := ⟨fuel - 1, by simp [print] at hfuel; omega⟩
      rfl
  | obj ((k, x) :: ms), hv, fuel, rest, hfuel, _ => by
      cases hv with
      | obj hnames h =>
      have hmembers := readMembers_print ((k, x) :: ms) h (by simp)
      have hskip : skipSpace (membersText N ((k, x) :: ms) ++ rest) =
          membersText N ((k, x) :: ms) ++ rest := by
        rw [membersText, printString_cons, List.cons_append, List.cons_append, skipSpace_cons rfl]
      have hhead : (membersText N ((k, x) :: ms) ++ rest).head? ≠ some '}' := by
        rw [membersText, printString_cons]
        simp
      have hprint : print N (obj ((k, x) :: ms)) = '{' :: membersText N ((k, x) :: ms) := by
        rw [print, membersText]
      rw [hprint, List.length_cons] at hfuel
      obtain ⟨fuel, rfl⟩ : ∃ n, fuel = n + 1 := ⟨fuel - 1, by omega⟩
      rw [hprint, List.cons_append, readValue, if_neg (by decide), if_pos rfl, hskip,
        if_neg hhead, hmembers _ _ (by omega)]
      exact if_pos hnames

/-- The items of an array are read, up to its end. -/
theorem readItems_print : ∀ (items : List (Json F)), (∀ x ∈ items, WellFormed N x) →
    items ≠ [] → ∀ (fuel : ℕ) (rest : List Char), 2 * (itemsText N items).length + 1 ≤ fuel →
      readItems N fuel (itemsText N items ++ rest) = some (items, rest)
  | [], _, hne, _, _, _ => absurd rfl hne
  | [x], h, _, fuel, rest, hfuel => by
      have hx := readValue_print x (h x List.mem_cons_self)
      rw [itemsText, printItems] at hfuel ⊢
      rw [List.length_append] at hfuel
      obtain ⟨fuel, rfl⟩ : ∃ n, fuel = n + 1 := ⟨fuel - 1, by omega⟩
      rw [List.append_assoc, List.singleton_append, readItems,
        hx _ _ (by omega) (endsNumber_cons rfl)]
      rfl
  | x :: y :: ys, h, _, fuel, rest, hfuel => by
      have hx := readValue_print x (h x List.mem_cons_self)
      have hys := readItems_print (y :: ys) (fun z hz => h z (List.mem_cons_of_mem _ hz)) (by simp)
      have hy := h y (List.mem_cons_of_mem _ List.mem_cons_self)
      have htext : itemsText N (x :: y :: ys) = print N x ++ ',' :: itemsText N (y :: ys) := by
        rw [itemsText, printItems, itemsText]
      have hskip : skipSpace (itemsText N (y :: ys) ++ rest) = itemsText N (y :: ys) ++ rest := by
        rw [itemsText, List.append_assoc, skipSpace_print hy]
      rw [htext, List.length_append, List.length_cons] at hfuel
      obtain ⟨fuel, rfl⟩ : ∃ n, fuel = n + 1 := ⟨fuel - 1, by omega⟩
      rw [htext, List.append_assoc, List.cons_append, readItems,
        hx _ _ (by omega) (endsNumber_cons rfl)]
      simp only [bind, Option.bind_some]
      rw [skipSpace_cons rfl, List.head?_cons, if_pos rfl, List.tail_cons, hskip, hys _ _ (by omega)]
      rfl

/-- The members of an object are read, up to its end. -/
theorem readMembers_print : ∀ (members : List (List Char × Json F)),
    (∀ m ∈ members, WellFormed N m.2) → members ≠ [] → ∀ (fuel : ℕ) (rest : List Char),
      2 * (membersText N members).length + 1 ≤ fuel →
      readMembers N fuel (membersText N members ++ rest) = some (members, rest)
  | [], _, hne, _, _, _ => absurd rfl hne
  | [(k, x)], h, _, fuel, rest, hfuel => by
      have hv : WellFormed N x := h (k, x) List.mem_cons_self
      have hx := readValue_print x hv
      rw [membersText, printMembers] at hfuel ⊢
      rw [List.length_append, List.length_cons, List.length_append] at hfuel
      obtain ⟨fuel, rfl⟩ : ∃ n, fuel = n + 1 := ⟨fuel - 1, by omega⟩
      rw [List.append_assoc, List.cons_append, List.append_assoc, List.singleton_append,
        readMembers]
      rw [printString_cons, List.cons_append, List.head?_cons, if_pos rfl, List.tail_cons,
        readString_printString k _ (by omega)]
      simp only [bind, Option.bind_some]
      rw [skipSpace_cons rfl, List.head?_cons, if_pos rfl, List.tail_cons, skipSpace_print hv,
        hx _ _ (by omega) (endsNumber_cons rfl)]
      rfl
  | (k, x) :: (l, y) :: ms, h, _, fuel, rest, hfuel => by
      have hv : WellFormed N x := h (k, x) List.mem_cons_self
      have hx := readValue_print x hv
      have hms := readMembers_print ((l, y) :: ms)
        (fun m hm => h m (List.mem_cons_of_mem _ hm)) (by simp)
      have htext : membersText N ((k, x) :: (l, y) :: ms) =
          printString k ++ ':' :: (print N x ++ ',' :: membersText N ((l, y) :: ms)) := by
        rw [membersText, printMembers, membersText]
      have hskip : skipSpace (membersText N ((l, y) :: ms) ++ rest) =
          membersText N ((l, y) :: ms) ++ rest := by
        rw [membersText, printString_cons, List.cons_append, List.cons_append, skipSpace_cons rfl]
      rw [htext, List.length_append, List.length_cons, List.length_append, List.length_cons]
        at hfuel
      obtain ⟨fuel, rfl⟩ : ∃ n, fuel = n + 1 := ⟨fuel - 1, by omega⟩
      rw [htext, List.append_assoc, List.cons_append, List.append_assoc, List.cons_append,
        readMembers]
      rw [printString_cons, List.cons_append, List.head?_cons, if_pos rfl, List.tail_cons,
        readString_printString k _ (by omega)]
      simp only [bind, Option.bind_some]
      rw [skipSpace_cons rfl, List.head?_cons, if_pos rfl, List.tail_cons, skipSpace_print hv,
        hx _ _ (by omega) (endsNumber_cons rfl)]
      simp only [Option.bind_some]
      rw [skipSpace_cons rfl, List.head?_cons, if_pos rfl, List.tail_cons, hskip, hms _ _ (by omega)]
      rfl

end

/-- Reading inverts printing. -/
theorem read_print {v : Json F} (hv : WellFormed N v) : read N (print N v) = some v := by
  have hskip := skipSpace_print hv []
  have hvalue := readValue_print v hv _ _ (le_refl _) endsNumber_nil
  rw [List.append_nil] at hskip hvalue
  rw [read, hskip, hvalue]
  rfl

end

end Json
