import Memorist.Text.PyRepr

/-!
Python's `repr` of a text is read back.

* `readReprChar`: the first character of a string literal;
* `reprText_append_inj`: a literal ends where its text does, and is that of one text.
-/

namespace Memorist

open IJson (hexDigit hexValue hexValue_hexDigit)

/-- The number of some digits in base sixteen. -/
def hexNumber (digits : Text) : ℕ := digits.foldl (fun n c => 16 * n + hexValue c) 0

/-- The first character of the rest of a string literal, and what comes after it. -/
def readReprChar : Text → Option (Char × Text)
  | '\\' :: 'n' :: rest => some ('\n', rest)
  | '\\' :: 'r' :: rest => some ('\r', rest)
  | '\\' :: 't' :: rest => some ('\t', rest)
  | '\\' :: 'x' :: rest => some (Char.ofNat (hexNumber (rest.take 2)), rest.drop 2)
  | '\\' :: 'u' :: rest => some (Char.ofNat (hexNumber (rest.take 4)), rest.drop 4)
  | '\\' :: 'U' :: rest => some (Char.ofNat (hexNumber (rest.take 8)), rest.drop 8)
  | '\\' :: c :: rest => some (c, rest)
  | c :: rest => some (c, rest)
  | [] => none

lemma length_hexDigits (width n : ℕ) : (hexDigits width n).length = width := by
  induction width generalizing n with
  | zero => rfl
  | succ width ih => rw [hexDigits, List.length_append, ih, List.length_singleton]

lemma hexNumber_hexDigits {width n : ℕ} (h : n < 16 ^ width) : hexNumber (hexDigits width n) = n := by
  induction width generalizing n with
  | zero =>
      have hzero : n = 0 := by omega
      rw [hzero]
      rfl
  | succ width ih =>
      have hquotient : n / 16 < 16 ^ width := by
        rw [pow_succ] at h
        exact Nat.div_lt_of_lt_mul (by omega)
      have hdigit := hexValue_hexDigit (n % 16) (Nat.mod_lt n (by decide))
      have hlast := ih hquotient
      rw [hexNumber] at hlast ⊢
      rw [hexDigits, List.foldl_append, hlast, List.foldl_cons, List.foldl_nil, hdigit]
      omega

/-- The digits of a character are read back. -/
lemma read_hexDigits {width : ℕ} {c : Char} (h : c.toNat < 16 ^ width) (rest : Text) :
    Char.ofNat (hexNumber ((hexDigits width c.toNat ++ rest).take width)) = c ∧
      (hexDigits width c.toNat ++ rest).drop width = rest := by
  have hlength := length_hexDigits width c.toNat
  rw [List.take_left' hlength, List.drop_left' hlength, hexNumber_hexDigits h, Char.ofNat_toNat]
  exact ⟨rfl, rfl⟩

variable {U : UnicodeData} {quote : Char}

/-- The first character of a literal is read back. -/
lemma readReprChar_reprChar (hquote : quote = '\'' ∨ quote = '"') (c : Char) (rest : Text) :
    readReprChar (reprChar U quote c ++ rest) = some (c, rest) := by
  rw [reprChar]
  by_cases hescape : c = quote ∨ c = '\\'
  · rw [if_pos hescape]
    rcases hescape with rfl | rfl
    · rcases hquote with rfl | rfl <;> rfl
    · rfl
  rw [if_neg hescape]
  have hbackslash : c ≠ '\\' := fun h => hescape (.inr h)
  by_cases hn : c = '\n'
  · rw [if_pos hn, hn]
    rfl
  rw [if_neg hn]
  by_cases hr : c = '\r'
  · rw [if_pos hr, hr]
    rfl
  rw [if_neg hr]
  by_cases ht : c = '\t'
  · rw [if_pos ht, ht]
    rfl
  rw [if_neg ht]
  by_cases hprint : isPrintable U c = true
  · rw [if_pos hprint, List.singleton_append, readReprChar]
    all_goals
      intros
      exact absurd ‹c = '\\'› hbackslash
  rw [if_neg hprint]
  have hsize : c.toNat < 16 ^ 8 := by
    have hvalid : c.toNat < 0xd800 ∨ 0xdfff < c.toNat ∧ c.toNat < 0x110000 := c.valid
    omega
  split_ifs with hx hu
  · obtain ⟨hchar, hrest⟩ := @read_hexDigits 2 c (by omega) rest
    rw [List.cons_append, List.cons_append, readReprChar, hchar, hrest]
  · obtain ⟨hchar, hrest⟩ := @read_hexDigits 4 c (by omega) rest
    rw [List.cons_append, List.cons_append, readReprChar, hchar, hrest]
  · obtain ⟨hchar, hrest⟩ := read_hexDigits hsize rest
    rw [List.cons_append, List.cons_append, readReprChar, hchar, hrest]

/-- No character of a literal begins with its quote. -/
lemma reprChar_ne_quote (hquote : quote = '\'' ∨ quote = '"') (c : Char) (rest after : Text) :
    reprChar U quote c ++ rest ≠ quote :: after := by
  have hbackslash : '\\' ≠ quote := by rcases hquote with rfl | rfl <;> decide
  rw [reprChar]
  split_ifs with hescape
  all_goals
    intro h
    have hhead := (List.cons.inj h).1
  · exact hbackslash hhead
  · exact hbackslash hhead
  · exact hbackslash hhead
  · exact hbackslash hhead
  · exact hescape (.inl hhead)
  · exact hbackslash hhead
  · exact hbackslash hhead
  · exact hbackslash hhead

/-- A literal ends at its first quote that is no character of it. -/
lemma flatMap_reprChar_inj (hquote : quote = '\'' ∨ quote = '"') {a b x y : Text}
    (h : a.flatMap (reprChar U quote) ++ quote :: x = b.flatMap (reprChar U quote) ++ quote :: y) :
    a = b ∧ x = y := by
  induction a generalizing b with
  | nil =>
      cases b with
      | nil => exact ⟨rfl, (List.cons.inj h).2⟩
      | cons d b =>
          rw [List.flatMap_cons, List.append_assoc] at h
          exact absurd h.symm (reprChar_ne_quote hquote d _ x)
  | cons c a ih =>
      cases b with
      | nil =>
          rw [List.flatMap_cons, List.append_assoc] at h
          exact absurd h (reprChar_ne_quote hquote c _ y)
      | cons d b =>
          rw [List.flatMap_cons, List.flatMap_cons, List.append_assoc, List.append_assoc] at h
          have hread := congrArg readReprChar h
          rw [readReprChar_reprChar hquote, readReprChar_reprChar hquote] at hread
          obtain ⟨rfl, hrest⟩ := Prod.mk.inj (Option.some.inj hread)
          obtain ⟨rfl, hxy⟩ := ih hrest
          exact ⟨rfl, hxy⟩

/-- A literal is that of one text. -/
theorem reprText_append_inj {a b x y : Text} (h : reprText U a ++ x = reprText U b ++ y) :
    a = b ∧ x = y := by
  rw [reprText, reprText, List.cons_append, List.cons_append] at h
  have hquote : ∀ text : Text, (if '\'' ∈ text ∧ '"' ∉ text then '"' else '\'') = '\'' ∨
      (if '\'' ∈ text ∧ '"' ∉ text then '"' else '\'') = '"' := fun text => by
    split_ifs
    · exact .inr rfl
    · exact .inl rfl
  obtain ⟨hsame, hrest⟩ := List.cons.inj h
  rw [← hsame, List.append_assoc, List.append_assoc] at hrest
  exact flatMap_reprChar_inj (hquote a) hrest

/-- A literal begins with a quote. -/
lemma reprText_ne_cons {c : Char} (h : c ≠ '\'' ∧ c ≠ '"') (a x y : Text) :
    reprText U a ++ x ≠ c :: y := by
  intro heq
  have hhead : (if '\'' ∈ a ∧ '"' ∉ a then '"' else '\'') = c := (List.cons.inj heq).1
  split_ifs at hhead
  · exact h.2 hhead.symm
  · exact h.1 hhead.symm

end Memorist
