import Mathlib.Data.List.Lex
import Mathlib.Data.String.Basic
import Mathlib.Tactic
import Memorist.Library.KeySort

/-!
JSON values with integer numbers, and their compact text with sorted member names.

* `print`: the text of a value, as a serializer writes it without spaces and without
  escaping what is not ASCII. The text determines the value, and where it ends
  (`print_append_inj`);
* `canon`: the value with the members of every object in the order of their names;
* `dump`: the canonical text. Two values have one canonical text exactly when they
  agree up to the order of members (`dump_inj`).
-/

/-- A JSON value. -/
inductive IJson where
  | null
  | bool (b : Bool)
  | int (i : ℤ)
  | str (s : List Char)
  | arr (items : List IJson)
  | obj (members : List (List Char × IJson))

namespace IJson

/-! ### Printing -/

/-- A lower-case hexadecimal digit. -/
def hexDigit (n : ℕ) : Char := if n < 10 then Char.ofNat (48 + n) else Char.ofNat (87 + n)

/-- A character inside a string literal. -/
def escapeChar (c : Char) : List Char :=
  if c = '"' then ['\\', '"']
  else if c = '\\' then ['\\', '\\']
  else if 32 ≤ c.toNat then [c]
  else if c = '\n' then ['\\', 'n']
  else if c = '\r' then ['\\', 'r']
  else if c = '\t' then ['\\', 't']
  else if c.toNat = 8 then ['\\', 'b']
  else if c.toNat = 12 then ['\\', 'f']
  else ['\\', 'u', '0', '0', hexDigit (c.toNat / 16), hexDigit (c.toNat % 16)]

/-- A string literal. -/
def printString (s : List Char) : List Char := '"' :: (s.flatMap escapeChar ++ ['"'])

/-- A number. -/
def printInt : ℤ → List Char
  | .ofNat n => Nat.toDigits 10 n
  | .negSucc n => '-' :: Nat.toDigits 10 (n + 1)

mutual

/-- The text of a value, its members in the order listed. -/
def print : IJson → List Char
  | null => ['n', 'u', 'l', 'l']
  | bool true => ['t', 'r', 'u', 'e']
  | bool false => ['f', 'a', 'l', 's', 'e']
  | int i => printInt i
  | str s => printString s
  | arr items => '[' :: (printItems [] items ++ [']'])
  | obj members => '{' :: (printMembers [] members ++ ['}'])

/-- The items of an array, each after the separator. -/
def printItems (separator : List Char) : List IJson → List Char
  | [] => []
  | x :: xs => separator ++ (print x ++ printItems [','] xs)

/-- The members of an object, each after the separator. -/
def printMembers (separator : List Char) : List (List Char × IJson) → List Char
  | [] => []
  | (k, x) :: ms => separator ++ (printString k ++ ':' :: (print x ++ printMembers [','] ms))

end

/-! ### The text determines the value -/

/-- The value of a hexadecimal digit. -/
def hexValue (c : Char) : ℕ := if c.toNat < 58 then c.toNat - 48 else c.toNat - 87

/-- Reads one character of a string literal. -/
def readChar : List Char → Option (Char × List Char)
  | '\\' :: 'u' :: '0' :: '0' :: a :: b :: rest =>
      some (Char.ofNat (16 * hexValue a + hexValue b), rest)
  | '\\' :: c :: rest =>
      some (if c = 'n' then '\n' else if c = 'r' then '\r' else if c = 't' then '\t'
        else if c = 'b' then Char.ofNat 8 else if c = 'f' then Char.ofNat 12 else c, rest)
  | c :: rest => some (c, rest)
  | [] => none

lemma hexValue_hexDigit : ∀ n < 16, hexValue (hexDigit n) = n := by decide

/-- Reading inverts escaping. -/
lemma readChar_escapeChar (c : Char) (rest : List Char) :
    readChar (escapeChar c ++ rest) = some (c, rest) := by
  have eq_of_toNat : ∀ n, c.toNat = n → Char.ofNat n = c := fun n h => by
    rw [← h, Char.ofNat_toNat]
  rw [escapeChar]
  split_ifs with h₁ h₂ h₃ h₄ h₅ h₆ h₇ h₈
  · subst h₁; rfl
  · subst h₂; rfl
  · rw [List.singleton_append, readChar.eq_3]
    · rintro a b rest' rfl
      exact absurd rfl h₂
    · rintro d rest' rfl
      exact absurd rfl h₂
  · subst h₄; rfl
  · subst h₅; rfl
  · subst h₆; rfl
  · rw [← eq_of_toNat 8 h₇]; rfl
  · rw [← eq_of_toNat 12 h₈]; rfl
  · have hhi : c.toNat / 16 < 16 := by omega
    have hlo : c.toNat % 16 < 16 := by omega
    have hsum : 16 * (c.toNat / 16) + c.toNat % 16 = c.toNat := by omega
    simp only [List.cons_append, List.nil_append, readChar, hexValue_hexDigit _ hhi,
      hexValue_hexDigit _ hlo, hsum, Char.ofNat_toNat]

/-- An escaped character does not start with the closing quote. -/
lemma escapeChar_head (c : Char) : ∃ d rest, escapeChar c = d :: rest ∧ d ≠ '"' := by
  rw [escapeChar]
  split_ifs with h₁
  all_goals first | exact ⟨_, _, rfl, by decide⟩ | exact ⟨_, _, rfl, h₁⟩

/-- A literal determines its characters and its end. -/
lemma printString_append_inj {s t r u : List Char}
    (h : printString s ++ r = printString t ++ u) : s = t ∧ r = u := by
  have key : ∀ s t : List Char, s.flatMap escapeChar ++ '"' :: r = t.flatMap escapeChar ++ '"' :: u →
      s = t ∧ r = u := by
    intro s
    induction s with
    | nil =>
        intro t h
        cases t with
        | nil => simpa using h
        | cons d t =>
            obtain ⟨e, rest, he, hne⟩ := escapeChar_head d
            simp only [List.flatMap_nil, List.nil_append, List.flatMap_cons, he, List.cons_append,
              List.cons.injEq] at h
            exact absurd h.1.symm hne
    | cons c s ih =>
        intro t h
        cases t with
        | nil =>
            obtain ⟨e, rest, he, hne⟩ := escapeChar_head c
            simp only [List.flatMap_nil, List.nil_append, List.flatMap_cons, he, List.cons_append,
              List.cons.injEq] at h
            exact absurd h.1 hne
        | cons d t =>
            rw [List.flatMap_cons, List.flatMap_cons, List.append_assoc, List.append_assoc] at h
            have hread := congrArg readChar h
            rw [readChar_escapeChar, readChar_escapeChar, Option.some.injEq, Prod.mk.injEq] at hread
            obtain ⟨rfl, hrest⟩ := hread
            obtain ⟨rfl, hr⟩ := ih t hrest
            exact ⟨rfl, hr⟩
  refine key s t ?_
  simpa [printString] using h

/-- What follows a value never continues a number. -/
def NoDigit (rest : List Char) : Prop := ∀ c ∈ rest.head?, c.isDigit = false

lemma noDigit_nil : NoDigit [] := by simp [NoDigit]

lemma noDigit_cons {c : Char} {rest : List Char} (h : c.isDigit = false) : NoDigit (c :: rest) := by
  simpa [NoDigit] using h

/-- Decimal digits determine the number and their end. -/
lemma toDigits_append_inj {m n : ℕ} {r u : List Char} (hr : NoDigit r) (hu : NoDigit u)
    (h : Nat.toDigits 10 m ++ r = Nat.toDigits 10 n ++ u) : m = n ∧ r = u := by
  have span : ∀ (k : ℕ) {s : List Char}, NoDigit s →
      (Nat.toDigits 10 k ++ s).takeWhile Char.isDigit = Nat.toDigits 10 k := by
    intro k s hs
    rw [List.takeWhile_append_of_pos
      fun c hc => Nat.isDigit_of_mem_toDigits (by norm_num) (by norm_num) hc]
    cases s with
    | nil => simp
    | cons c s => rw [List.takeWhile_cons_of_neg (by simp [hs c rfl]), List.append_nil]
  have hdigits : Nat.toDigits 10 m = Nat.toDigits 10 n := by rw [← span m hr, h, span n hu]
  have hmn : m = n := by
    have value : ∀ k, Nat.ofDigitChars 10 (Nat.toDigits 10 k) 0 = k := fun k =>
      Nat.ofDigitChars_toDigits (by norm_num) (by norm_num)
    rw [← value m, hdigits, value n]
  exact ⟨hmn, List.append_cancel_left (hdigits ▸ h)⟩

/-- The first character of a number. -/
lemma toDigits_head (n : ℕ) : ∃ c rest, Nat.toDigits 10 n = c :: rest ∧ c.isDigit = true := by
  cases h : Nat.toDigits 10 n with
  | nil => exact absurd h (Nat.toDigits_ne_nil)
  | cons c rest =>
      exact ⟨c, rest, rfl, Nat.isDigit_of_mem_toDigits (by norm_num : 0 < 10) (by norm_num)
        (h ▸ List.mem_cons_self)⟩

lemma printInt_append_inj {i j : ℤ} {r u : List Char} (hr : NoDigit r) (hu : NoDigit u)
    (h : printInt i ++ r = printInt j ++ u) : i = j ∧ r = u := by
  cases i with
  | ofNat m =>
      cases j with
      | ofNat n =>
          obtain ⟨rfl, hru⟩ := toDigits_append_inj hr hu h
          exact ⟨rfl, hru⟩
      | negSucc n =>
          obtain ⟨c, rest, hc, hdigit⟩ := toDigits_head m
          simp only [printInt, hc, List.cons_append, List.cons.injEq] at h
          exact absurd hdigit (by rw [h.1]; decide)
  | negSucc m =>
      cases j with
      | ofNat n =>
          obtain ⟨c, rest, hc, hdigit⟩ := toDigits_head n
          simp only [printInt, hc, List.cons_append, List.cons.injEq] at h
          exact absurd hdigit (by rw [← h.1]; decide)
      | negSucc n =>
          simp only [printInt, List.cons_append, List.cons.injEq, true_and] at h
          obtain ⟨hmn, hru⟩ := toDigits_append_inj hr hu h
          exact ⟨by rw [Nat.succ_injective hmn], hru⟩

/-- The constructor of a value, truth values apart. -/
def shape : IJson → ℕ
  | null => 0
  | bool true => 1
  | bool false => 2
  | int _ => 3
  | str _ => 4
  | arr _ => 5
  | obj _ => 6

/-- The constructor of the values that begin with a character. -/
def leads (c : Char) : ℕ :=
  if c.isDigit || c == '-' then 3 else if c == 'n' then 0 else if c == 't' then 1
  else if c == 'f' then 2 else if c == '"' then 4 else if c == '[' then 5
  else if c == '{' then 6 else 7

lemma printInt_head (i : ℤ) : ∃ c rest, printInt i = c :: rest ∧ leads c = 3 := by
  cases i with
  | ofNat n =>
      obtain ⟨c, rest, hc, hdigit⟩ := toDigits_head n
      exact ⟨c, rest, hc, by simp [leads, hdigit]⟩
  | negSucc n => exact ⟨_, _, rfl, rfl⟩

/-- The first character of a value tells its constructor. -/
lemma print_head (a : IJson) : ∃ c rest, print a = c :: rest ∧ leads c = a.shape := by
  cases a with
  | bool b => cases b <;> exact ⟨_, _, rfl, rfl⟩
  | int i => exact printInt_head i
  | _ => exact ⟨_, _, rfl, rfl⟩

lemma shape_lt (a : IJson) : a.shape < 7 := by
  cases a with
  | bool b => cases b <;> decide
  | _ => simp [shape]

/-- Values whose texts agree have one constructor. -/
lemma shape_eq_of_append_eq {a b : IJson} {r u : List Char} (h : print a ++ r = print b ++ u) :
    a.shape = b.shape := by
  obtain ⟨c, rest, hc, ha⟩ := print_head a
  obtain ⟨d, rest', hd, hb⟩ := print_head b
  rw [hc, hd, List.cons_append, List.cons_append, List.cons.injEq] at h
  rw [← ha, ← hb, h.1]

/-- No value begins with a closing bracket or a separator. -/
lemma print_append_ne_cons {c : Char} (hc : leads c = 7) (a : IJson) (r u : List Char) :
    print a ++ r ≠ c :: u := by
  obtain ⟨d, rest, hd, ha⟩ := print_head a
  intro h
  rw [hd, List.cons_append, List.cons.injEq] at h
  have := shape_lt a
  rw [h.1] at ha
  omega

lemma noDigit_printItems (xs : List IJson) (rest : List Char) :
    NoDigit (printItems [','] xs ++ ']' :: rest) := by
  cases xs <;> exact noDigit_cons rfl

lemma noDigit_printMembers (ms : List (List Char × IJson)) (rest : List Char) :
    NoDigit (printMembers [','] ms ++ '}' :: rest) := by
  cases ms <;> exact noDigit_cons rfl

mutual

/-- The text of a value determines it, and where it ends. -/
theorem print_append_inj : ∀ (a b : IJson) {r u : List Char}, NoDigit r → NoDigit u →
    print a ++ r = print b ++ u → a = b ∧ r = u
  | null, b, r, u, _, _, h => by
      have hb := shape_eq_of_append_eq h
      cases b with
      | null => exact ⟨rfl, by simpa [print] using h⟩
      | bool b => cases b <;> simp [shape] at hb
      | _ => simp [shape] at hb
  | bool a, b, r, u, _, _, h => by
      have hb := shape_eq_of_append_eq h
      cases a <;> cases b with
      | bool b =>
          cases b <;> simp_all [print, shape]
      | _ => simp [shape] at hb
  | int i, b, r, u, hr, hu, h => by
      have hb := shape_eq_of_append_eq h
      cases b with
      | int j =>
          obtain ⟨rfl, hru⟩ := printInt_append_inj hr hu h
          exact ⟨rfl, hru⟩
      | bool b => cases b <;> simp [shape] at hb
      | _ => simp [shape] at hb
  | str s, b, r, u, _, _, h => by
      have hb := shape_eq_of_append_eq h
      cases b with
      | str t =>
          obtain ⟨rfl, hru⟩ := printString_append_inj h
          exact ⟨rfl, hru⟩
      | bool b => cases b <;> simp [shape] at hb
      | _ => simp [shape] at hb
  | arr xs, b, r, u, _, _, h => by
      have hb := shape_eq_of_append_eq h
      cases b with
      | arr ys =>
          simp only [print, List.cons_append, List.append_assoc, List.cons.injEq, true_and,
            List.nil_append] at h
          obtain ⟨rfl, hru⟩ := printItems_append_inj xs ys (.inl rfl) h
          exact ⟨rfl, hru⟩
      | bool b => cases b <;> simp [shape] at hb
      | _ => simp [shape] at hb
  | obj ms, b, r, u, _, _, h => by
      have hb := shape_eq_of_append_eq h
      cases b with
      | obj ns =>
          simp only [print, List.cons_append, List.append_assoc, List.cons.injEq, true_and,
            List.nil_append] at h
          obtain ⟨rfl, hru⟩ := printMembers_append_inj ms ns (.inl rfl) h
          exact ⟨rfl, hru⟩
      | bool b => cases b <;> simp [shape] at hb
      | _ => simp [shape] at hb

/-- The items of an array are determined by their text. -/
theorem printItems_append_inj : ∀ (xs ys : List IJson) {separator : List Char},
    separator = [] ∨ separator = [','] → ∀ {r u : List Char},
    printItems separator xs ++ ']' :: r = printItems separator ys ++ ']' :: u → xs = ys ∧ r = u
  | [], [], _, _, _, _, h => by simpa [printItems] using h
  | [], y :: ys, _, hsep, r, u, h => by
      rcases hsep with rfl | rfl
      · rw [printItems, printItems, List.nil_append, List.nil_append, List.append_assoc] at h
        exact absurd h.symm (print_append_ne_cons rfl y _ _)
      · simp [printItems] at h
  | x :: xs, [], _, hsep, r, u, h => by
      rcases hsep with rfl | rfl
      · rw [printItems, printItems, List.nil_append, List.nil_append, List.append_assoc] at h
        exact absurd h (print_append_ne_cons rfl x _ _)
      · simp [printItems] at h
  | x :: xs, y :: ys, _, _, r, u, h => by
      simp only [printItems, List.append_assoc, List.append_cancel_left_eq] at h
      obtain ⟨rfl, hrest⟩ := print_append_inj x y (noDigit_printItems xs r)
        (noDigit_printItems ys u) h
      obtain ⟨rfl, hru⟩ := printItems_append_inj xs ys (.inr rfl) hrest
      exact ⟨rfl, hru⟩

/-- The members of an object are determined by their text. -/
theorem printMembers_append_inj : ∀ (ms ns : List (List Char × IJson)) {separator : List Char},
    separator = [] ∨ separator = [','] → ∀ {r u : List Char},
    printMembers separator ms ++ '}' :: r = printMembers separator ns ++ '}' :: u →
      ms = ns ∧ r = u
  | [], [], _, _, _, _, h => by simpa [printMembers] using h
  | [], (k, y) :: ns, _, hsep, r, u, h => by
      rcases hsep with rfl | rfl <;> simp [printMembers, printString] at h
  | (k, x) :: ms, [], _, hsep, r, u, h => by
      rcases hsep with rfl | rfl <;> simp [printMembers, printString] at h
  | (k, x) :: ms, (l, y) :: ns, _, _, r, u, h => by
      simp only [printMembers, List.append_assoc, List.append_cancel_left_eq, List.cons_append] at h
      obtain ⟨rfl, hvalue⟩ := printString_append_inj h
      rw [List.cons.injEq] at hvalue
      obtain ⟨rfl, hrest⟩ := print_append_inj x y (noDigit_printMembers ms r)
        (noDigit_printMembers ns u) hvalue.2
      obtain ⟨rfl, hru⟩ := printMembers_append_inj ms ns (.inr rfl) hrest
      exact ⟨rfl, hru⟩

end

theorem print_inj {a b : IJson} (h : print a = print b) : a = b :=
  (print_append_inj a b noDigit_nil noDigit_nil (by rw [List.append_nil, List.append_nil, h])).1

/-! ### The canonical text -/

/-- Members in the order of their names. -/
def sortMembers (members : List (List Char × IJson)) : List (List Char × IJson) :=
  KeySort.sortBy Prod.fst members

mutual

/-- The value with the members of every object in the order of their names. -/
def canon : IJson → IJson
  | arr items => arr (canonItems items)
  | obj members => obj (sortMembers (canonMembers members))
  | a => a

/-- The items of an array, each in canonical form. -/
def canonItems : List IJson → List IJson
  | [] => []
  | x :: xs => canon x :: canonItems xs

/-- The members of an object in their order, each in canonical form. -/
def canonMembers : List (List Char × IJson) → List (List Char × IJson)
  | [] => []
  | (k, x) :: ms => (k, canon x) :: canonMembers ms

end

@[simp] lemma canon_null : canon null = null := rfl
@[simp] lemma canon_bool (b : Bool) : canon (bool b) = bool b := rfl
@[simp] lemma canon_int (i : ℤ) : canon (int i) = int i := rfl
@[simp] lemma canon_str (s : List Char) : canon (str s) = str s := rfl

lemma canonItems_eq_map (xs : List IJson) : canonItems xs = xs.map canon := by
  induction xs with
  | nil => rfl
  | cons x xs ih => rw [canonItems, ih, List.map_cons]

lemma canonMembers_eq_map (ms : List (List Char × IJson)) :
    canonMembers ms = ms.map fun m => (m.1, canon m.2) := by
  induction ms with
  | nil => rfl
  | cons m ms ih => rw [canonMembers, ih, List.map_cons]

@[simp] lemma canon_arr (xs : List IJson) : canon (arr xs) = arr (xs.map canon) := by
  rw [canon, canonItems_eq_map]

/-- The text `json.dumps(value, sort_keys=True, separators=(",", ":"), ensure_ascii=False)`. -/
def dump (a : IJson) : List Char := print (canon a)

/-- Two values have one canonical text exactly when they agree up to the order of members. -/
theorem dump_inj {a b : IJson} : dump a = dump b ↔ canon a = canon b :=
  ⟨print_inj, congrArg print⟩

/-- A list of pairs with distinct first components is determined, up to order, by its set. -/
lemma eq_of_perm_of_map_fst_eq {xs ys : List (List Char × IJson)} (h : xs.Perm ys)
    (hkeys : xs.map Prod.fst = ys.map Prod.fst) (hnodup : (xs.map Prod.fst).Nodup) : xs = ys := by
  refine List.ext_getElem (by simpa using congrArg List.length hkeys) fun i hi hj => ?_
  have hmem : ys[i] ∈ xs := h.mem_iff.mpr (List.getElem_mem hj)
  have hfst : xs[i].1 = ys[i].1 := by
    have := congrArg (fun l => l[i]?) hkeys
    simpa [hi, hj] using this
  exact (List.inj_on_of_nodup_map hnodup (List.getElem_mem hi) hmem hfst)

/-- Objects that list the same distinct names in the same order agree up to the order of members
exactly when their members do one by one. -/
lemma canon_obj_inj {ms ns : List (List Char × IJson)} (hkeys : ms.map Prod.fst = ns.map Prod.fst)
    (hnodup : (ms.map Prod.fst).Nodup) :
    canon (obj ms) = canon (obj ns) ↔
      (ms.map fun m => canon m.2) = ns.map fun m => canon m.2 := by
  rw [canon, canon, obj.injEq, canonMembers_eq_map, canonMembers_eq_map]
  have fst (xs : List (List Char × IJson)) :
      (xs.map fun m => (m.1, canon m.2)).map Prod.fst = xs.map Prod.fst := by
    rw [List.map_map]; rfl
  have snd (xs : List (List Char × IJson)) :
      (xs.map fun m => (m.1, canon m.2)).map Prod.snd = xs.map fun m => canon m.2 := by
    rw [List.map_map]; rfl
  rw [← snd ms, ← snd ns]
  have hk := (fst ms).trans (hkeys.trans (fst ns).symm)
  have hn : ((ms.map fun m => (m.1, canon m.2)).map Prod.fst).Nodup := by rwa [fst]
  generalize (ms.map fun m => (m.1, canon m.2)) = xs at hk hn ⊢
  generalize (ns.map fun m => (m.1, canon m.2)) = ys at hk ⊢
  constructor
  · intro h
    have hperm : xs.Perm ys := (KeySort.sortBy_perm Prod.fst xs).symm.trans
      ((List.Perm.of_eq h).trans (KeySort.sortBy_perm Prod.fst ys))
    rw [eq_of_perm_of_map_fst_eq hperm hk hn]
  · intro h
    have hxs : xs = ys := by
      rw [← List.zip_unzip xs, ← List.zip_unzip ys, List.unzip_eq_map, List.unzip_eq_map, hk, h]
    rw [hxs]

/-- The number of members of an object, 0 of any other value. -/
def memberCount : IJson → ℕ
  | obj members => members.length
  | _ => 0

@[simp] lemma memberCount_obj (ms : List (List Char × IJson)) : (obj ms).memberCount = ms.length :=
  rfl

@[simp] lemma memberCount_canon (a : IJson) : a.canon.memberCount = a.memberCount := by
  cases a <;> simp [canon, memberCount, sortMembers, canonMembers_eq_map]

end IJson
