import Mathlib
import Memorist.Library.JsonText

/-!
The grammar of JSON texts.

* `StringText`, `ValueText`, `ItemsText`, `MembersText`: which text is that of a string, a value, the
  items of an array, the members of an object;
* `JsonText`: the text of a value with the white space around it;
* `Dicts`: no object of a value names a member twice;
* `read_eq_some_iff`: the reader accepts the texts of such values and no others;
* `Alike`: values that agree up to the order of members, given which scalars agree.
-/

namespace Json

variable {F : Type}

/-! ### The grammar -/

/-- White space only. -/
def Blank (text : List Char) : Prop := text.all isSpace

/-- The characters of a string up to its closing quote, and the string they spell. -/
inductive StringText : List Char → List Char → Prop
  | close : StringText ['"'] []
  | plain {c : Char} {text s : List Char} (hquote : c ≠ '"') (hslash : c ≠ '\\')
      (hcontrol : ¬c.toNat < 32) (h : StringText text s) : StringText (c :: text) (c :: s)
  | short {c d : Char} {text s : List Char} (hshort : shortEscape c = some d)
      (h : StringText text s) : StringText ('\\' :: c :: text) (d :: s)
  | point {digits text s : List Char} {n : ℕ} (hdigits : readHex digits = some (n, []))
      (hplain : ¬(0xD800 ≤ n ∧ n < 0xE000)) (h : StringText text s) :
      StringText ('\\' :: 'u' :: (digits ++ text)) (Char.ofNat n :: s)
  | pair {digits digits' text s : List Char} {high low : ℕ}
      (hdigits : readHex digits = some (high, [])) (hdigits' : readHex digits' = some (low, []))
      (hhigh : 0xD800 ≤ high ∧ high < 0xDC00) (hlow : 0xDC00 ≤ low ∧ low < 0xE000)
      (h : StringText text s) :
      StringText ('\\' :: 'u' :: (digits ++ '\\' :: 'u' :: (digits' ++ text)))
        (Char.ofNat (0x10000 + (high - 0xD800) * 0x400 + (low - 0xDC00)) :: s)

variable (N : Floats F)

mutual

/-- The text of a value. -/
inductive ValueText : List Char → Json F → Prop
  | word {word : List Char} {v : Json F} (h : (word, v) ∈ wordValues) : ValueText word v
  | int {literal : List Char} (h : isIntLiteral literal) :
      ValueText literal (.int (intOfLiteral literal))
  | float {literal : List Char} (h : isFloatLiteral literal) :
      ValueText literal (.float (N.ofLiteral literal))
  | str {text s : List Char} (h : StringText text s) : ValueText ('"' :: text) (.str s)
  | arrNil {w : List Char} (hw : Blank w) : ValueText ('[' :: (w ++ [']'])) (.arr [])
  | arr {w text : List Char} {items : List (Json F)} (hw : Blank w) (h : ItemsText text items) :
      ValueText ('[' :: (w ++ text)) (.arr items)
  | objNil {w : List Char} (hw : Blank w) : ValueText ('{' :: (w ++ ['}'])) (.obj [])
  | obj {w text : List Char} {members : List (List Char × Json F)} (hw : Blank w)
      (h : MembersText text members) : ValueText ('{' :: (w ++ text)) (.obj members)

/-- The items of an array and its end. -/
inductive ItemsText : List Char → List (Json F) → Prop
  | last {text w : List Char} {v : Json F} (h : ValueText text v) (hw : Blank w) :
      ItemsText (text ++ (w ++ [']'])) [v]
  | more {text w w' rest : List Char} {v : Json F} {vs : List (Json F)} (h : ValueText text v)
      (hw : Blank w) (hw' : Blank w') (hrest : ItemsText rest vs) :
      ItemsText (text ++ (w ++ ',' :: (w' ++ rest))) (v :: vs)

/-- The members of an object and its end. -/
inductive MembersText : List Char → List (List Char × Json F) → Prop
  | last {name w w' text w₃ k : List Char} {v : Json F} (hname : StringText name k) (hw : Blank w)
      (hw' : Blank w') (h : ValueText text v) (hw₃ : Blank w₃) :
      MembersText ('"' :: (name ++ (w ++ ':' :: (w' ++ (text ++ (w₃ ++ ['}'])))))) [(k, v)]
  | more {name w w' text w₃ w₄ rest k : List Char} {v : Json F} {ms : List (List Char × Json F)}
      (hname : StringText name k) (hw : Blank w) (hw' : Blank w') (h : ValueText text v)
      (hw₃ : Blank w₃) (hw₄ : Blank w₄) (hrest : MembersText rest ms) :
      MembersText ('"' :: (name ++ (w ++ ':' :: (w' ++ (text ++ (w₃ ++ ',' :: (w₄ ++ rest)))))))
        ((k, v) :: ms)

end

/-- The text of a value, with white space around it. -/
def JsonText (text : List Char) (v : Json F) : Prop :=
  ∃ w body w', text = w ++ (body ++ w') ∧ Blank w ∧ Blank w' ∧ ValueText N body v

/-- No object of a value names a member twice. -/
inductive Dicts : Json F → Prop
  | null : Dicts null
  | bool (b : Bool) : Dicts (bool b)
  | int (i : ℤ) : Dicts (int i)
  | float (x : F) : Dicts (float x)
  | str (s : List Char) : Dicts (str s)
  | arr {items : List (Json F)} (h : ∀ x ∈ items, Dicts x) : Dicts (arr items)
  | obj {members : List (List Char × Json F)} (hnames : distinctNames members)
      (h : ∀ m ∈ members, Dicts m.2) : Dicts (obj members)

/-! ### White space and numbers -/

variable {N}

lemma blank_cons {c : Char} {w : List Char} (h : Blank (c :: w)) : isSpace c ∧ Blank w := by
  simpa [Blank] using h

/-- White space before something else is skipped. -/
lemma skipSpace_blank {w : List Char} (hw : Blank w) {c : Char} (hc : isSpace c = false)
    (rest : List Char) : skipSpace (w ++ c :: rest) = c :: rest := by
  induction w with
  | nil => exact skipSpace_cons hc rest
  | cons d w ih =>
      obtain ⟨hd, hw⟩ := blank_cons hw
      rw [List.cons_append, skipSpace, List.dropWhile_cons_of_pos hd]
      exact ih hw

lemma skipSpace_eq_nil {w : List Char} (hw : Blank w) : skipSpace w = [] := by
  rw [skipSpace, List.dropWhile_eq_nil_iff]
  exact List.all_eq_true.mp hw

/-- A text is the white space at its beginning and the rest. -/
lemma exists_blank (text : List Char) : ∃ w, Blank w ∧ text = w ++ skipSpace text :=
  ⟨text.takeWhile isSpace, List.all_takeWhile, (List.takeWhile_append_dropWhile).symm⟩

/-- White space, and what ends a number, end a number. -/
lemma endsNumber_blank {w : List Char} (hw : Blank w) {rest : List Char} (hrest : EndsNumber rest) :
    EndsNumber (w ++ rest) := by
  cases w with
  | nil => exact hrest
  | cons c w =>
      refine endsNumber_cons ?_
      have hspace := (blank_cons hw).1
      simp only [isSpace, Bool.or_eq_true, decide_eq_true_eq] at hspace
      rcases hspace with ((rfl | rfl) | rfl) | rfl <;> decide

lemma all_isNumberChar_of_isIntLiteral {literal : List Char} (h : isIntLiteral literal) :
    literal.all isNumberChar := by
  have hdigits : ∀ text : List Char, isWhole text → text.all isNumberChar := fun text htext => by
    simp only [isWhole, Bool.and_eq_true] at htext
    exact List.all_eq_true.mpr fun c hc =>
      isNumberChar_of_isDigit (List.all_eq_true.mp htext.1.2 c hc)
  rw [isIntLiteral] at h
  unfold unsigned at h
  split at h
  · rw [List.all_cons, hdigits _ h]
    rfl
  · exact hdigits _ h

/-- How the text of a value begins. -/
lemma ValueText.head {body : List Char} {v : Json F} (h : ValueText N body v) :
    ∃ c text, body = c :: text ∧ isSpace c = false ∧ c ≠ ']' := by
  have hnumber : ∀ literal : List Char, isIntLiteral literal ∨ isFloatLiteral literal →
      literal.all isNumberChar → ∃ c text, literal = c :: text ∧ isSpace c = false ∧ c ≠ ']' := by
    intro literal hliteral hchars
    obtain ⟨c, text, hc, hnumber⟩ := exists_numberChar hliteral hchars
    exact ⟨c, text, hc, plain_of_isNumberChar hnumber⟩
  cases h with
  | word h =>
      simp only [wordValues, List.mem_cons, Prod.mk.injEq, List.not_mem_nil, or_false] at h
      rcases h with ⟨rfl, rfl⟩ | ⟨rfl, rfl⟩ | ⟨rfl, rfl⟩ <;> exact ⟨_, _, rfl, by decide, by decide⟩
  | int h => exact hnumber _ (.inl h) (all_isNumberChar_of_isIntLiteral h)
  | float h =>
      have hchars := h
      simp only [isFloatLiteral, Bool.and_eq_true] at hchars
      exact hnumber _ (.inr h) hchars.2
  | _ => exact ⟨_, _, rfl, by decide, by decide⟩

/-! ### Every text of the grammar is read -/

lemma readHex_exact {digits rest : List Char} {n : ℕ} (h : readHex digits = some (n, [])) :
    readHex (digits ++ rest) = some (n, rest) := by
  rcases digits with _ | ⟨a, _ | ⟨b, _ | ⟨c, _ | ⟨d, digits⟩⟩⟩⟩
  · simp [readHex] at h
  · simp [readHex] at h
  · simp [readHex] at h
  · simp [readHex] at h
  · simp only [readHex, List.cons_append, bind, Option.bind_eq_some_iff, Option.some.injEq,
      Prod.mk.injEq] at h ⊢
    obtain ⟨a', ha, b', hb, c', hc, d', hd, hn, rfl⟩ := h
    exact ⟨a', ha, b', hb, c', hc, d', hd, hn, rfl⟩

/-- A string of the grammar is read, whatever follows it. -/
lemma StringText.read {text s : List Char} (h : StringText text s) :
    ∀ {fuel : ℕ} (rest : List Char), text.length ≤ fuel →
      readString fuel (text ++ rest) = some (s, rest) := by
  induction h with
  | close =>
      intro fuel rest hfuel
      obtain ⟨fuel, rfl⟩ : ∃ n, fuel = n + 1 := ⟨fuel - 1, by simp at hfuel; omega⟩
      rfl
  | plain hquote hslash hcontrol h ih =>
      intro fuel rest hfuel
      rw [List.length_cons] at hfuel
      obtain ⟨fuel, rfl⟩ : ∃ n, fuel = n + 1 := ⟨fuel - 1, by omega⟩
      rw [List.cons_append, readString, if_neg hquote, if_neg hslash, if_neg hcontrol,
        ih rest (by omega)]
      rfl
  | @short c d text s hshort h ih =>
      intro fuel rest hfuel
      rw [List.length_cons, List.length_cons] at hfuel
      obtain ⟨fuel, rfl⟩ : ∃ n, fuel = n + 1 := ⟨fuel - 1, by omega⟩
      have hescape : readEscape (c :: (text ++ rest)) = some (d, text ++ rest) := by
        have hne : c ≠ 'u' := by
          rintro rfl
          have hnone : shortEscape 'u' = none := by decide
          exact absurd (hnone.symm.trans hshort) (by simp)
        rw [readEscape, if_neg hne, hshort, Option.map_some]
      rw [List.cons_append, List.cons_append, readString, if_neg (by decide), if_pos rfl, hescape]
      simp only [bind, Option.bind_some]
      rw [ih rest (by omega)]
      rfl
  | @point digits text s n hdigits hplain h ih =>
      intro fuel rest hfuel
      rw [List.length_cons, List.length_cons, List.length_append] at hfuel
      obtain ⟨fuel, rfl⟩ : ∃ n, fuel = n + 1 := ⟨fuel - 1, by omega⟩
      have hescape : readEscape ('u' :: (digits ++ (text ++ rest))) =
          some (Char.ofNat n, text ++ rest) := by
        rw [readEscape, if_pos rfl, readCodePoint, readHex_exact hdigits]
        simp only [bind, Option.bind_some, if_neg hplain]
      rw [List.cons_append, List.cons_append, List.append_assoc, readString, if_neg (by decide),
        if_pos rfl, hescape]
      simp only [bind, Option.bind_some]
      rw [ih rest (by omega)]
      rfl
  | @pair digits digits' text s high low hdigits hdigits' hhigh hlow h ih =>
      intro fuel rest hfuel
      simp only [List.length_cons, List.length_append] at hfuel
      obtain ⟨fuel, rfl⟩ : ∃ n, fuel = n + 1 := ⟨fuel - 1, by omega⟩
      have hescape : readEscape ('u' :: (digits ++ '\\' :: 'u' :: (digits' ++ (text ++ rest)))) =
          some (Char.ofNat (0x10000 + (high - 0xD800) * 0x400 + (low - 0xDC00)), text ++ rest) := by
        rw [readEscape, if_pos rfl, readCodePoint, readHex_exact hdigits]
        simp only [bind, Option.bind_some]
        have htake : ('\\' :: 'u' :: (digits' ++ (text ++ rest))).take 2 = ['\\', 'u'] := rfl
        rw [if_pos ⟨hhigh.1, by omega⟩, if_pos htake]
        simp only [List.drop_succ_cons, List.drop_zero, readHex_exact hdigits', Option.bind_some]
        rw [if_pos ⟨hhigh.2, hlow⟩]
      simp only [List.cons_append, List.append_assoc]
      rw [readString, if_neg (by decide), if_pos rfl, hescape]
      simp only [bind, Option.bind_some]
      rw [ih rest (by omega)]
      rfl

variable (N) in
/-- The texts of values are read with this fuel, whatever follows them. -/
def ReadsValues (fuel : ℕ) : Prop :=
  ∀ {body v}, ValueText N body v → Dicts v → 2 * body.length ≤ fuel → ∀ rest, EndsNumber rest →
    readValue N fuel (body ++ rest) = some (v, rest)

variable (N) in
/-- The items of arrays are read with this fuel. -/
def ReadsItems (fuel : ℕ) : Prop :=
  ∀ {body items}, ItemsText N body items → (∀ x ∈ items, Dicts x) → 2 * body.length + 1 ≤ fuel →
    ∀ rest, readItems N fuel (body ++ rest) = some (items, rest)

variable (N) in
/-- The members of objects are read with this fuel. -/
def ReadsMembers (fuel : ℕ) : Prop :=
  ∀ {body members}, MembersText N body members → (∀ m ∈ members, Dicts m.2) →
    2 * body.length + 1 ≤ fuel → ∀ rest, readMembers N fuel (body ++ rest) = some (members, rest)

lemma ItemsText.head {body : List Char} {items : List (Json F)} (h : ItemsText N body items) :
    ∃ c text, body = c :: text ∧ isSpace c = false ∧ c ≠ ']' := by
  cases h with
  | last h hw =>
      obtain ⟨c, text, rfl, hc⟩ := h.head
      exact ⟨c, _, rfl, hc⟩
  | more h hw hw' hrest =>
      obtain ⟨c, text, rfl, hc⟩ := h.head
      exact ⟨c, _, rfl, hc⟩

lemma MembersText.head {body : List Char} {members : List (List Char × Json F)}
    (h : MembersText N body members) : ∃ text, body = '"' :: text := by
  cases h <;> exact ⟨_, rfl⟩

lemma readNumber_literal {literal : List Char} {v : Json F} (hchars : literal.all isNumberChar)
    (hvalue : (isIntLiteral literal ∧ v = .int (intOfLiteral literal)) ∨
      (isFloatLiteral literal ∧ v = .float (N.ofLiteral literal)))
    {rest : List Char} (hrest : EndsNumber rest) :
    readNumber N (literal ++ rest) = some (v, rest) := by
  obtain ⟨htake, hdrop⟩ := takeWhile_literal hchars hrest
  rw [readNumber, htake, hdrop]
  rcases hvalue with ⟨hint, rfl⟩ | ⟨hfloat, rfl⟩
  · rw [if_pos hint]
  · rw [if_neg (not_isIntLiteral hfloat), if_pos hfloat]

lemma readsValues_succ {fuel : ℕ} (hitems : ReadsItems N fuel) (hmembers : ReadsMembers N fuel) :
    ReadsValues N (fuel + 1) := by
  intro body v h hdicts hfuel rest hrest
  have hnumber : ∀ literal : List Char, literal.all isNumberChar →
      (isIntLiteral literal ∧ v = .int (intOfLiteral literal)) ∨
        (isFloatLiteral literal ∧ v = .float (N.ofLiteral literal)) →
      readValue N (fuel + 1) (literal ++ rest) = some (v, rest) := by
    intro literal hchars hvalue
    have hread := readNumber_literal hchars hvalue hrest
    obtain ⟨c, text, rfl, hc⟩ := exists_numberChar (hvalue.imp And.left And.left) hchars
    rw [List.cons_append] at hread ⊢
    rw [readValue_number hc, hread]
  cases h with
  | word h =>
      simp only [wordValues, List.mem_cons, Prod.mk.injEq, List.not_mem_nil, or_false] at h
      rcases h with ⟨rfl, rfl⟩ | ⟨rfl, rfl⟩ | ⟨rfl, rfl⟩ <;> rfl
  | int h => exact hnumber _ (all_isNumberChar_of_isIntLiteral h) (.inl ⟨h, rfl⟩)
  | float h =>
      have hchars := h
      simp only [isFloatLiteral, Bool.and_eq_true] at hchars
      exact hnumber _ hchars.2 (.inr ⟨h, rfl⟩)
  | str h =>
      rw [List.length_cons] at hfuel
      rw [List.cons_append, readValue, if_pos rfl, h.read rest (by omega)]
      rfl
  | arrNil hw =>
      rw [List.cons_append, List.append_assoc, List.singleton_append, readValue, if_neg (by decide),
        if_neg (by decide), if_pos rfl, skipSpace_blank hw rfl, List.head?_cons, if_pos rfl]
      rfl
  | @arr w text items hw h =>
      cases hdicts with
      | arr hall =>
      have hread := hitems h hall
      obtain ⟨c, tail, rfl, hspace, hne⟩ := h.head
      rw [List.length_cons, List.length_append] at hfuel
      rw [List.cons_append, List.append_assoc, List.cons_append, readValue, if_neg (by decide),
        if_neg (by decide), if_pos rfl, skipSpace_blank hw hspace, List.head?_cons,
        if_neg (by simpa using hne), ← List.cons_append, hread (by omega) rest]
      rfl
  | objNil hw =>
      rw [List.cons_append, List.append_assoc, List.singleton_append, readValue, if_neg (by decide),
        if_pos rfl, skipSpace_blank hw rfl, List.head?_cons, if_pos rfl]
      rfl
  | @obj w text members hw h =>
      cases hdicts with
      | obj hnames hall =>
      have hread := hmembers h hall
      obtain ⟨tail, rfl⟩ := h.head
      rw [List.length_cons, List.length_append] at hfuel
      rw [List.cons_append, List.append_assoc, List.cons_append, readValue, if_neg (by decide),
        if_pos rfl, skipSpace_blank hw rfl, List.head?_cons, if_neg (by simp),
        ← List.cons_append, hread (by omega) rest]
      exact if_pos hnames

lemma readsItems_succ {fuel : ℕ} (hvalue : ReadsValues N fuel) (hitems : ReadsItems N fuel) :
    ReadsItems N (fuel + 1) := by
  intro body items h hdicts hfuel rest
  cases h with
  | @last text w v h hw =>
      rw [List.length_append] at hfuel
      have hends : EndsNumber (w ++ ']' :: rest) := endsNumber_blank hw (endsNumber_cons rfl)
      rw [List.append_assoc, List.append_assoc, List.singleton_append, readItems,
        hvalue h (hdicts v List.mem_cons_self) (by omega) _ hends]
      simp only [bind, Option.bind_some]
      rw [skipSpace_blank hw rfl, List.head?_cons, if_neg (by decide), if_pos rfl]
      rfl
  | @more text w w' body' v vs h hw hw' hrest =>
      rw [List.forall_mem_cons] at hdicts
      simp only [List.length_append, List.length_cons] at hfuel
      have hends : EndsNumber (w ++ ',' :: (w' ++ (body' ++ rest))) :=
        endsNumber_blank hw (endsNumber_cons rfl)
      have hread := hitems hrest hdicts.2 (by omega) rest
      obtain ⟨c, tail, rfl, hspace, -⟩ := hrest.head
      rw [List.cons_append] at hread
      simp only [List.cons_append, List.append_assoc] at hends ⊢
      rw [readItems, hvalue h hdicts.1 (by omega) _ hends]
      simp only [bind, Option.bind_some]
      rw [skipSpace_blank hw rfl, List.head?_cons, if_pos rfl, List.tail_cons,
        skipSpace_blank hw' hspace, hread]
      rfl

lemma readsMembers_succ {fuel : ℕ} (hvalue : ReadsValues N fuel) (hmembers : ReadsMembers N fuel) :
    ReadsMembers N (fuel + 1) := by
  intro body members h hdicts hfuel rest
  cases h with
  | @last name w w' text w₃ k v hname hw hw' h hw₃ =>
      simp only [List.length_append, List.length_cons] at hfuel
      have hends : EndsNumber (w₃ ++ '}' :: rest) := endsNumber_blank hw₃ (endsNumber_cons rfl)
      have hread := hvalue h (hdicts (k, v) List.mem_cons_self) (by omega) _ hends
      obtain ⟨c, tail, rfl, hspace, -⟩ := h.head
      simp only [List.cons_append, List.append_assoc, List.nil_append] at hread ⊢
      rw [readMembers, List.head?_cons, if_pos rfl, List.tail_cons, hname.read _ (by omega)]
      simp only [bind, Option.bind_some]
      rw [skipSpace_blank hw rfl, List.head?_cons, if_pos rfl, List.tail_cons,
        skipSpace_blank hw' hspace, hread]
      simp only [Option.bind_some]
      rw [skipSpace_blank hw₃ rfl, List.head?_cons, if_neg (by decide), if_pos rfl]
      rfl
  | @more name w w' text w₃ w₄ body' k v ms hname hw hw' h hw₃ hw₄ hrest =>
      rw [List.forall_mem_cons] at hdicts
      simp only [List.length_append, List.length_cons] at hfuel
      have hends : EndsNumber (w₃ ++ ',' :: (w₄ ++ (body' ++ rest))) :=
        endsNumber_blank hw₃ (endsNumber_cons rfl)
      have hread := hvalue h hdicts.1 (by omega) _ hends
      have hnext := hmembers hrest hdicts.2 (by omega) rest
      obtain ⟨c, tail, rfl, hspace, -⟩ := h.head
      obtain ⟨tail', rfl⟩ := hrest.head
      simp only [List.cons_append, List.append_assoc] at hread hnext ⊢
      rw [readMembers, List.head?_cons, if_pos rfl, List.tail_cons, hname.read _ (by omega)]
      simp only [bind, Option.bind_some]
      rw [skipSpace_blank hw rfl, List.head?_cons, if_pos rfl, List.tail_cons,
        skipSpace_blank hw' hspace, hread]
      simp only [Option.bind_some]
      rw [skipSpace_blank hw₃ rfl, List.head?_cons, if_pos rfl, List.tail_cons,
        skipSpace_blank hw₄ rfl, hnext]
      rfl

/-- The texts of the grammar are read, given fuel for their length. -/
lemma reads_all (fuel : ℕ) : ReadsValues N fuel ∧ ReadsItems N fuel ∧ ReadsMembers N fuel := by
  induction fuel with
  | zero =>
      refine ⟨fun h _ hfuel => ?_, fun _ _ hfuel => absurd hfuel (by omega),
        fun _ _ hfuel => absurd hfuel (by omega)⟩
      obtain ⟨c, text, rfl, -⟩ := h.head
      rw [List.length_cons] at hfuel
      omega
  | succ fuel ih =>
      obtain ⟨hvalue, hitems, hmembers⟩ := ih
      exact ⟨readsValues_succ hitems hmembers, readsItems_succ hvalue hitems,
        readsMembers_succ hvalue hmembers⟩

/-! ### What is read is a text of the grammar -/

variable {text rest : List Char} {fuel : ℕ}

/-- The four digits that were read. -/
lemma exists_hex {n : ℕ} (h : readHex text = some (n, rest)) :
    ∃ digits, text = digits ++ rest ∧ readHex digits = some (n, []) := by
  rcases text with _ | ⟨a, _ | ⟨b, _ | ⟨c, _ | ⟨d, text⟩⟩⟩⟩
  · exact absurd h nofun
  · exact absurd h nofun
  · exact absurd h nofun
  · exact absurd h nofun
  · simp only [readHex, bind, Option.bind_eq_some_iff] at h
    obtain ⟨x, hx, y, hy, z, hz, w, hw, heq⟩ := h
    obtain ⟨rfl, rfl⟩ := Prod.mk.inj (Option.some.inj heq)
    exact ⟨[a, b, c, d], rfl, by simp only [readHex, hx, hy, hz, hw, bind, Option.bind_some]⟩

/-- The string that was read is spelled by what stands before the rest. -/
lemma exists_stringText {s : List Char} (h : readString fuel text = some (s, rest)) :
    ∃ body, text = body ++ rest ∧ StringText body s := by
  induction fuel generalizing text s with
  | zero => simp [readString] at h
  | succ fuel ih =>
      rcases text with _ | ⟨c, text⟩
      · simp [readString] at h
      simp only [readString] at h
      split_ifs at h with hquote hslash hcontrol
      · obtain ⟨rfl, rfl⟩ := Prod.mk.inj (Option.some.inj h)
        exact ⟨['"'], by rw [hquote]; rfl, .close⟩
      · simp only [bind, Option.bind_eq_some_iff, Prod.exists] at h
        obtain ⟨d, tail, hd, s', tail', hs, heq⟩ := h
        obtain ⟨rfl, rfl⟩ := Prod.mk.inj (Option.some.inj heq)
        obtain ⟨body, rfl, hbody⟩ := ih hs
        subst hslash
        rcases text with _ | ⟨e, text⟩
        · simp [readEscape] at hd
        rw [readEscape] at hd
        split_ifs at hd with hu
        · subst hu
          simp only [readCodePoint, bind, Option.bind_eq_some_iff, Prod.exists] at hd
          obtain ⟨high, after, hhigh, hpoint⟩ := hd
          obtain ⟨digits, rfl, hdigits⟩ := exists_hex hhigh
          split_ifs at hpoint with hsurrogate hpair
          · simp only [Option.bind_eq_some_iff, Prod.exists] at hpoint
            obtain ⟨low, after', hlow, hpoint⟩ := hpoint
            obtain ⟨digits', hafter, hdigits'⟩ := exists_hex hlow
            split_ifs at hpoint with hranges
            obtain ⟨rfl, rfl⟩ := Prod.mk.inj (Option.some.inj hpoint)
            have hsplit : after = '\\' :: 'u' :: (digits' ++ (body ++ tail')) := by
              rw [← hafter]
              exact (List.take_append_drop 2 after).symm.trans (by rw [hpair]; rfl)
            refine ⟨'\\' :: 'u' :: (digits ++ '\\' :: 'u' :: (digits' ++ body)), ?_,
              .pair hdigits hdigits' ⟨hsurrogate.1, hranges.1⟩ hranges.2 hbody⟩
            rw [hsplit]
            simp
          · obtain ⟨rfl, rfl⟩ := Prod.mk.inj (Option.some.inj hpoint)
            exact ⟨'\\' :: 'u' :: (digits ++ body), by simp, .point hdigits hsurrogate hbody⟩
        · obtain ⟨d', hshort, heq⟩ := Option.map_eq_some_iff.mp hd
          obtain ⟨rfl, rfl⟩ := Prod.mk.inj heq
          exact ⟨'\\' :: e :: body, rfl, .short hshort hbody⟩
      · simp only [bind, Option.bind_eq_some_iff, Prod.exists] at h
        obtain ⟨s', tail', hs, heq⟩ := h
        obtain ⟨rfl, rfl⟩ := Prod.mk.inj (Option.some.inj heq)
        obtain ⟨body, rfl, hbody⟩ := ih hs
        exact ⟨c :: body, rfl, .plain hquote hslash hcontrol hbody⟩

/-- What begins after white space. -/
lemma exists_blank_cons {c : Char} (h : (skipSpace text).head? = some c) :
    ∃ w tail, Blank w ∧ text = w ++ c :: tail ∧ skipSpace text = c :: tail := by
  obtain ⟨w, hw, htext⟩ := exists_blank text
  obtain ⟨tail, htail⟩ := List.head?_eq_some_iff.mp h
  exact ⟨w, tail, hw, htail ▸ htext, htail⟩

variable (N) in
/-- Values read with this fuel are spelled by the grammar. -/
def SpellsValues (fuel : ℕ) : Prop :=
  ∀ {text v rest}, readValue N fuel text = some (v, rest) →
    ∃ body, text = body ++ rest ∧ ValueText N body v ∧ Dicts v

variable (N) in
/-- Items read with this fuel are spelled by the grammar. -/
def SpellsItems (fuel : ℕ) : Prop :=
  ∀ {text items rest}, readItems N fuel text = some (items, rest) →
    ∃ body, text = body ++ rest ∧ ItemsText N body items ∧ ∀ x ∈ items, Dicts x

variable (N) in
/-- Members read with this fuel are spelled by the grammar. -/
def SpellsMembers (fuel : ℕ) : Prop :=
  ∀ {text members rest}, readMembers N fuel text = some (members, rest) →
    ∃ body, text = body ++ rest ∧ MembersText N body members ∧ ∀ m ∈ members, Dicts m.2

lemma exists_numberText {v : Json F} (h : readNumber N text = some (v, rest)) :
    ∃ body, text = body ++ rest ∧ ValueText N body v ∧ Dicts v := by
  have hsplit : text = text.takeWhile isNumberChar ++ text.dropWhile isNumberChar :=
    (List.takeWhile_append_dropWhile).symm
  simp only [readNumber] at h
  split_ifs at h with hint hfloat
  · obtain ⟨rfl, rfl⟩ := Prod.mk.inj (Option.some.inj h)
    exact ⟨_, hsplit, .int hint, .int _⟩
  · obtain ⟨rfl, rfl⟩ := Prod.mk.inj (Option.some.inj h)
    exact ⟨_, hsplit, .float hfloat, .float _⟩

lemma exists_wordText {v : Json F} (h : readWord text = some (v, rest)) :
    ∃ body, text = body ++ rest ∧ ValueText N body v ∧ Dicts v := by
  obtain ⟨⟨word, value⟩, hword, hfound⟩ := List.exists_of_findSome?_eq_some h
  dsimp only at hfound
  split_ifs at hfound with hprefix
  obtain ⟨rfl, rfl⟩ := Prod.mk.inj (Option.some.inj hfound)
  obtain ⟨tail, rfl⟩ := List.isPrefixOf_iff_prefix.mp hprefix
  refine ⟨word, by rw [List.drop_left], .word hword, ?_⟩
  simp only [wordValues, List.mem_cons, Prod.mk.injEq, List.not_mem_nil, or_false] at hword
  rcases hword with ⟨-, rfl⟩ | ⟨-, rfl⟩ | ⟨-, rfl⟩
  · exact .null
  · exact .bool true
  · exact .bool false

lemma spellsValues_succ (hitems : SpellsItems N fuel) (hmembers : SpellsMembers N fuel) :
    SpellsValues N (fuel + 1) := by
  intro text v rest h
  rcases text with _ | ⟨c, text⟩
  · exact absurd h nofun
  simp only [readValue] at h
  split_ifs at h with hquote hobj hend harr hend hdigit
  · obtain ⟨⟨s, tail⟩, hs, heq⟩ := Option.map_eq_some_iff.mp h
    obtain ⟨rfl, rfl⟩ := Prod.mk.inj heq
    obtain ⟨body, rfl, hbody⟩ := exists_stringText hs
    exact ⟨'"' :: body, by rw [hquote]; rfl, .str hbody, .str s⟩
  · obtain ⟨w, tail, hw, rfl, hskip⟩ := exists_blank_cons hend
    obtain ⟨rfl, rfl⟩ := Prod.mk.inj (Option.some.inj h)
    refine ⟨'{' :: (w ++ ['}']), ?_, .objNil hw, .obj rfl (by simp)⟩
    rw [hskip, hobj]
    simp
  · simp only [bind, Option.bind_eq_some_iff, Prod.exists] at h
    obtain ⟨members, tail, hms, hdistinct⟩ := h
    split_ifs at hdistinct with hnames
    obtain ⟨rfl, rfl⟩ := Prod.mk.inj (Option.some.inj hdistinct)
    obtain ⟨w, hw, htext⟩ := exists_blank text
    obtain ⟨body, hbody, hspelled, hdicts⟩ := hmembers hms
    refine ⟨'{' :: (w ++ body), ?_, .obj hw hspelled, .obj hnames hdicts⟩
    rw [hobj, htext, hbody]
    simp
  · obtain ⟨w, tail, hw, rfl, hskip⟩ := exists_blank_cons hend
    obtain ⟨rfl, rfl⟩ := Prod.mk.inj (Option.some.inj h)
    refine ⟨'[' :: (w ++ [']']), ?_, .arrNil hw, .arr (by simp)⟩
    rw [hskip, harr]
    simp
  · obtain ⟨⟨items, tail⟩, hxs, heq⟩ := Option.map_eq_some_iff.mp h
    obtain ⟨rfl, rfl⟩ := Prod.mk.inj heq
    obtain ⟨w, hw, htext⟩ := exists_blank text
    obtain ⟨body, hbody, hspelled, hdicts⟩ := hitems hxs
    refine ⟨'[' :: (w ++ body), ?_, .arr hw hspelled, .arr hdicts⟩
    rw [harr, htext, hbody]
    simp
  · exact exists_numberText h
  · exact exists_wordText h

lemma spellsItems_succ (hvalue : SpellsValues N fuel) (hitems : SpellsItems N fuel) :
    SpellsItems N (fuel + 1) := by
  intro text items rest h
  simp only [readItems, bind, Option.bind_eq_some_iff, Prod.exists] at h
  obtain ⟨x, tail, hx, hmore⟩ := h
  obtain ⟨body, rfl, hbody, hdicts⟩ := hvalue hx
  split_ifs at hmore with hcomma hend
  · obtain ⟨w, next, hw, rfl, hskip⟩ := exists_blank_cons hcomma
    rw [hskip, List.tail_cons] at hmore
    simp only [Option.bind_eq_some_iff, Prod.exists] at hmore
    obtain ⟨xs, last, hxs, heq⟩ := hmore
    obtain ⟨rfl, rfl⟩ := Prod.mk.inj (Option.some.inj heq)
    obtain ⟨w', hw', hnext⟩ := exists_blank next
    obtain ⟨body', hbody', hspelled, hall⟩ := hitems hxs
    refine ⟨body ++ (w ++ ',' :: (w' ++ body')), ?_, .more hbody hw hw' hspelled,
      List.forall_mem_cons.mpr ⟨hdicts, hall⟩⟩
    rw [hnext, hbody']
    simp
  · obtain ⟨w, next, hw, rfl, hskip⟩ := exists_blank_cons hend
    rw [hskip, List.tail_cons] at hmore
    obtain ⟨rfl, rfl⟩ := Prod.mk.inj (Option.some.inj hmore)
    exact ⟨body ++ (w ++ [']']), by simp, .last hbody hw, by simpa using hdicts⟩

lemma spellsMembers_succ (hvalue : SpellsValues N fuel) (hmembers : SpellsMembers N fuel) :
    SpellsMembers N (fuel + 1) := by
  intro text members rest h
  simp only [readMembers] at h
  split_ifs at h with hquote
  obtain ⟨text, rfl⟩ := List.head?_eq_some_iff.mp hquote
  simp only [List.tail_cons, bind, Option.bind_eq_some_iff, Prod.exists] at h
  obtain ⟨k, tail, hk, hmore⟩ := h
  obtain ⟨name, rfl, hname⟩ := exists_stringText hk
  split_ifs at hmore with hcolon
  obtain ⟨w, next, hw, rfl, hskip⟩ := exists_blank_cons hcolon
  rw [hskip, List.tail_cons] at hmore
  simp only [Option.bind_eq_some_iff, Prod.exists] at hmore
  obtain ⟨x, after, hx, hmore⟩ := hmore
  obtain ⟨w', hw', hnext⟩ := exists_blank next
  obtain ⟨body, hbody, hspelled, hdicts⟩ := hvalue hx
  rw [hbody] at hnext
  split_ifs at hmore with hcomma hend
  · obtain ⟨w₃, last, hw₃, rfl, hskip'⟩ := exists_blank_cons hcomma
    rw [hskip', List.tail_cons] at hmore
    simp only [Option.bind_eq_some_iff, Prod.exists] at hmore
    obtain ⟨ms, rest', hms, heq⟩ := hmore
    obtain ⟨rfl, rfl⟩ := Prod.mk.inj (Option.some.inj heq)
    obtain ⟨w₄, hw₄, hlast⟩ := exists_blank last
    obtain ⟨body', hbody', hspelled', hall⟩ := hmembers hms
    refine ⟨_, ?_, .more hname hw hw' hspelled hw₃ hw₄ hspelled',
      List.forall_mem_cons.mpr ⟨hdicts, hall⟩⟩
    rw [hnext, hlast, hbody']
    simp
  · obtain ⟨w₃, last, hw₃, rfl, hskip'⟩ := exists_blank_cons hend
    rw [hskip', List.tail_cons] at hmore
    obtain ⟨rfl, rfl⟩ := Prod.mk.inj (Option.some.inj hmore)
    refine ⟨_, ?_, .last hname hw hw' hspelled hw₃, by simpa using hdicts⟩
    rw [hnext]
    simp

/-- What is read is spelled by the grammar. -/
lemma spells_all (fuel : ℕ) : SpellsValues N fuel ∧ SpellsItems N fuel ∧ SpellsMembers N fuel := by
  induction fuel with
  | zero => exact ⟨nofun, nofun, nofun⟩
  | succ fuel ih =>
      obtain ⟨hvalue, hitems, hmembers⟩ := ih
      exact ⟨spellsValues_succ hitems hmembers, spellsItems_succ hvalue hitems,
        spellsMembers_succ hvalue hmembers⟩

/-- The reader accepts the texts of values whose objects name no member twice, and no others. -/
theorem read_eq_some_iff {v : Json F} : read N text = some v ↔ JsonText N text v ∧ Dicts v := by
  constructor
  · intro h
    rw [read] at h
    split at h
    · next value rest hread =>
        split_ifs at h with hblank
        obtain rfl := Option.some.inj h
        obtain ⟨w, hw, htext⟩ := exists_blank text
        obtain ⟨w', hw', hrest⟩ := exists_blank rest
        obtain ⟨body, hbody, hspelled, hdicts⟩ := (spells_all _).1 hread
        rw [hblank, List.append_nil] at hrest
        rw [hbody] at htext
        exact ⟨⟨w, body, rest, htext, hw, hrest ▸ hw', hspelled⟩, hdicts⟩
    · cases h
  · rintro ⟨⟨w, body, w', rfl, hw, hw', hspelled⟩, hdicts⟩
    have hread := (reads_all (N := N) (2 * (w ++ (body ++ w')).length)).1 hspelled hdicts
      (by simp only [List.length_append]; omega) w' (by simpa using endsNumber_blank hw' endsNumber_nil)
    obtain ⟨c, tail, rfl, hspace, -⟩ := hspelled.head
    rw [List.cons_append] at hread
    rw [read, List.cons_append, skipSpace_blank hw hspace, hread]
    exact if_pos (skipSpace_eq_nil hw')

/-! ### Values that agree -/

/-- Two values agree up to the order of members, given which scalars agree. -/
inductive Alike (same : Json F → Json F → Prop) : Json F → Json F → Prop
  | scalar {a b : Json F} (h : same a b) : Alike same a b
  | arr {xs ys : List (Json F)} (hlength : xs.length = ys.length)
      (h : ∀ (i : ℕ) (x y : Json F), xs[i]? = some x → ys[i]? = some y → Alike same x y) :
      Alike same (.arr xs) (.arr ys)
  | obj {ms ns : List (List Char × Json F)}
      (hnames : ∀ k, k ∈ ms.map Prod.fst ↔ k ∈ ns.map Prod.fst)
      (h : ∀ k x y, (k, x) ∈ ms → (k, y) ∈ ns → Alike same x y) : Alike same (.obj ms) (.obj ns)

/-- A value without parts. -/
def isScalar : Json F → Bool
  | .arr _ | .obj _ => false
  | _ => true

/-- One scalar: integers and other numbers are kept apart. -/
def SameSpelling (a b : Json F) : Prop := a.isScalar ∧ a = b

/-- The number of a value. -/
def number? (value : F → ℚ) : Json F → Option ℚ
  | .int i => some i
  | .float x => some (value x)
  | _ => none

/-- One scalar, numbers compared as numbers. -/
def SameNumber (value : F → ℚ) (a b : Json F) : Prop :=
  SameSpelling a b ∨ ∃ q, a.number? value = some q ∧ b.number? value = some q

end Json
