import Memorist.Library.JsonText

/-!
The strings of a JSON value.

* `Json.strings`: the strings at any depth, without the names of members;
* `Json.OccursIn`: a text is a part of one of them;
* `Json.strings_subset_of_mem_items`, `Json.strings_subset_of_mem_members`: the strings of what a
  value holds are strings of it;
* `Json.printString_infix`: the text of a value has the literals of its strings.
-/

namespace Json

variable {F : Type}

mutual

/-- The strings of a value. -/
def strings : Json F → List (List Char)
  | str s => [s]
  | arr items => stringsItems items
  | obj members => stringsMembers members
  | null => []
  | bool _ => []
  | int _ => []
  | float _ => []

/-- The strings of the items of an array. -/
def stringsItems : List (Json F) → List (List Char)
  | [] => []
  | x :: xs => strings x ++ stringsItems xs

/-- The strings of the members of an object. -/
def stringsMembers : List (List Char × Json F) → List (List Char)
  | [] => []
  | (_, x) :: ms => strings x ++ stringsMembers ms

end

@[simp] lemma strings_str (s : List Char) : strings (str s : Json F) = [s] := by rw [strings]

@[simp] lemma strings_arr (items : List (Json F)) : strings (arr items) = items.flatMap strings := by
  rw [strings]
  induction items with
  | nil => rw [stringsItems, List.flatMap_nil]
  | cons x xs ih => rw [stringsItems, List.flatMap_cons, ih]

@[simp] lemma strings_obj (members : List (List Char × Json F)) :
    strings (obj members) = members.flatMap fun p => strings p.2 := by
  rw [strings]
  induction members with
  | nil => rw [stringsMembers, List.flatMap_nil]
  | cons p ms ih =>
      obtain ⟨name, x⟩ := p
      rw [stringsMembers, List.flatMap_cons, ih]

lemma strings_subset_of_mem_items {items : List (Json F)} {x : Json F} (hx : x ∈ items) :
    strings x ⊆ strings (arr items) := by
  intro s hs
  rw [strings_arr]
  exact List.mem_flatMap.mpr ⟨x, hx, hs⟩

lemma strings_subset_of_mem_members {members : List (List Char × Json F)} {name : List Char}
    {x : Json F} (hx : (name, x) ∈ members) : strings x ⊆ strings (obj members) := by
  intro s hs
  rw [strings_obj]
  exact List.mem_flatMap.mpr ⟨(name, x), hx, hs⟩

/-- A text is a part of a string of a value. -/
def OccursIn (text : List Char) (value : Json F) : Prop := ∃ s ∈ strings value, text <:+: s

lemma occursIn_of_mem_strings {text : List Char} {value : Json F} (h : text ∈ strings value) :
    OccursIn text value :=
  ⟨text, h, List.infix_refl text⟩

/-! ### The strings in the text of a value -/

section

variable (N : Floats F)

mutual

/-- The text of a value has those of its strings. -/
theorem printString_infix : ∀ (value : Json F) {s : List Char}, s ∈ strings value →
    IJson.printString s <:+: value.print N
  | .str t, s, h => by
      obtain rfl : s = t := by simpa using h
      rw [print]
  | .arr [], s, h => by simp at h
  | .arr (x :: xs), s, h => by
      rw [strings_arr, List.flatMap_cons, List.mem_append] at h
      rw [print]
      rcases h with h | h
      · obtain ⟨before, after, heq⟩ := printString_infix x h
        exact ⟨'[' :: before, after ++ printItems N xs, by rw [← heq]; simp⟩
      · obtain ⟨before, after, heq⟩ := printString_infix_items xs h
        exact ⟨'[' :: (print N x ++ before), after, by rw [← heq]; simp⟩
  | .obj [], s, h => by simp at h
  | .obj ((k, x) :: ms), s, h => by
      rw [strings_obj, List.flatMap_cons, List.mem_append] at h
      rw [print]
      rcases h with h | h
      · obtain ⟨before, after, heq⟩ := printString_infix x h
        exact ⟨'{' :: (IJson.printString k ++ ':' :: before), after ++ printMembers N ms,
          by rw [← heq]; simp⟩
      · obtain ⟨before, after, heq⟩ := printString_infix_members ms h
        exact ⟨'{' :: (IJson.printString k ++ ':' :: (print N x ++ before)), after,
          by rw [← heq]; simp⟩
  | .null, s, h => by rw [strings] at h; cases h
  | .bool _, s, h => by rw [strings] at h; cases h
  | .int _, s, h => by rw [strings] at h; cases h
  | .float _, s, h => by rw [strings] at h; cases h

theorem printString_infix_items : ∀ (items : List (Json F)) {s : List Char},
    s ∈ items.flatMap strings → IJson.printString s <:+: printItems N items
  | [], s, h => by simp at h
  | x :: xs, s, h => by
      rw [List.flatMap_cons, List.mem_append] at h
      rw [printItems]
      rcases h with h | h
      · obtain ⟨before, after, heq⟩ := printString_infix x h
        exact ⟨',' :: before, after ++ printItems N xs, by rw [← heq]; simp⟩
      · obtain ⟨before, after, heq⟩ := printString_infix_items xs h
        exact ⟨',' :: (print N x ++ before), after, by rw [← heq]; simp⟩

theorem printString_infix_members : ∀ (members : List (List Char × Json F)) {s : List Char},
    s ∈ members.flatMap (fun p => strings p.2) → IJson.printString s <:+: printMembers N members
  | [], s, h => by simp at h
  | (k, x) :: ms, s, h => by
      rw [List.flatMap_cons, List.mem_append] at h
      rw [printMembers]
      rcases h with h | h
      · obtain ⟨before, after, heq⟩ := printString_infix x h
        exact ⟨',' :: (IJson.printString k ++ ':' :: before), after ++ printMembers N ms,
          by rw [← heq]; simp⟩
      · obtain ⟨before, after, heq⟩ := printString_infix_members ms h
        exact ⟨',' :: (IJson.printString k ++ ':' :: (print N x ++ before)), after,
          by rw [← heq]; simp⟩

end

end

end Json
