import Memorist.Library.JsonText
import Memorist.Library.Dict

/-!
JSON values without the members that are null.

* `Json.stripNone`: a value without them, at any depth;
* `Json.get?_stripMembers`: what is left of an object with distinct names.
-/

namespace Json

variable {F : Type}

mutual

/-- A value without the members that are null. -/
def stripNone : Json F → Json F
  | arr items => arr (stripItems items)
  | obj members => obj (stripMembers members)
  | null => null
  | bool b => bool b
  | int i => int i
  | float x => float x
  | str s => str s

/-- The items of an array without them. -/
def stripItems : List (Json F) → List (Json F)
  | [] => []
  | x :: xs => stripNone x :: stripItems xs

/-- The members of an object that are not null. -/
def stripMembers : List (List Char × Json F) → List (List Char × Json F)
  | [] => []
  | (_, null) :: ms => stripMembers ms
  | (k, x) :: ms => (k, stripNone x) :: stripMembers ms

end

example : stripNone (arr [null, bool true] : Json F) = arr [null, bool true] := by
  simp [stripNone, stripItems]

example : stripMembers [(['a'], null), (['b'], bool true)] = [(['b'], (bool true : Json F))] := by
  simp [stripMembers, stripNone]

@[simp] lemma stripNone_str (s : List Char) : stripNone (str s : Json F) = str s := by
  rw [stripNone]

@[simp] lemma stripNone_bool (b : Bool) : stripNone (bool b : Json F) = bool b := by rw [stripNone]

@[simp] lemma stripNone_null : stripNone (null : Json F) = null := by rw [stripNone]

lemma stripNone_arr (items : List (Json F)) : stripNone (arr items) = arr (items.map stripNone) := by
  rw [stripNone]
  congr 1
  induction items with
  | nil => rw [stripItems, List.map_nil]
  | cons x xs ih => rw [stripItems, List.map_cons, ih]

lemma stripNone_obj (members : List (List Char × Json F)) :
    stripNone (obj members) = obj (stripMembers members) := by rw [stripNone]

@[simp] lemma stripMembers_nil : stripMembers ([] : List (List Char × Json F)) = [] := by
  rw [stripMembers]

@[simp] lemma stripMembers_null (k : List Char) (ms : List (List Char × Json F)) :
    stripMembers ((k, null) :: ms) = stripMembers ms := by rw [stripMembers]

lemma stripMembers_cons (k : List Char) {x : Json F} (hx : x ≠ null)
    (ms : List (List Char × Json F)) :
    stripMembers ((k, x) :: ms) = (k, stripNone x) :: stripMembers ms := by
  cases x with
  | null => exact absurd rfl hx
  | _ => rw [stripMembers]; simp

lemma stripNone_arr_strs (texts : List (List Char)) :
    stripNone (arr (texts.map str) : Json F) = arr (texts.map str) := by
  rw [stripNone_arr, List.map_map]
  exact congrArg arr (List.map_congr_left fun s _ => stripNone_str s)

/-- Objects under names stay there. -/
lemma stripMembers_map_obj {α : Type} (f : α → List (List Char × Json F))
    (items : List (List Char × α)) :
    stripMembers (items.map fun p => (p.1, obj (f p.2))) =
      items.map fun p => (p.1, obj (stripMembers (f p.2))) := by
  induction items with
  | nil => rw [List.map_nil, List.map_nil, stripMembers_nil]
  | cons p items ih =>
      rw [List.map_cons, List.map_cons, stripMembers_cons _ (by simp), stripNone_obj, ih]

/-- The member of a name, unless it is null. -/
lemma get?_stripMembers {members : List (List Char × Json F)} (h : (members.map Prod.fst).Nodup)
    (k : List Char) : Dict.get? (stripMembers members) k =
      ((Dict.get? members k).filter fun x => !(x matches .null)).map stripNone := by
  induction members with
  | nil => rw [stripMembers_nil]; rfl
  | cons p ms ih =>
      obtain ⟨name, x⟩ := p
      obtain ⟨hname, h⟩ := List.nodup_cons.mp h
      by_cases hx : x = null
      · rw [hx, stripMembers_null, ih h, Dict.get?_cons]
        split_ifs with heq
        · have heq : name = k := heq
          rw [← heq, Dict.get?_of_not_mem hname]
          rfl
        · rfl
      · rw [stripMembers_cons name hx, Dict.get?_cons, Dict.get?_cons, ih h]
        split_ifs with heq
        · cases x <;> first | exact absurd rfl hx | rfl
        · rfl

end Json
