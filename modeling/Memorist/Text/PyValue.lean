import Memorist.Library.JsonText
import Memorist.Library.Dict
import Memorist.Text.PyRepr

/-!
Python's `str` and truth of the values that `json.loads` and a cursor give, numbers of both kinds
among them.

* `reprValue`, `strValue`: the texts of a value;
* `truthyValue`, `pyOr`: whether a condition on it holds;
* `Mapping`: a `dict` with texts as keys, and its `get`;
* `tenths`: a few numbers with a point.
-/

namespace Memorist

variable {F : Type}

section

variable (U : UnicodeData) (N : Floats F)

mutual

/-- Python's `repr(value)`. -/
def reprValue : Json F → Text
  | .null => "None".toList
  | .bool true => "True".toList
  | .bool false => "False".toList
  | .int i => IJson.printInt i
  | .float x => N.repr x
  | .str s => reprText U s
  | .arr items => '[' :: (reprValueItems [] items ++ [']'])
  | .obj members => '\x7b' :: (reprValueMembers [] members ++ ['\x7d'])

/-- The items of a list, each after the separator. -/
def reprValueItems (separator : Text) : List (Json F) → Text
  | [] => []
  | x :: xs => separator ++ (reprValue x ++ reprValueItems [',', ' '] xs)

/-- The items of a dictionary, each after the separator. -/
def reprValueMembers (separator : Text) : List (Text × Json F) → Text
  | [] => []
  | (k, x) :: ms =>
      separator ++ (reprText U k ++ ':' :: ' ' :: (reprValue x ++ reprValueMembers [',', ' '] ms))

end

/-- Python's `str(value)`. -/
def strValue : Json F → Text
  | .str s => s
  | value => reprValue U N value

@[simp] lemma strValue_str (s : Text) : strValue U N (.str s) = s := rfl

end

section

variable [Zero F] [DecidableEq F]

/-- Python's `bool(value)`. -/
def truthyValue : Json F → Bool
  | .null => false
  | .bool b => b
  | .int i => i ≠ 0
  | .float x => x ≠ 0
  | .str s => !s.isEmpty
  | .arr items => !items.isEmpty
  | .obj members => !members.isEmpty

/-- Python's `a or b`. -/
def pyOr (a b : Json F) : Json F := if truthyValue a then a else b

end

/-- A `dict` whose keys are texts. -/
abbrev Mapping (F : Type) := Dict Text (Json F)

/-- `mapping.get(key)`. -/
def Mapping.get (mapping : Mapping F) (key : String) : Json F :=
  (Dict.get? mapping key.toList).getD .null

lemma Mapping.get_set_self (mapping : Mapping F) (key : String) (value : Json F) :
    Mapping.get (Dict.set mapping key.toList value) key = value := by
  rw [Mapping.get, Dict.get?_set, if_pos rfl, Option.getD_some]

/-- The numbers 0.0, 0.1, up to 0.9. -/
def tenths : Floats ℕ where
  finite x := x < 10
  repr x := "0.".toList ++ Nat.toDigits 10 x
  ofLiteral text := Nat.ofDigitChars 10 (text.drop 2) 0
  isFloatLiteral_repr := by
    intro x hx
    have hlt : x < 10 := of_decide_eq_true hx
    interval_cases x <;> decide
  ofLiteral_repr := by
    intro x hx
    have hlt : x < 10 := of_decide_eq_true hx
    interval_cases x <;> decide

end Memorist
