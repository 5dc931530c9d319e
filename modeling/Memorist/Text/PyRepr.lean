import Memorist.Text.CanonicalHash

/-!
Python's `str` and truth of a JSON value.

* `pyRepr`: the text `repr` gives a value;
* `pyStrJson`: the text `str` gives it: a string as it is, anything else as `repr` does;
* `truthy`: whether a condition on it holds.
-/

namespace Memorist

section

variable (U : UnicodeData)

/-- Python's `character.isprintable()`. -/
def isPrintable (c : Char) : Bool :=
  c == ' ' || U.category c ∉ ["Cc", "Cf", "Cs", "Co", "Cn", "Zl", "Zp", "Zs"]

/-- The last digits of a number in base sixteen. -/
def hexDigits : ℕ → ℕ → Text
  | 0, _ => []
  | width + 1, n => hexDigits width (n / 16) ++ [IJson.hexDigit (n % 16)]

/-- A character of a string literal in these quotes. -/
def reprChar (quote c : Char) : Text :=
  if c = quote ∨ c = '\\' then ['\\', c]
  else if c = '\n' then ['\\', 'n']
  else if c = '\r' then ['\\', 'r']
  else if c = '\t' then ['\\', 't']
  else if isPrintable U c then [c]
  else if c.toNat < 0x100 then '\\' :: 'x' :: hexDigits 2 c.toNat
  else if c.toNat < 0x10000 then '\\' :: 'u' :: hexDigits 4 c.toNat
  else '\\' :: 'U' :: hexDigits 8 c.toNat

/-- A string literal, in double quotes if it holds single ones only. -/
def reprText (text : Text) : Text :=
  let quote := if '\'' ∈ text ∧ '"' ∉ text then '"' else '\''
  quote :: (text.flatMap (reprChar U quote) ++ [quote])

mutual

/-- Python's `repr(value)`. -/
def pyRepr : IJson → Text
  | .null => "None".toList
  | .bool true => "True".toList
  | .bool false => "False".toList
  | .int i => IJson.printInt i
  | .str s => reprText U s
  | .arr items => '[' :: (pyReprItems [] items ++ [']'])
  | .obj members => '\x7b' :: (pyReprMembers [] members ++ ['\x7d'])

/-- The items of a list, each after the separator. -/
def pyReprItems (separator : Text) : List IJson → Text
  | [] => []
  | x :: xs => separator ++ (pyRepr x ++ pyReprItems [',', ' '] xs)

/-- The items of a dictionary, each after the separator. -/
def pyReprMembers (separator : Text) : List (Text × IJson) → Text
  | [] => []
  | (k, x) :: ms =>
      separator ++ (reprText U k ++ ':' :: ' ' :: (pyRepr x ++ pyReprMembers [',', ' '] ms))

end

/-- Python's `str(value)`. -/
def pyStrJson : IJson → Text
  | .str s => s
  | value => pyRepr U value

end

/-- Python's `bool(value)`. -/
def truthy : IJson → Bool
  | .null => false
  | .bool b => b
  | .int i => i ≠ 0
  | .str s => !s.isEmpty
  | .arr items => !items.isEmpty
  | .obj members => !members.isEmpty

/-- The member of a name, if the value is an object that has it. -/
def member? (key : String) : IJson → Option IJson
  | .obj members => (members.find? fun p => p.1 = key.toList).map Prod.snd
  | _ => none

end Memorist
