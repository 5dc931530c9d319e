import Memorist.Library.Checks
import Memorist.Library.Json
import Memorist.Library.Regex
import Memorist.Text.Envelope

/-!
The I-JSON profile and its canonical hash (`validators/ijson.py`).

* `validateValue`: integers stay in the range every reader can represent, and the
  members named like timestamps hold timestamps;
* `canonicalHashIjson`: the digest of the canonical text of a valid value;
* `validValue_arr`, `validValue_obj`: a value is valid when its parts are, wherever they
  stand;
* `canonicalHashIjson_inj`: where the digest tells texts apart, values of one hash
  agree up to the order of members.
-/

namespace Memorist

open Checks (require)
open Regex (Pattern)

/-- The largest integer every JSON reader represents. -/
def maxSafeInteger : ℤ := 9007199254740991

/-- The smallest integer every JSON reader represents. -/
def minSafeInteger : ℤ := -maxSafeInteger

/-- The endings of a timestamp's name. -/
def timestampSuffixes : List String := ["_at", "_from", "_until"]

/-- Whether a member is named like a timestamp. -/
def isTimestampField (fieldName : Text) : Bool :=
  timestampSuffixes.any fun suffix => suffix.toList.isSuffixOf fieldName

section

variable (U : UnicodeData)

/-- `\d{n}`. -/
def digits : ℕ → Pattern
  | 0 => .atMost 0 U.isdecimal
  | n + 1 => .seq (.cls U.isdecimal) (digits n)

/-- A pattern after one character. -/
def afterChar (c : Char) (r : Pattern) : Pattern := .seq (.cls (· == c)) r

/-- `\d{4}-\d{2}-\d{2}T\d{2}:\d{2}:\d{2}(?:\.\d+)?`. -/
def rfc3339DateTime : Pattern :=
  .seq (digits U 4) <| afterChar '-' <| .seq (digits U 2) <| afterChar '-' <|
  .seq (digits U 2) <| afterChar 'T' <| .seq (digits U 2) <| afterChar ':' <|
  .seq (digits U 2) <| afterChar ':' <| .seq (digits U 2) <|
  .opt (afterChar '.' (.atLeast 1 U.isdecimal))

/-- `[+-]\d{2}:\d{2}`. -/
def rfc3339Offset : Pattern :=
  .seq (.cls fun c => c == '+' || c == '-') <| .seq (digits U 2) <| afterChar ':' <| digits U 2

/-- Whether a pattern matches the whole text. -/
def fullMatch (r : Pattern) (text : Text) : Bool := (r.ends (none, text)).any fun q => q.2.isEmpty

/-- The number written in ASCII digits, as the date parser reads it. -/
def asciiNumber (text : Text) : Option ℕ :=
  if text.all Char.isDigit then some (Nat.ofDigitChars 10 text 0) else none

/-- The days of a month. -/
def daysInMonth (year month : ℕ) : ℕ :=
  if month = 2 then
    if year % 4 = 0 ∧ (year % 100 ≠ 0 ∨ year % 400 = 0) then 29 else 28
  else if month = 4 ∨ month = 6 ∨ month = 9 ∨ month = 11 then 30 else 31

/-- Whether the date parser accepts a text of the timestamp pattern, its `Z` read as a zero
offset: its digits are ASCII, its date and time exist and its offset is under a day. -/
def isIsoDateTime (value : Text) : Bool :=
  let tail := value.drop 19
  let fraction := (tail.drop 1).takeWhile fun c => c != 'Z' && c != '+' && c != '-'
  let offset := (tail.dropWhile fun c => c != 'Z' && c != '+' && c != '-').drop 1
  match asciiNumber (slice value 0 4), asciiNumber (slice value 5 7), asciiNumber (slice value 8 10),
    asciiNumber (slice value 11 13), asciiNumber (slice value 14 16),
    asciiNumber (slice value 17 19), asciiNumber (slice offset 0 2),
    asciiNumber (slice offset 3 5) with
  | some year, some month, some day, some hour, some minute, some second, some hours,
      some minutes =>
      1 ≤ year && 1 ≤ month && month ≤ 12 && 1 ≤ day && day ≤ daysInMonth year month &&
        hour ≤ 23 && minute ≤ 59 && second ≤ 59 &&
        (tail.head? != some '.' || fraction.all Char.isDigit) && hours * 60 + minutes < 1440
  | _, _, _, _, _, _, _, _ => false

/-- Check a timestamp. -/
def validateTimestamp (value : Text) (path : String) : Except String Unit := do
  require (fullMatch (.seq (rfc3339DateTime U) (.cls (· == 'Z'))) value = true ∨
      fullMatch (.seq (rfc3339DateTime U) (rfc3339Offset U)) value = true)
    s!"{path} must be an RFC3339 timestamp string"
  require (isIsoDateTime value = true) s!"{path} must be a valid RFC3339 timestamp"

/-- Whether a value is a string. -/
def isStr : IJson → Bool
  | .str _ => true
  | _ => false

mutual

/-- Check a value of the member `fieldName`. Every text is free of unpaired surrogates here, since
no character is one. -/
def validateValue (path : String) (fieldName : Option Text) : IJson → Except String Unit
  | .null | .bool _ => .ok ()
  | .str value =>
      if fieldName.any isTimestampField then validateTimestamp U value path else .ok ()
  | .int value =>
      require (minSafeInteger ≤ value ∧ value ≤ maxSafeInteger)
        s!"{path} contains integer outside JavaScript safe range; encode it as a string"
  | .arr items => validateItems path 0 items
  | .obj members => validateMembers path members

/-- Check the items of an array from an index on. -/
def validateItems (path : String) (index : ℕ) : List IJson → Except String Unit
  | [] => .ok ()
  | item :: items => do
      validateValue s!"{path}[{index}]" none item
      validateItems path (index + 1) items

/-- Check the members of an object. -/
def validateMembers (path : String) : List (Text × IJson) → Except String Unit
  | [] => .ok ()
  | (key, item) :: members => do
      let childPath := s!"{path}.{String.ofList key}"
      require (isTimestampField key = true → isStr item = true)
        s!"{childPath} must be an RFC3339 timestamp string"
      validateValue childPath (some key) item
      validateMembers path members

end

end

/-- The canonical text of a valid value. -/
def dumpIjson (U : UnicodeData) (value : IJson) : Except String Text := do
  validateValue U "$" none value
  pure value.dump

/-- The digest of the canonical text of a valid value. -/
def canonicalHashIjson (P : Platform) (value : IJson) : Except String String := do
  let canonicalText ← dumpIjson P.unicode value
  pure (P.sha256 canonicalText)

/-! ### Valid values -/

section

variable {U : UnicodeData}

mutual

/-- Where a value stands is only reported. -/
theorem validateValue_path (path other : String) (fieldName : Option Text) :
    ∀ value : IJson, validateValue U path fieldName value = .ok () ↔
      validateValue U other fieldName value = .ok ()
  | .null => by simp [validateValue]
  | .bool _ => by simp [validateValue]
  | .int _ => by simp [validateValue]
  | .str value => by
      simp only [validateValue]
      split_ifs
      · simp [validateTimestamp]
      · rfl
  | .arr items => by
      simp only [validateValue]
      exact validateItems_path path other 0 0 items
  | .obj members => by
      simp only [validateValue]
      exact validateMembers_path path other members

theorem validateItems_path (path other : String) (index place : ℕ) :
    ∀ items : List IJson, validateItems U path index items = .ok () ↔
      validateItems U other place items = .ok ()
  | [] => by simp [validateItems]
  | item :: items => by
      rw [validateItems, validateItems, Checks.check_bind_eq_ok, Checks.check_bind_eq_ok,
        validateValue_path _ s!"{other}[{place}]" none item,
        validateItems_path path other (index + 1) (place + 1) items]

theorem validateMembers_path (path other : String) :
    ∀ members : List (Text × IJson), validateMembers U path members = .ok () ↔
      validateMembers U other members = .ok ()
  | [] => by simp [validateMembers]
  | (key, item) :: members => by
      simp only [validateMembers, Checks.check_bind_eq_ok, Checks.require_eq_ok]
      rw [validateValue_path _ s!"{other}.{String.ofList key}" (some key) item,
        validateMembers_path path other members]

end

variable (U) in
/-- A value of the member `fieldName` is valid. -/
def ValidValue (fieldName : Option Text) (value : IJson) : Prop :=
  validateValue U "$" fieldName value = .ok ()

lemma validValue_arr {fieldName : Option Text} {items : List IJson} :
    ValidValue U fieldName (.arr items) ↔ ∀ item ∈ items, ValidValue U none item := by
  rw [ValidValue, validateValue]
  generalize (0 : ℕ) = index
  induction items generalizing index with
  | nil => simp [validateItems]
  | cons item items ih =>
      rw [validateItems, Checks.check_bind_eq_ok, ih, List.forall_mem_cons, ValidValue,
        validateValue_path _ "$"]

lemma validValue_obj {fieldName : Option Text} {members : List (Text × IJson)} :
    ValidValue U fieldName (.obj members) ↔
      ∀ m ∈ members, (isTimestampField m.1 = true → isStr m.2 = true) ∧
        ValidValue U (some m.1) m.2 := by
  rw [ValidValue, validateValue]
  induction members with
  | nil => simp [validateMembers]
  | cons m members ih =>
      rw [validateMembers, Checks.check_bind_eq_ok, Checks.check_bind_eq_ok, ih,
        List.forall_mem_cons, ValidValue, validateValue_path _ "$", Checks.require_eq_ok,
        and_assoc]

/-- The canonical text of a valid value. -/
lemma dumpIjson_of_valid {value : IJson} (h : ValidValue U none value) :
    dumpIjson U value = .ok value.dump := by
  simp only [dumpIjson, Checks.bind_eq_ok]
  exact ⟨(), h, rfl⟩

/-- A name that is not a timestamp's makes no demand. -/
lemma validValue_plain {key : Text} (hkey : isTimestampField key = false) {value : IJson} :
    ValidValue U (some key) value ↔ ValidValue U none value := by
  cases value <;> simp [ValidValue, validateValue, hkey]

/-- An object none of whose members is named like a timestamp is valid when they are. -/
lemma validValue_fields (keys : List String)
    (hkeys : (keys.all fun key => !isTimestampField key.toList) = true)
    {members : List (Text × IJson)} (hmembers : members.map Prod.fst = keys.map String.toList)
    {fieldName : Option Text} :
    ValidValue U fieldName (.obj members) ↔ ∀ m ∈ members, ValidValue U none m.2 := by
  rw [validValue_obj]
  refine forall₂_congr fun m hm => ?_
  have hplain : isTimestampField m.1 = false := by
    obtain ⟨key, hkey, hm⟩ := List.mem_map.mp (hmembers ▸ List.mem_map_of_mem hm)
    rw [← hm]
    simpa using List.all_eq_true.mp hkeys key hkey
  rw [validValue_plain hplain]
  simp [hplain]

end

/-- A value has a hash exactly when it is valid. -/
lemma canonicalHashIjson_eq_ok {P : Platform} {value : IJson} {hash : String} :
    canonicalHashIjson P value = .ok hash ↔
      ValidValue P.unicode none value ∧ P.sha256 value.dump = hash := by
  simp only [canonicalHashIjson, dumpIjson, Checks.bind_eq_ok, Checks.pure_eq_ok, ValidValue]
  constructor
  · rintro ⟨_, ⟨_, hvalid, rfl⟩, rfl⟩
    exact ⟨hvalid, rfl⟩
  · rintro ⟨hvalid, rfl⟩
    exact ⟨_, ⟨(), hvalid, rfl⟩, rfl⟩

/-- Values of one hash agree up to the order of members. -/
theorem canonicalHashIjson_inj {P : Platform} (hP : Function.Injective P.sha256) {a b : IJson}
    {hash : String} (ha : canonicalHashIjson P a = .ok hash)
    (hb : canonicalHashIjson P b = .ok hash) : a.canon = b.canon := by
  have h := (canonicalHashIjson_eq_ok.mp ha).2.trans (canonicalHashIjson_eq_ok.mp hb).2.symm
  exact IJson.dump_inj.mp (hP h)

/-! ### Building values -/

/-- A named member. -/
def field (key : String) (value : IJson) : Text × IJson := (key.toList, value)

/-- The JSON string of an identifier. -/
def jsonString (s : String) : IJson := .str s.toList

/-- An optional identifier, `null` when absent. -/
def jsonOption : Option String → IJson
  | none => .null
  | some s => jsonString s

/-- An offset. -/
def jsonNat (n : ℕ) : IJson := .int n

@[simp] lemma canon_jsonString (s : String) : (jsonString s).canon = jsonString s := rfl

@[simp] lemma canon_jsonNat (n : ℕ) : (jsonNat n).canon = jsonNat n := rfl

@[simp] lemma canon_jsonOption (s : Option String) : (jsonOption s).canon = jsonOption s := by
  cases s <;> rfl

section

variable {U : UnicodeData}

@[simp] lemma validValue_jsonString (s : String) : ValidValue U none (jsonString s) := by
  simp [ValidValue, validateValue, jsonString]

@[simp] lemma validValue_str (s : Text) : ValidValue U none (.str s) := by
  simp [ValidValue, validateValue]

@[simp] lemma validValue_jsonNat {n : ℕ} :
    ValidValue U none (jsonNat n) ↔ (n : ℤ) ≤ maxSafeInteger := by
  rw [ValidValue, jsonNat, validateValue, Checks.require_eq_ok, minSafeInteger, maxSafeInteger]
  omega

@[simp] lemma validValue_jsonOption (s : Option String) : ValidValue U none (jsonOption s) := by
  cases s
  · simp [ValidValue, validateValue, jsonOption]
  · exact validValue_jsonString _

end

@[simp] lemma jsonString_inj {s t : String} : jsonString s = jsonString t ↔ s = t := by
  simp [jsonString, String.toList_inj]

@[simp] lemma jsonNat_inj {m n : ℕ} : jsonNat m = jsonNat n ↔ m = n := by
  simp [jsonNat]

@[simp] lemma jsonOption_inj {s t : Option String} : jsonOption s = jsonOption t ↔ s = t := by
  cases s <;> cases t <;> simp [jsonOption, jsonString, String.toList_inj]

/-- Objects of the same distinct names agree up to the order of members exactly when their members
do one by one. -/
lemma canon_fields_inj (keys : List String) (hkeys : keys.Nodup) {ms ns : List (Text × IJson)}
    (hms : ms.map Prod.fst = keys.map String.toList)
    (hns : ns.map Prod.fst = keys.map String.toList) :
    (IJson.obj ms).canon = (IJson.obj ns).canon ↔
      (ms.map fun m => m.2.canon) = ns.map fun m => m.2.canon := by
  refine IJson.canon_obj_inj (hms.trans hns.symm) ?_
  rw [hms]
  exact hkeys.map fun _ _ h => String.toList_inj.mp h

end Memorist
