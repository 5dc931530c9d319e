import Memorist.Library.JsonText
import Memorist.Text.CanonicalHash

/-!
The texts of I-JSON values (`validators/ijson.py`).

* `validateJson`: the profile, for values with numbers of both kinds;
* `dumpJson`: the text of a valid value, the members of its objects in the order of their names;
* `loadIjson`: the valid value of a text;
* `loadIjson_dumpJson`: what was dumped is loaded.
-/

namespace Memorist

open Checks (require)

variable {F : Type}

section

variable (U : UnicodeData) (N : Floats F)

/-- Whether a value is a string. -/
def isJsonStr : Json F → Bool
  | .str _ => true
  | _ => false

mutual

/-- Check a value of the member `fieldName`. -/
def validateJson (path : String) (fieldName : Option Text) : Json F → Except String Unit
  | .null | .bool _ => .ok ()
  | .str value =>
      if fieldName.any isTimestampField then validateTimestamp U value path else .ok ()
  | .int value =>
      require (minSafeInteger ≤ value ∧ value ≤ maxSafeInteger)
        s!"{path} contains integer outside JavaScript safe range; encode it as a string"
  | .float value => require (N.finite value) s!"{path} contains non-finite float"
  | .arr items => validateJsonItems path 0 items
  | .obj members => validateJsonMembers path members

/-- Check the items of an array from an index on. -/
def validateJsonItems (path : String) (index : ℕ) : List (Json F) → Except String Unit
  | [] => .ok ()
  | item :: items => do
      validateJson s!"{path}[{index}]" none item
      validateJsonItems path (index + 1) items

/-- Check the members of an object. -/
def validateJsonMembers (path : String) : List (Text × Json F) → Except String Unit
  | [] => .ok ()
  | (key, item) :: members => do
      let childPath := s!"{path}.{String.ofList key}"
      require (isTimestampField key = true → isJsonStr item = true)
        s!"{childPath} must be an RFC3339 timestamp string"
      validateJson childPath (some key) item
      validateJsonMembers path members

end

mutual

/-- The value with the members of every object in the order of their names. -/
def sortKeys : Json F → Json F
  | .arr items => .arr (sortKeysItems items)
  | .obj members => .obj (KeySort.sortBy Prod.fst (sortKeysMembers members))
  | value => value

/-- The items of an array, each with its members in order. -/
def sortKeysItems : List (Json F) → List (Json F)
  | [] => []
  | item :: items => sortKeys item :: sortKeysItems items

/-- The members of an object as they come, each with its members in order. -/
def sortKeysMembers : List (Text × Json F) → List (Text × Json F)
  | [] => []
  | (key, item) :: members => (key, sortKeys item) :: sortKeysMembers members

end

/-- The text of a valid value. -/
def dumpJson (value : Json F) : Except String Text := do
  validateJson U N "$" none value
  pure ((sortKeys value).print N)

/-- The valid value of a text. -/
def loadIjson (text : Text) : Except String (Json F) :=
  match Json.read N text with
  | none => .error "Invalid JSON text"
  | some value => do
      validateJson U N "$" none value
      pure value

end

/-! ### Valid values -/

section

variable {U : UnicodeData} {N : Floats F}

mutual

/-- Where a value stands is only reported. -/
theorem validateJson_path (path other : String) (fieldName : Option Text) :
    ∀ value : Json F, validateJson U N path fieldName value = .ok () ↔
      validateJson U N other fieldName value = .ok ()
  | .null => by simp [validateJson]
  | .bool _ => by simp [validateJson]
  | .int _ => by simp [validateJson]
  | .float _ => by simp [validateJson]
  | .str value => by
      simp only [validateJson]
      split_ifs
      · simp [validateTimestamp]
      · rfl
  | .arr items => by
      simp only [validateJson]
      exact validateJsonItems_path path other 0 0 items
  | .obj members => by
      simp only [validateJson]
      exact validateJsonMembers_path path other members

theorem validateJsonItems_path (path other : String) (index place : ℕ) :
    ∀ items : List (Json F), validateJsonItems U N path index items = .ok () ↔
      validateJsonItems U N other place items = .ok ()
  | [] => by simp [validateJsonItems]
  | item :: items => by
      rw [validateJsonItems, validateJsonItems, Checks.check_bind_eq_ok, Checks.check_bind_eq_ok,
        validateJson_path _ s!"{other}[{place}]" none item,
        validateJsonItems_path path other (index + 1) (place + 1) items]

theorem validateJsonMembers_path (path other : String) :
    ∀ members : List (Text × Json F), validateJsonMembers U N path members = .ok () ↔
      validateJsonMembers U N other members = .ok ()
  | [] => by simp [validateJsonMembers]
  | (key, item) :: members => by
      simp only [validateJsonMembers, Checks.check_bind_eq_ok, Checks.require_eq_ok]
      rw [validateJson_path _ s!"{other}.{String.ofList key}" (some key) item,
        validateJsonMembers_path path other members]

end

variable (U N) in
/-- A value of the member `fieldName` is valid. -/
def ValidJson (fieldName : Option Text) (value : Json F) : Prop :=
  validateJson U N "$" fieldName value = .ok ()

instance (fieldName : Option Text) (value : Json F) : Decidable (ValidJson U N fieldName value) :=
  decidable_of_iff ((validateJson U N "$" fieldName value).isOk) (by
    unfold ValidJson
    cases validateJson U N "$" fieldName value <;> simp [Except.isOk, Except.toBool])

lemma validJson_arr {fieldName : Option Text} {items : List (Json F)} :
    ValidJson U N fieldName (.arr items) ↔ ∀ item ∈ items, ValidJson U N none item := by
  rw [ValidJson, validateJson]
  generalize (0 : ℕ) = index
  induction items generalizing index with
  | nil => simp [validateJsonItems]
  | cons item items ih =>
      rw [validateJsonItems, Checks.check_bind_eq_ok, ih, List.forall_mem_cons, ValidJson,
        validateJson_path _ "$"]

lemma validJson_obj {fieldName : Option Text} {members : List (Text × Json F)} :
    ValidJson U N fieldName (.obj members) ↔
      ∀ m ∈ members, (isTimestampField m.1 = true → isJsonStr m.2 = true) ∧
        ValidJson U N (some m.1) m.2 := by
  rw [ValidJson, validateJson]
  induction members with
  | nil => simp [validateJsonMembers]
  | cons m members ih =>
      rw [validateJsonMembers, Checks.check_bind_eq_ok, Checks.check_bind_eq_ok, ih,
        List.forall_mem_cons, ValidJson, validateJson_path _ "$", Checks.require_eq_ok,
        and_assoc]

/-! ### Loading what was dumped -/

lemma sortKeysItems_eq_map (items : List (Json F)) : sortKeysItems items = items.map sortKeys := by
  induction items with
  | nil => rfl
  | cons item items ih => rw [sortKeysItems, ih, List.map_cons]

lemma sortKeysMembers_eq_map (members : List (Text × Json F)) :
    sortKeysMembers members = members.map fun m => (m.1, sortKeys m.2) := by
  induction members with
  | nil => rfl
  | cons m members ih => rw [sortKeysMembers, ih, List.map_cons]

lemma sortKeys_obj (members : List (Text × Json F)) : sortKeys (.obj members) =
    .obj (KeySort.sortBy Prod.fst (members.map fun m => (m.1, sortKeys m.2))) := by
  rw [sortKeys, sortKeysMembers_eq_map]

lemma sortKeys_arr (items : List (Json F)) :
    sortKeys (.arr items) = .arr (items.map sortKeys) := by
  rw [sortKeys, sortKeysItems_eq_map]

lemma isJsonStr_sortKeys (value : Json F) : isJsonStr (sortKeys value) = isJsonStr value := by
  cases value <;> rfl

/-- The members of an object stay distinct when they are put in order. -/
lemma wellFormed_sortKeys {value : Json F} (hvalue : Json.WellFormed N value) :
    Json.WellFormed N (sortKeys value) := by
  induction hvalue with
  | null => exact .null
  | bool b => exact .bool b
  | int i => exact .int i
  | float h => exact .float h
  | str s => exact .str s
  | arr h ih =>
      rw [sortKeys_arr]
      refine .arr fun item hitem => ?_
      obtain ⟨value, hmem, rfl⟩ := List.mem_map.mp hitem
      exact ih value hmem
  | @obj members hnames h ih =>
      rw [sortKeys_obj]
      refine .obj ?_ fun m hm => ?_
      · have hperm := (KeySort.sortBy_perm Prod.fst
          (members.map fun m => (m.1, sortKeys m.2))).map Prod.fst
        rw [List.map_map] at hperm
        exact decide_eq_true (hperm.nodup_iff.mpr (of_decide_eq_true hnames))
      · obtain ⟨m', hm', rfl⟩ := List.mem_map.mp (KeySort.mem_sortBy.mp hm)
        exact ih m' hm'

/-- A value stays valid when its members are put in order. -/
lemma validJson_sortKeys {value : Json F} (hvalue : Json.WellFormed N value) :
    ∀ {fieldName : Option Text}, ValidJson U N fieldName value →
      ValidJson U N fieldName (sortKeys value) := by
  induction hvalue with
  | arr h ih =>
      intro fieldName hvalid
      rw [sortKeys_arr, validJson_arr]
      intro item hitem
      obtain ⟨value, hmem, rfl⟩ := List.mem_map.mp hitem
      exact ih value hmem (validJson_arr.mp hvalid value hmem)
  | obj hnames h ih =>
      intro fieldName hvalid
      rw [sortKeys_obj, validJson_obj]
      intro m hm
      obtain ⟨m', hm', rfl⟩ := List.mem_map.mp (KeySort.mem_sortBy.mp hm)
      obtain ⟨hstr, hmember⟩ := validJson_obj.mp hvalid m' hm'
      exact ⟨fun hkey => (isJsonStr_sortKeys m'.2).trans (hstr hkey), ih m' hm' hmember⟩
  | _ => exact fun hvalid => hvalid

lemma dumpJson_eq_ok {value : Json F} {text : Text} : dumpJson U N value = .ok text ↔
    ValidJson U N none value ∧ (sortKeys value).print N = text := by
  rw [dumpJson, Checks.check_bind_eq_ok, Checks.pure_eq_ok, ValidJson]

/-- What was dumped is loaded. -/
theorem loadIjson_dumpJson {value : Json F} {text : Text} (hwell : Json.WellFormed N value)
    (hdump : dumpJson U N value = .ok text) : loadIjson U N text = .ok (sortKeys value) := by
  obtain ⟨hvalid, rfl⟩ := dumpJson_eq_ok.mp hdump
  have hsorted : validateJson U N "$" none (sortKeys value) = .ok () :=
    validJson_sortKeys hwell hvalid
  rw [loadIjson, Json.read_print (wellFormed_sortKeys hwell)]
  dsimp only
  rw [hsorted]
  rfl

end

end Memorist
