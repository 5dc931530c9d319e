import Memorist.Library.Checks
import Memorist.Library.Dict
import Memorist.Text.Unicode

/-!
Tables of SQLite, by their schemas.

* `SqlValue`, `Column`, `TableSchema`: values, columns with their defaults, and tables with their
  constraints;
* `insertOrIgnore`: `INSERT OR IGNORE` with foreign keys enforced: a row that breaks another
  constraint is passed over, one whose references do not hold is an error;
* `insertAll`: rows inserted one after the other; `mem_of_insertAll`: what they leave.
-/

namespace Memorist

variable {F : Type}

/-! ### Schemas -/

/-- A value of SQLite; its floating-point numbers are of a type. -/
inductive SqlValue (F : Type) where
  | null
  | integer (i : ℤ)
  | real (x : F)
  | text (s : Text)
  | blob (bytes : List UInt8)
  deriving DecidableEq

/-- A column: its name, its default, and how its affinity changes a value. -/
structure Column (F : Type) where
  name : Text
  notNull : Bool := false
  default : SqlValue F := .null
  store : SqlValue F → SqlValue F := id
  store_ne_null : ∀ v, v ≠ .null → store v ≠ .null := by exact fun _ h => h

/-- A row: its values in the order of the columns. -/
abbrev Row (F : Type) : Type := List (SqlValue F)

/-- A foreign key: what a row refers to, unless a part of it is null, and what it is compared with
in the rows of the parent table. -/
structure ForeignKey (F : Type) where
  child : Row F → Option (List (SqlValue F))
  parentTable : String
  parent : Row F → List (SqlValue F)

/-- A table: its columns and its constraints. A unique key of a row that has a null part is not
compared. -/
structure TableSchema (F : Type) where
  columns : List (Column F) := []
  check : Row F → Bool := fun _ => true
  uniqueKeys : List (Row F → Option (List (SqlValue F))) := []
  foreignKeys : List (ForeignKey F) := []
  nodup_columns : (columns.map Column.name).Nodup := by decide

/-- The tables of a schema, by their names. -/
abbrev Schema (F : Type) : Type := String → TableSchema F

/-- The rows of each table. -/
abbrev Database (F : Type) : Type := String → List (Row F)

/-- Values for some columns. -/
abbrev Fields (F : Type) : Type := Dict Text (SqlValue F)

/-! ### Insertion -/

/-- The row of an insertion: a column without a value has its default. -/
def TableSchema.newRow (table : TableSchema F) (fields : Fields F) : Row F :=
  table.columns.map fun column =>
    match fields.get? column.name with
    | some value => column.store value
    | none => column.default

/-- A database with a row more. -/
def Database.add (db : Database F) (table : String) (row : Row F) : Database F :=
  fun name => if name = table then db name ++ [row] else db name

section

variable [DecidableEq F]

/-- A row has a value where its column wants one. -/
def TableSchema.notNullHolds (table : TableSchema F) (row : Row F) : Bool :=
  (table.columns.zip row).all fun (column, value) => !column.notNull || value ≠ .null

/-- A row shares no unique key with others. -/
def TableSchema.uniqueHolds (table : TableSchema F) (rows : List (Row F)) (row : Row F) : Bool :=
  table.uniqueKeys.all fun key => key row = none || rows.all fun row' => key row' ≠ key row

/-- A row meets the constraints apart from the foreign keys. -/
def TableSchema.fits (table : TableSchema F) (rows : List (Row F)) (row : Row F) : Bool :=
  table.notNullHolds row && table.check row && table.uniqueHolds rows row

/-- What a row refers to is there. -/
def referencesHold (schema : Schema F) (db : Database F) (table : String) (row : Row F) : Bool :=
  (schema table).foreignKeys.all fun foreignKey => (foreignKey.child row).all fun key =>
    (db foreignKey.parentTable).any fun parent => foreignKey.parent parent = key

/-- Why a row is refused whose references do not hold. -/
def foreignKeyError : String := "FOREIGN KEY constraint failed"

/-- Insert a row; one that breaks a constraint other than a foreign key is passed over. -/
def insertOrIgnore (schema : Schema F) (db : Database F) (table : String) (fields : Fields F) :
    Except String (Database F) :=
  let row := (schema table).newRow fields
  if (schema table).fits (db table) row then
    if referencesHold schema (db.add table row) table row then .ok (db.add table row)
    else .error foreignKeyError
  else .ok db

/-- Insert rows, one after the other. -/
def insertAll (schema : Schema F) (db : Database F) (rows : List (String × Fields F)) :
    Except String (Database F) :=
  rows.foldlM (fun db (table, fields) => insertOrIgnore schema db table fields) db

/-! ### Rows one after the other -/

variable {schema : Schema F} {db db' : Database F}

lemma insertAll_cons {rows : List (String × Fields F)} {table : String} {fields : Fields F} :
    insertAll schema db ((table, fields) :: rows) =
      (insertOrIgnore schema db table fields >>= fun db => insertAll schema db rows) := by
  rw [insertAll, List.foldlM_cons]
  rfl

lemma insertAll_concat {rows : List (String × Fields F)} {table : String} {fields : Fields F} :
    insertAll schema db (rows ++ [(table, fields)]) =
      (insertAll schema db rows >>= fun db => insertOrIgnore schema db table fields) := by
  rw [insertAll, List.foldlM_append, insertAll]
  congr 1
  funext mid
  simp

/-- A row that is there after an insertion was there, or it is the one inserted. -/
lemma mem_of_insertOrIgnore {table name : String} {fields : Fields F} {row : Row F}
    (hinsert : insertOrIgnore schema db table fields = .ok db') (hrow : row ∈ db' name) :
    row ∈ db name ∨ name = table ∧ row = (schema table).newRow fields := by
  simp only [insertOrIgnore] at hinsert
  split_ifs at hinsert
  · obtain rfl := Except.ok.inj hinsert
    simp only [Database.add] at hrow
    split_ifs at hrow with hname
    · rcases List.mem_append.mp hrow with hold | hnew
      · exact .inl hold
      · exact .inr ⟨hname, List.mem_singleton.mp hnew⟩
    · exact .inl hrow
  · exact .inl (Except.ok.inj hinsert ▸ hrow)

/-- A row that is there after insertions was there, or it is one of those inserted. -/
lemma mem_of_insertAll {rows : List (String × Fields F)} {name : String} {row : Row F}
    (hinsert : insertAll schema db rows = .ok db') (hrow : row ∈ db' name) :
    row ∈ db name ∨ ∃ fields, (name, fields) ∈ rows ∧ row = (schema name).newRow fields := by
  induction rows using List.reverseRecOn generalizing db' with
  | nil => exact .inl (Except.ok.inj hinsert ▸ hrow)
  | append_singleton rows entry ih =>
      obtain ⟨table, fields⟩ := entry
      rw [insertAll_concat] at hinsert
      obtain ⟨mid, hmid, hlast⟩ := Checks.bind_eq_ok.mp hinsert
      rcases mem_of_insertOrIgnore hlast hrow with hold | ⟨rfl, hnew⟩
      · rcases ih hmid hold with hdb | ⟨fields', hmem, hnew⟩
        · exact .inl hdb
        · exact .inr ⟨fields', List.mem_append_left _ hmem, hnew⟩
      · exact .inr ⟨fields, List.mem_append_right _ (List.mem_singleton_self _), hnew⟩

end

end Memorist
