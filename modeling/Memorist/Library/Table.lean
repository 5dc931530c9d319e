import Mathlib.Tactic

/-!
Tables: rows with distinct keys.

* `Table`: the rows in the order of insertion, no two of one key;
* `get?`, `insert`, `updateWhere`, `deleteWhere`, `countWhere`: the row of a key and the
  statements on it;
* `get?_updateWhere`, `get?_insert`: what a statement does to the row of a key;
* `insertUnique`, `insertUnique_eq_ok`: an insert under further unique indexes.
-/

/-- Rows, no two of one key. -/
structure Table (ρ κ : Type) (key : ρ → κ) where
  rows : List ρ
  nodup : (rows.map key).Nodup

namespace Table

variable {ρ κ : Type} {key : ρ → κ}

/-- The table without rows. -/
def empty : Table ρ κ key := ⟨[], List.nodup_nil⟩

/-- Change the rows that meet a condition. -/
def updateWhere (t : Table ρ κ key) (p : ρ → Bool) (f : ρ → ρ) (hf : ∀ r, key (f r) = key r) :
    Table ρ κ key where
  rows := t.rows.map fun r => if p r then f r else r
  nodup := by
    have hkeys : (t.rows.map fun r => if p r then f r else r).map key = t.rows.map key := by
      rw [List.map_map]
      refine List.map_congr_left fun r _ => ?_
      rw [Function.comp_apply]
      split_ifs
      · exact hf r
      · rfl
    rw [hkeys]
    exact t.nodup

/-- Remove the rows that meet a condition. -/
def deleteWhere (t : Table ρ κ key) (p : ρ → Bool) : Table ρ κ key where
  rows := t.rows.filter fun r => !p r
  nodup := t.nodup.sublist (List.filter_sublist.map key)

/-- The number of rows that meet a condition. -/
def countWhere (t : Table ρ κ key) (p : ρ → Bool) : ℕ := t.rows.countP p

variable [DecidableEq κ]

/-- The row of a key. -/
def get? (t : Table ρ κ key) (k : κ) : Option ρ := t.rows.find? fun r => key r = k

/-- Add a row, unless its key has one. -/
def insert (t : Table ρ κ key) (r : ρ) : Table ρ κ key :=
  if h : key r ∈ t.rows.map key then t
  else ⟨t.rows ++ [r], by
    rw [List.map_append, List.map_singleton, List.nodup_append]
    refine ⟨t.nodup, List.nodup_singleton _, ?_⟩
    rintro k hk k' hk' rfl
    exact h (List.mem_singleton.mp hk' ▸ hk)⟩

/-- The table of rows; a row whose key came before is passed over. -/
def ofRows (rows : List ρ) : Table ρ κ key := rows.foldl insert empty

variable {t : Table ρ κ key} {k : κ} {r : ρ}

@[simp] lemma get?_empty : (empty : Table ρ κ key).get? k = none := rfl

/-- A row of the table is the row of its key. -/
lemma get?_of_mem (h : r ∈ t.rows) : t.get? (key r) = some r := by
  obtain ⟨rows, hnodup⟩ := t
  simp only [get?] at h ⊢
  induction rows with
  | nil => exact absurd h (by simp)
  | cons r' rows ih =>
      rw [List.map_cons, List.nodup_cons] at hnodup
      rw [List.find?_cons]
      rcases List.mem_cons.mp h with rfl | hmem
      · simp
      · have hne : key r' ≠ key r := fun he => hnodup.1 (he ▸ List.mem_map_of_mem hmem)
        rw [decide_eq_false hne]
        exact ih hnodup.2 hmem

lemma get?_eq_some : t.get? k = some r ↔ r ∈ t.rows ∧ key r = k := by
  refine ⟨fun h => ⟨List.mem_of_find?_eq_some h, by simpa using List.find?_some h⟩, ?_⟩
  rintro ⟨hmem, rfl⟩
  exact get?_of_mem hmem

lemma key_of_get? (h : t.get? k = some r) : key r = k := (get?_eq_some.mp h).2

lemma get?_eq_none : t.get? k = none ↔ k ∉ t.rows.map key := by
  rw [get?, List.find?_eq_none]
  simp

omit [DecidableEq κ] in
lemma rows_updateWhere {p : ρ → Bool} {f : ρ → ρ} {hf : ∀ r, key (f r) = key r} :
    (t.updateWhere p f hf).rows = t.rows.map fun r => if p r then f r else r := rfl

omit [DecidableEq κ] in
/-- A row of a changed table was a row of its key before, as it is or changed. -/
lemma exists_of_mem_updateWhere {p : ρ → Bool} {f : ρ → ρ} (hf : ∀ r, key (f r) = key r)
    (h : r ∈ (t.updateWhere p f hf).rows) :
    ∃ row ∈ t.rows, key row = key r ∧ (r = row ∨ r = f row) := by
  rw [rows_updateWhere] at h
  obtain ⟨row, hrow, rfl⟩ := List.mem_map.mp h
  refine ⟨row, hrow, ?_⟩
  split_ifs
  · exact ⟨(hf row).symm, .inr rfl⟩
  · exact ⟨rfl, .inl rfl⟩

omit [DecidableEq κ] in
/-- A change leaves every key its row. -/
lemma exists_mem_updateWhere {p : ρ → Bool} {f : ρ → ρ} (hf : ∀ r, key (f r) = key r)
    (h : r ∈ t.rows) : ∃ row ∈ (t.updateWhere p f hf).rows, key row = key r := by
  refine ⟨_, List.mem_map_of_mem h, ?_⟩
  split_ifs
  · exact hf r
  · rfl

/-- A row whose key has none is added at the end. -/
lemma rows_insert (h : t.get? (key r) = none) : (t.insert r).rows = t.rows ++ [r] := by
  rw [insert, dif_neg (get?_eq_none.mp h)]

omit [DecidableEq κ] in
/-- Rows of one key are one row. -/
lemma eq_of_key_eq {r' : ρ} (hr : r ∈ t.rows) (hr' : r' ∈ t.rows) (heq : key r = key r') :
    r = r' := List.inj_on_of_nodup_map t.nodup hr hr' heq

/-- The rows of a key that meet a condition are its row, if it does. -/
lemma filter_key (t : Table ρ κ key) (k : κ) (p : ρ → Bool) :
    (t.rows.filter fun r => key r = k ∧ p r) = ((t.get? k).filter p).toList := by
  obtain ⟨rows, hnodup⟩ := t
  simp only [get?]
  induction rows with
  | nil => rfl
  | cons r rows ih =>
      rw [List.map_cons, List.nodup_cons] at hnodup
      rw [List.filter_cons, List.find?_cons]
      by_cases hkey : key r = k
      · -- no later row has the key
        have hrest : (rows.filter fun r => key r = k ∧ p r) = [] := by
          refine List.filter_eq_nil_iff.mpr fun r' hr' hpr' => hnodup.1 ?_
          rw [hkey, ← (of_decide_eq_true hpr').1]
          exact List.mem_map_of_mem hr'
        rw [hrest, decide_eq_true hkey]
        by_cases hpr : p r <;> simp [hkey, hpr, Option.filter_some]
      · rw [decide_eq_false hkey, ih hnodup.2]
        simp [hkey]

/-- The row of a key changes if it meets the condition. -/
@[simp] lemma get?_updateWhere {p : ρ → Bool} {f : ρ → ρ} {hf : ∀ r, key (f r) = key r} :
    (t.updateWhere p f hf).get? k = (t.get? k).map fun r => if p r then f r else r := by
  rw [get?, updateWhere, List.find?_map, get?]
  congr 2
  funext r
  rw [Function.comp_apply]
  split_ifs
  · rw [hf]
  · rfl

/-- A row that is there stays. -/
lemma get?_insert_of_some (h : t.get? k = some r) (r' : ρ) : (t.insert r').get? k = some r := by
  rw [insert]
  split_ifs
  · exact h
  · rw [get?, List.find?_append, ← get?, h, Option.some_or]

/-- A row is added under a key that has none. -/
lemma get?_insert_self (h : t.get? (key r) = none) : (t.insert r).get? (key r) = some r := by
  rw [insert, dif_neg (get?_eq_none.mp h), get?, List.find?_append, ← get?, h, Option.none_or]
  simp

lemma get?_insert (r : ρ) (k : κ) :
    (t.insert r).get? k = t.get? k ∨
      t.get? k = none ∧ key r = k ∧ (t.insert r).get? k = some r := by
  rcases hrow : t.get? k with _ | r'
  · by_cases hkey : key r = k
    · subst hkey
      exact .inr ⟨rfl, rfl, get?_insert_self hrow⟩
    · refine .inl ?_
      rw [insert]
      split_ifs
      · exact hrow
      · rw [get?, List.find?_append, ← get?, hrow, Option.none_or]
        simp [hkey]
  · exact .inl (get?_insert_of_some hrow r)

end Table

/-! ### Unique indexes -/

namespace Table

variable {ρ κ ε : Type} {key : ρ → κ} [DecidableEq κ]

/-- SQL's `INSERT` under a primary key and further unique indexes, each with its error: an index
says whether a row of the table holds what it makes unique. -/
def insertUnique (t : Table ρ κ key) (duplicate : ε) (indexes : List ((ρ → ρ → Bool) × ε))
    (r : ρ) : Except ε (Table ρ κ key) :=
  if (t.get? (key r)).isSome then .error duplicate
  else match indexes.find? fun index => t.rows.any (index.1 r) with
    | some index => .error index.2
    | none => .ok (t.insert r)

variable {t t' : Table ρ κ key} {duplicate : ε} {indexes : List ((ρ → ρ → Bool) × ε)} {r : ρ}

/-- A row is inserted exactly when no row has its key and no index holds it. -/
theorem insertUnique_eq_ok : t.insertUnique duplicate indexes r = .ok t' ↔
    t.get? (key r) = none ∧ (∀ index ∈ indexes, ∀ row ∈ t.rows, index.1 r row = false) ∧
      t' = t.insert r := by
  have hfree : (indexes.find? fun index => t.rows.any (index.1 r)) = none ↔
      ∀ index ∈ indexes, ∀ row ∈ t.rows, index.1 r row = false := by
    simp [List.find?_eq_none]
  unfold insertUnique
  rw [← hfree]
  split_ifs with hrow
  · constructor
    · intro h
      exact absurd h (by simp)
    · rintro ⟨hnone, -⟩
      rw [hnone] at hrow
      exact absurd hrow (by simp)
  · have hnone : t.get? (key r) = none := by simpa using hrow
    cases indexes.find? fun index => t.rows.any (index.1 r) with
    | some index => simp
    | none => simp [hnone, eq_comm]

/-- The rows after an insert. -/
lemma rows_insertUnique (h : t.insertUnique duplicate indexes r = .ok t') :
    t'.rows = t.rows ++ [r] := by
  obtain ⟨hnone, -, rfl⟩ := insertUnique_eq_ok.mp h
  exact rows_insert hnone

end Table
