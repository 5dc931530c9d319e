import Mathlib
import Memorist.Library.Checks
import Memorist.Library.Table

/-!
Rows inserted one after the other.

* `Constraints`, `insertUnder`: an insert under checks, a primary key and unique indexes;
* `insertAllUnder`, `exists_insertAllUnder_iff`: when rows are all inserted;
* `insertOrKeep`, `insertAllOrKeep`: inserts that a row of the same key makes idle.
-/

namespace Table

variable {ρ κ ε : Type} {key : ρ → κ}

/-- What an insert has to meet, with the errors: what the row itself is refused for, its key, and
the unique indexes, each of which says whether a row of the table holds what it makes unique. -/
structure Constraints (ρ ε : Type) where
  refused : ρ → Option ε := fun _ => none
  duplicate : ε
  indexes : List ((ρ → ρ → Bool) × ε) := []

variable [DecidableEq κ]

/-- An insert. -/
def insertUnder (t : Table ρ κ key) (c : Constraints ρ ε) (r : ρ) : Except ε (Table ρ κ key) :=
  match c.refused r with
  | some error => .error error
  | none => t.insertUnique c.duplicate c.indexes r

/-- Inserts, one after the other. -/
def insertAllUnder (t : Table ρ κ key) (c : Constraints ρ ε) (rows : List ρ) :
    Except ε (Table ρ κ key) :=
  rows.foldlM (fun t r => t.insertUnder c r) t

/-- An insert with `ON CONFLICT DO NOTHING` for its key. -/
def insertOrKeep (t : Table ρ κ key) (c : Constraints ρ ε) (r : ρ) : Except ε (Table ρ κ key) :=
  if (t.get? (key r)).isSome then .ok t else t.insertUnder c r

/-- Inserts with `ON CONFLICT DO NOTHING` for their keys, one after the other. -/
def insertAllOrKeep (t : Table ρ κ key) (c : Constraints ρ ε) (rows : List ρ) :
    Except ε (Table ρ κ key) :=
  rows.foldlM (fun t r => t.insertOrKeep c r) t

variable {t t' : Table ρ κ key} {c : Constraints ρ ε} {r : ρ} {rows : List ρ}

/-- A row fits rows that are there. -/
def Constraints.Fits (key : ρ → κ) (c : Constraints ρ ε) (rows : List ρ) (r : ρ) : Prop :=
  ∀ row ∈ rows, key row ≠ key r ∧ ∀ index ∈ c.indexes, index.1 r row = false

omit [DecidableEq κ] in
lemma Constraints.fits_append {more : List ρ} :
    c.Fits key (rows ++ more) r ↔ c.Fits key rows r ∧ c.Fits key more r := List.forall_mem_append

lemma insertUnder_eq_ok : t.insertUnder c r = .ok t' ↔
    c.refused r = none ∧ c.Fits key t.rows r ∧ t' = t.insert r := by
  have hfits : c.Fits key t.rows r ↔ t.get? (key r) = none ∧
      ∀ index ∈ c.indexes, ∀ row ∈ t.rows, index.1 r row = false := by
    rw [get?_eq_none]
    constructor
    · intro h
      refine ⟨fun hmem => ?_, fun index hindex row hrow => (h row hrow).2 index hindex⟩
      obtain ⟨row, hrow, hkey⟩ := List.mem_map.mp hmem
      exact (h row hrow).1 hkey
    · rintro ⟨hkey, hindexes⟩ row hrow
      exact ⟨fun heq => hkey (heq ▸ List.mem_map_of_mem hrow),
        fun index hindex => hindexes index hindex row hrow⟩
  rw [insertUnder, hfits]
  cases hrefused : c.refused r with
  | some error => exact iff_of_false (fun h => by cases h) fun h => by cases h.1
  | none =>
      rw [insertUnique_eq_ok, and_assoc]
      exact (and_iff_right rfl).symm

lemma rows_insertUnder (h : t.insertUnder c r = .ok t') : t'.rows = t.rows ++ [r] := by
  obtain ⟨-, hfits, rfl⟩ := insertUnder_eq_ok.mp h
  refine rows_insert (get?_eq_none.mpr fun hmem => ?_)
  obtain ⟨row, hrow, hkey⟩ := List.mem_map.mp hmem
  exact (hfits row hrow).1 hkey

/-- The rows after inserts. -/
lemma rows_insertAllUnder (h : t.insertAllUnder c rows = .ok t') : t'.rows = t.rows ++ rows := by
  induction rows generalizing t with
  | nil =>
      obtain rfl := Except.ok.inj h
      exact (List.append_nil _).symm
  | cons r rows ih =>
      rw [insertAllUnder, List.foldlM_cons, Checks.bind_eq_ok] at h
      obtain ⟨t₁, hfirst, hrest⟩ := h
      rw [ih hrest, rows_insertUnder hfirst, List.append_assoc, List.singleton_append]

/-- Rows are all inserted when none is refused, and each fits the rows of the table and those before
it. -/
theorem exists_insertAllUnder_iff : (∃ t', t.insertAllUnder c rows = .ok t') ↔
    (∀ r ∈ rows, c.refused r = none ∧ c.Fits key t.rows r) ∧
      rows.Pairwise fun r later => c.Fits key [r] later := by
  induction rows generalizing t with
  | nil => exact iff_of_true ⟨t, rfl⟩ ⟨fun r hr => absurd hr List.not_mem_nil, .nil⟩
  | cons r rows ih =>
      have hsplit : (∃ t', t.insertAllUnder c (r :: rows) = .ok t') ↔
          ∃ t₁, t.insertUnder c r = .ok t₁ ∧ ∃ t', t₁.insertAllUnder c rows = .ok t' := by
        simp only [insertAllUnder, List.foldlM_cons, Checks.bind_eq_ok]
        constructor
        · rintro ⟨t', t₁, h₁, h⟩
          exact ⟨t₁, h₁, t', h⟩
        · rintro ⟨t₁, h₁, t', h⟩
          exact ⟨t', t₁, h₁, h⟩
      rw [hsplit, List.forall_mem_cons, List.pairwise_cons]
      constructor
      · rintro ⟨t₁, hfirst, hrest⟩
        obtain ⟨hall, hpairs⟩ := ih.mp hrest
        obtain ⟨hrefused, hfits, -⟩ := insertUnder_eq_ok.mp hfirst
        rw [rows_insertUnder hfirst] at hall
        refine ⟨⟨⟨hrefused, hfits⟩, fun later hlater => ?_⟩, fun later hlater => ?_, hpairs⟩
        · exact ⟨(hall later hlater).1, (Constraints.fits_append.mp (hall later hlater).2).1⟩
        · exact (Constraints.fits_append.mp (hall later hlater).2).2
      · rintro ⟨⟨⟨hrefused, hfits⟩, hall⟩, hhead, hpairs⟩
        have hfirst := insertUnder_eq_ok.mpr ⟨hrefused, hfits, rfl⟩
        refine ⟨_, hfirst, ih.mpr ⟨fun later hlater => ⟨(hall later hlater).1, ?_⟩, hpairs⟩⟩
        rw [rows_insertUnder hfirst]
        exact Constraints.fits_append.mpr ⟨(hall later hlater).2, hhead later hlater⟩

/-- An insert that a row of its key makes idle succeeds when every row that holds what is unique about
the new one has its key. -/
lemma exists_insertOrKeep (hrefused : c.refused r = none)
    (hindexes : ∀ row ∈ t.rows, ∀ index ∈ c.indexes, index.1 r row = true → key row = key r) :
    ∃ t', t.insertOrKeep c r = .ok t' ∧ ∀ row ∈ t'.rows, row ∈ t.rows ∨ row = r := by
  rw [insertOrKeep]
  cases hget : t.get? (key r) with
  | some row => exact ⟨t, if_pos Option.isSome_some, fun row hrow => .inl hrow⟩
  | none =>
      have hkey : ∀ row ∈ t.rows, key row ≠ key r := fun row hrow heq =>
        get?_eq_none.mp hget (List.mem_map.mpr ⟨row, hrow, heq⟩)
      have hfits : c.Fits key t.rows r := fun row hrow => ⟨hkey row hrow, fun index hindex =>
        Bool.eq_false_iff.mpr fun htrue => hkey row hrow (hindexes row hrow index hindex htrue)⟩
      have hinsert : t.insertUnder c r = .ok (t.insert r) :=
        insertUnder_eq_ok.mpr ⟨hrefused, hfits, rfl⟩
      refine ⟨_, (if_neg (by simp)).trans hinsert, fun row hrow => ?_⟩
      rw [rows_insertUnder hinsert] at hrow
      exact (List.mem_append.mp hrow).imp_right List.mem_singleton.mp

/-- Rows that no check and no index refuses are all there, or inserted. -/
lemma exists_insertAllOrKeep (hrefused : ∀ r ∈ rows, c.refused r = none) (hindexes : c.indexes = []) :
    ∃ t', t.insertAllOrKeep c rows = .ok t' := by
  induction rows generalizing t with
  | nil => exact ⟨t, rfl⟩
  | cons r rows ih =>
      obtain ⟨t₁, hfirst, -⟩ := @exists_insertOrKeep _ _ _ _ _ t _ _
        (hrefused r List.mem_cons_self) fun row _ index hindex => by
          rw [hindexes] at hindex
          exact absurd hindex List.not_mem_nil
      obtain ⟨t', hrest⟩ := @ih t₁ fun later hlater => hrefused later (List.mem_cons_of_mem r hlater)
      refine ⟨t', ?_⟩
      rw [insertAllOrKeep, List.foldlM_cons, Checks.bind_eq_ok]
      exact ⟨t₁, hfirst, hrest⟩

end Table
