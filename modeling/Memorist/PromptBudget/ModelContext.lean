import Mathlib.Data.Char
import Mathlib.Data.List.Lex
import Mathlib.Data.Prod.Lex
import Memorist.Library.KeySort
import Memorist.Library.Table

/-!
The registry of models and their context windows (`prompt_budget/model_context.py`).

* `ModelRegistryEntry`, `RegistryFields`, `RegistryView`: an entry, the arguments of a write, and the
  entry as the dictionary that `patch` merges into;
* `Registry`: the table `model_registry_entries` with the uuids drawn so far;
* `createOrUpdate`, `patch`, `get`, `listEntries`, `resolve`, `ensureBuiltinEntries`: the operations;
* `createOrUpdate_cases`, `exists_ensureBuiltinEntries`: all that a write can do, and what the
  built-in definitions do to the entries that are there.
-/

namespace Memorist

/-! ### Entries -/

/-- An entry as `as_dict` returns it. -/
structure ModelRegistryEntry where
  modelProfileUuid : String
  provider : String
  modelName : String
  modelAliases : List String
  contextWindow : Option ℤ
  maxOutputTokensDefault : Option ℤ
  tokenizerFamily : String
  supportsTokenCounting : Bool
  lastVerifiedAt : Option String
  source : String
  confidence : ℚ
  deriving DecidableEq

/-- The arguments of `create_or_update`. -/
structure RegistryFields where
  provider : String
  modelName : String
  modelAliases : Option (List String) := none
  contextWindow : Option ℤ := none
  maxOutputTokensDefault : Option ℤ := none
  tokenizerFamily : String := "heuristic"
  supportsTokenCounting : Bool := false
  lastVerifiedAt : Option String := none
  source : String := "user_configured"
  confidence : ℚ := 4 / 5
  deriving DecidableEq

/-- The columns of the unique index. -/
abbrev ModelRegistryEntry.key (entry : ModelRegistryEntry) : String × String :=
  (entry.provider, entry.modelName)

/-- The columns a write looks its entry up by. -/
abbrev RegistryFields.key (fields : RegistryFields) : String × String :=
  (fields.provider, fields.modelName)

/-- `model_aliases or [model_name]`. -/
def RegistryFields.aliases (fields : RegistryFields) : List String :=
  match fields.modelAliases with
  | none | some [] => [fields.modelName]
  | some aliases => aliases

/-- The entry a write stores under a uuid. -/
def RegistryFields.entry (fields : RegistryFields) (uuid : String) : ModelRegistryEntry where
  modelProfileUuid := uuid
  provider := fields.provider
  modelName := fields.modelName
  modelAliases := fields.aliases
  contextWindow := fields.contextWindow
  maxOutputTokensDefault := fields.maxOutputTokensDefault
  tokenizerFamily := fields.tokenizerFamily
  supportsTokenCounting := fields.supportsTokenCounting
  lastVerifiedAt := fields.lastVerifiedAt
  source := fields.source
  confidence := fields.confidence

/-- The entry an update leaves: its provider and its name are not set. -/
def RegistryFields.update (fields : RegistryFields) (row : ModelRegistryEntry) :
    ModelRegistryEntry :=
  { fields.entry row.modelProfileUuid with provider := row.provider, modelName := row.modelName }

lemma RegistryFields.update_modelProfileUuid (fields : RegistryFields) (row : ModelRegistryEntry) :
    (fields.update row).modelProfileUuid = row.modelProfileUuid := rfl

/-- An integer column holds 64 bits. -/
def fitsInteger (n : ℤ) : Prop := -2 ^ 63 ≤ n ∧ n < 2 ^ 63

instance (n : ℤ) : Decidable (fitsInteger n) := inferInstanceAs (Decidable (_ ∧ _))

/-- The integers of a write fit their columns. -/
def RegistryFields.Storable (fields : RegistryFields) : Prop :=
  (∀ n ∈ fields.contextWindow, fitsInteger n) ∧ ∀ n ∈ fields.maxOutputTokensDefault, fitsInteger n

instance (fields : RegistryFields) : Decidable fields.Storable :=
  inferInstanceAs (Decidable (_ ∧ _))

/-- `BUILTIN_MODELS`. -/
def builtinModels : List RegistryFields :=
  [{ provider := "openai-compatible", modelName := "llama3",
     modelAliases := some ["llama3", "llama-3"], contextWindow := some 8192,
     maxOutputTokensDefault := some 1024, tokenizerFamily := "heuristic",
     supportsTokenCounting := false, source := "builtin", confidence := 7 / 10 },
   { provider := "openai-compatible", modelName := "qwen2.5",
     modelAliases := some ["qwen2.5", "qwen-2.5"], contextWindow := some 32768,
     maxOutputTokensDefault := some 2048, tokenizerFamily := "heuristic",
     supportsTokenCounting := false, source := "builtin", confidence := 7 / 10 }]

/-- An entry as a dictionary, where a value may be null. -/
@[ext]
structure RegistryView where
  provider : Option String
  modelName : Option String
  modelAliases : Option (List String)
  contextWindow : Option ℤ
  maxOutputTokensDefault : Option ℤ
  tokenizerFamily : Option String
  supportsTokenCounting : Option Bool
  lastVerifiedAt : Option String
  source : Option String
  confidence : Option ℚ
  deriving DecidableEq

/-- The dictionary of an entry, without its uuid. -/
def ModelRegistryEntry.view (entry : ModelRegistryEntry) : RegistryView where
  provider := some entry.provider
  modelName := some entry.modelName
  modelAliases := some entry.modelAliases
  contextWindow := entry.contextWindow
  maxOutputTokensDefault := entry.maxOutputTokensDefault
  tokenizerFamily := some entry.tokenizerFamily
  supportsTokenCounting := some entry.supportsTokenCounting
  lastVerifiedAt := entry.lastVerifiedAt
  source := some entry.source
  confidence := some entry.confidence

/-- The values of a patch: each one absent, or given and perhaps null. -/
structure RegistryPatch where
  provider : Option (Option String) := none
  modelName : Option (Option String) := none
  modelAliases : Option (Option (List String)) := none
  contextWindow : Option (Option ℤ) := none
  maxOutputTokensDefault : Option (Option ℤ) := none
  tokenizerFamily : Option (Option String) := none
  supportsTokenCounting : Option (Option Bool) := none
  lastVerifiedAt : Option (Option String) := none
  source : Option (Option String) := none
  confidence : Option (Option ℚ) := none

/-- `{**current, **values}`. -/
def RegistryView.merge (current : RegistryView) (values : RegistryPatch) : RegistryView where
  provider := values.provider.getD current.provider
  modelName := values.modelName.getD current.modelName
  modelAliases := values.modelAliases.getD current.modelAliases
  contextWindow := values.contextWindow.getD current.contextWindow
  maxOutputTokensDefault := values.maxOutputTokensDefault.getD current.maxOutputTokensDefault
  tokenizerFamily := values.tokenizerFamily.getD current.tokenizerFamily
  supportsTokenCounting := values.supportsTokenCounting.getD current.supportsTokenCounting
  lastVerifiedAt := values.lastVerifiedAt.getD current.lastVerifiedAt
  source := values.source.getD current.source
  confidence := values.confidence.getD current.confidence

/-- `str(value)`. -/
def strOf (value : Option String) : String := value.getD "None"

/-- `str(value or default)`. -/
def strOr (value : Option String) (default : String) : String :=
  match value with
  | none => default
  | some text => if text = "" then default else text

/-- `float(value or 0.8)`. -/
def confidenceOf (value : Option ℚ) : ℚ :=
  match value with
  | none => 4 / 5
  | some c => if c = 0 then 4 / 5 else c

/-- The arguments `patch` writes the merged values with. -/
def RegistryView.fields (merged : RegistryView) : RegistryFields where
  provider := strOf merged.provider
  modelName := strOf merged.modelName
  modelAliases := some (merged.modelAliases.getD [])
  contextWindow := merged.contextWindow
  maxOutputTokensDefault := merged.maxOutputTokensDefault
  tokenizerFamily := strOr merged.tokenizerFamily "heuristic"
  supportsTokenCounting := merged.supportsTokenCounting.getD false
  lastVerifiedAt := merged.lastVerifiedAt
  source := strOr merged.source "user_configured"
  confidence := confidenceOf merged.confidence

/-! ### The registry -/

/-- Why an operation fails. -/
inductive RegistryError where
  | notFound (modelProfileUuid : String)
  | integerOverflow
  | duplicate
  deriving DecidableEq, Repr

/-- The entries, and how many uuids have been drawn. -/
structure Registry where
  entries : Table ModelRegistryEntry String ModelRegistryEntry.modelProfileUuid := Table.empty
  drawn : ℕ := 0

namespace Registry

/-- The entry of a uuid. -/
def rowOf (s : Registry) (uuid : String) : Option ModelRegistryEntry := s.entries.get? uuid

/-- `get`. -/
def get (s : Registry) (uuid : String) : Except RegistryError ModelRegistryEntry :=
  match s.rowOf uuid with
  | some entry => .ok entry
  | none => .error (.notFound uuid)

variable (newUuid : ℕ → String)

/-- The `UPDATE` of the entry of a uuid. -/
def updated (s : Registry) (uuid : String) (fields : RegistryFields) : Registry :=
  { s with
    entries := s.entries.updateWhere (fun row => row.modelProfileUuid = uuid) fields.update
      fields.update_modelProfileUuid }

/-- The statement of `create_or_update`: an insert where no entry has the provider and the name, an
update of the one that has them otherwise. -/
def write (s : Registry) (fields : RegistryFields) : Except RegistryError (String × Registry) :=
  match s.entries.rows.find? fun row => row.key = fields.key with
  | none => do
    let entries ← s.entries.insertUnique .duplicate
      [(fun r row => r.key = row.key, .duplicate)] (fields.entry (newUuid s.drawn))
    pure (newUuid s.drawn, { entries, drawn := s.drawn + 1 })
  | some existing => .ok (existing.modelProfileUuid, s.updated existing.modelProfileUuid fields)

/-- `create_or_update`. -/
def createOrUpdate (s : Registry) (fields : RegistryFields) :
    Except RegistryError (ModelRegistryEntry × Registry) :=
  if fields.Storable then do
    let (uuid, t) ← s.write newUuid fields
    let entry ← t.get uuid
    pure (entry, t)
  else .error .integerOverflow

/-- `patch`. -/
def patch (s : Registry) (uuid : String) (values : RegistryPatch) :
    Except RegistryError (ModelRegistryEntry × Registry) := do
  let current ← s.get uuid
  s.createOrUpdate newUuid (current.view.merge values).fields

/-- `ensure_builtin_entries`. -/
def ensureBuiltinEntries (s : Registry) : Except RegistryError Registry :=
  builtinModels.foldlM (fun t item => do let (_, t') ← t.createOrUpdate newUuid item; pure t') s

/-- `list_entries`. -/
def listEntries (s : Registry) : Except RegistryError (List ModelRegistryEntry × Registry) := do
  let t ← s.ensureBuiltinEntries newUuid
  pure (KeySort.sortBy
    (fun entry : ModelRegistryEntry => toLex (entry.provider.toList, entry.modelName.toList))
    t.entries.rows, t)

/-- An entry answers to a name, in lower case. -/
def answersTo (lower : String → String) (entry : ModelRegistryEntry) (normalized : String) : Bool :=
  normalized ∈ lower entry.modelName :: entry.modelAliases.map lower

/-- `resolve`. -/
def resolve (lower : String → String) (s : Registry) (modelName provider : Option String) :
    Except RegistryError (Option ModelRegistryEntry × Registry) :=
  match modelName with
  | none => .ok (none, s)
  | some name =>
    if name = "" then .ok (none, s)
    else do
      let t ← s.ensureBuiltinEntries newUuid
      pure (t.entries.rows.find? fun entry =>
        provider.all (entry.provider = ·) ∧ answersTo lower entry (lower name), t)

/-! ### What a write can do -/

/-- The entries have distinct keys and uuids drawn before. -/
structure Inv (newUuid : ℕ → String) (s : Registry) : Prop where
  keys : (s.entries.rows.map ModelRegistryEntry.key).Nodup
  drawn : ∀ row ∈ s.entries.rows, ∃ n < s.drawn, row.modelProfileUuid = newUuid n

/-- A write of the entry of a uuid: that entry and no other is written, and it is the one of its
key. -/
structure Wrote (s : Registry) (fields : RegistryFields) (uuid : String) (t : Registry) : Prop where
  written : t.rowOf uuid = some (fields.entry uuid)
  others : ∀ w, w ≠ uuid → t.rowOf w = s.rowOf w
  target : ∀ row, s.rowOf row.modelProfileUuid = some row →
    (row.key = fields.key ↔ row.modelProfileUuid = uuid)

variable {newUuid} {s t : Registry} {fields : RegistryFields} {uuid : String}
  {row : ModelRegistryEntry}

lemma mem_of_rowOf (h : s.rowOf uuid = some row) :
    row ∈ s.entries.rows ∧ row.modelProfileUuid = uuid := Table.get?_eq_some.mp h

lemma rowOf_of_mem (h : row ∈ s.entries.rows) : s.rowOf row.modelProfileUuid = some row :=
  Table.get?_of_mem h

lemma Inv.eq_of_key_eq {row' : ModelRegistryEntry} (h : s.Inv newUuid) (hrow : row ∈ s.entries.rows)
    (hrow' : row' ∈ s.entries.rows) (hkey : row.key = row'.key) : row = row' :=
  List.inj_on_of_nodup_map h.keys hrow hrow' hkey

lemma update_eq_entry (h : row.key = fields.key) :
    fields.update row = fields.entry row.modelProfileUuid := by
  obtain ⟨hprovider, hname⟩ := Prod.mk.inj h
  rw [RegistryFields.update, hprovider, hname]
  rfl

lemma rowOf_updated (s : Registry) (uuid w : String) (fields : RegistryFields) :
    (s.updated uuid fields).rowOf w =
      (s.rowOf w).map fun row => if row.modelProfileUuid = uuid then fields.update row else row := by
  rw [rowOf, updated, Table.get?_updateWhere, rowOf]
  simp only [decide_eq_true_eq]

lemma rows_updated (s : Registry) (uuid : String) (fields : RegistryFields) :
    (s.updated uuid fields).entries.rows = s.entries.rows.map fun row =>
      if row.modelProfileUuid = uuid then fields.update row else row := by
  rw [updated, Table.rows_updateWhere]
  simp only [decide_eq_true_eq]

/-- A uuid not drawn yet is that of no entry. -/
lemma Inv.rowOf_drawn (huuid : Function.Injective newUuid) (h : s.Inv newUuid) :
    s.rowOf (newUuid s.drawn) = none := by
  cases hrow : s.rowOf (newUuid s.drawn) with
  | none => rfl
  | some row =>
      obtain ⟨hmem, heq⟩ := mem_of_rowOf hrow
      obtain ⟨n, hn, hdrawn⟩ := h.drawn row hmem
      exact absurd (huuid (hdrawn.symm.trans heq)) (Nat.ne_of_lt hn)

/-- An entry of a new key is added under the next uuid. -/
lemma write_new (huuid : Function.Injective newUuid) (h : s.Inv newUuid)
    (hnew : ∀ row ∈ s.entries.rows, row.key ≠ fields.key) :
    ∃ t, s.write newUuid fields = .ok (newUuid s.drawn, t) ∧
      s.Wrote fields (newUuid s.drawn) t ∧ t.Inv newUuid := by
  have hnone : s.entries.rows.find? (fun row => row.key = fields.key) = none := by
    simpa [List.find?_eq_none] using fun row hrow hkey => hnew row hrow hkey
  have hfree : s.entries.get? (fields.entry (newUuid s.drawn)).modelProfileUuid = none :=
    h.rowOf_drawn huuid
  have hinsert : s.entries.insertUnique RegistryError.duplicate
      [(fun r row => r.key = row.key, .duplicate)] (fields.entry (newUuid s.drawn)) =
        .ok (s.entries.insert (fields.entry (newUuid s.drawn))) := by
    refine Table.insertUnique_eq_ok.mpr ⟨hfree, ?_, rfl⟩
    intro index hindex row hrow
    rw [List.mem_singleton.mp hindex]
    exact decide_eq_false fun hkey => hnew row hrow hkey.symm
  refine ⟨⟨s.entries.insert (fields.entry (newUuid s.drawn)), s.drawn + 1⟩, ?_, ⟨?_, ?_, ?_⟩, ?_, ?_⟩
  · rw [write, hnone]
    simp only [hinsert]
    rfl
  · exact Table.get?_insert_self hfree
  · intro w hw
    rcases Table.get?_insert (t := s.entries) (fields.entry (newUuid s.drawn)) w with hsame | ⟨-, hkey, -⟩
    · exact hsame
    · exact absurd hkey.symm hw
  · intro row hrow
    have hmem := (mem_of_rowOf hrow).1
    refine iff_of_false (hnew row hmem) fun heq => ?_
    rw [heq, h.rowOf_drawn huuid] at hrow
    exact absurd hrow (by simp)
  · rw [Table.rows_insert hfree, List.map_append, List.map_singleton, List.nodup_append]
    refine ⟨h.keys, List.nodup_singleton _, ?_⟩
    rintro key hkey key' hkey' rfl
    obtain ⟨row, hrow, heq⟩ := List.mem_map.mp hkey
    exact hnew row hrow (heq.trans (List.mem_singleton.mp hkey'))
  · intro row hrow
    rw [Table.rows_insert hfree, List.mem_append, List.mem_singleton] at hrow
    rcases hrow with hold | rfl
    · obtain ⟨n, hn, heq⟩ := h.drawn row hold
      exact ⟨n, Nat.lt_succ_of_lt hn, heq⟩
    · exact ⟨s.drawn, Nat.lt_succ_self _, rfl⟩

/-- The entry of a key that is there is written under its uuid. -/
lemma write_existing {existing : ModelRegistryEntry} (h : s.Inv newUuid)
    (hmem : existing ∈ s.entries.rows) (hkey : existing.key = fields.key) :
    ∃ t, s.write newUuid fields = .ok (existing.modelProfileUuid, t) ∧
      s.Wrote fields existing.modelProfileUuid t ∧ t.Inv newUuid := by
  have hfind : s.entries.rows.find? (fun row => row.key = fields.key) = some existing := by
    cases hfound : s.entries.rows.find? fun row => row.key = fields.key with
    | none => exact absurd hkey (by simpa using List.find?_eq_none.mp hfound existing hmem)
    | some row =>
        have hrow : row.key = fields.key := by simpa using List.find?_some hfound
        rw [h.eq_of_key_eq (List.mem_of_find?_eq_some hfound) hmem (hrow.trans hkey.symm)]
  have hupdate : fields.update existing = fields.entry existing.modelProfileUuid :=
    update_eq_entry hkey
  have hkeys : (ModelRegistryEntry.key ∘ fun row =>
      if row.modelProfileUuid = existing.modelProfileUuid then fields.update row else row) =
        ModelRegistryEntry.key := by
    funext row
    rw [Function.comp_apply]
    split_ifs <;> rfl
  refine ⟨_, by rw [write, hfind], ⟨?_, ?_, ?_⟩, ?_, ?_⟩
  · rw [rowOf_updated, rowOf_of_mem hmem, Option.map_some, if_pos rfl, hupdate]
  · intro w hw
    rw [rowOf_updated]
    cases hrow : s.rowOf w with
    | none => rfl
    | some row => rw [Option.map_some, if_neg fun heq => hw ((mem_of_rowOf hrow).2.symm.trans heq)]
  · intro row hrow
    have hrowmem := (mem_of_rowOf hrow).1
    constructor
    · intro hsame
      rw [h.eq_of_key_eq hrowmem hmem (hsame.trans hkey.symm)]
    · intro heq
      rw [Table.eq_of_key_eq hrowmem hmem heq, hkey]
  · rw [rows_updated, List.map_map, hkeys]
    exact h.keys
  · intro row hrow
    rw [rows_updated] at hrow
    obtain ⟨old, hold, rfl⟩ := List.mem_map.mp hrow
    have huuid : (if old.modelProfileUuid = existing.modelProfileUuid then fields.update old
        else old).modelProfileUuid = old.modelProfileUuid := by split_ifs <;> rfl
    rw [huuid]
    exact h.drawn old hold

/-- A write whose integers do not fit fails; any other one writes one entry and returns it. -/
theorem createOrUpdate_cases (huuid : Function.Injective newUuid) (h : s.Inv newUuid)
    (fields : RegistryFields) :
    (¬fields.Storable ∧ s.createOrUpdate newUuid fields = .error .integerOverflow) ∨
      ∃ uuid t, fields.Storable ∧
        s.createOrUpdate newUuid fields = .ok (fields.entry uuid, t) ∧
          s.Wrote fields uuid t ∧ t.Inv newUuid := by
  by_cases hstorable : fields.Storable
  · have hwrite : ∃ uuid t, s.write newUuid fields = .ok (uuid, t) ∧ s.Wrote fields uuid t ∧
        t.Inv newUuid := by
      by_cases hnew : ∃ row ∈ s.entries.rows, row.key = fields.key
      · obtain ⟨existing, hmem, hkey⟩ := hnew
        exact ⟨_, write_existing h hmem hkey⟩
      · push Not at hnew
        exact ⟨_, write_new huuid h hnew⟩
    obtain ⟨uuid, t, hok, hwrote, hinv⟩ := hwrite
    refine .inr ⟨uuid, t, hstorable, ?_, hwrote, hinv⟩
    rw [createOrUpdate, if_pos hstorable, hok]
    show (t.get uuid >>= fun entry => pure (entry, t)) = _
    rw [get, hwrote.written]
    rfl
  · exact .inl ⟨hstorable, if_neg hstorable⟩

/-! ### The built-in definitions -/

/-- The built-in entries that are there are as their definitions say. -/
def BuiltinsUnedited (s : Registry) : Prop :=
  ∀ row ∈ s.entries.rows, ∀ item ∈ builtinModels, item.key = row.key →
    row = item.entry row.modelProfileUuid

instance (s : Registry) : Decidable s.BuiltinsUnedited :=
  inferInstanceAs (Decidable (∀ row ∈ s.entries.rows, ∀ item ∈ builtinModels, item.key = row.key →
    row = item.entry row.modelProfileUuid))

/-- The entry that some definitions, each written once, leave of an entry. -/
def restored (items : List RegistryFields) (row : ModelRegistryEntry) : ModelRegistryEntry :=
  match items.find? fun item => item.key = row.key with
  | some item => item.entry row.modelProfileUuid
  | none => row

lemma restored_cons_of_eq {item : RegistryFields} {items : List RegistryFields}
    (h : item.key = row.key) : restored (item :: items) row = item.entry row.modelProfileUuid := by
  rw [restored, List.find?_cons_of_pos (by simpa using h)]

lemma restored_cons_of_ne {item : RegistryFields} {items : List RegistryFields}
    (h : item.key ≠ row.key) : restored (item :: items) row = restored items row := by
  rw [restored, List.find?_cons_of_neg (by simpa using h), restored]

lemma restored_of_mem {item : RegistryFields} {items : List RegistryFields}
    (hitems : (items.map RegistryFields.key).Nodup) (hmem : item ∈ items)
    (h : item.key = row.key) : restored items row = item.entry row.modelProfileUuid := by
  induction items with
  | nil => exact absurd hmem List.not_mem_nil
  | cons first items ih =>
      rw [List.map_cons, List.nodup_cons] at hitems
      rcases List.mem_cons.mp hmem with rfl | hrest
      · exact restored_cons_of_eq h
      · have hne : first.key ≠ row.key := fun heq =>
          hitems.1 (List.mem_map.mpr ⟨item, hrest, h.trans heq.symm⟩)
        rw [restored_cons_of_ne hne, ih hitems.2 hrest]

lemma restored_of_not_mem {items : List RegistryFields}
    (h : row.key ∉ items.map RegistryFields.key) : restored items row = row := by
  have hnone : items.find? (fun item => item.key = row.key) = none := by
    refine List.find?_eq_none.mpr fun item hitem hkey => h ?_
    exact List.mem_map.mpr ⟨item, hitem, of_decide_eq_true hkey⟩
  rw [restored, hnone]

/-- Writing definitions of distinct keys restores the entries that have them. -/
lemma exists_foldlM_createOrUpdate (huuid : Function.Injective newUuid) {items : List RegistryFields}
    (hitems : (items.map RegistryFields.key).Nodup) (hstorable : ∀ item ∈ items, item.Storable)
    (h : s.Inv newUuid) :
    ∃ t, items.foldlM (fun t item => do let (_, t') ← t.createOrUpdate newUuid item; pure t') s =
        .ok t ∧ t.Inv newUuid ∧
      ∀ w row, s.rowOf w = some row → t.rowOf w = some (restored items row) := by
  induction items generalizing s with
  | nil => exact ⟨s, rfl, h, fun w row hrow => hrow⟩
  | cons item items ih =>
      rw [List.map_cons, List.nodup_cons] at hitems
      rcases createOrUpdate_cases huuid h item with ⟨hno, -⟩ | ⟨uuid, s', -, hok, hwrote, hinv⟩
      · exact absurd (hstorable item List.mem_cons_self) hno
      obtain ⟨t, hfold, htinv, hrest⟩ := ih hitems.2
        (fun item' hitem' => hstorable item' (List.mem_cons_of_mem _ hitem')) hinv
      refine ⟨t, ?_, htinv, fun w row hrow => ?_⟩
      · rw [List.foldlM_cons, hok]
        exact hfold
      obtain ⟨hmem, rfl⟩ := mem_of_rowOf hrow
      by_cases hkey : row.key = item.key
      · have hsame := (hwrote.target row hrow).mp hkey
        have hkey' : (item.entry uuid).key ∉ items.map RegistryFields.key := hitems.1
        rw [restored_cons_of_eq hkey.symm, hsame, hrest uuid _ hwrote.written,
          restored_of_not_mem hkey']
      · have hother := hwrote.others _ fun heq => hkey ((hwrote.target row hrow).mpr heq)
        rw [restored_cons_of_ne fun heq => hkey heq.symm]
        exact hrest _ row (hother.trans hrow)

/-- Ensuring the built-in entries keeps every entry as it is just when none of them was edited. -/
theorem exists_ensureBuiltinEntries (huuid : Function.Injective newUuid) (h : s.Inv newUuid) :
    ∃ t, s.ensureBuiltinEntries newUuid = .ok t ∧ t.Inv newUuid ∧
      ((∀ w row, s.rowOf w = some row → t.rowOf w = some row) ↔ s.BuiltinsUnedited) := by
  obtain ⟨t, hok, hinv, hrestored⟩ := exists_foldlM_createOrUpdate huuid
    (show (builtinModels.map RegistryFields.key).Nodup by decide)
    (show ∀ item ∈ builtinModels, item.Storable by decide) h
  refine ⟨t, hok, hinv, ?_, ?_⟩
  · intro hkept row hmem item hitem hkey
    have hrow := rowOf_of_mem hmem
    have hsame : restored builtinModels row = row :=
      Option.some.inj ((hrestored _ row hrow).symm.trans (hkept _ row hrow))
    rw [← hsame, restored_of_mem (by decide) hitem hkey]
    rfl
  · intro hunedited w row hrow
    obtain ⟨hmem, rfl⟩ := mem_of_rowOf hrow
    rw [hrestored _ row hrow, restored]
    cases hfind : builtinModels.find? fun item => item.key = row.key with
    | none => rfl
    | some item =>
        have hkey : item.key = row.key := by simpa using List.find?_some hfind
        exact congrArg some (hunedited row hmem item (List.mem_of_find?_eq_some hfind) hkey).symm

end Registry

end Memorist
