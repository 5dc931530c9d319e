import Mathlib.Tactic

/-!
Dictionaries that remember the order of insertion, as association lists.

* `set`, `get?`: assignment and lookup (`nodup_keys_set`: assignment keeps the keys distinct);
* `erase`: removal of a key (`get?_erase`);
* `ofPairs`, `get?_ofPairs`: a comprehension keeps the last value of a key;
* `groupBy`, `get?_groupBy`: collecting the values of each key in order
  (`groupBy_flatMap`: blocks of distinct keys are their own groups).
-/

/-- A dictionary: its items in the order of first insertion. -/
abbrev Dict (κ ν : Type) := List (κ × ν)

namespace Dict

variable {α κ ν : Type} [DecidableEq κ]

/-- The value of a key, `d.get(key)`. -/
def get? (d : Dict κ ν) (k : κ) : Option ν := d.findSome? fun p => if p.1 = k then some p.2 else none

/-- Assignment, `d[key] = value`. -/
def set : Dict κ ν → κ → ν → Dict κ ν
  | [], k, v => [(k, v)]
  | p :: d, k, v => if p.1 = k then (k, v) :: d else p :: set d k v

lemma set_of_not_mem {d : Dict κ ν} {k : κ} {v : ν} (h : k ∉ d.map Prod.fst) :
    set d k v = d ++ [(k, v)] := by
  induction d with
  | nil => rfl
  | cons p d ih =>
      rw [List.map_cons, List.mem_cons, not_or] at h
      rw [set, if_neg (Ne.symm h.1), ih h.2, List.cons_append]

/-- Assignment passes over the items of other keys. -/
lemma set_append_of_not_mem {d e : Dict κ ν} {k : κ} {v : ν} (h : k ∉ d.map Prod.fst) :
    set (d ++ e) k v = d ++ set e k v := by
  induction d with
  | nil => rfl
  | cons p d ih =>
      rw [List.map_cons, List.mem_cons, not_or] at h
      rw [List.cons_append, set, if_neg (Ne.symm h.1), ih h.2, List.cons_append]

@[simp] lemma get?_nil (k : κ) : get? ([] : Dict κ ν) k = none := rfl

@[simp] lemma get?_cons (p : κ × ν) (d : Dict κ ν) (k : κ) :
    get? (p :: d) k = if p.1 = k then some p.2 else get? d k := by
  simp only [get?, List.findSome?_cons]
  split_ifs <;> rfl

lemma get?_append (d e : Dict κ ν) (k : κ) : get? (d ++ e) k = (get? d k).or (get? e k) := by
  rw [get?, List.findSome?_append]; rfl

/-- Assignment changes the value of its key and of no other. -/
@[simp] lemma get?_set (d : Dict κ ν) (k k' : κ) (v : ν) :
    get? (set d k v) k' = if k = k' then some v else get? d k' := by
  induction d with
  | nil => simp [set]
  | cons p d ih =>
      rw [set]
      split_ifs with h₁ h₂ h₂
      · simp [h₂]
      · subst h₁
        simp [h₂]
      · subst h₂
        simp [h₁, ih]
      · simp [ih, h₂]

/-- Removal, `d.pop(key, None)`. -/
def erase (d : Dict κ ν) (k : κ) : Dict κ ν := d.filter fun p => p.1 ≠ k

/-- Removal takes away the value of its key and of no other. -/
@[simp] lemma get?_erase (d : Dict κ ν) (k k' : κ) :
    get? (erase d k) k' = if k = k' then none else get? d k' := by
  induction d with
  | nil => simp [erase]
  | cons p d ih =>
      rw [erase, List.filter_cons]
      by_cases hp : p.1 = k
      · rw [if_neg (by simpa using hp), get?_cons, hp]
        refine ih.trans ?_
        split_ifs <;> rfl
      · rw [if_pos (by simpa using hp), get?_cons, get?_cons]
        split_ifs with h₁ h₂ h₂
        · exact absurd (h₁.trans h₂.symm) hp
        · rfl
        · exact ih.trans (if_pos h₂)
        · exact ih.trans (if_neg h₂)

/-- A dictionary without values is empty. -/
lemma eq_nil_of_get? {d : Dict κ ν} (h : ∀ k, get? d k = none) : d = [] := by
  cases d with
  | nil => rfl
  | cons p d =>
      have hp := h p.1
      rw [get?_cons, if_pos rfl] at hp
      cases hp

/-- Assignment adds its key. -/
lemma mem_keys_set (d : Dict κ ν) (k k' : κ) (v : ν) :
    k' ∈ (set d k v).map Prod.fst ↔ k' ∈ d.map Prod.fst ∨ k' = k := by
  induction d with
  | nil => simp [set]
  | cons p d ih =>
      rw [set]
      split_ifs with h
      · subst h
        simp only [List.map_cons, List.mem_cons]
        tauto
      · simp only [List.map_cons, List.mem_cons, ih]
        tauto

lemma nodup_keys_set {d : Dict κ ν} (h : (d.map Prod.fst).Nodup) {k : κ} {v : ν} :
    ((set d k v).map Prod.fst).Nodup := by
  induction d with
  | nil => simp [set]
  | cons p d ih =>
      rw [List.map_cons, List.nodup_cons] at h
      rw [set]
      split_ifs with hp
      · subst hp
        exact List.nodup_cons.mpr h
      · rw [List.map_cons, List.nodup_cons, mem_keys_set, not_or]
        exact ⟨⟨h.1, hp⟩, ih h.2⟩

/-- The dictionary of a comprehension: later pairs overwrite earlier ones. -/
def ofPairs (ps : List (κ × ν)) : Dict κ ν := ps.foldl (fun d p => d.set p.1 p.2) []

lemma nodup_keys_ofPairs (ps : List (κ × ν)) : ((ofPairs ps).map Prod.fst).Nodup := by
  have h : ∀ d : Dict κ ν, (d.map Prod.fst).Nodup →
      ((ps.foldl (fun d p => d.set p.1 p.2) d).map Prod.fst).Nodup := by
    induction ps with
    | nil => exact fun _ hd => hd
    | cons p ps ih => exact fun d hd => ih (d.set p.1 p.2) (nodup_keys_set hd)
  exact h [] List.nodup_nil

/-- A comprehension over distinct keys is the list of its pairs. -/
lemma ofPairs_of_nodup {ps : List (κ × ν)} (h : (ps.map Prod.fst).Nodup) : ofPairs ps = ps := by
  have hrest : ∀ d : Dict κ ν, ((d ++ ps).map Prod.fst).Nodup →
      ps.foldl (fun d p => d.set p.1 p.2) d = d ++ ps := by
    clear h
    induction ps with
    | nil => exact fun d _ => (List.append_nil d).symm
    | cons p ps ih =>
        intro d hd
        have hp : p.1 ∉ d.map Prod.fst := by
          rw [List.map_append, List.map_cons] at hd
          exact fun hmem => (List.nodup_append.mp hd).2.2 _ hmem _ List.mem_cons_self rfl
        rw [List.foldl_cons, set_of_not_mem hp, ih, List.append_assoc]
        · rfl
        · rwa [List.append_assoc]
  exact hrest [] h

/-- A comprehension holds the last value of each key. -/
lemma get?_ofPairs (ps : List (κ × ν)) (k : κ) :
    get? (ofPairs ps) k = get? ps.reverse k := by
  have h : ∀ d : Dict κ ν, get? (ps.foldl (fun d p => d.set p.1 p.2) d) k =
      (get? ps.reverse k).or (get? d k) := by
    induction ps with
    | nil => simp
    | cons p ps ih =>
        intro d
        rw [List.foldl_cons, ih, List.reverse_cons, get?_append, Option.or_assoc, get?_set,
          get?_cons, get?_nil]
        split_ifs <;> simp
  rw [ofPairs, h, get?_nil, Option.or_none]

lemma mem_of_get? {d : Dict κ ν} {k : κ} {v : ν} (h : get? d k = some v) : (k, v) ∈ d := by
  induction d with
  | nil => simp at h
  | cons p d ih =>
      rw [get?_cons] at h
      split_ifs at h with hp
      · rw [Option.some.injEq] at h
        exact List.mem_cons.mpr (.inl (by rw [← hp, ← h]))
      · exact List.mem_cons_of_mem _ (ih h)

lemma get?_of_not_mem {d : Dict κ ν} {k : κ} (h : k ∉ d.map Prod.fst) : get? d k = none := by
  cases hv : get? d k with
  | none => rfl
  | some v => exact absurd (List.mem_map_of_mem (mem_of_get? hv)) h

/-- A key has a value. -/
lemma get?_ne_none {d : Dict κ ν} {k : κ} (h : k ∈ d.map Prod.fst) : get? d k ≠ none := by
  induction d with
  | nil => exact absurd h List.not_mem_nil
  | cons p d ih =>
      rw [get?_cons]
      split_ifs with hp
      · exact Option.some_ne_none _
      · exact ih ((List.mem_cons.mp h).resolve_left (Ne.symm hp))

/-- A dictionary with distinct keys holds the value of every pair. -/
lemma get?_of_mem {d : Dict κ ν} (hd : (d.map Prod.fst).Nodup) {k : κ} {v : ν}
    (h : (k, v) ∈ d) : get? d k = some v := by
  induction d with
  | nil => exact absurd h List.not_mem_nil
  | cons p d ih =>
      obtain ⟨hp, hd⟩ := List.nodup_cons.mp hd
      rw [get?_cons]
      rcases List.mem_cons.mp h with rfl | h
      · rw [if_pos rfl]
      · rw [if_neg, ih hd h]
        rintro rfl
        exact hp (List.mem_map.mpr ⟨_, h, rfl⟩)

/-- A comprehension over distinct keys holds the value of every pair. -/
lemma get?_ofPairs_of_mem {ps : List (κ × ν)} (hps : (ps.map Prod.fst).Nodup) {k : κ} {v : ν}
    (h : (k, v) ∈ ps) : get? (ofPairs ps) k = some v := by
  rw [get?_ofPairs]
  refine get?_of_mem ?_ (List.mem_reverse.mpr h)
  rw [List.map_reverse]
  exact List.nodup_reverse.mpr hps

/-- Renaming the keys of a dictionary, apart from each other and from the key that is looked up. -/
lemma get?_map {κ' ν' : Type} [DecidableEq κ'] (f : κ → κ') (g : ν → ν') {d : Dict κ ν} {k : κ}
    (hf : ∀ p ∈ d, f p.1 = f k → p.1 = k) :
    get? (d.map fun p => (f p.1, g p.2)) (f k) = (get? d k).map g := by
  induction d with
  | nil => rfl
  | cons p d ih =>
      have ih := ih fun q hq => hf q (List.mem_cons_of_mem _ hq)
      rw [List.map_cons, get?_cons, get?_cons, ih]
      by_cases h : p.1 = k
      · rw [if_pos h, if_pos (congrArg f h), Option.map_some]
      · rw [if_neg h, if_neg fun h' => h (hf p List.mem_cons_self h')]

/-- Changing the values of a dictionary, each in its own way. -/
lemma get?_mapValues {ν' : Type} (f : κ → ν → ν') (d : Dict κ ν) (k : κ) :
    get? (d.map fun p => (p.1, f p.1 p.2)) k = (get? d k).map (f k) := by
  induction d with
  | nil => rfl
  | cons p d ih =>
      rw [List.map_cons, get?_cons, get?_cons, ih]
      by_cases h : p.1 = k
      · rw [if_pos h, if_pos h, Option.map_some, h]
      · rw [if_neg h, if_neg h]

/-- Add `value` to the list kept under the key, `d.setdefault(key, []).append(value)`. -/
def push (d : Dict κ (List ν)) (k : κ) (v : ν) : Dict κ (List ν) :=
  d.set k ((get? d k).getD [] ++ [v])

/-- The values of a list under their keys. -/
def groupBy (key : ν → κ) (values : List ν) : Dict κ (List ν) :=
  values.foldl (fun d v => push d (key v) v) []

/-- A group holds the values of its key in their order. -/
lemma get?_groupBy (key : ν → κ) (values : List ν) (k : κ) :
    (get? (groupBy key values) k).getD [] = values.filter fun v => key v = k := by
  have h : ∀ d : Dict κ (List ν),
      (get? (values.foldl (fun d v => push d (key v) v) d) k).getD [] =
        (get? d k).getD [] ++ values.filter fun v => key v = k := by
    induction values with
    | nil => simp
    | cons v values ih =>
        intro d
        rw [List.foldl_cons, ih, push, get?_set, List.filter_cons]
        split_ifs with h₁ h₂ h₂ <;> simp_all
  simpa [groupBy] using h []

/-- Adding to the group that was begun last. -/
lemma push_append {d : Dict κ (List ν)} {k : κ} (hk : k ∉ d.map Prod.fst) (vs : List ν) (v : ν) :
    push (d ++ [(k, vs)]) k v = d ++ [(k, vs ++ [v])] := by
  have hget : get? (d ++ [(k, vs)]) k = some vs := by
    rw [get?_append, get?_of_not_mem hk, Option.none_or, get?_cons, if_pos rfl]
  rw [push, hget, Option.getD_some]
  clear hget
  induction d with
  | nil => simp [set]
  | cons p d ih =>
      rw [List.map_cons, List.mem_cons, not_or] at hk
      rw [List.cons_append, set, if_neg (Ne.symm hk.1), ih hk.2, List.cons_append]

/-- A block of values of one new key is a new group. -/
lemma foldl_push_block {key : ν → κ} {k : κ} {vs : List ν} (hvs : vs ≠ [])
    (hkey : ∀ v ∈ vs, key v = k) {d : Dict κ (List ν)} (hk : k ∉ d.map Prod.fst) :
    vs.foldl (fun d v => push d (key v) v) d = d ++ [(k, vs)] := by
  have hrest : ∀ us : List ν, (∀ v ∈ us, key v = k) → ∀ ws : List ν,
      us.foldl (fun d v => push d (key v) v) (d ++ [(k, ws)]) = d ++ [(k, ws ++ us)] := by
    intro us
    induction us with
    | nil => simp
    | cons u us ih =>
        intro hus ws
        rw [List.foldl_cons, hus u List.mem_cons_self, push_append hk,
          ih fun v hv => hus v (List.mem_cons_of_mem _ hv)]
        simp
  cases vs with
  | nil => exact absurd rfl hvs
  | cons v vs =>
      have hfirst : push d k v = d ++ [(k, [v])] := by
        rw [push, get?_of_not_mem hk, Option.getD_none, List.nil_append, set_of_not_mem hk]
      rw [List.foldl_cons, hkey v List.mem_cons_self, hfirst,
        hrest vs fun w hw => hkey w (List.mem_cons_of_mem _ hw)]
      rfl

/-- Blocks of values with distinct keys are the groups of their values. -/
theorem groupBy_flatMap {key : ν → κ} {label : α → κ} {block : α → List ν} {xs : List α}
    (hblock : ∀ x ∈ xs, block x ≠ []) (hkey : ∀ x ∈ xs, ∀ v ∈ block x, key v = label x)
    (hnodup : (xs.map label).Nodup) :
    groupBy key (xs.flatMap block) = xs.map fun x => (label x, block x) := by
  have h : ∀ {d : Dict κ (List ν)}, (∀ x ∈ xs, label x ∉ d.map Prod.fst) →
      (xs.flatMap block).foldl (fun d v => push d (key v) v) d =
        d ++ xs.map fun x => (label x, block x) := by
    induction xs with
    | nil => simp
    | cons x xs ih =>
        intro d hd
        obtain ⟨hx, hnodup⟩ := List.nodup_cons.mp hnodup
        rw [List.flatMap_cons, List.foldl_append,
          foldl_push_block (hblock x List.mem_cons_self) (hkey x List.mem_cons_self)
            (hd x List.mem_cons_self),
          ih (fun y hy => hblock y (List.mem_cons_of_mem _ hy))
            (fun y hy => hkey y (List.mem_cons_of_mem _ hy)) hnodup, List.map_cons,
          List.append_assoc, List.singleton_append]
        intro y hy
        rw [List.map_append, List.mem_append, not_or]
        refine ⟨hd y (List.mem_cons_of_mem _ hy), ?_⟩
        rw [List.map_singleton, List.mem_singleton]
        intro heq
        exact hx (List.mem_map.mpr ⟨y, hy, heq⟩)
  have := h (d := []) (by simp)
  simpa [groupBy] using this

end Dict
