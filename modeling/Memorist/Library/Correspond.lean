import Mathlib.Data.List.Perm.Basic
import Mathlib.Tactic
import Memorist.Library.Checks

/-!
Lists whose entries correspond, one by one or in some order.

* `map_eq_of_forall₂`, `map_eq_of_common`, `map_perm_of_common`, `exists_third`,
  `pairwise_right`: what corresponding lists have in common;
* `Corresponds`: the entries correspond in some order;
* `Corresponds.any_eq`, `Corresponds.filter`, `Corresponds.filterMap_perm`,
  `Corresponds.results`: what a loop computes from one list, it computes from the other.
-/

namespace Correspond

variable {α β γ δ : Type}

/-- Lists whose entries correspond under two maps have the same images. -/
lemma map_eq_of_forall₂ {f : α → γ} {g : β → γ} {xs : List α} {ys : List β}
    (h : List.Forall₂ (fun x y => f x = g y) xs ys) : xs.map f = ys.map g := by
  induction h with
  | nil => rfl
  | cons hxy _ ih => rw [List.map_cons, List.map_cons, hxy, ih]

section

variable {R : α → γ → Prop} {S : β → γ → Prop} {f : α → δ} {g : β → δ}

/-- Lists whose entries correspond over a third have the same images. -/
lemma map_eq_of_common (hfg : ∀ x y c, R x c → S y c → f x = g y) {xs : List α} {ys : List β}
    {cs : List γ} (hxs : List.Forall₂ R xs cs) (hys : List.Forall₂ S ys cs) :
    xs.map f = ys.map g := by
  induction hxs generalizing ys with
  | nil => cases hys; rfl
  | cons hx _ ih =>
      cases hys with
      | cons hy hys => rw [List.map_cons, List.map_cons, hfg _ _ _ hx hy, ih hys]

/-- Lists whose entries correspond over a permuted third have permuted images. -/
lemma map_perm_of_common (hfg : ∀ x y c, R x c → S y c → f x = g y) {xs : List α} {ys : List β}
    {cs ds : List γ} (hxs : List.Forall₂ R xs cs) (hys : List.Forall₂ S ys ds)
    (hperm : cs.Perm ds) : (xs.map f).Perm (ys.map g) := by
  obtain ⟨zs, hzs, hperm⟩ := List.perm_comp_forall₂ hperm hys.flip
  rw [map_eq_of_common hfg hxs hzs.flip]
  exact hperm.map g

end

/-- Turn each pair of corresponding entries into a third. -/
lemma exists_third {R : α → β → Prop} {S : α → γ → Prop} {T : β → γ → Prop} {xs : List α}
    {ys : List β} (h : List.Forall₂ R xs ys)
    (hRST : ∀ x ∈ xs, ∀ y, R x y → ∃ z, S x z ∧ T y z) :
    ∃ zs, List.Forall₂ S xs zs ∧ List.Forall₂ T ys zs := by
  induction h with
  | nil => exact ⟨[], .nil, .nil⟩
  | cons hxy _ ih =>
      obtain ⟨z, hz, hz'⟩ := hRST _ List.mem_cons_self _ hxy
      obtain ⟨zs, hzs, hzs'⟩ := ih fun x hx => hRST x (List.mem_cons_of_mem _ hx)
      exact ⟨z :: zs, .cons hz hzs, .cons hz' hzs'⟩

/-- Entries that correspond to entries apart are apart. -/
lemma pairwise_right {R : α → β → Prop} {S : α → α → Prop} {T : β → β → Prop} {xs : List α}
    {ys : List β} (h : List.Forall₂ R xs ys) (hxs : xs.Pairwise S)
    (hRST : ∀ x x' y y', R x y → R x' y' → S x x' → T y y') : ys.Pairwise T := by
  induction h with
  | nil => exact .nil
  | cons hxy hrest ih =>
      obtain ⟨hhead, htail⟩ := List.pairwise_cons.mp hxs
      refine .cons (fun y' hy' => ?_) (ih htail)
      obtain ⟨x', hx', hxy'⟩ := Checks.exists_of_mem_right hrest hy'
      exact hRST _ _ _ _ hxy hxy' (hhead x' hx')

/-! ### Correspondence in some order -/

/-- The entries of two lists correspond in some order. -/
def Corresponds (R : α → β → Prop) (xs : List α) (ys : List β) : Prop :=
  ∃ zs, List.Forall₂ R xs zs ∧ zs.Perm ys

namespace Corresponds

variable {R : α → β → Prop} {xs : List α} {ys : List β}

lemma imp_of_mem {S : α → β → Prop} (h : Corresponds R xs ys) (hRS : ∀ x ∈ xs, ∀ y, R x y → S x y) :
    Corresponds S xs ys := by
  obtain ⟨zs, hzs, hperm⟩ := h
  refine ⟨zs, ?_, hperm⟩
  clear hperm
  induction hzs with
  | nil => exact .nil
  | cons hxy _ ih =>
      exact .cons (hRS _ List.mem_cons_self _ hxy) (ih fun x hx => hRS x (List.mem_cons_of_mem _ hx))

lemma length_eq (h : Corresponds R xs ys) : xs.length = ys.length := by
  obtain ⟨zs, hzs, hperm⟩ := h
  exact hzs.length_eq.trans hperm.length_eq

/-- What corresponds to one entry is one entry. -/
lemma singleton_right {y : β} (h : Corresponds R xs [y]) : ∃ x, xs = [x] ∧ R x y := by
  obtain ⟨zs, hzs, hperm⟩ := h
  rw [List.perm_singleton.mp hperm] at hzs
  obtain ⟨x, _, hxy, hnil, rfl⟩ := List.forall₂_cons_right_iff.mp hzs
  rw [List.forall₂_nil_right_iff] at hnil
  exact ⟨x, by rw [hnil], hxy⟩

lemma singleton_left {x : α} (h : Corresponds R [x] ys) : ∃ y, ys = [y] ∧ R x y := by
  obtain ⟨zs, hzs, hperm⟩ := h
  obtain ⟨y, _, hxy, hnil, rfl⟩ := List.forall₂_cons_left_iff.mp hzs
  rw [List.forall₂_nil_left_iff] at hnil
  subst hnil
  exact ⟨y, List.perm_singleton.mp hperm.symm, hxy⟩

/-- Images that agree on corresponding entries are permuted. -/
lemma map_perm {f : α → γ} {g : β → γ} (h : Corresponds R xs ys) (hfg : ∀ x y, R x y → f x = g y) :
    (xs.map f).Perm (ys.map g) := by
  obtain ⟨zs, hzs, hperm⟩ := h
  rw [map_eq_of_forall₂ (hzs.imp hfg)]
  exact hperm.map g

lemma any_eq {p : α → Bool} {q : β → Bool} (h : Corresponds R xs ys)
    (hpq : ∀ x y, R x y → p x = q y) : xs.any p = ys.any q := by
  have := (h.map_perm hpq).any_eq (f := id)
  simpa [List.any_map, Function.comp_def] using this

lemma filterMap_perm {f : α → Option γ} {g : β → Option γ} (h : Corresponds R xs ys)
    (hfg : ∀ x y, R x y → f x = g y) : (xs.filterMap f).Perm (ys.filterMap g) := by
  have := (h.map_perm hfg).filterMap id
  simpa [List.filterMap_map, Function.comp_def] using this

lemma filter {p : α → Bool} {q : β → Bool} (h : Corresponds R xs ys)
    (hpq : ∀ x ∈ xs, ∀ y, R x y → p x = q y) : Corresponds R (xs.filter p) (ys.filter q) := by
  obtain ⟨zs, hzs, hperm⟩ := h
  refine ⟨zs.filter q, ?_, hperm.filter q⟩
  clear hperm
  induction hzs with
  | nil => exact .nil
  | cons hxy _ ih =>
      have ih := ih fun x hx => hpq x (List.mem_cons_of_mem _ hx)
      rw [List.filter_cons, List.filter_cons, hpq _ List.mem_cons_self _ hxy]
      split_ifs
      · exact .cons hxy ih
      · exact ih

/-- What corresponding entries are turned into is permuted. -/
lemma results {S : α → γ → Prop} {T : β → γ → Prop} (h : Corresponds R xs ys)
    (hST : ∀ x y c, R x y → S x c → T y c) {cs : List γ} (hcs : List.Forall₂ S xs cs) :
    ∃ ds, List.Forall₂ T ys ds ∧ ds.Perm cs := by
  obtain ⟨zs, hzs, hperm⟩ := h
  have hzcs : List.Forall₂ T zs cs := by
    clear hperm
    induction hzs generalizing cs with
    | nil => cases hcs; exact .nil
    | cons hxy _ ih =>
        cases hcs with
        | cons hc hcs => exact .cons (hST _ _ _ hxy hc) (ih hcs)
  obtain ⟨ds, hds, hperm'⟩ := List.perm_comp_forall₂ hperm.symm hzcs
  exact ⟨ds, hds, hperm'⟩

end Corresponds

end Correspond
