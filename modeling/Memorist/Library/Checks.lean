import Mathlib.Tactic

/-!
Fallible code in `Except`: a check that raises, and what it means for a sequence of
checks to have passed.

* `require`: raise unless a condition holds;
* `bind_eq_ok`, `forM_eq_ok`, `mapM_eq_ok`: a sequence of steps returns exactly when
  every step does (`bind_eq_error`: it fails when one of them does);
* `forDistinct`: a loop that also refuses a key it has seen.
-/

namespace Checks

variable {ε α β : Type}

/-- Raise `error` unless the condition holds. -/
def require (condition : Prop) [Decidable condition] (error : ε) : Except ε Unit :=
  if condition then .ok () else .error error

@[simp] lemma require_eq_ok {condition : Prop} [Decidable condition] {error : ε} {u : Unit} :
    require condition error = .ok u ↔ condition := by
  rw [require]; split_ifs with h <;> simp [h]

lemma require_eq_error {condition : Prop} [Decidable condition] {error e : ε} :
    require condition error = .error e ↔ ¬condition ∧ error = e := by
  rw [require]; split_ifs with h <;> simp [h]

/-- A computation after another returns when both do. -/
@[simp] lemma bind_eq_ok {x : Except ε α} {f : α → Except ε β} {b : β} :
    (x >>= f) = .ok b ↔ ∃ a, x = .ok a ∧ f a = .ok b := by
  cases x <;> simp [bind, Except.bind]

/-- A computation after another fails when one of them does. -/
lemma bind_eq_error {x : Except ε α} {f : α → Except ε β} {e : ε} :
    (x >>= f) = .error e ↔ x = .error e ∨ ∃ a, x = .ok a ∧ f a = .error e := by
  cases x <;> simp [bind, Except.bind]

/-- A computation after a check returns when it does and the check passes. -/
lemma check_bind_eq_ok {x : Except ε Unit} {y : Except ε β} {b : β} :
    (x >>= fun _ => y) = .ok b ↔ x = .ok () ∧ y = .ok b := by
  rw [bind_eq_ok]
  exact ⟨fun ⟨_, h⟩ => h, fun h => ⟨(), h⟩⟩

@[simp] lemma pure_eq_ok {a b : α} : (pure a : Except ε α) = .ok b ↔ a = b := by
  simp [pure, Except.pure]

@[simp] lemma map_eq_ok {x : Except ε α} {f : α → β} {b : β} :
    (f <$> x) = .ok b ↔ ∃ a, x = .ok a ∧ f a = b := by
  cases x <;> simp [Functor.map, Except.map]

@[simp] lemma mapError_eq_ok {δ : Type} {x : Except ε α} {f : ε → δ} {a : α} :
    x.mapError f = .ok a ↔ x = .ok a := by
  cases x <;> simp [Except.mapError]

@[simp] lemma ok_bind (a : α) (f : α → Except ε β) : ((.ok a : Except ε α) >>= f) = f a := rfl

@[simp] lemma error_bind (e : ε) (f : α → Except ε β) :
    ((.error e : Except ε α) >>= f) = .error e := rfl

/-- A loop of checks passes when every round does. -/
@[simp] lemma forM_eq_ok {xs : List α} {f : α → Except ε Unit} {u : Unit} :
    forM xs f = .ok u ↔ ∀ x ∈ xs, f x = .ok () := by
  induction xs with
  | nil => simp [pure, Except.pure]
  | cons x xs ih =>
      rw [List.forM_cons, bind_eq_ok, List.forall_mem_cons, ih]
      exact ⟨fun ⟨_, h⟩ => h, fun h => ⟨(), h⟩⟩

/-- A fallible map returns the list of its results. -/
lemma mapM_eq_ok {xs : List α} {f : α → Except ε β} {ys : List β} :
    xs.mapM f = .ok ys ↔ List.Forall₂ (fun x y => f x = .ok y) xs ys := by
  induction xs generalizing ys with
  | nil => simp [pure, Except.pure, eq_comm]
  | cons x xs ih =>
      simp only [List.mapM_cons, bind_eq_ok, pure_eq_ok, ih, List.forall₂_cons_left_iff]
      constructor
      · rintro ⟨y, hy, zs, hzs, rfl⟩
        exact ⟨y, zs, hy, hzs, rfl⟩
      · rintro ⟨y, zs, hy, hzs, rfl⟩
        exact ⟨y, hy, zs, hzs, rfl⟩

/-- Every result of a fallible map comes from a value. -/
lemma exists_of_mem_right {R : α → β → Prop} {xs : List α} {ys : List β}
    (h : List.Forall₂ R xs ys) {y : β} (hy : y ∈ ys) : ∃ x ∈ xs, R x y := by
  induction h with
  | nil => exact absurd hy List.not_mem_nil
  | cons hxy _ ih =>
      rcases List.mem_cons.mp hy with rfl | hy
      · exact ⟨_, List.mem_cons_self, hxy⟩
      · obtain ⟨x, hx, h⟩ := ih hy
        exact ⟨x, List.mem_cons_of_mem _ hx, h⟩

/-- Every value of a fallible map has its result. -/
lemma exists_of_mem_left {R : α → β → Prop} {xs : List α} {ys : List β}
    (h : List.Forall₂ R xs ys) {x : α} (hx : x ∈ xs) : ∃ y ∈ ys, R x y := by
  obtain ⟨y, hy, hxy⟩ := exists_of_mem_right h.flip hx
  exact ⟨y, hy, hxy⟩

/-- Results of the single values are the results of a list. -/
lemma exists_forall₂ {R : α → β → Prop} {xs : List α} (h : ∀ x ∈ xs, ∃ y, R x y) :
    ∃ ys, List.Forall₂ R xs ys := by
  induction xs with
  | nil => exact ⟨[], .nil⟩
  | cons x xs ih =>
      obtain ⟨y, hy⟩ := h x List.mem_cons_self
      obtain ⟨ys, hys⟩ := ih fun z hz => h z (List.mem_cons_of_mem _ hz)
      exact ⟨y :: ys, .cons hy hys⟩

/-- A computation whose result is known in part returns. -/
lemma ok_of_toOption_map {x : Except ε α} {f : α → β} {b : β} (h : x.toOption.map f = some b) :
    ∃ a, x = .ok a ∧ f a = b := by
  cases x with
  | error e => simp [Except.toOption] at h
  | ok a => exact ⟨a, rfl, by simpa [Except.toOption] using h⟩

section

variable {κ : Type} [DecidableEq κ]

/-- A loop of checks over values that must have distinct keys. -/
def forDistinct (key : α → κ) (error : ε) (check : α → Except ε Unit) :
    List κ → List α → Except ε Unit
  | _, [] => .ok ()
  | seen, x :: xs => do
      require (key x ∉ seen) error
      check x
      forDistinct key error check (key x :: seen) xs

lemma forDistinct_eq_ok {key : α → κ} {error : ε} {check : α → Except ε Unit} {xs : List α} :
    ∀ {seen : List κ} {u : Unit}, forDistinct key error check seen xs = .ok u ↔
      (∀ x ∈ xs, check x = .ok () ∧ key x ∉ seen) ∧ (xs.map key).Nodup := by
  induction xs with
  | nil => simp [forDistinct]
  | cons x xs ih =>
      intro seen u
      rw [List.forall_mem_cons, List.map_cons, List.nodup_cons]
      simp only [forDistinct, bind_eq_ok, require_eq_ok, ih, List.mem_cons, List.mem_map, not_or]
      constructor
      · rintro ⟨_, hx, _, hc, hxs, hnodup⟩
        refine ⟨⟨⟨hc, hx⟩, fun y hy => ⟨(hxs y hy).1, (hxs y hy).2.2⟩⟩, ?_, hnodup⟩
        rintro ⟨y, hy, hkey⟩
        exact (hxs y hy).2.1 hkey
      · rintro ⟨⟨⟨hc, hx⟩, hxs⟩, hkey, hnodup⟩
        exact ⟨(), hx, (), hc, fun y hy => ⟨(hxs y hy).1, fun h => hkey ⟨y, hy, h⟩, (hxs y hy).2⟩,
          hnodup⟩

end

end Checks
