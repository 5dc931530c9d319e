import Memorist.Library.Runs

/-!
Fenced leases: a lease is held or free, and each acquisition raises its generation.

* `Lease`, `Lease.Step`: a lease is kept, released, or acquired while it is free;
* `Lease.Admits`: a claim, a holder with a generation, that may act on the lease;
* `Admits.unique`: a lease admits one claim;
* `Past`, `Step.past`, `Past.not_admits`: a claim that is released or superseded is never admitted
  again.
-/

/-- A lease: its holder if it is held, and the number of times it was acquired. -/
structure Lease (τ : Type) where
  holder : Option τ
  generation : ℕ

namespace Lease

variable {τ : Type} {l l' : Lease τ} {c c' : τ × ℕ}

/-- A lease is kept, released, or acquired while it is free. -/
inductive Step : Lease τ → Lease τ → Prop
  | keep (l : Lease τ) : Step l l
  | release (l : Lease τ) : Step l ⟨none, l.generation⟩
  | acquire (t : τ) {l : Lease τ} (h : l.holder = none) : Step l ⟨some t, l.generation + 1⟩

/-- The lease is held by the claim's holder, in the claim's generation. -/
def Admits (l : Lease τ) (c : τ × ℕ) : Prop := l.holder = some c.1 ∧ l.generation = c.2

/-- The claim was released or superseded. -/
def Past (l : Lease τ) (c : τ × ℕ) : Prop :=
  c.2 < l.generation ∨ c.2 = l.generation ∧ l.holder = none

/-- A lease admits one claim. -/
theorem Admits.unique (h : l.Admits c) (h' : l.Admits c') : c = c' :=
  Prod.ext (Option.some_inj.mp (h.1.symm.trans h'.1)) (h.2.symm.trans h'.2)

/-- A claim that was released or superseded is not admitted. -/
lemma Past.not_admits (h : l.Past c) : ¬ l.Admits c := by
  rintro ⟨hholder, hgen⟩
  rcases h with hlt | ⟨-, hnone⟩
  · exact absurd hgen hlt.ne'
  · rw [hnone] at hholder
    exact absurd hholder (by simp)

/-- Generations do not decrease. -/
lemma Step.generation_le (h : Step l l') : l.generation ≤ l'.generation := by
  cases h with
  | keep => exact le_rfl
  | release => exact le_rfl
  | acquire => exact Nat.le_succ _

/-- A claim that was released or superseded stays so. -/
lemma Step.past (h : Step l l') (hpast : l.Past c) : l'.Past c := by
  cases h with
  | keep => exact hpast
  | release => exact hpast.imp id fun heq => ⟨heq.1, rfl⟩
  | acquire => exact .inl (hpast.elim Nat.lt_succ_of_lt fun heq => Nat.lt_succ_of_le heq.1.le)

/-- A claim that was admitted stays so, or its lease was released. -/
lemma Step.admits_or_past (h : Step l l') (hadmits : l.Admits c) : l'.Admits c ∨ l'.Past c := by
  cases h with
  | keep => exact .inl hadmits
  | release => exact .inr (.inr ⟨hadmits.2.symm, rfl⟩)
  | acquire t hfree =>
      rw [hadmits.1] at hfree
      exact absurd hfree (by simp)

end Lease
