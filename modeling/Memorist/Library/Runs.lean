import Mathlib.Tactic

/-!
Runs of a labelled transition relation.

* `Runs step s es t`: the labels `es`, in their order, lead from `s` to `t`;
* `Runs.invariant`, `Runs.invariant_of_mem`, `Runs.rel`: what each step keeps, a run keeps;
* `Runs.imp_of_invariant`, `Runs.imp`: what each step of a run implies;
* `Runs.trans`, `Runs.exists_mid`, `Runs.of_cons`: a run goes on from where another ends, and passes
  through a state after each of its labels.
-/

/-- The labels of a run lead from one state to another. -/
inductive Runs {σ ε : Type} (step : σ → ε → σ → Prop) (s : σ) : List ε → σ → Prop
  | refl : Runs step s [] s
  | tail {t u : σ} {es : List ε} {e : ε} (h : Runs step s es t) (hstep : step t e u) :
      Runs step s (es ++ [e]) u

namespace Runs

variable {σ ε : Type} {step : σ → ε → σ → Prop} {s t u : σ} {es fs : List ε}

/-- A property that each step keeps holds at the end of a run. -/
theorem invariant {I : σ → Prop} (hkeep : ∀ {a e b}, I a → step a e b → I b)
    (h : Runs step s es t) (hs : I s) : I t := by
  induction h with
  | refl => exact hs
  | tail _ hstep ih => exact hkeep ih hstep

/-- A property that each step keeps whose label the run has holds at its end. -/
theorem invariant_of_mem {I : σ → Prop} (h : Runs step s es t)
    (hkeep : ∀ {a e b}, e ∈ es → I a → step a e b → I b) (hs : I s) : I t := by
  induction h with
  | refl => exact hs
  | tail _ hstep ih =>
      refine hkeep (List.mem_append_right _ (List.mem_singleton_self _)) (ih ?_) hstep
      exact fun he ha hab => hkeep (List.mem_append_left _ he) ha hab

/-- A run of one relation is a run of another one that holds across each step that the states of an
invariant take. -/
theorem imp_of_invariant {step' : σ → ε → σ → Prop} {I : σ → Prop} (h : Runs step s es t)
    (hkeep : ∀ {a e b}, I a → step a e b → I b) (himp : ∀ {a e b}, I a → step a e b → step' a e b)
    (hs : I s) : Runs step' s es t := by
  induction h with
  | refl => exact .refl
  | tail h hstep ih => exact ih.tail (himp (h.invariant hkeep hs) hstep)

/-- A run of one relation is a run of a weaker one. -/
lemma imp {step' : σ → ε → σ → Prop} (h : Runs step s es t)
    (himp : ∀ {a e b}, step a e b → step' a e b) : Runs step' s es t :=
  h.imp_of_invariant (I := fun _ => True) (fun _ _ => trivial) (fun _ hstep => himp hstep) trivial

/-- A run of steps that meet a condition by their labels. -/
lemma restrict {holds : σ → ε → σ → Prop} (h : Runs step s es t)
    (hlabels : ∀ e ∈ es, ∀ a b, holds a e b) :
    Runs (fun a e b => step a e b ∧ holds a e b) s es t := by
  induction h with
  | refl => exact .refl
  | tail _ hstep ih =>
      exact (ih fun e he => hlabels e (List.mem_append_left _ he)).tail
        ⟨hstep, hlabels _ (List.mem_append_right _ (List.mem_singleton_self _)) _ _⟩

/-- A run without labels stays. -/
lemma eq_of_nil (h : Runs step s [] t) : t = s := by
  generalize hlabels : [] = labels at h
  cases h with
  | refl => rfl
  | tail => exact absurd hlabels (by simp)

/-- A run of one label is a step. -/
lemma of_singleton {e : ε} (h : Runs step s [e] t) : step s e t := by
  generalize hlabels : [e] = labels at h
  cases h with
  | refl => exact absurd hlabels (by simp)
  | tail h hstep =>
      obtain ⟨rfl, hlast⟩ := List.append_inj' ((List.nil_append _).trans hlabels) rfl
      obtain rfl := List.singleton_inj.mp hlast
      rwa [h.eq_of_nil] at hstep

/-- A run goes on from where another ends. -/
lemma trans (h : Runs step s es t) (h' : Runs step t fs u) : Runs step s (es ++ fs) u := by
  induction h' with
  | refl => rwa [List.append_nil]
  | tail _ hstep ih =>
      rw [← List.append_assoc]
      exact ih.tail hstep

/-- A run of two lists of labels passes through a state between them. -/
lemma exists_mid (h : Runs step s (es ++ fs) u) : ∃ t, Runs step s es t ∧ Runs step t fs u := by
  generalize hlabels : es ++ fs = labels at h
  induction h generalizing fs with
  | refl =>
      obtain ⟨rfl, rfl⟩ := List.append_eq_nil_iff.mp hlabels
      exact ⟨s, .refl, .refl⟩
  | @tail t u gs e h hstep ih =>
      rcases List.eq_nil_or_concat fs with rfl | ⟨fs, f, rfl⟩
      · rw [List.append_nil] at hlabels
        exact ⟨u, hlabels ▸ h.tail hstep, .refl⟩
      · rw [List.concat_eq_append, ← List.append_assoc] at hlabels
        obtain ⟨rfl, hlast⟩ := List.append_inj' hlabels rfl
        obtain rfl := List.singleton_inj.mp hlast
        obtain ⟨m, hm, hrest⟩ := ih rfl
        exact ⟨m, hm, by rw [List.concat_eq_append]; exact hrest.tail hstep⟩

/-- A run begins with a step of its first label. -/
lemma of_cons {e : ε} (h : Runs step s (e :: es) u) : ∃ t, step s e t ∧ Runs step t es u := by
  rw [← List.singleton_append] at h
  obtain ⟨t, hfirst, hrest⟩ := h.exists_mid
  exact ⟨t, hfirst.of_singleton, hrest⟩

/-- A reflexive and transitive relation that holds across each step holds across a run. -/
theorem rel {I : σ → Prop} {r : σ → σ → Prop} (hrefl : ∀ a, r a a)
    (htrans : ∀ {a b c}, r a b → r b c → r a c)
    (hkeep : ∀ {a e b}, I a → step a e b → I b ∧ r a b) (h : Runs step s es t) (hs : I s) :
    I t ∧ r s t := by
  induction h with
  | refl => exact ⟨hs, hrefl _⟩
  | tail _ hstep ih =>
      obtain ⟨hinv, hrel⟩ := ih
      obtain ⟨hinv', hrel'⟩ := hkeep hinv hstep
      exact ⟨hinv', htrans hrel hrel'⟩

end Runs
