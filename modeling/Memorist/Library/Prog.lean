import Mathlib.Data.List.ReduceOption
import Mathlib.Data.Multiset.MapFold
import Mathlib.Tactic
import Memorist.Library.Runs

/-!
Programs that perform effects, alone and side by side on a shared state.

* `Prog`: a result, or an effect and what follows each of its responses;
* `Trace`: the effects a program performs until it stops;
* `Discipline`, `Keeps`: which effects a program may perform, given what the earlier ones
  answered; a program that keeps a discipline keeps it along each trace (`Keeps.trace`), and in
  sequence with another (`Keeps.bind`);
* `Exec`, `eval`: a program alone on a state, up to where it stops or crashes, and to its end by
  given responses;
* `Safe`: what holds on the way, wherever the program is cut off, and at its end (`Safe.outcome`,
  `Safe.bind`); `Only`: the effects that a program performs (`Safe.of_only`);
* `Pool`, `PoolStep`: programs that start, act one at a time and stop anywhere;
* `PoolStep.invariant_from`, `PoolStep.invariant`: an invariant over the shared state and what the
  running programs hold.
-/

/-- A program with effects `e : E` and responses in `R e`. -/
inductive Prog (E : Type) (R : E → Type) (α : Type) : Type
  | done (a : α)
  | call (e : E) (k : R e → Prog E R α)

/-- An effect with its response. -/
abbrev Performed {E : Type} (R : E → Type) : Type := (e : E) × R e

/-- What a program may do: the effects that a state allows, and the state after a response. -/
structure Discipline {E : Type} (R : E → Type) (γ : Type) where
  requires : γ → E → Prop
  after : γ → (e : E) → R e → γ

namespace Prog

variable {E : Type} {R : E → Type} {α γ σ : Type}

/-- The program performs the effects and goes on as another. -/
inductive Trace : Prog E R α → List (Performed R) → Prog E R α → Prop
  | refl (p : Prog E R α) : Trace p [] p
  | call {e : E} {k : R e → Prog E R α} (r : R e) {es : List (Performed R)} {q : Prog E R α}
      (h : Trace (k r) es q) : Trace (.call e k) (⟨e, r⟩ :: es) q

/-- From a state on the program does what the discipline allows, and its result meets the
condition. -/
def Keeps (D : Discipline R γ) (Q : γ → α → Prop) : γ → Prog E R α → Prop
  | g, .done a => Q g a
  | g, .call e k => D.requires g e ∧ ∀ r, Keeps D Q (D.after g e r) (k r)

variable {D : Discipline R γ} {Q : γ → α → Prop} {g : γ} {p q : Prog E R α}

@[simp] lemma keeps_done {a : α} : Keeps D Q g (.done a) ↔ Q g a := Iff.rfl

@[simp] lemma keeps_call {e : E} {k : R e → Prog E R α} :
    Keeps D Q g (.call e k) ↔ D.requires g e ∧ ∀ r, Keeps D Q (D.after g e r) (k r) := Iff.rfl

lemma Keeps.imp {Q' : γ → α → Prop} (hQ : ∀ g a, Q g a → Q' g a) (h : Keeps D Q g p) :
    Keeps D Q' g p := by
  induction p generalizing g with
  | done a => exact hQ g a h
  | call e k ih => exact ⟨h.1, fun r => ih r (h.2 r)⟩

/-- A discipline that is coarser than another one is kept as well. -/
lemma Keeps.map {δ : Type} {D' : Discipline R δ} (φ : γ → δ)
    (hreq : ∀ g e, D.requires g e → D'.requires (φ g) e)
    (hafter : ∀ g e r, D'.after (φ g) e r = φ (D.after g e r)) (h : Keeps D Q g p) :
    Keeps D' (fun _ _ => True) (φ g) p := by
  induction p generalizing g with
  | done a => trivial
  | call e k ih => exact ⟨hreq g e h.1, fun r => by rw [hafter]; exact ih r (h.2 r)⟩

/-- One program after the other. -/
def bind {β : Type} : Prog E R α → (α → Prog E R β) → Prog E R β
  | .done a, f => f a
  | .call e k, f => .call e fun r => bind (k r) f

/-- Programs in sequence keep the discipline if the second keeps it from where the first ends. -/
lemma Keeps.bind {β : Type} {Q' : γ → β → Prop} {f : α → Prog E R β}
    (h : Keeps D (fun g a => Keeps D Q' g (f a)) g p) : Keeps D Q' g (p.bind f) := by
  induction p generalizing g with
  | done a => exact h
  | call e k ih => exact ⟨h.1, fun r => ih r (h.2 r)⟩

/-- What the program goes on as keeps the discipline from the state after the effects. -/
theorem Keeps.trace {es : List (Performed R)} (h : Keeps D Q g p) (ht : Trace p es q) :
    Keeps D Q (es.foldl (fun g x => D.after g x.1 x.2) g) q := by
  induction ht generalizing g with
  | refl => exact h
  | call r _ ih => exact ih (h.2 r)

/-- Each effect of a trace was allowed when it was performed. -/
theorem Keeps.requires {es fs : List (Performed R)} {x : Performed R} (h : Keeps D Q g p)
    (ht : Trace p (es ++ x :: fs) q) :
    D.requires (es.foldl (fun g x => D.after g x.1 x.2) g) x.1 := by
  induction es generalizing g p with
  | nil =>
      cases ht with
      | call r _ => exact h.1
  | cons y es ih =>
      cases ht with
      | call r ht => exact ih (h.2 r) ht

/-! ### A program on a state -/

/-- The program performs the effects on a state, each as it may, and goes on as another. -/
inductive Exec (effect : σ → (e : E) → R e → σ → Prop) :
    σ → Prog E R α → List (Performed R) → Prog E R α → σ → Prop
  | refl (s : σ) (p : Prog E R α) : Exec effect s p [] p s
  | call {s t u : σ} {e : E} {k : R e → Prog E R α} {r : R e} {es : List (Performed R)}
      {q : Prog E R α} (he : effect s e r t) (h : Exec effect t (k r) es q u) :
      Exec effect s (.call e k) (⟨e, r⟩ :: es) q u

/-- A program performs an effect, and what the program after it performs. -/
lemma Exec.exists_call {effect : σ → (e : E) → R e → σ → Prop} {s t u : σ} {e : E}
    {k : R e → Prog E R α} {r : R e} {es : List (Performed R)} (he : effect s e r t)
    (h : ∃ q, Exec effect t (k r) es q u) : ∃ q, Exec effect s (.call e k) (⟨e, r⟩ :: es) q u :=
  h.imp fun _ hexec => .call he hexec

/-- The result of a program that has ended. -/
def result? : Prog E R α → Option α
  | .done a => some a
  | .call _ _ => none

@[simp] lemma result?_done {a : α} : (.done a : Prog E R α).result? = some a := rfl

@[simp] lemma result?_call {e : E} {k : R e → Prog E R α} :
    (Prog.call e k).result? = none := rfl

/-- After the effects the condition holds wherever the program is cut off, and at its end the other
one holds of its result. -/
def Safe (effect : σ → (e : E) → R e → σ → Prop) (I : List (Performed R) → σ → Prop)
    (Q : List (Performed R) → α → σ → Prop) : List (Performed R) → σ → Prog E R α → Prop
  | es, s, .done a => Q es a s
  | es, s, .call e k => I es s ∧ ∀ r t, effect s e r t → Safe effect I Q (es ++ [⟨e, r⟩]) t (k r)

section

variable {effect : σ → (e : E) → R e → σ → Prop} {I : List (Performed R) → σ → Prop}
variable {Q Q' : List (Performed R) → α → σ → Prop} {es fs : List (Performed R)} {s t : σ}

@[simp] lemma safe_done {a : α} : Safe effect I Q es s (.done a) ↔ Q es a s := Iff.rfl

@[simp] lemma safe_call {e : E} {k : R e → Prog E R α} :
    Safe effect I Q es s (.call e k) ↔
      I es s ∧ ∀ r t, effect s e r t → Safe effect I Q (es ++ [⟨e, r⟩]) t (k r) := Iff.rfl

/-- A program stays safe along its effects. -/
theorem Safe.exec (h : Safe effect I Q es s p) (hexec : Exec effect s p fs q t) :
    Safe effect I Q (es ++ fs) t q := by
  induction hexec generalizing es with
  | refl s p => rwa [List.append_nil]
  | call he _ ih => simpa using ih (h.2 _ _ he)

/-- A safe program is cut off where the one condition holds, or has ended where the other does. -/
theorem Safe.outcome (h : Safe effect I Q es s p) (hexec : Exec effect s p fs q t) :
    q.result? = none ∧ I (es ++ fs) t ∨ ∃ a, q.result? = some a ∧ Q (es ++ fs) a t := by
  have hend := h.exec hexec
  cases q with
  | done a => exact .inr ⟨a, rfl, hend⟩
  | call e k => exact .inl ⟨rfl, hend.1⟩

lemma Safe.imp (hQ : ∀ es a s, Q es a s → Q' es a s) (h : Safe effect I Q es s p) :
    Safe effect I Q' es s p := by
  induction p generalizing es s with
  | done a => exact hQ _ _ _ h
  | call e k ih => exact ⟨h.1, fun r t he => ih r (h.2 r t he)⟩

/-- Each effect of the program is a permitted one. -/
def Only (permitted : E → Prop) : Prog E R α → Prop
  | .done _ => True
  | .call e k => permitted e ∧ ∀ r, Only permitted (k r)

lemma Only.bind {β : Type} {permitted : E → Prop} {f : α → Prog E R β} (h : Only permitted p)
    (hf : ∀ a, Only permitted (f a)) : Only permitted (p.bind f) := by
  induction p with
  | done a => exact hf a
  | call e k ih => exact ⟨h.1, fun r => ih r (h.2 r)⟩

/-- What each permitted effect keeps, a program of such effects keeps. -/
lemma Safe.of_only {permitted : E → Prop} (h : Only permitted p)
    (hkeep : ∀ {es s e r t}, permitted e → I es s → effect s e r t → I (es ++ [⟨e, r⟩]) t)
    (hs : I es s) : Safe effect I (fun es _ t => I es t) es s p := by
  induction p generalizing es s with
  | done a => exact hs
  | call e k ih => exact ⟨hs, fun r t he => ih r (h.2 r) (hkeep h.1 hs he)⟩

lemma Safe.mono {I' : List (Performed R) → σ → Prop} (hI : ∀ es s, I es s → I' es s)
    (hQ : ∀ es a s, Q es a s → Q' es a s) (h : Safe effect I Q es s p) :
    Safe effect I' Q' es s p := by
  induction p generalizing es s with
  | done a => exact hQ _ _ _ h
  | call e k ih => exact ⟨hI _ _ h.1, fun r t he => ih r (h.2 r t he)⟩

/-- A program is safe for what holds after all effects that it may add. -/
lemma Safe.of_append (hQ : ∀ fs a t, Q (es ++ fs) a t) :
    Safe effect (fun _ _ => True) Q es s p := by
  induction p generalizing es s with
  | done a => simpa using hQ [] a s
  | call e k ih => exact ⟨trivial, fun r t _ => ih r fun fs a u => by simpa using hQ (⟨e, r⟩ :: fs) a u⟩

/-- Programs in sequence are safe if the second is from where the first ends. -/
lemma Safe.bind {β : Type} {Q' : List (Performed R) → β → σ → Prop} {f : α → Prog E R β}
    (h : Safe effect I (fun es a s => Safe effect I Q' es s (f a)) es s p) :
    Safe effect I Q' es s (p.bind f) := by
  induction p generalizing es s with
  | done a => exact h
  | call e k ih => exact ⟨h.1, fun r t he => ih r (h.2 r t he)⟩

end

/-- What each effect keeps, a program keeps. -/
theorem Exec.invariant {effect : σ → (e : E) → R e → σ → Prop} {I : σ → Prop}
    (hkeep : ∀ {s e r t}, I s → effect s e r t → I t) {es : List (Performed R)} {s t : σ}
    (hexec : Exec effect s p es q t) (hs : I s) : I t := by
  induction hexec with
  | refl => exact hs
  | call he _ ih => exact ih (hkeep hs he)

/-- A program that performs some effects performs them where more are allowed. -/
theorem Exec.mono {effect effect' : σ → (e : E) → R e → σ → Prop}
    (hsub : ∀ {s e r t}, effect s e r t → effect' s e r t) {es : List (Performed R)} {s t : σ}
    (hexec : Exec effect s p es q t) : Exec effect' s p es q t := by
  induction hexec with
  | refl s p => exact .refl s p
  | call he _ ih => exact .call (hsub he) ih

/-- The effects that a program performs on a state. -/
lemma Exec.trace {effect : σ → (e : E) → R e → σ → Prop} {es : List (Performed R)} {s t : σ}
    (hexec : Exec effect s p es q t) : Trace p es q := by
  induction hexec with
  | refl s p => exact .refl p
  | call _ _ ih => exact .call _ ih

/-- The effects, the result and the state after a program that is answered in the given way. -/
def eval (respond : σ → (e : E) → R e × σ) : σ → Prog E R α → List (Performed R) × α × σ
  | s, .done a => ([], a, s)
  | s, .call e k =>
      let answer := respond s e
      let rest := eval respond answer.2 (k answer.1)
      (⟨e, answer.1⟩ :: rest.1, rest.2)

/-- A program answered as the relation allows runs to its end. -/
theorem exec_eval {effect : σ → (e : E) → R e → σ → Prop} {respond : σ → (e : E) → R e × σ}
    (h : ∀ s e, effect s e (respond s e).1 (respond s e).2) (s : σ) (p : Prog E R α) :
    Exec effect s p (eval respond s p).1 (.done (eval respond s p).2.1)
      (eval respond s p).2.2 := by
  induction p generalizing s with
  | done a => exact .refl s _
  | call e k ih => exact .call (h s e) (ih _ _)

/-- A program answered as the relation allows from states that an invariant holds of runs to its
end. -/
theorem exec_eval_of_invariant {effect : σ → (e : E) → R e → σ → Prop}
    {respond : σ → (e : E) → R e × σ} {I : σ → Prop}
    (h : ∀ s e, I s → effect s e (respond s e).1 (respond s e).2 ∧ I (respond s e).2) {s : σ}
    (hs : I s) (p : Prog E R α) :
    Exec effect s p (eval respond s p).1 (.done (eval respond s p).2.1) (eval respond s p).2.2 ∧
      I (eval respond s p).2.2 := by
  induction p generalizing s with
  | done a => exact ⟨.refl s _, hs⟩
  | call e k ih =>
      obtain ⟨he, ht⟩ := h s e hs
      obtain ⟨hexec, hend⟩ := ih _ ht
      exact ⟨.call he hexec, hend⟩

/-- Each response of an evaluation is a given one. -/
lemma exists_of_mem_eval {respond : σ → (e : E) → R e × σ} {s : σ} {p : Prog E R α} {e : E}
    {r : R e} (h : (⟨e, r⟩ : Performed R) ∈ (eval respond s p).1) : ∃ t, r = (respond t e).1 := by
  induction p generalizing s with
  | done a => exact absurd h List.not_mem_nil
  | call e' k ih =>
      rcases List.mem_cons.mp h with hhead | htail
      · cases hhead
        exact ⟨s, rfl⟩
      · exact ih _ htail

end Prog

/-! ### Programs on a shared state -/

/-- The programs that run on a shared state. -/
structure Pool (σ E : Type) (R : E → Type) (α : Type) where
  shared : σ
  running : Multiset (Prog E R α)

section

variable {E : Type} {R : E → Type} {α γ σ : Type}

/-- A program starts, performs its next effect, or stops: at its end, or by a crash. -/
inductive PoolStep (effect : σ → (e : E) → R e → σ → Prop) (starts : Prog E R α → Prop) :
    Pool σ E R α → Option (Performed R) → Pool σ E R α → Prop
  | start {s : σ} {ps : Multiset (Prog E R α)} {p : Prog E R α} (h : starts p) :
      PoolStep effect starts ⟨s, ps⟩ none ⟨s, p ::ₘ ps⟩
  | act {s s' : σ} {ps : Multiset (Prog E R α)} {e : E} {k : R e → Prog E R α} {r : R e}
      (h : effect s e r s') : PoolStep effect starts ⟨s, .call e k ::ₘ ps⟩ (some ⟨e, r⟩)
        ⟨s', k r ::ₘ ps⟩
  | stop {s : σ} {ps : Multiset (Prog E R α)} {p : Prog E R α} :
      PoolStep effect starts ⟨s, p ::ₘ ps⟩ none ⟨s, ps⟩

namespace PoolStep

variable {effect : σ → (e : E) → R e → σ → Prop} {starts : Prog E R α → Prop}

/-- A labelled step is an effect on the shared state. -/
lemma effect_of_some {a b : Pool σ E R α} {x : Performed R}
    (h : PoolStep effect starts a (some x) b) : effect a.shared x.1 x.2 b.shared := by
  cases h with
  | act h => exact h

/-- What the running programs hold: a state of the discipline for each of them. -/
def Holds (D : Discipline R γ) (running : Multiset (Prog E R α)) (held : Multiset γ) : Prop :=
  ∃ pairs : Multiset (γ × Prog E R α), pairs.map Prod.snd = running ∧ pairs.map Prod.fst = held ∧
    ∀ x ∈ pairs, Prog.Keeps D (fun _ _ => True) x.1 x.2

lemma Holds.cons {D : Discipline R γ} {ps : Multiset (Prog E R α)} {held : Multiset γ} {g : γ}
    {p : Prog E R α} (hp : Prog.Keeps D (fun _ _ => True) g p) (h : Holds D ps held) :
    Holds D (p ::ₘ ps) (g ::ₘ held) := by
  obtain ⟨pairs, rfl, rfl, hkeeps⟩ := h
  refine ⟨(g, p) ::ₘ pairs, Multiset.map_cons _ _ _, Multiset.map_cons _ _ _, fun x hx => ?_⟩
  rcases Multiset.mem_cons.mp hx with rfl | hx
  · exact hp
  · exact hkeeps x hx

lemma Holds.of_cons {D : Discipline R γ} {ps : Multiset (Prog E R α)} {held : Multiset γ}
    {p : Prog E R α} (h : Holds D (p ::ₘ ps) held) :
    ∃ g held', held = g ::ₘ held' ∧ Prog.Keeps D (fun _ _ => True) g p ∧ Holds D ps held' := by
  classical
  obtain ⟨pairs, hsnd, rfl, hkeeps⟩ := h
  obtain ⟨x, hx, rfl, hrest⟩ := (Multiset.map_eq_cons _ _ _ _).mpr hsnd
  refine ⟨x.1, (pairs.erase x).map Prod.fst, ?_, hkeeps x hx, pairs.erase x, hrest, rfl,
    fun y hy => hkeeps y (Multiset.mem_of_mem_erase hy)⟩
  rw [← Multiset.map_cons, Multiset.cons_erase hx]

/-- An invariant over the shared state, what the running programs hold and what was performed, which
a start, a stop and every allowed effect keep, holds after a run from a pool that it holds of. -/
theorem invariant_from (D : Discipline R γ) (g₀ : γ)
    {I : σ → Multiset γ → List (Performed R) → Prop}
    (hstarts : ∀ p, starts p → Prog.Keeps D (fun _ _ => True) g₀ p)
    (hstart : ∀ {s held es}, I s held es → I s (g₀ ::ₘ held) es)
    (hstop : ∀ {s g held es}, I s (g ::ₘ held) es → I s held es)
    (hact : ∀ {s g held es e r s'}, I s (g ::ₘ held) es → D.requires g e → effect s e r s' →
      I s' (D.after g e r ::ₘ held) (es ++ [⟨e, r⟩]))
    {pool₀ pool : Pool σ E R α} {held₀ : Multiset γ} (hholds : Holds D pool₀.running held₀)
    (hinit : I pool₀.shared held₀ []) {labels : List (Option (Performed R))}
    (hruns : Runs (PoolStep effect starts) pool₀ labels pool) :
    ∃ held, Holds D pool.running held ∧ I pool.shared held labels.reduceOption := by
  induction hruns with
  | refl => exact ⟨held₀, hholds, hinit⟩
  | tail _ hstep ih =>
      obtain ⟨held, hholds, hinv⟩ := ih
      rw [List.reduceOption_append]
      cases hstep with
      | start h =>
          exact ⟨g₀ ::ₘ held, hholds.cons (hstarts _ h), by simpa using hstart hinv⟩
      | act h =>
          obtain ⟨g, held, rfl, hkeeps, hholds⟩ := hholds.of_cons
          exact ⟨_, hholds.cons (hkeeps.2 _), hact hinv hkeeps.1 h⟩
      | stop =>
          obtain ⟨g, held, rfl, -, hholds⟩ := hholds.of_cons
          exact ⟨held, hholds, by simpa using hstop hinv⟩

/-- An invariant that holds of a store without programs holds after any run. -/
theorem invariant (D : Discipline R γ) (g₀ : γ)
    {I : σ → Multiset γ → List (Performed R) → Prop}
    (hstarts : ∀ p, starts p → Prog.Keeps D (fun _ _ => True) g₀ p)
    (hstart : ∀ {s held es}, I s held es → I s (g₀ ::ₘ held) es)
    (hstop : ∀ {s g held es}, I s (g ::ₘ held) es → I s held es)
    (hact : ∀ {s g held es e r s'}, I s (g ::ₘ held) es → D.requires g e → effect s e r s' →
      I s' (D.after g e r ::ₘ held) (es ++ [⟨e, r⟩]))
    {s₀ : σ} (hinit : I s₀ 0 []) {labels : List (Option (Performed R))} {pool : Pool σ E R α}
    (hruns : Runs (PoolStep effect starts) ⟨s₀, 0⟩ labels pool) :
    ∃ held, Holds D pool.running held ∧ I pool.shared held labels.reduceOption := by
  have hnone : Holds D (0 : Multiset (Prog E R α)) (0 : Multiset γ) := ⟨0, rfl, rfl, by simp⟩
  exact invariant_from (I := I) D g₀ hstarts hstart hstop hact hnone hinit hruns

/-- Programs that hold the same, each. -/
lemma holds_of_forall {D : Discipline R γ} {g : γ} {ps : Multiset (Prog E R α)}
    (h : ∀ p ∈ ps, Prog.Keeps D (fun _ _ => True) g p) :
    ∃ held, Holds D ps held ∧ ∀ g' ∈ held, g' = g := by
  refine ⟨ps.map fun _ => g, ⟨ps.map fun p => (g, p), ?_, ?_, ?_⟩, ?_⟩
  · rw [Multiset.map_map]
    exact Multiset.map_id ps
  · rw [Multiset.map_map]
    rfl
  · rintro x hx
    obtain ⟨p, hp, rfl⟩ := Multiset.mem_map.mp hx
    exact h p hp
  · rintro g' hg'
    obtain ⟨_, -, rfl⟩ := Multiset.mem_map.mp hg'
    rfl

/-- A program runs for a while, the others waiting. -/
lemma runs_exec {s t : σ} {p q : Prog E R α} {es : List (Performed R)}
    (hexec : Prog.Exec effect s p es q t) (ps : Multiset (Prog E R α)) :
    Runs (PoolStep effect starts) ⟨s, p ::ₘ ps⟩ (es.map some) ⟨t, q ::ₘ ps⟩ := by
  induction hexec with
  | refl => exact .refl
  | call he _ ih => exact (Runs.refl.tail (.act he)).trans ih

/-- The effects of a run of programs, on the shared state. -/
lemma runs_effects {a b : Pool σ E R α} {labels : List (Option (Performed R))}
    (hruns : Runs (PoolStep effect starts) a labels b) :
    Runs (fun s (x : Performed R) s' => effect s x.1 x.2 s') a.shared labels.reduceOption
      b.shared := by
  induction hruns with
  | refl => exact .refl
  | tail _ hstep ih =>
      rw [List.reduceOption_append]
      cases hstep with
      | start => simpa using ih
      | act h => exact ih.tail h
      | stop => simpa using ih

/-- The shared state changes only as its effects do. -/
theorem shared_rel {r : σ → σ → Prop} (hrefl : ∀ s, r s s)
    (htrans : ∀ {a b c}, r a b → r b c → r a c)
    (heffect : ∀ {s e resp s'}, effect s e resp s' → r s s') {a b : Pool σ E R α}
    {labels : List (Option (Performed R))} (hruns : Runs (PoolStep effect starts) a labels b) :
    r a.shared b.shared := by
  refine (hruns.rel (I := fun _ => True) (r := fun a b => r a.shared b.shared)
    (fun a => hrefl a.shared) htrans ?_ trivial).2
  intro a label b _ hstep
  cases hstep with
  | start => exact ⟨trivial, hrefl _⟩
  | act h => exact ⟨trivial, heffect h⟩
  | stop => exact ⟨trivial, hrefl _⟩

end PoolStep

end
