import Memorist.Library.Prog

/-!
Programs whose effects may raise.

* `Fallible`: a program whose effects answer, or raise an error that ends it;
* `ask`, `andThen`, `attempt`: an effect and what follows its answer, programs in sequence, and a
  program with a handler for its end;
* `keeps_ask`, `keeps_andThen`, `only_ask`, `only_andThen`, `safe_ask`, `safe_andThen`,
  `safe_andThen_last`, `eval_ask_ok`, `eval_ask_eq_ok`: the rules for them.
-/

/-- A program whose effects answer, or raise an error. -/
abbrev Fallible (E : Type) (A : E → Type) (ε α : Type) : Type :=
  Prog E (fun e => Except ε (A e)) (Except ε α)

namespace Fallible

variable {E : Type} {A : E → Type} {ε α β γ σ : Type}

/-- A result. -/
def pure (a : α) : Fallible E A ε α := .done (.ok a)

/-- An error ends the program. -/
def raise (error : ε) : Fallible E A ε α := .done (.error error)

/-- An effect, and what follows its answer. -/
def ask (e : E) (k : A e → Fallible E A ε α) : Fallible E A ε α :=
  .call e fun
    | .ok a => k a
    | .error error => .done (.error error)

/-- One program after the other; an error of the first ends both. -/
def andThen (p : Fallible E A ε α) (f : α → Fallible E A ε β) : Fallible E A ε β :=
  p.bind fun
    | .ok a => f a
    | .error error => .done (.error error)

/-- A program, and what is done about its end. -/
def attempt (p : Fallible E A ε α) (handle : Except ε α → Fallible E A ε β) :
    Fallible E A ε β :=
  p.bind handle

section

variable {D : Discipline (fun e : E => Except ε (A e)) γ} {Q : γ → Except ε α → Prop}
variable {Q' : γ → Except ε β → Prop} {g : γ} {e : E} {k : A e → Fallible E A ε α}
variable {p : Fallible E A ε α} {f : α → Fallible E A ε β}

lemma keeps_ask : Prog.Keeps D Q g (ask e k) ↔ D.requires g e ∧
    (∀ a, Prog.Keeps D Q (D.after g e (.ok a)) (k a)) ∧
      ∀ error, Q (D.after g e (.error error)) (.error error) := by
  unfold ask
  rw [Prog.keeps_call]
  refine and_congr_right fun _ => ⟨fun h => ⟨fun a => h (.ok a), fun error => h (.error error)⟩, ?_⟩
  rintro ⟨hok, herror⟩ (error | a)
  · exact herror error
  · exact hok a

lemma keeps_andThen
    (h : Prog.Keeps D (fun g answer => (∀ a, answer = .ok a → Prog.Keeps D Q' g (f a)) ∧
      ∀ error, answer = .error error → Q' g (.error error)) g p) :
    Prog.Keeps D Q' g (andThen p f) := by
  refine Prog.Keeps.bind (h.imp fun g answer hanswer => ?_)
  cases answer with
  | ok a => exact hanswer.1 a rfl
  | error error => exact hanswer.2 error rfl

end

section

variable {effect : σ → (e : E) → Except ε (A e) → σ → Prop}
variable {I : List (Performed fun e : E => Except ε (A e)) → σ → Prop}
variable {Q : List (Performed fun e : E => Except ε (A e)) → Except ε α → σ → Prop}
variable {Q' : List (Performed fun e : E => Except ε (A e)) → Except ε β → σ → Prop}
variable {es : List (Performed fun e : E => Except ε (A e))} {s : σ} {e : E}
variable {k : A e → Fallible E A ε α} {p : Fallible E A ε α} {f : α → Fallible E A ε β}

lemma safe_ask : Prog.Safe effect I Q es s (ask e k) ↔ I es s ∧
    (∀ a t, effect s e (.ok a) t → Prog.Safe effect I Q (es ++ [⟨e, .ok a⟩]) t (k a)) ∧
      ∀ error t, effect s e (.error error) t → Q (es ++ [⟨e, .error error⟩]) (.error error) t := by
  unfold ask
  rw [Prog.safe_call]
  refine and_congr_right fun _ =>
    ⟨fun h => ⟨fun a => h (.ok a), fun error => h (.error error)⟩, ?_⟩
  rintro ⟨hok, herror⟩ (error | a)
  · exact herror error
  · exact hok a

lemma safe_andThen
    (h : Prog.Safe effect I (fun es answer t =>
      (∀ a, answer = .ok a → Prog.Safe effect I Q' es t (f a)) ∧
        ∀ error, answer = .error error → Q' es (.error error) t) es s p) :
    Prog.Safe effect I Q' es s (andThen p f) := by
  refine Prog.Safe.bind (h.imp fun es answer t hanswer => ?_)
  cases answer with
  | ok a => exact hanswer.1 a rfl
  | error error => exact hanswer.2 error rfl

/-- Programs in sequence are safe, whatever the first does, for what the second ensures and each
error does. -/
lemma safe_andThen_last (hf : ∀ a es t, Prog.Safe effect (fun _ _ => True) Q' es t (f a))
    (herror : ∀ error es t, Q' es (.error error) t) :
    Prog.Safe effect (fun _ _ => True) Q' es s (andThen p f) :=
  safe_andThen (Prog.Safe.of_append fun _ _ t =>
    ⟨fun a _ => hf a _ t, fun error _ => herror error _ t⟩)

end

section

variable {permitted : E → Prop} {e : E} {k : A e → Fallible E A ε α} {p : Fallible E A ε α}

lemma only_done (answer : Except ε α) :
    Prog.Only permitted (.done answer : Fallible E A ε α) := trivial

lemma only_ask (he : permitted e) (hk : ∀ a, Prog.Only permitted (k a)) :
    Prog.Only permitted (ask e k) := by
  refine ⟨he, fun response => ?_⟩
  cases response with
  | ok a => exact hk a
  | error error => trivial

lemma only_andThen {f : α → Fallible E A ε β} (h : Prog.Only permitted p)
    (hf : ∀ a, Prog.Only permitted (f a)) : Prog.Only permitted (andThen p f) := by
  refine h.bind fun answer => ?_
  cases answer with
  | ok a => exact hf a
  | error error => trivial

end

section

variable {respond : σ → (e : E) → Except ε (A e) × σ} {s t : σ} {e : E}
variable {k : A e → Fallible E A ε α}

/-- An effect that answers goes on. -/
lemma eval_ask_ok {a : A e} (h : respond s e = (.ok a, t)) :
    (Prog.eval respond s (ask e k)).2 = (Prog.eval respond t (k a)).2 := by
  rw [ask, Prog.eval]
  dsimp only
  rw [h]

/-- An effect that raises ends the program. -/
lemma eval_ask_error {error : ε} (h : respond s e = (.error error, t)) :
    (Prog.eval respond s (ask e k)).2 = (.error error, t) := by
  rw [ask, Prog.eval]
  dsimp only
  rw [h]
  rfl

/-- A program that ends with a result has gone on from an answer. -/
lemma eval_ask_eq_ok {b : α} {u : σ} (h : (Prog.eval respond s (ask e k)).2 = (.ok b, u)) :
    ∃ a t, respond s e = (.ok a, t) ∧ (Prog.eval respond t (k a)).2 = (.ok b, u) := by
  cases hresponse : respond s e with
  | mk answer t =>
      cases answer with
      | error error =>
          rw [eval_ask_error hresponse] at h
          cases h
      | ok a => exact ⟨a, t, rfl, (eval_ask_ok hresponse).symm.trans h⟩

end

end Fallible
