/-
`Program.lean` -- programs with effects, and how to reason about them.

A command-line program reads an environment, changes a state, and ends in an
`Outcome`. What it changed stays changed when it fails: an early `?` returns the
error and leaves the state as it is at that point. `Program` is that, and its
bind is `?` again.

Two ways to reason about a program are set up here. `wp` is its weakest
precondition: `wp_bind` takes a program apart step by step, so a program with
one lemma for each primitive it calls is a formula. `Steps` is for a relation
between the states before and after that is reflexive and transitive, such as
"these files are unchanged": it only has to be shown of the primitives.
-/
import PqcVault.Lib.Outcome

set_option autoImplicit false

namespace Rust

/-- A computation over an environment `ρ` and a state `σ`. -/
def Program (ρ σ ε α : Type) : Type := ρ → σ → Outcome ε α × σ

namespace Program

variable {ρ σ ε α β : Type}

/-! ## Sequencing -/

protected def bind (m : Program ρ σ ε α) (f : α → Program ρ σ ε β) : Program ρ σ ε β := fun r s =>
  match m r s with
  | (.ok a, s') => f a r s'
  | (.err e, s') => (.err e, s')
  | (.panic, s') => (.panic, s')

instance : Monad (Program ρ σ ε) where
  pure a := fun _ s => (.ok a, s)
  bind := Program.bind

private theorem bind_pure_self (m : Program ρ σ ε α) : Program.bind m (fun a => pure a) = m := by
  funext r s
  unfold Program.bind
  rcases m r s with ⟨o, s'⟩
  cases o <;> rfl

private theorem bind_bind {γ : Type} (m : Program ρ σ ε α) (f : α → Program ρ σ ε β)
    (g : β → Program ρ σ ε γ) :
    Program.bind (Program.bind m f) g = Program.bind m fun a => Program.bind (f a) g := by
  funext r s
  unfold Program.bind
  rcases m r s with ⟨o, s'⟩
  cases o <;> rfl

instance : LawfulMonad (Program ρ σ ε) :=
  LawfulMonad.mk' _ bind_pure_self (fun _ _ => rfl) bind_bind

/-- A sequence that ends well went through its first step. -/
theorem bind_run_eq_ok {m : Program ρ σ ε α} {f : α → Program ρ σ ε β} {r : ρ} {s s'' : σ} {b : β} :
    (m >>= f) r s = (.ok b, s'') ↔ ∃ a s', m r s = (.ok a, s') ∧ f a r s' = (.ok b, s'') := by
  change Program.bind m f r s = _ ↔ _
  unfold Program.bind
  rcases m r s with ⟨o, s'⟩
  cases o with
  | ok a => simp
  | err e => simp
  | panic => simp

/-- A sequence behind a step that is known to go on. -/
theorem bind_run_of_ok {m : Program ρ σ ε α} {f : α → Program ρ σ ε β} {r : ρ} {s s' : σ} {a : α}
    (h : m r s = (.ok a, s')) : (m >>= f) r s = f a r s' := by
  change Program.bind m f r s = _
  unfold Program.bind
  rw [h]

/-- A sequence behind a step that is known to panic. -/
theorem bind_run_of_panic {m : Program ρ σ ε α} {f : α → Program ρ σ ε β} {r : ρ} {s s' : σ}
    (h : m r s = (.panic, s')) : (m >>= f) r s = (.panic, s') := by
  change Program.bind m f r s = _
  unfold Program.bind
  rw [h]

/-- A sequence behind a step that is known to stop, with the state it stops in. -/
theorem bind_run_stops {m : Program ρ σ ε α} (f : α → Program ρ σ ε β) {r : ρ} {s : σ}
    (h : ∀ a, (m r s).1 ≠ .ok a) :
    (∀ b, ((m >>= f) r s).1 ≠ .ok b) ∧ ((m >>= f) r s).2 = (m r s).2 := by
  change (∀ b, (Program.bind m f r s).1 ≠ .ok b) ∧ (Program.bind m f r s).2 = (m r s).2
  unfold Program.bind
  rcases hm : m r s with ⟨o, s'⟩
  rw [hm] at h
  cases o with
  | ok a => exact absurd rfl (h a)
  | err e => simp
  | panic => simp

/-- A sequence panics in its first step or behind it. -/
theorem bind_run_eq_panic {m : Program ρ σ ε α} {f : α → Program ρ σ ε β} {r : ρ} {s : σ} :
    ((m >>= f) r s).1 = .panic
      ↔ (m r s).1 = .panic ∨ ∃ a s', m r s = (.ok a, s') ∧ (f a r s').1 = .panic := by
  change (Program.bind m f r s).1 = _ ↔ _
  unfold Program.bind
  rcases m r s with ⟨o, s'⟩
  cases o with
  | ok a => simp
  | err e => simp
  | panic => simp

/-- A sequence returns the error of its first step, or of what follows it. -/
theorem bind_run_eq_err {m : Program ρ σ ε α} {f : α → Program ρ σ ε β} {r : ρ} {s : σ} {e : ε} :
    ((m >>= f) r s).1 = .err e
      ↔ (m r s).1 = .err e ∨ ∃ a s', m r s = (.ok a, s') ∧ (f a r s').1 = .err e := by
  change (Program.bind m f r s).1 = _ ↔ _
  unfold Program.bind
  rcases m r s with ⟨o, s'⟩
  cases o with
  | ok a => simp
  | err e => simp
  | panic => simp

/-- A computation without effects. -/
def lift (x : Outcome ε α) : Program ρ σ ε α := fun _ s => (x, s)

/-- `return Err(e)`. -/
def fail (e : ε) : Program ρ σ ε α := lift (.err e)

/-- A look at the environment. -/
def ask : Program ρ σ ε ρ := fun r s => (.ok r, s)

/-! ## Weakest preconditions -/

/-- The program, run from here, ends in `Q`. -/
def wp (m : Program ρ σ ε α) (Q : Outcome ε α → σ → Prop) (r : ρ) (s : σ) : Prop :=
  Q (m r s).1 (m r s).2

/-- How a postcondition reads one step earlier: an error or a panic is final. -/
def andThen (f : α → Program ρ σ ε β) (Q : Outcome ε β → σ → Prop) (r : ρ) :
    Outcome ε α → σ → Prop
  | .ok a, s => wp (f a) Q r s
  | .err e, s => Q (.err e) s
  | .panic, s => Q .panic s

variable {m : Program ρ σ ε α} {f : α → Program ρ σ ε β} {Q : Outcome ε β → σ → Prop}

/-- A run that is known is a postcondition. -/
theorem wp_eq {r : ρ} {s : σ} {x : Outcome ε α × σ} :
    wp m (fun o s' => (o, s') = x) r s ↔ m r s = x := Iff.rfl

theorem wp_bind {r : ρ} {s : σ} : wp (m >>= f) Q r s ↔ wp m (andThen f Q r) r s := by
  change Q (Program.bind m f r s).1 (Program.bind m f r s).2
    ↔ andThen f Q r (m r s).1 (m r s).2
  unfold Program.bind
  split <;> simp [*, andThen, wp]

@[simp] theorem andThen_ok (a : α) (r : ρ) (s : σ) :
    andThen f Q r (.ok a) s ↔ wp (f a) Q r s := Iff.rfl

@[simp] theorem andThen_err (e : ε) (r : ρ) (s : σ) :
    andThen f Q r (.err e) s ↔ Q (.err e) s := Iff.rfl

@[simp] theorem andThen_panic (r : ρ) (s : σ) :
    andThen f Q r .panic s ↔ Q .panic s := Iff.rfl

@[simp] theorem wp_pure {R : Outcome ε α → σ → Prop} {a : α} {r : ρ} {s : σ} :
    wp (pure a : Program ρ σ ε α) R r s ↔ R (.ok a) s := Iff.rfl

@[simp] theorem wp_lift {R : Outcome ε α → σ → Prop} {x : Outcome ε α} {r : ρ} {s : σ} :
    wp (lift x : Program ρ σ ε α) R r s ↔ R x s := Iff.rfl

@[simp] theorem wp_fail {R : Outcome ε α → σ → Prop} {e : ε} {r : ρ} {s : σ} :
    wp (fail e : Program ρ σ ε α) R r s ↔ R (.err e) s := Iff.rfl

@[simp] theorem wp_ask {R : Outcome ε ρ → σ → Prop} {r : ρ} {s : σ} :
    wp (ask : Program ρ σ ε ρ) R r s ↔ R (.ok r) s := Iff.rfl

/-! ## What every step does -/

/-- However the program ends, it relates the state before to the state after. -/
def Steps (R : σ → σ → Prop) (m : Program ρ σ ε α) : Prop := ∀ r s, R s (m r s).2

namespace Steps

variable {R : σ → σ → Prop}

theorem lift (hrefl : ∀ s, R s s) (x : Outcome ε α) :
    Steps R (Program.lift x : Program ρ σ ε α) := fun _ s => hrefl s

theorem pure (hrefl : ∀ s, R s s) (a : α) : Steps R (Pure.pure a : Program ρ σ ε α) :=
  fun _ s => hrefl s

theorem ask (hrefl : ∀ s, R s s) : Steps R (Program.ask : Program ρ σ ε ρ) := fun _ s => hrefl s

theorem bind (htrans : ∀ a b c, R a b → R b c → R a c) (hm : Steps R m)
    (hf : ∀ a, Steps R (f a)) : Steps R (m >>= f) := by
  intro r s
  change R s (Program.bind m f r s).2
  have hfirst := hm r s
  unfold Program.bind
  split
  case h_1 a s' heq =>
      rw [heq] at hfirst
      exact htrans _ _ _ hfirst (hf a r s')
  case h_2 e s' heq =>
      rw [heq] at hfirst
      exact hfirst
  case h_3 s' heq =>
      rw [heq] at hfirst
      exact hfirst

end Steps

/-! ## Programs that do not panic -/

/-- From whatever state, the program returns. -/
def PanicFree (m : Program ρ σ ε α) : Prop := ∀ r s, (m r s).1.NoPanic

namespace PanicFree

theorem lift {x : Outcome ε α} (h : x.NoPanic) : PanicFree (Program.lift x : Program ρ σ ε α) :=
  fun _ _ => h

theorem pure (a : α) : PanicFree (Pure.pure a : Program ρ σ ε α) := fun _ _ => Outcome.noPanic_ok a

theorem fail (e : ε) : PanicFree (Program.fail e : Program ρ σ ε α) := lift (Outcome.noPanic_err e)

theorem ask : PanicFree (Program.ask : Program ρ σ ε ρ) := fun r _ => Outcome.noPanic_ok r

variable {m : Program ρ σ ε α} {f : α → Program ρ σ ε β}

theorem bind (hm : PanicFree m) (hf : ∀ a, PanicFree (f a)) : PanicFree (m >>= f) := by
  intro r s hpanic
  rcases bind_run_eq_panic.mp hpanic with h | ⟨a, s', -, h⟩
  · exact hm r s h
  · exact hf a r s' h

/-- Behind a step that returns, the rest is what may panic. -/
theorem bind_eq_panic (hm : PanicFree m) {r : ρ} {s : σ} :
    ((m >>= f) r s).1 = .panic ↔ ∃ a s', m r s = (.ok a, s') ∧ (f a r s').1 = .panic := by
  rw [bind_run_eq_panic]
  exact or_iff_right (hm r s)

/-- In front of a rest that returns, the step is what may panic. -/
theorem eq_panic_bind (hf : ∀ a, PanicFree (f a)) {r : ρ} {s : σ} :
    ((m >>= f) r s).1 = .panic ↔ (m r s).1 = .panic := by
  rw [bind_run_eq_panic]
  refine or_iff_left ?_
  rintro ⟨a, s', -, h⟩
  exact hf a r s' h

end PanicFree

end Program

end Rust
