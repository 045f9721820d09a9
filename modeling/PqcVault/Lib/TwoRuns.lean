/-
`TwoRuns.lean` -- two runs of one program.

Two questions about a program are questions about two of its runs. *What does it
depend on?* is about two runs in one environment, from states that agree on some
part: `Lockstep R` says that they end alike and in states that are related again.
*What does a failing call change?* is about two runs from one state, in an
environment where some calls fail and in one where none does: `FailStop` says that
the first failing call stops the program where it stands, with an error or a panic,
and that before it the two runs are the same.

Either is shown of the calls a program makes and then holds of the program: both
pass through `bind`, and an `ask` is passed when what follows does not look at the
part of the environment that differs.
-/
import Mathlib.Data.Nat.Find
import PqcVault.Lib.Program

set_option autoImplicit false

namespace Rust.Program

variable {ρ σ ε α β : Type}

/-! ## Two states -/

/-- From related states the program ends alike, and in related states. -/
def Lockstep (R : σ → σ → Prop) (m : Program ρ σ ε α) : Prop :=
  ∀ r s t, R s t → (m r s).1 = (m r t).1 ∧ R (m r s).2 (m r t).2

namespace Lockstep

variable {R : σ → σ → Prop} {m : Program ρ σ ε α} {f : α → Program ρ σ ε β}

theorem lift (x : Outcome ε α) : Lockstep R (Program.lift x : Program ρ σ ε α) :=
  fun _ _ _ h => ⟨rfl, h⟩

theorem pure (a : α) : Lockstep R (Pure.pure a : Program ρ σ ε α) := fun _ _ _ h => ⟨rfl, h⟩

theorem ask : Lockstep R (Program.ask : Program ρ σ ε ρ) := fun _ _ _ h => ⟨rfl, h⟩

theorem bind (hm : Lockstep R m) (hf : ∀ a, Lockstep R (f a)) : Lockstep R (m >>= f) := by
  intro r s t hst
  obtain ⟨hends, hstates⟩ := hm r s t hst
  change (Program.bind m f r s).1 = (Program.bind m f r t).1
    ∧ R (Program.bind m f r s).2 (Program.bind m f r t).2
  unfold Program.bind
  rcases hs : m r s with ⟨o, s'⟩
  rcases ht : m r t with ⟨o', t'⟩
  rw [hs, ht] at hends hstates
  obtain rfl : o = o' := hends
  cases o with
  | ok a => exact hf a r s' t' hstates
  | err e => exact ⟨rfl, hstates⟩
  | panic => exact ⟨rfl, hstates⟩

end Lockstep

/-! ## Two environments -/

/-- The calls of a program that can fail: how many there were, which of them the
environment serves, what a state can still become, and how a program stops at a call
that is not served, in a state that another run has left behind. -/
structure Calls (ρ σ ε : Type) where
  count : σ → ℕ
  serves : ρ → ℕ → Bool
  later : σ → σ → Prop
  later_refl : ∀ s, later s s
  later_trans : ∀ {s t u}, later s t → later t u → later s u
  count_le : ∀ {s t}, later s t → count s ≤ count t
  stops : Option ε → σ → σ → Prop
  stops_later : ∀ {e s t u}, stops e s t → later t u → stops e s u

/-- Every call between two numbers is served. -/
def Calls.Served (C : Calls ρ σ ε) (r : ρ) (a b : ℕ) : Prop :=
  ∀ k, a ≤ k → k < b → C.serves r k = true

/-- The first call between two numbers that is not served. -/
structure Calls.FirstFault (C : Calls ρ σ ε) (r : ρ) (a b k : ℕ) : Prop where
  le : a ≤ k
  lt : k < b
  fails : C.serves r k = false
  before : C.Served r a k

/-- Calls that are not all served have a first that is not. -/
theorem Calls.exists_firstFault {C : Calls ρ σ ε} {r : ρ} {a b : ℕ} (h : ¬ C.Served r a b) :
    ∃ k, C.FirstFault r a b k := by
  classical
  have hsome : ∃ k, a ≤ k ∧ k < b ∧ C.serves r k = false := by
    simpa [Served] using h
  obtain ⟨hle, hlt, hfails⟩ := Nat.find_spec hsome
  refine ⟨Nat.find hsome, hle, hlt, hfails, fun k h₁ h₂ => ?_⟩
  by_contra hk
  exact Nat.find_min hsome h₂ ⟨h₁, by omega, Bool.eq_false_iff.mpr hk⟩

/-- Compared with the run in `r₀`, the run in `r` is the same if every call is served,
and stops at the first call that is not, in a state the other goes through or past. -/
structure FailStop (C : Calls ρ σ ε) (r r₀ : ρ) (m : Program ρ σ ε α) : Prop where
  later : ∀ s, C.later s (m r₀ s).2
  served : ∀ s, C.Served r (C.count s) (C.count (m r₀ s).2) → m r s = m r₀ s
  fault : ∀ s k, C.FirstFault r (C.count s) (C.count (m r₀ s).2) k →
    ∃ e, (m r s).1 = .stop e ∧ C.count (m r s).2 = k + 1 ∧ C.stops e (m r s).2 (m r₀ s).2

namespace FailStop

variable {C : Calls ρ σ ε} {r r₀ : ρ} {m : Program ρ σ ε α} {f : α → Program ρ σ ε β}

/-- A step that makes no call and does not look at the environment. -/
theorem of_silent (hsame : ∀ s, m r s = m r₀ s) (hlater : ∀ s, C.later s (m r₀ s).2)
    (hcount : ∀ s, C.count (m r₀ s).2 = C.count s) : FailStop C r r₀ m where
  later := hlater
  served s _ := hsame s
  fault s k h := by
    have hlt := h.lt
    rw [hcount] at hlt
    exact absurd h.le (by omega)

theorem lift (x : Outcome ε α) : FailStop C r r₀ (Program.lift x : Program ρ σ ε α) :=
  of_silent (fun _ => rfl) C.later_refl fun _ => rfl

theorem pure (a : α) : FailStop C r r₀ (Pure.pure a : Program ρ σ ε α) :=
  of_silent (fun _ => rfl) C.later_refl fun _ => rfl

/-- One call. -/
theorem call (hserved : ∀ s, C.serves r (C.count s) = true → m r s = m r₀ s)
    (hlater : ∀ s, C.later s (m r₀ s).2) (hcount : ∀ s, C.count (m r₀ s).2 = C.count s + 1)
    (hfault : ∀ s, C.serves r (C.count s) = false → ∃ e, (m r s).1 = .stop e
      ∧ C.count (m r s).2 = C.count s + 1 ∧ C.stops e (m r s).2 (m r₀ s).2) :
    FailStop C r r₀ m where
  later := hlater
  served s h := hserved s (h _ (Nat.le_refl _) (by rw [hcount]; omega))
  fault s k h := by
    have hlt := h.lt
    rw [hcount] at hlt
    obtain rfl : k = C.count s := by
      have hle := h.le
      omega
    exact hfault s h.fails

theorem bind (hm : FailStop C r r₀ m) (hf : ∀ a, FailStop C r r₀ (f a)) :
    FailStop C r r₀ (m >>= f) := by
  -- In either environment: a first step that goes on, or one that ends the program.
  have hgo : ∀ q s a, (m q s).1 = .ok a → (m >>= f) q s = f a q (m q s).2 :=
    fun q s a h => bind_run_of_ok (Prod.ext h rfl)
  have hstop : ∀ q s, (∀ a, (m q s).1 ≠ .ok a) → (∀ b, ((m >>= f) q s).1 ≠ .ok b)
      ∧ ((m >>= f) q s).2 = (m q s).2 := fun q s h => bind_run_stops f h
  have hrest : ∀ s, C.later (m r₀ s).2 ((m >>= f) r₀ s).2 := by
    intro s
    by_cases hok : ∃ a, (m r₀ s).1 = .ok a
    · obtain ⟨a, ha⟩ := hok
      rw [hgo r₀ s a ha]
      exact (hf a).later _
    · rw [(hstop r₀ s fun a ha => hok ⟨a, ha⟩).2]
      exact C.later_refl _
  have hsame : ∀ s, m r s = m r₀ s → (∀ a, (m r₀ s).1 ≠ .ok a) →
      (m >>= f) r s = (m >>= f) r₀ s := by
    intro s hms hno
    change Program.bind m f r s = Program.bind m f r₀ s
    unfold Program.bind
    rw [hms]
    rcases hm₀ : m r₀ s with ⟨o, s'⟩
    rw [hm₀] at hno
    cases o with
    | ok a => exact absurd rfl (hno a)
    | err e => rfl
    | panic => rfl
  have hmono : ∀ s, C.count (m r₀ s).2 ≤ C.count ((m >>= f) r₀ s).2 := fun s => C.count_le (hrest s)
  constructor
  · intro s
    exact C.later_trans (hm.later s) (hrest s)
  · intro s hserved
    have hms : m r s = m r₀ s :=
      hm.served s fun k h₁ h₂ => hserved k h₁ (Nat.lt_of_lt_of_le h₂ (hmono s))
    by_cases hok : ∃ a, (m r₀ s).1 = .ok a
    · obtain ⟨a, ha⟩ := hok
      have hle := C.count_le (hm.later s)
      rw [hgo r s a (by rw [hms, ha]), hgo r₀ s a ha, hms]
      apply (hf a).served
      intro k h₁ h₂
      apply hserved k (Nat.le_trans hle h₁)
      rw [hgo r₀ s a ha]
      exact h₂
    · exact hsame s hms fun a ha => hok ⟨a, ha⟩
  · intro s k hk
    by_cases hearly : k < C.count (m r₀ s).2
    · -- The first step fails at this call, and is the last one.
      obtain ⟨e, hend, hcount, hstops⟩ := hm.fault s k ⟨hk.le, hearly, hk.fails, hk.before⟩
      have hbind : (m >>= f) r s = (.stop e, (m r s).2) := by
        change Program.bind m f r s = _
        unfold Program.bind
        rcases hmr : m r s with ⟨o, s'⟩
        rw [hmr] at hend
        obtain rfl : o = .stop e := hend
        cases e with
        | some e => rfl
        | none => rfl
      rw [hbind]
      exact ⟨e, rfl, hcount, C.stops_later hstops (hrest s)⟩
    · -- The first step is served, so there is a second one, and it fails there.
      have hms : m r s = m r₀ s :=
        hm.served s fun j h₁ h₂ => hk.before j h₁ (by omega)
      have hlt := hk.lt
      by_cases hok : ∃ a, (m r₀ s).1 = .ok a
      · obtain ⟨a, ha⟩ := hok
        have hle := C.count_le (hm.later s)
        rw [hgo r₀ s a ha] at hlt ⊢
        rw [hgo r s a (by rw [hms, ha]), hms]
        refine (hf a).fault _ k ⟨by omega, hlt, hk.fails, ?_⟩
        intro j h₁ h₂
        exact hk.before j (Nat.le_trans hle h₁) h₂
      · rw [(hstop r₀ s fun a ha => hok ⟨a, ha⟩).2] at hlt
        exact absurd hlt hearly

/-- A look at the environment, where what follows is the same for both. -/
theorem ask_bind {f : ρ → Program ρ σ ε β} (hsame : f r = f r₀) (hf : FailStop C r r₀ (f r₀)) :
    FailStop C r r₀ (Program.ask >>= f) := by
  have hr : ∀ s, (Program.ask >>= f : Program ρ σ ε β) r s = f r₀ r s := by
    intro s
    change f r r s = f r₀ r s
    rw [hsame]
  constructor
  · exact hf.later
  · intro s hserved
    exact (hr s).trans (hf.served s hserved)
  · intro s k hk
    rw [hr s]
    exact hf.fault s k hk

end FailStop

end Rust.Program
