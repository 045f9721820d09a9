/-
`Outcome.lean` -- what a call of a Rust function can end in.

A Rust function that returns `Result<T, E>` has three endings, not two: `Ok`,
`Err`, and a panic, which the caller cannot handle (and which ends the process
outright when the profile says `panic = "abort"`). A claim that some code
"never panics" is a claim about the third ending, so the three are kept apart
here and `?` is the monadic bind.

The reasoning interface is inversion: for a sequence of two steps `bind_eq_ok` says
what an `Ok` went through, and `noPanic_bind` which step a panic can come from.
Nothing below names the program that is modelled.
-/
import Mathlib.Data.List.Basic
import Mathlib.Tactic.Common

set_option autoImplicit false

namespace Rust

universe u v

/-- The ending of a call: a value, an error the caller sees, or a panic. -/
inductive Outcome (ε : Type u) (α : Type v) where
  | ok (a : α)
  | err (e : ε)
  | panic
  deriving DecidableEq

namespace Outcome

/-- An ending that is no value: an error, or a panic for want of one. -/
def stop {ε : Type u} {α : Type v} : Option ε → Outcome ε α
  | some e => err e
  | none => panic

variable {ε ε' : Type u} {α β γ : Type v}

/-! ## Sequencing -/

/-- Rust's `?` followed by the rest of the body. -/
protected def bind (x : Outcome ε α) (f : α → Outcome ε β) : Outcome ε β :=
  match x with
  | ok a => f a
  | err e => err e
  | panic => panic

instance : Monad (Outcome ε) where
  pure := ok
  bind := Outcome.bind

@[simp] theorem pure_eq (a : α) : (pure a : Outcome ε α) = ok a := rfl

@[simp] theorem bind_ok (a : α) (f : α → Outcome ε β) : ((ok a : Outcome ε α) >>= f) = f a := rfl

@[simp] theorem bind_err (e : ε) (f : α → Outcome ε β) : ((err e : Outcome ε α) >>= f) = err e := rfl

@[simp] theorem bind_panic (f : α → Outcome ε β) : ((panic : Outcome ε α) >>= f) = panic := rfl

instance : LawfulMonad (Outcome ε) :=
  LawfulMonad.mk' _ (fun x => by cases x <;> rfl) (fun _ _ => rfl) (fun x _ _ => by cases x <;> rfl)

/-- A sequence returns `Ok` exactly when both of its steps do. -/
theorem bind_eq_ok {x : Outcome ε α} {f : α → Outcome ε β} {b : β} :
    (x >>= f) = ok b ↔ ∃ a, x = ok a ∧ f a = ok b := by
  cases x <;> simp

/-- A sequence returns the error of its first step, or of the second behind it. -/
theorem bind_eq_err {x : Outcome ε α} {f : α → Outcome ε β} {e : ε} :
    (x >>= f) = err e ↔ x = err e ∨ ∃ a, x = ok a ∧ f a = err e := by
  cases x <;> simp

/-- A check in front of a value. -/
theorem check_eq_ok {α : Type} {x : Outcome ε Unit} {a b : α} :
    (x >>= fun _ => ok a) = ok b ↔ x = ok () ∧ b = a := by
  rw [bind_eq_ok]
  constructor
  · rintro ⟨u, hu, h⟩
    exact ⟨hu, (ok.inj h).symm⟩
  · rintro ⟨hx, rfl⟩
    exact ⟨(), hx, rfl⟩

/-! ## The three endings as predicates -/

/-- The call returned `Ok`. -/
def IsOk (x : Outcome ε α) : Prop := ∃ a, x = ok a

/-- The call returned `Err`. -/
def IsErr (x : Outcome ε α) : Prop := ∃ e, x = err e

/-- The call returned, with `Ok` or with `Err`. -/
def NoPanic (x : Outcome ε α) : Prop := x ≠ panic

@[simp] theorem isOk_ok (a : α) : (ok a : Outcome ε α).IsOk := ⟨a, rfl⟩

@[simp] theorem not_isOk_err (e : ε) : ¬ (err e : Outcome ε α).IsOk := by simp [IsOk]

@[simp] theorem isErr_err (e : ε) : (err e : Outcome ε α).IsErr := ⟨e, rfl⟩

@[simp] theorem not_isErr_ok (a : α) : ¬ (ok a : Outcome ε α).IsErr := by simp [IsErr]

@[simp] theorem noPanic_ok (a : α) : (ok a : Outcome ε α).NoPanic := by simp [NoPanic]

@[simp] theorem noPanic_err (e : ε) : (err e : Outcome ε α).NoPanic := by simp [NoPanic]

@[simp] theorem not_noPanic_panic : ¬ (panic : Outcome ε α).NoPanic := by simp [NoPanic]

/-- "Returns `Ok` or `Err`" spelled out. -/
theorem IsErr.ne_ok {x : Outcome ε α} (h : x.IsErr) (a : α) : x ≠ ok a := by
  rintro rfl
  exact not_isErr_ok a h

theorem noPanic_iff {x : Outcome ε α} : x.NoPanic ↔ x.IsOk ∨ x.IsErr := by
  cases x <;> simp [IsOk, IsErr]

/-- A call that returns, and not with `Ok`. -/
theorem NoPanic.isErr {x : Outcome ε α} (h : x.NoPanic) (hno : ∀ a, x ≠ ok a) : x.IsErr := by
  refine (noPanic_iff.mp h).resolve_left ?_
  rintro ⟨a, ha⟩
  exact hno a ha

/-- A sequence is free of panics when its first step is, and its second is on
every value the first can hand it. -/
theorem noPanic_bind {x : Outcome ε α} {f : α → Outcome ε β} :
    (x >>= f).NoPanic ↔ x.NoPanic ∧ ∀ a, x = ok a → (f a).NoPanic := by
  cases x <;> simp

theorem isErr_bind {x : Outcome ε α} {f : α → Outcome ε β} :
    (x >>= f).IsErr ↔ x.IsErr ∨ ∃ a, x = ok a ∧ (f a).IsErr := by
  cases x <;> simp [IsErr]

/-! ## The combinators the Rust uses -/

/-- `Result::map_err`. -/
def mapErr (f : ε → ε') : Outcome ε α → Outcome ε' α
  | ok a => ok a
  | err e => err (f e)
  | panic => panic

@[simp] theorem mapErr_ok (f : ε → ε') (a : α) : mapErr f (ok a : Outcome ε α) = ok a := rfl

@[simp] theorem mapErr_err (f : ε → ε') (e : ε) :
    mapErr f (err e : Outcome ε α) = err (f e) := rfl

@[simp] theorem mapErr_eq_ok {f : ε → ε'} {x : Outcome ε α} {a : α} :
    mapErr f x = ok a ↔ x = ok a := by
  cases x <;> simp [mapErr]

theorem mapErr_eq_err {f : ε → ε'} {x : Outcome ε α} {e' : ε'} :
    mapErr f x = err e' ↔ ∃ e, x = err e ∧ e' = f e := by
  cases x with
  | ok a => simp [mapErr]
  | err e => simp [mapErr, eq_comm (a := f e)]
  | panic => simp [mapErr]

@[simp] theorem mapErr_eq_panic {f : ε → ε'} {x : Outcome ε α} :
    mapErr f x = panic ↔ x = panic := by
  cases x <;> simp [mapErr]

@[simp] theorem isErr_mapErr {f : ε → ε'} {x : Outcome ε α} : (mapErr f x).IsErr ↔ x.IsErr := by
  cases x <;> simp [mapErr, IsErr]

/-- `Option::ok_or`, and a foreign `Result` whose error is replaced by `e`. -/
def okOr (o : Option α) (e : ε) : Outcome ε α :=
  match o with
  | some a => ok a
  | none => err e

@[simp] theorem okOr_some (a : α) (e : ε) : okOr (some a) e = ok a := rfl

@[simp] theorem okOr_none (e : ε) : okOr (none : Option α) e = err e := rfl

@[simp] theorem okOr_eq_ok {o : Option α} {e : ε} {a : α} : okOr o e = ok a ↔ o = some a := by
  cases o <;> simp

theorem okOr_eq_err {o : Option α} {e e' : ε} : okOr o e = err e' ↔ o = none ∧ e' = e := by
  cases o <;> simp [eq_comm]

@[simp] theorem okOr_ne_panic {o : Option α} {e : ε} : okOr o e ≠ panic := by
  cases o <;> simp

@[simp] theorem noPanic_okOr (o : Option α) (e : ε) : (okOr o e).NoPanic := okOr_ne_panic

/-! ## Slices -/

/-- `&xs[a..b]`, which panics unless `a ≤ b ≤ xs.len()`. -/
def slice {σ : Type v} (xs : List σ) (a b : ℕ) : Outcome ε (List σ) :=
  if a ≤ b ∧ b ≤ xs.length then ok ((xs.take b).drop a) else panic

theorem slice_eq_ok {σ : Type v} {xs : List σ} {a b : ℕ} (hab : a ≤ b) (hb : b ≤ xs.length) :
    (slice xs a b : Outcome ε (List σ)) = ok ((xs.take b).drop a) := if_pos ⟨hab, hb⟩

end Outcome

/-! ## Fixed-size arrays -/

/-- `[σ; n]`: a list that carries the proof of its length. -/
@[ext] structure FixedArray (σ : Type u) (n : ℕ) where
  val : List σ
  length_val : val.length = n
  deriving DecidableEq

namespace FixedArray

variable {ε : Type v} {σ : Type u} {n : ℕ}

attribute [simp] length_val

/-- A checked conversion from a slice: `none` on any other length. -/
def ofList? (n : ℕ) (xs : List σ) : Option (FixedArray σ n) :=
  if h : xs.length = n then some ⟨xs, h⟩ else none

@[simp] theorem ofList?_eq_none {xs : List σ} : ofList? n xs = none ↔ xs.length ≠ n := by
  unfold ofList?
  split_ifs with h <;> simp [h]

theorem ofList?_of_length {xs : List σ} (h : xs.length = n) : ofList? n xs = some ⟨xs, h⟩ :=
  dif_pos h

/-- `GenericArray::from_slice`: an unchecked conversion, which panics on any
other length. -/
def fromSlice (n : ℕ) (xs : List σ) : Outcome ε (FixedArray σ n) :=
  if h : xs.length = n then .ok ⟨xs, h⟩ else .panic

theorem fromSlice_of_length {xs : List σ} (h : xs.length = n) :
    (fromSlice n xs : Outcome ε (FixedArray σ n)) = .ok ⟨xs, h⟩ := dif_pos h

@[simp] theorem fromSlice_val (a : FixedArray σ n) :
    (fromSlice n a.val : Outcome ε (FixedArray σ n)) = .ok a := dif_pos a.length_val

theorem fromSlice_eq_ok {xs : List σ} {a : FixedArray σ n} :
    (fromSlice n xs : Outcome ε (FixedArray σ n)) = .ok a ↔ a.val = xs := by
  unfold fromSlice
  split_ifs with h
  · constructor
    · intro heq
      rw [← Outcome.ok.inj heq]
    · rintro rfl
      rfl
  · refine iff_of_false (by simp) fun hval => h ?_
    rw [← hval, a.length_val]

@[simp] theorem noPanic_fromSlice {xs : List σ} :
    (fromSlice n xs : Outcome ε (FixedArray σ n)).NoPanic ↔ xs.length = n := by
  unfold fromSlice
  split_ifs with h <;> simp [h]

end FixedArray

end Rust
