/-
`LowOrder.lean` -- points the ladder loses.

A scalar is a multiple of 8 once its bits are fixed, and the curve and its twist have
points whose order divides 8. The ladder takes all of these to the point at infinity,
whose coordinate is written as zero: the result says nothing about the scalar.

The ladder is followed through such an orbit. Its two lanes are the multiples `n` and
`n + 1` of the point, over denominators that may well be zero, so a lane is only known
to be a multiple of the coordinates it should have (`On`). That much one bit preserves,
and what is left of it are eight doublings and eight additions in each orbit.
-/
import Mathlib.Data.ZMod.Basic
import Mathlib.Tactic.IntervalCases
import Mathlib.Tactic.LinearCombination
import PqcVault.Lib.X25519

set_option autoImplicit false

namespace Curve25519

/-! ## Coordinates over any ring -/

section Ring

variable {R : Type*} [CommRing R]

/-- The pair `d` stands for the coordinate that `c` stands for, or is zero. -/
def On (c d : R × R) : Prop := ∃ l : R, d.1 = l * c.1 ∧ d.2 = l * c.2

/-- The double of a point. -/
def doubled (d : R × R) : R × R :=
  let aa := (d.1 + d.2) * (d.1 + d.2)
  let bb := (d.1 - d.2) * (d.1 - d.2)
  let e := aa - bb
  (aa * bb, e * (aa + 121665 * e))

/-- The sum of two points whose difference is `u`. -/
def added (u : R) (d d' : R × R) : R × R :=
  let da := (d'.1 - d'.2) * (d.1 + d.2)
  let cb := (d'.1 + d'.2) * (d.1 - d.2)
  ((da + cb) * (da + cb), u * ((da - cb) * (da - cb)))

theorem doubled_eq (d : R × R) : doubled d
    = ((d.1 ^ 2 - d.2 ^ 2) ^ 2, 4 * d.1 * d.2 * (d.1 ^ 2 + 486662 * d.1 * d.2 + d.2 ^ 2)) := by
  apply Prod.ext
  · change (d.1 + d.2) * (d.1 + d.2) * ((d.1 - d.2) * (d.1 - d.2)) = _
    ring
  · simp only [doubled]
    ring

theorem added_eq (u : R) (d d' : R × R) : added u d d'
    = (4 * (d.1 * d'.1 - d.2 * d'.2) ^ 2, 4 * u * (d'.1 * d.2 - d.1 * d'.2) ^ 2) := by
  apply Prod.ext
  · simp only [added]
    ring
  · simp only [added]
    ring

theorem added_comm (u : R) (d d' : R × R) : added u d d' = added u d' d := by
  rw [added_eq, added_eq]
  apply Prod.ext
  · ring
  · ring

variable {c d c' d' : R × R} {u v : R}

theorem On.refl (c : R × R) : On c c := ⟨1, (one_mul _).symm, (one_mul _).symm⟩

theorem On.trans {e : R × R} (h : On c d) (h' : On d e) : On c e := by
  obtain ⟨l, h₁, h₂⟩ := h
  obtain ⟨m, h₁', h₂'⟩ := h'
  refine ⟨m * l, ?_, ?_⟩
  · rw [h₁', h₁, mul_assoc]
  · rw [h₂', h₂, mul_assoc]

/-- Both formulas are homogeneous. -/
theorem On.doubled (h : On c d) : On (doubled c) (doubled d) := by
  obtain ⟨l, h₁, h₂⟩ := h
  rw [doubled_eq, doubled_eq, h₁, h₂]
  exact ⟨l ^ 4, by ring, by ring⟩

theorem On.added (h : On c d) (h' : On c' d') : On (added u c c') (added u d d') := by
  obtain ⟨l, h₁, h₂⟩ := h
  obtain ⟨m, h₁', h₂'⟩ := h'
  rw [added_eq, added_eq, h₁, h₂, h₁', h₂']
  exact ⟨l ^ 2 * m ^ 2, by ring, by ring⟩

/-! ## Orbits -/

/-- The multiples of the point `u`, whose order divides 8. -/
structure Multiples (u : R) (c : ℕ → R × R) : Prop where
  zero : c 0 = (1, 0)
  one : c 1 = (u, 1)
  period : ∀ n, c n = c (n % 8)
  double : ∀ n < 8, On (c (2 * n % 8)) (doubled (c n))
  add : ∀ n < 8, On (c ((2 * n + 1) % 8)) (added u (c n) (c ((n + 1) % 8)))

theorem Multiples.doubled {c : ℕ → R × R} (h : Multiples u c) (n : ℕ) :
    On (c (2 * n)) (doubled (c n)) := by
  have hmod : 2 * n % 8 = 2 * (n % 8) % 8 := by omega
  rw [h.period (2 * n), h.period n, hmod]
  exact h.double (n % 8) (Nat.mod_lt _ (by decide))

theorem Multiples.added {c : ℕ → R × R} (h : Multiples u c) (n : ℕ) :
    On (c (2 * n + 1)) (added u (c n) (c (n + 1))) := by
  have hmod : (2 * n + 1) % 8 = (2 * (n % 8) + 1) % 8 := by omega
  have hsucc : (n + 1) % 8 = (n % 8 + 1) % 8 := by omega
  rw [h.period (2 * n + 1), h.period n, h.period (n + 1), hmod, hsucc]
  exact h.add (n % 8) (Nat.mod_lt _ (by decide))

/-- The orbit with the first four multiples of `u` as given; the others are their
opposites, which have the same coordinates. -/
def orbit (c₁ c₂ c₃ c₄ : R × R) (n : ℕ) : R × R :=
  match n % 8 with
  | 0 => (1, 0)
  | 1 => c₁
  | 2 => c₂
  | 3 => c₃
  | 4 => c₄
  | 5 => c₃
  | 6 => c₂
  | _ => c₁

theorem orbit_mod (c₁ c₂ c₃ c₄ : R × R) (n : ℕ) :
    orbit c₁ c₂ c₃ c₄ n = orbit c₁ c₂ c₃ c₄ (n % 8) := by
  rw [orbit, orbit, Nat.mod_mod]

/-- What is to be checked of an orbit: four doublings, and the four additions up to the
order of their operands. -/
theorem multiples_orbit {c₂ c₃ c₄ : R × R} (hd₁ : On c₂ (doubled (u, 1))) (hd₂ : On c₄ (doubled c₂))
    (hd₃ : On c₂ (doubled c₃)) (hd₄ : On (1, 0) (doubled c₄)) (ha₁ : On c₃ (added u (u, 1) c₂))
    (ha₂ : On c₃ (added u c₂ c₃)) (ha₃ : On (u, 1) (added u c₃ c₄)) :
    Multiples u (orbit (u, 1) c₂ c₃ c₄) where
  zero := rfl
  one := rfl
  period := orbit_mod _ _ _ _
  double := by
    have hd₀ : On ((1, 0) : R × R) (doubled (1, 0)) := by
      rw [doubled_eq]
      exact ⟨1, by ring, by ring⟩
    intro n hn
    interval_cases n
    exacts [hd₀, hd₁, hd₂, hd₃, hd₄, hd₃, hd₂, hd₁]
  add := by
    have ha₀ : On (u, 1) (added u (1, 0) (u, 1)) := by
      rw [added_eq]
      exact ⟨4 * u, by ring, by ring⟩
    intro n hn
    interval_cases n
    · exact ha₀
    · exact ha₁
    · exact ha₂
    · exact ha₃
    · exact added_comm u c₃ c₄ ▸ ha₃
    · exact added_comm u c₂ c₃ ▸ ha₂
    · exact added_comm u (u, 1) c₂ ▸ ha₁
    · exact added_comm u (1, 0) (u, 1) ▸ ha₀

/-- The coordinates whose order divides 8: that of the point of order 2, those of the
points whose doubles it is, and those of the points whose doubles these are. -/
def IsLowOrder (u : R) : Prop :=
  u = 0 ∨ u ^ 2 = 1 ∨ ∃ v, v ^ 2 = 1 ∧ (u ^ 2 - 1) ^ 2 = 4 * v * u * (u ^ 2 + 486662 * u + 1)

theorem multiples_zero : Multiples (0 : R) (orbit (0, 1) (1, 0) (0, 1) (1, 0)) := by
  apply multiples_orbit
  all_goals simp only [doubled_eq, added_eq]
  · exact ⟨1, by ring, by ring⟩
  · exact ⟨1, by ring, by ring⟩
  · exact ⟨1, by ring, by ring⟩
  · exact ⟨1, by ring, by ring⟩
  · exact ⟨0, by ring, by ring⟩
  · exact ⟨0, by ring, by ring⟩
  · exact ⟨0, by ring, by ring⟩

theorem multiples_of_sq (hu : u ^ 2 = 1) : Multiples u (orbit (u, 1) (0, 1) (u, 1) (1, 0)) := by
  have hd : On (0, 1) (doubled (u, 1)) := by
    rw [doubled_eq]
    exact ⟨4 * u * (u ^ 2 + 486662 * u + 1), by linear_combination (u ^ 2 - 1) * hu, by ring⟩
  have ha : On (u, 1) (added u (u, 1) (0, 1)) := by
    rw [added_eq]
    exact ⟨4 * u, by linear_combination -4 * hu, by linear_combination 4 * u * hu⟩
  refine multiples_orbit hd ?_ hd ?_ ha (added_comm u (u, 1) (0, 1) ▸ ha) ?_
  · rw [doubled_eq]
    exact ⟨1, by ring, by ring⟩
  · rw [doubled_eq]
    exact ⟨1, by ring, by ring⟩
  · rw [added_eq]
    exact ⟨4 * u, by ring, by ring⟩

theorem multiples_of_double (hv : v ^ 2 = 1)
    (hu : (u ^ 2 - 1) ^ 2 = 4 * v * u * (u ^ 2 + 486662 * u + 1)) :
    Multiples u (orbit (u, 1) (v, 1) (1, u) (0, 1)) := by
  apply multiples_orbit
  all_goals simp only [doubled_eq, added_eq]
  · exact ⟨4 * u * (u ^ 2 + 486662 * u + 1), by linear_combination hu, by ring⟩
  · exact ⟨4 * v * (v ^ 2 + 486662 * v + 1), by linear_combination (v ^ 2 - 1) * hv, by ring⟩
  · exact ⟨4 * u * (u ^ 2 + 486662 * u + 1), by linear_combination hu, by ring⟩
  · exact ⟨1, by ring, by ring⟩
  · exact ⟨4 * (u * v - 1) ^ 2, by ring, by linear_combination 4 * u * (1 - u ^ 2) * hv⟩
  · exact ⟨4 * (v - u) ^ 2, by ring, by linear_combination 4 * u * (u ^ 2 - 1) * hv⟩
  · exact ⟨4 * u, by ring, by ring⟩

theorem exists_multiples (hu : IsLowOrder u) : ∃ c, Multiples u c := by
  rcases hu with rfl | hu | ⟨v, hv, hu⟩
  · exact ⟨_, multiples_zero⟩
  · exact ⟨_, multiples_of_sq hu⟩
  · exact ⟨_, multiples_of_double hv hu⟩

end Ring

/-! ## The ladder over the field -/

/-- The first lane, and the second. -/
def Ladder.fst (s : Ladder) : ZMod p × ZMod p := (s.x₂, s.z₂)

def Ladder.snd (s : Ladder) : ZMod p × ZMod p := (s.x₃, s.z₃)

/-- What the differences need. -/
def Ladder.Reduced (s : Ladder) : Prop := s.z₂ < p ∧ s.z₃ < p

theorem cast_sub {a b : ℕ} (h : b < p) : ((a + p - b : ℕ) : ZMod p) = a - b := by
  rw [Nat.cast_sub (by omega), Nat.cast_add, ZMod.natCast_self, add_zero]

theorem p_pos : 0 < p := by decide

theorem mod_lt_p (n : ℕ) : n % p < p := Nat.mod_lt n p_pos

theorem Ladder.reduced_double (x₁ : ℕ) (s : Ladder) : (s.double x₁).Reduced :=
  ⟨mod_lt_p _, mod_lt_p _⟩

theorem Ladder.fst_double (x₁ : ℕ) {s : Ladder} (hs : s.Reduced) :
    (s.double x₁).fst = doubled s.fst := by
  simp only [Ladder.double, Ladder.fst, doubled, ZMod.natCast_mod, Nat.cast_mul, Nat.cast_add,
    cast_sub hs.1, cast_sub (mod_lt_p _), Nat.cast_ofNat]

theorem Ladder.snd_double (x₁ : ℕ) {s : Ladder} (hs : s.Reduced) :
    (s.double x₁).snd = added (x₁ : ZMod p) s.fst s.snd := by
  simp only [Ladder.double, Ladder.fst, Ladder.snd, added, ZMod.natCast_mod, Nat.cast_mul,
    Nat.cast_add, cast_sub hs.1, cast_sub hs.2, cast_sub (mod_lt_p _)]

/-- The lanes are the multiples `n` and `n + 1`. -/
structure Ladder.At (c : ℕ → ZMod p × ZMod p) (n : ℕ) (s : Ladder) : Prop where
  reduced : s.Reduced
  fst : On (c n) s.fst
  snd : On (c (n + 1)) s.snd

section Run

variable {c : ℕ → ZMod p × ZMod p} {x₁ : ℕ}

/-- One bit, appended to the multiple so far. -/
theorem Ladder.At.step (hc : Multiples (x₁ : ZMod p) c) {n : ℕ} {s : Ladder} (h : s.At c n)
    (bit : Bool) : (s.step x₁ bit).At c (2 * n + bit.toNat) := by
  obtain ⟨hreduced, hfst, hsnd⟩ := h
  cases bit with
  | false =>
      refine ⟨s.reduced_double x₁, ?_, ?_⟩
      · change On (c (2 * n)) (s.double x₁).fst
        rw [Ladder.fst_double x₁ hreduced]
        exact (hc.doubled n).trans hfst.doubled
      · change On (c (2 * n + 1)) (s.double x₁).snd
        rw [Ladder.snd_double x₁ hreduced]
        exact (hc.added n).trans (hfst.added hsnd)
  | true =>
      -- The lanes trade places before the formulas and after.
      have hswap : s.swap.Reduced := hreduced.symm
      refine ⟨(s.swap.reduced_double x₁).symm, ?_, ?_⟩
      · change On (c (2 * n + 1)) (s.swap.double x₁).snd
        rw [Ladder.snd_double x₁ hswap, added_comm (x₁ : ZMod p)]
        exact (hc.added n).trans (hfst.added hsnd)
      · change On (c (2 * (n + 1))) (s.swap.double x₁).fst
        rw [Ladder.fst_double x₁ hswap]
        exact (hc.doubled (n + 1)).trans hsnd.doubled

theorem mod_two_pow_succ (k t : ℕ) :
    k % 2 ^ (t + 1) = k % 2 ^ t + 2 ^ t * (k.testBit t).toNat := by
  rw [Nat.mod_pow_succ, Nat.toNat_testBit]

/-- The lowest `t` bits of a scalar. -/
theorem Ladder.At.ladder (hc : Multiples (x₁ : ZMod p) c) (k : ℕ) {t n : ℕ} {s : Ladder}
    (h : s.At c n) : (ladder k x₁ t s).At c (n * 2 ^ t + k % 2 ^ t) := by
  induction t generalizing n s with
  | zero =>
      rw [pow_zero, mul_one, Nat.mod_one]
      exact h
  | succ t ih =>
      have hbits : n * 2 ^ (t + 1) + k % 2 ^ (t + 1)
          = (2 * n + (k.testBit t).toNat) * 2 ^ t + k % 2 ^ t := by
        rw [mod_two_pow_succ, pow_succ]
        ring
      rw [hbits]
      exact ih (h.step hc (k.testBit t))

end Run

/-- `power` is the power. -/
theorem cast_power (z e t acc : ℕ) :
    (power z e t acc : ZMod p) = (acc : ZMod p) ^ 2 ^ t * (z : ZMod p) ^ (e % 2 ^ t) := by
  induction t generalizing acc with
  | zero => rw [power, pow_zero, pow_one, Nat.mod_one, pow_zero, mul_one]
  | succ t ih =>
      rw [power, ih, mod_two_pow_succ]
      cases e.testBit t with
      | false =>
          simp only [Bool.false_eq_true, if_false, ZMod.natCast_mod, Nat.cast_mul, Bool.toNat_false,
            mul_zero, add_zero]
          ring
      | true =>
          simp only [if_true, ZMod.natCast_mod, Nat.cast_mul, Bool.toNat_true, mul_one]
          ring

/-- A lane at the point at infinity ends as zero. -/
theorem quotient_eq_zero {s : Ladder} (hz : s.fst.2 = 0) :
    s.x₂ * power s.z₂ (p - 2) 255 1 % p = 0 := by
  have hexp : (p - 2) % 2 ^ 255 ≠ 0 := by decide
  have hcast : ((s.x₂ * power s.z₂ (p - 2) 255 1 % p : ℕ) : ZMod p) = 0 := by
    rw [ZMod.natCast_mod, Nat.cast_mul, cast_power, show (s.z₂ : ZMod p) = 0 from hz, zero_pow hexp,
      mul_zero, mul_zero]
  rw [ZMod.natCast_eq_zero_iff] at hcast
  exact Nat.eq_zero_of_dvd_of_lt hcast (mod_lt_p _)

/-- **No multiple of a point of low order**: where the scalar is a multiple of 8, the result
is zero. -/
theorem multiple_of_lowOrder {k x₁ : ℕ} (hk : k % 8 = 0) (hx : IsLowOrder (x₁ : ZMod p)) :
    multiple k x₁ = 0 := by
  obtain ⟨c, hc⟩ := exists_multiples hx
  have hstart : Ladder.At c 0 { x₂ := 1, z₂ := 0, x₃ := x₁, z₃ := 1 } := by
    refine ⟨⟨p_pos, (by decide : 1 < p)⟩, ?_, ?_⟩
    · rw [hc.zero]
      exact ⟨1, by simp [Ladder.fst], by simp [Ladder.fst]⟩
    · rw [hc.one]
      exact ⟨1, by simp [Ladder.snd], by simp [Ladder.snd]⟩
  have hend := (hstart.ladder hc k (t := 255)).fst
  -- The scalar's low bits are a multiple of 8 as well, so this is the point at infinity.
  have hmod : (0 * 2 ^ 255 + k % 2 ^ 255) % 8 = 0 := by omega
  rw [hc.period, hmod, hc.zero] at hend
  obtain ⟨l, -, hz⟩ := hend
  rw [mul_zero] at hz
  exact quotient_eq_zero hz

/-! ## The function -/

theorem and_248 (b : UInt8) : (b &&& 248).toNat % 8 = 0 := by
  have hmask : ∀ v : BitVec 8, (v &&& 248).toNat % 8 = 0 := by decide
  exact hmask b.toBitVec

/-- The lowest three bits of a scalar are cleared. -/
theorem decodeScalar_mod (k : List UInt8) : decodeScalar k % 8 = 0 := by
  cases k with
  | nil => rfl
  | cons b k =>
      have hcons : decodeScalar (b :: k)
          = (b &&& 248).toNat + 256 * decodeLittleEndian
            ((k.modify 30 (· &&& 127)).modify 30 (· ||| 64)) := rfl
      have hmask := and_248 b
      rw [hcons]
      omega

theorem encodeLittleEndian_zero (k : ℕ) : encodeLittleEndian k 0 = List.replicate k 0 := by
  induction k with
  | zero => rfl
  | succ k ih =>
      rw [encodeLittleEndian, Nat.zero_div, ih]
      rfl

/-- **No secret**: with a string of low order every scalar gives 32 zero bytes. -/
theorem x25519_of_lowOrder (k : List UInt8) {u : List UInt8}
    (hu : IsLowOrder (decodeUCoordinate u : ZMod p)) : x25519 k u = List.replicate 32 0 := by
  have hcoord : IsLowOrder ((decodeUCoordinate u % p : ℕ) : ZMod p) := by
    rw [ZMod.natCast_mod]
    exact hu
  rw [x25519, multiple_of_lowOrder (decodeScalar_mod k) hcoord, encodeLittleEndian_zero]

end Curve25519
