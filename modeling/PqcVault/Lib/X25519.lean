/-
`X25519.lean` -- the function X25519 on byte strings.

A scalar and a `u`-coordinate are 32 bytes each. Of the scalar five bits are fixed
before it is used, of the coordinate the last bit is dropped, and the result is the
ladder on Curve25519 over the integers modulo `2 ^ 255 - 19`. Nothing is rejected:
all `2 ^ 256` strings are coordinates, of which there are fewer, so several strings
are one coordinate. `x25519_congr` says which.
-/
import Mathlib.Data.Nat.Digits.Defs

set_option autoImplicit false

namespace Curve25519

/-! ## Bytes -/

/-- The order of the field. -/
def p : ℕ := 2 ^ 255 - 19

def decodeLittleEndian (bs : List UInt8) : ℕ := Nat.ofDigits 256 (bs.map UInt8.toNat)

def encodeLittleEndian : ℕ → ℕ → List UInt8
  | 0, _ => []
  | k + 1, n => UInt8.ofNat n :: encodeLittleEndian k (n / 256)

theorem length_encodeLittleEndian (k n : ℕ) : (encodeLittleEndian k n).length = k := by
  induction k generalizing n with
  | zero => rfl
  | succ k ih => rw [encodeLittleEndian, List.length_cons, ih]

/-- The lowest three bits and the highest are cleared, the one below it is set. -/
def decodeScalar (k : List UInt8) : ℕ :=
  decodeLittleEndian
    (((k.modify 0 (· &&& 248)).modify 31 (· &&& 127)).modify 31 (· ||| 64))

/-- The highest bit is dropped, and what is left need not be reduced. -/
def decodeUCoordinate (u : List UInt8) : ℕ := decodeLittleEndian (u.modify 31 (· &&& 127))

/-! ## The ladder -/

/-- Two consecutive multiples of a point, `u`-coordinates over common denominators. -/
structure Ladder where
  x₂ : ℕ
  z₂ : ℕ
  x₃ : ℕ
  z₃ : ℕ

def Ladder.swap (s : Ladder) : Ladder := { x₂ := s.x₃, z₂ := s.z₃, x₃ := s.x₂, z₃ := s.z₂ }

/-- The first multiple is doubled, the second becomes the sum of both. -/
def Ladder.double (x₁ : ℕ) (s : Ladder) : Ladder :=
  let a := s.x₂ + s.z₂
  let aa := a * a % p
  let b := s.x₂ + p - s.z₂
  let bb := b * b % p
  let e := aa + p - bb
  let da := (s.x₃ + p - s.z₃) * a % p
  let cb := (s.x₃ + s.z₃) * b % p
  let sum := da + cb
  let diff := da + p - cb
  { x₂ := aa * bb % p
    z₂ := e * (aa + 121665 * e) % p
    x₃ := sum * sum % p
    z₃ := x₁ * (diff * diff % p) % p }

/-- One bit of the scalar. -/
def Ladder.step (x₁ : ℕ) (bit : Bool) (s : Ladder) : Ladder :=
  if bit then (s.swap.double x₁).swap else s.double x₁

/-- The lowest `t` bits of the scalar, from the highest of them on. -/
def ladder (k x₁ : ℕ) : ℕ → Ladder → Ladder
  | 0, s => s
  | t + 1, s => ladder k x₁ t (s.step x₁ (k.testBit t))

/-- A power modulo `p`, over the lowest `t` bits of the exponent. -/
def power (z e : ℕ) : ℕ → ℕ → ℕ
  | 0, acc => acc
  | t + 1, acc => power z e t (if e.testBit t then acc * acc % p * z % p else acc * acc % p)

/-- The multiple of the point with coordinate `x₁`, as a coordinate; that of the
point at infinity is zero. -/
def multiple (k x₁ : ℕ) : ℕ :=
  let s := ladder k x₁ 255 { x₂ := 1, z₂ := 0, x₃ := x₁, z₃ := 1 }
  s.x₂ * power s.z₂ (p - 2) 255 1 % p

def x25519 (k u : List UInt8) : List UInt8 :=
  encodeLittleEndian 32 (multiple (decodeScalar k) (decodeUCoordinate u % p))

theorem length_x25519 (k u : List UInt8) : (x25519 k u).length = 32 :=
  length_encodeLittleEndian 32 _

-- The first test vector of the function's standard.
example :
    x25519
      [0xa5, 0x46, 0xe3, 0x6b, 0xf0, 0x52, 0x7c, 0x9d, 0x3b, 0x16, 0x15, 0x4b, 0x82, 0x46, 0x5e,
        0xdd, 0x62, 0x14, 0x4c, 0x0a, 0xc1, 0xfc, 0x5a, 0x18, 0x50, 0x6a, 0x22, 0x44, 0xba, 0x44,
        0x9a, 0xc4]
      [0xe6, 0xdb, 0x68, 0x67, 0x58, 0x30, 0x30, 0xdb, 0x35, 0x94, 0xc1, 0xa4, 0x24, 0xb1, 0x5f,
        0x7c, 0x72, 0x66, 0x24, 0xec, 0x26, 0xb3, 0x35, 0x3b, 0x10, 0xa9, 0x03, 0xa6, 0xd0, 0xab,
        0x1c, 0x4c]
      = [0xc3, 0xda, 0x55, 0x37, 0x9d, 0xe9, 0xc6, 0x90, 0x8e, 0x94, 0xea, 0x4d, 0xf2, 0x8d, 0x08,
        0x4f, 0x32, 0xec, 0xcf, 0x03, 0x49, 0x1c, 0x71, 0xf7, 0x54, 0xb4, 0x07, 0x55, 0x77, 0xa2,
        0x85, 0x52] := by
  decide +kernel

/-! ## Strings of one coordinate -/

/-- **What the result depends on**: two strings of one coordinate give one result. -/
theorem x25519_congr (k : List UInt8) {u v : List UInt8}
    (h : decodeUCoordinate u % p = decodeUCoordinate v % p) : x25519 k u = x25519 k v := by
  rw [x25519, h, x25519]

/-- The string with its highest bit the other way. -/
def flipTop (u : List UInt8) : List UInt8 := u.modify 31 (· ^^^ 128)

theorem length_flipTop (u : List UInt8) : (flipTop u).length = u.length := List.length_modify ..

theorem flipTop_ne {u : List UInt8} (h : 31 < u.length) : flipTop u ≠ u := by
  intro heq
  have hget : (flipTop u)[31]? = some (u[31] ^^^ 128) := by
    rw [flipTop, List.getElem?_modify_eq, List.getElem?_eq_getElem h]
    rfl
  rw [heq, List.getElem?_eq_getElem h] at hget
  have hflip : u[31] ^^^ (0 : UInt8) = u[31] ^^^ (128 : UInt8) := by
    rw [UInt8.xor_zero]
    exact Option.some.inj hget
  have hzero : (0 : UInt8) = 128 := (UInt8.xor_right_inj u[31]).mp hflip
  exact absurd hzero (by decide)

theorem mask_flip (b : UInt8) : (b ^^^ 128) &&& 127 = b &&& 127 := by
  have hmask : ∀ v : BitVec 8, (v ^^^ 128) &&& 127 = v &&& 127 := by decide
  exact UInt8.toBitVec_inj.mp (hmask b.toBitVec)

theorem decodeUCoordinate_flipTop (u : List UInt8) :
    decodeUCoordinate (flipTop u) = decodeUCoordinate u := by
  have hmask : (· &&& 127) ∘ (· ^^^ 128) = fun b : UInt8 => b &&& 127 := funext mask_flip
  rw [decodeUCoordinate, flipTop, List.modify_modify_eq, hmask, decodeUCoordinate]

/-- The highest bit is ignored. -/
theorem x25519_flipTop (k u : List UInt8) : x25519 k (flipTop u) = x25519 k u :=
  x25519_congr k (by rw [decodeUCoordinate_flipTop])

end Curve25519
