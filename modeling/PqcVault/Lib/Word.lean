/-
`Word.lean` -- machine words as bytes.

`u32::to_le_bytes` and `u32::from_le_bytes`, on natural numbers: a word is the
number it holds, and storing a larger number keeps its low 32 bits, as an `as u32`
cast does. The two are inverse on words and on four-byte arrays.
-/
import Mathlib.Algebra.GroupWithZero.Nat
import PqcVault.Lib.Outcome

set_option autoImplicit false

namespace Rust

/-- `(n as u32).to_le_bytes()`. -/
def u32ToLeBytes (n : ℕ) : List UInt8 :=
  [UInt8.ofNat n, UInt8.ofNat (n / 256), UInt8.ofNat (n / 65536), UInt8.ofNat (n / 16777216)]

/-- `u32::from_le_bytes`; only ever read off four bytes. -/
def u32FromLeBytes : List UInt8 → ℕ
  | [a, b, c, d] => a.toNat + 256 * b.toNat + 65536 * c.toNat + 16777216 * d.toNat
  | _ => 0

@[simp] theorem length_u32ToLeBytes (n : ℕ) : (u32ToLeBytes n).length = 4 := rfl

/-- Reading back what was stored gives the number modulo `2 ^ 32`. -/
theorem u32FromLeBytes_toLeBytes (n : ℕ) : u32FromLeBytes (u32ToLeBytes n) = n % 2 ^ 32 := by
  simp only [u32ToLeBytes, u32FromLeBytes, UInt8.toNat_ofNat']
  omega

theorem u32FromLeBytes_lt (bs : List UInt8) : u32FromLeBytes bs < 2 ^ 32 := by
  unfold u32FromLeBytes
  split
  next a b c d =>
    have ha := a.toNat_lt
    have hb := b.toNat_lt
    have hc := c.toNat_lt
    have hd := d.toNat_lt
    omega
  next => omega

/-- Four bytes are the stored form of the word they hold. -/
theorem u32ToLeBytes_fromLeBytes {bs : List UInt8} (h : bs.length = 4) :
    u32ToLeBytes (u32FromLeBytes bs) = bs := by
  match bs, h with
  | [a, b, c, d], _ =>
    have ha := a.toNat_lt
    have hb := b.toNat_lt
    have hc := c.toNat_lt
    have hd := d.toNat_lt
    simp only [u32ToLeBytes, u32FromLeBytes, List.cons.injEq, and_true, ← UInt8.toNat_inj,
      UInt8.toNat_ofNat']
    omega

end Rust
