/-
`Utf8.lean` -- texts as bytes: `as_bytes`, `from_utf8` and `from_utf8_lossy`.

Encoding and checked decoding are Lean's own. What is written out is the lossy
decoder, which never fails: a byte sequence that cannot start a character, or
stops short of one, becomes one U+FFFD, and decoding goes on at the byte that
did not fit. It is a machine over the bytes, so that byte is looked at twice
without the recursion going back.
-/
import Mathlib.Data.List.Basic
import Mathlib.Tactic.SplitIfs

set_option autoImplicit false

namespace Rust

namespace Utf8

/-- `str::as_bytes`. -/
def utf8 (s : String) : List UInt8 := s.toByteArray.data.toList

/-- `String::from_utf8`. -/
def fromUtf8 (bs : List UInt8) : Option String := String.fromUTF8? ⟨bs.toArray⟩

/-- Decoding is the inverse of encoding, on all of its domain. -/
theorem fromUtf8_eq_some {bs : List UInt8} {s : String} : fromUtf8 bs = some s ↔ bs = utf8 s := by
  unfold fromUtf8 String.fromUTF8?
  constructor
  · intro h
    split_ifs at h with hv
    rw [← Option.some.inj h]
    simp [utf8, String.fromUTF8]
  · rintro rfl
    have hbytes : (⟨(utf8 s).toArray⟩ : ByteArray) = s.toByteArray := by simp [utf8]
    rw [hbytes, dif_pos s.isValidUTF8]
    congr 1

@[simp] theorem fromUtf8_utf8 (s : String) : fromUtf8 (utf8 s) = some s := fromUtf8_eq_some.mpr rfl

theorem utf8_injective : Function.Injective utf8 := fun s t h =>
  Option.some.inj (by rw [← fromUtf8_utf8 s, h, fromUtf8_utf8])

@[simp] theorem utf8_append (s t : String) : utf8 (s ++ t) = utf8 s ++ utf8 t := by simp [utf8]

/-! ## Lossy decoding -/

/-- Between characters, or inside one: the bits so far, the bytes still owed,
and the range the next of them must lie in. -/
inductive State where
  | start
  | inside (acc owed lo hi : ℕ)

/-- A byte between characters: what it emits, and where it leaves the machine. -/
def first (b : ℕ) : List Char × State :=
  if b < 0x80 then ([Char.ofNat b], .start)
  else if 0xC2 ≤ b ∧ b ≤ 0xDF then ([], .inside (b - 0xC0) 1 0x80 0xBF)
  else if b = 0xE0 then ([], .inside 0 2 0xA0 0xBF)
  else if b = 0xED then ([], .inside 0xD 2 0x80 0x9F)
  else if 0xE1 ≤ b ∧ b ≤ 0xEF then ([], .inside (b - 0xE0) 2 0x80 0xBF)
  else if b = 0xF0 then ([], .inside 0 3 0x90 0xBF)
  else if 0xF1 ≤ b ∧ b ≤ 0xF3 then ([], .inside (b - 0xF0) 3 0x80 0xBF)
  else if b = 0xF4 then ([], .inside 4 3 0x80 0x8F)
  else (['\uFFFD'], .start)

/-- One byte. -/
def step (st : State) (b : ℕ) : List Char × State :=
  match st with
  | .start => first b
  | .inside acc owed lo hi =>
      if lo ≤ b ∧ b ≤ hi then
        let acc' := acc * 64 + (b - 0x80)
        if owed = 1 then ([Char.ofNat acc'], .start) else ([], .inside acc' (owed - 1) 0x80 0xBF)
      else
        -- What came so far is one error; the byte is looked at again as a first byte.
        ('\uFFFD' :: (first b).1, (first b).2)

/-- The machine run over the bytes; input that ends inside a character is one
more error. -/
def lossyChars : State → List UInt8 → List Char
  | .start, [] => []
  | .inside .., [] => ['\uFFFD']
  | st, b :: bs => (step st b.toNat).1 ++ lossyChars (step st b.toNat).2 bs

/-- `String::from_utf8_lossy`, which borrows what is valid and decodes the rest. -/
def fromUtf8Lossy (bs : List UInt8) : String :=
  (fromUtf8 bs).getD (String.ofList (lossyChars .start bs))

@[simp] theorem fromUtf8Lossy_utf8 (s : String) : fromUtf8Lossy (utf8 s) = s := by
  rw [fromUtf8Lossy, fromUtf8_utf8, Option.getD_some]

/-- Lossy decoding loses nothing of a text, and something of everything else. -/
theorem utf8_fromUtf8Lossy {bs : List UInt8} :
    utf8 (fromUtf8Lossy bs) = bs ↔ ∃ s, bs = utf8 s := by
  constructor
  · intro h
    exact ⟨fromUtf8Lossy bs, h.symm⟩
  · rintro ⟨s, rfl⟩
    rw [fromUtf8Lossy_utf8]

end Utf8

end Rust
