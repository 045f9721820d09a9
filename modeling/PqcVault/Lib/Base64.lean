/-
`Base64.lean` -- the standard alphabet with canonical padding.

`decode` is as strict as the `STANDARD` engine of the `base64` crate: the length
is a multiple of four, padding stands at the end only, and the bits that padding
leaves over must be zero. Strictness is what makes `decode_eq_some` an
equivalence: every byte string has exactly one text that decodes to it, the one
`encode` prints. Values are carried in `ℕ`, where both directions are `omega`.
-/
import PqcVault.Lib.Text

set_option autoImplicit false

namespace Base64

open Rust

/-! ## The alphabet -/

/-- The character of a six-bit value. -/
def sextet (n : ℕ) : Char :=
  if n < 26 then Char.ofNat (65 + n)
  else if n < 52 then Char.ofNat (71 + n)
  else if n < 62 then Char.ofNat (n - 4)
  else if n = 62 then '+'
  else '/'

/-- The value of a character of the alphabet. -/
def value (c : Char) : Option ℕ :=
  if 'A' ≤ c ∧ c ≤ 'Z' then some (c.toNat - 65)
  else if 'a' ≤ c ∧ c ≤ 'z' then some (c.toNat - 71)
  else if '0' ≤ c ∧ c ≤ '9' then some (c.toNat + 4)
  else if c = '+' then some 62
  else if c = '/' then some 63
  else none

theorem value_sextet : ∀ n < 64, value (sextet n) = some n := by decide

theorem value_eq_some {c : Char} {n : ℕ} (h : value c = some n) : n < 64 ∧ sextet n = c := by
  have hc : c = Char.ofNat c.toNat := (Char.ofNat_toNat c).symm
  have hle : ∀ d : Char, c ≤ d ↔ c.toNat ≤ d.toNat := fun _ => Iff.rfl
  have hge : ∀ d : Char, d ≤ c ↔ d.toNat ≤ c.toNat := fun _ => Iff.rfl
  unfold value at h
  simp only [hle, hge, Char.reduceToNat] at h
  split_ifs at h with h1 h2 h3 h4 h5
  · obtain rfl := Option.some.inj h
    refine ⟨by omega, ?_⟩
    rw [sextet, if_pos (by omega), show 65 + (c.toNat - 65) = c.toNat by omega, ← hc]
  · obtain rfl := Option.some.inj h
    refine ⟨by omega, ?_⟩
    rw [sextet, if_neg (by omega), if_pos (by omega),
      show 71 + (c.toNat - 71) = c.toNat by omega, ← hc]
  · obtain rfl := Option.some.inj h
    refine ⟨by omega, ?_⟩
    rw [sextet, if_neg (by omega), if_neg (by omega), if_pos (by omega),
      show c.toNat + 4 - 4 = c.toNat by omega, ← hc]
  · obtain rfl := Option.some.inj h
    exact ⟨by omega, h4.symm⟩
  · obtain rfl := Option.some.inj h
    exact ⟨by omega, h5.symm⟩

theorem sextet_ne_pad : ∀ n < 64, sextet n ≠ '=' := by decide

/-! ## The codec -/

/-- `STANDARD.encode`. -/
def encode : List UInt8 → List Char
  | [] => []
  | [a] => [sextet (a.toNat / 4), sextet (a.toNat % 4 * 16), '=', '=']
  | [a, b] =>
      [sextet (a.toNat / 4), sextet (a.toNat % 4 * 16 + b.toNat / 16), sextet (b.toNat % 16 * 4),
        '=']
  | a :: b :: c :: s =>
      sextet (a.toNat / 4) :: sextet (a.toNat % 4 * 16 + b.toNat / 16)
        :: sextet (b.toNat % 16 * 4 + c.toNat / 64) :: sextet (c.toNat % 64) :: encode s

/-- Four characters without padding. -/
def quad (a b c d : Char) : Option (List UInt8) :=
  match value a, value b, value c, value d with
  | some x, some y, some z, some w =>
      some [UInt8.ofNat (x * 4 + y / 16), UInt8.ofNat (y % 16 * 16 + z / 4),
        UInt8.ofNat (z % 4 * 64 + w)]
  | _, _, _, _ => none

/-- Three characters before one `=`: two bytes, and two bits that must be zero. -/
def tail2 (a b c : Char) : Option (List UInt8) :=
  match value a, value b, value c with
  | some x, some y, some z =>
      if z % 4 = 0 then
        some [UInt8.ofNat (x * 4 + y / 16), UInt8.ofNat (y % 16 * 16 + z / 4)]
      else none
  | _, _, _ => none

/-- Two characters before `==`: one byte, and four bits that must be zero. -/
def tail1 (a b : Char) : Option (List UInt8) :=
  match value a, value b with
  | some x, some y => if y % 16 = 0 then some [UInt8.ofNat (x * 4 + y / 16)] else none
  | _, _ => none

/-- `STANDARD.decode`. -/
def decode : List Char → Option (List UInt8)
  | [] => some []
  | a :: b :: c :: d :: s =>
      if d = '=' then
        -- Padding ends the text.
        if s = [] then
          if c = '=' then tail1 a b else tail2 a b c
        else none
      else
        match quad a b c d with
        | some bs => (decode s).map (bs ++ ·)
        | none => none
  | _ => none

/-! ## Both directions -/

private theorem toNat_ofNat {n : ℕ} (h : n < 256) : (UInt8.ofNat n).toNat = n := by
  rw [UInt8.toNat_ofNat']
  omega

private theorem byte_eq {n : ℕ} {b : UInt8} (h : n = b.toNat) : UInt8.ofNat n = b := by
  rw [h, UInt8.ofNat_toNat]

theorem quad_sextet (a b c : UInt8) :
    quad (sextet (a.toNat / 4)) (sextet (a.toNat % 4 * 16 + b.toNat / 16))
      (sextet (b.toNat % 16 * 4 + c.toNat / 64)) (sextet (c.toNat % 64)) = some [a, b, c] := by
  have ha := a.toNat_lt
  have hb := b.toNat_lt
  have hc := c.toNat_lt
  have h1 : UInt8.ofNat (a.toNat / 4 * 4 + (a.toNat % 4 * 16 + b.toNat / 16) / 16) = a :=
    byte_eq (by omega)
  have h2 : UInt8.ofNat ((a.toNat % 4 * 16 + b.toNat / 16) % 16 * 16
      + (b.toNat % 16 * 4 + c.toNat / 64) / 4) = b := byte_eq (by omega)
  have h3 : UInt8.ofNat ((b.toNat % 16 * 4 + c.toNat / 64) % 4 * 64 + c.toNat % 64) = c :=
    byte_eq (by omega)
  simp only [quad, value_sextet _ (show a.toNat / 4 < 64 by omega),
    value_sextet _ (show a.toNat % 4 * 16 + b.toNat / 16 < 64 by omega),
    value_sextet _ (show b.toNat % 16 * 4 + c.toNat / 64 < 64 by omega),
    value_sextet _ (show c.toNat % 64 < 64 by omega), h1, h2, h3]

theorem tail2_sextet (a b : UInt8) :
    tail2 (sextet (a.toNat / 4)) (sextet (a.toNat % 4 * 16 + b.toNat / 16))
      (sextet (b.toNat % 16 * 4)) = some [a, b] := by
  have ha := a.toNat_lt
  have hb := b.toNat_lt
  have h1 : UInt8.ofNat (a.toNat / 4 * 4 + (a.toNat % 4 * 16 + b.toNat / 16) / 16) = a :=
    byte_eq (by omega)
  have h2 : UInt8.ofNat ((a.toNat % 4 * 16 + b.toNat / 16) % 16 * 16 + b.toNat % 16 * 4 / 4) = b :=
    byte_eq (by omega)
  simp only [tail2, value_sextet _ (show a.toNat / 4 < 64 by omega),
    value_sextet _ (show a.toNat % 4 * 16 + b.toNat / 16 < 64 by omega),
    value_sextet _ (show b.toNat % 16 * 4 < 64 by omega), h1, h2]
  exact if_pos (by omega)

theorem tail1_sextet (a : UInt8) :
    tail1 (sextet (a.toNat / 4)) (sextet (a.toNat % 4 * 16)) = some [a] := by
  have ha := a.toNat_lt
  have h1 : UInt8.ofNat (a.toNat / 4 * 4 + a.toNat % 4 * 16 / 16) = a := byte_eq (by omega)
  simp only [tail1, value_sextet _ (show a.toNat / 4 < 64 by omega),
    value_sextet _ (show a.toNat % 4 * 16 < 64 by omega), h1]
  exact if_pos (by omega)

@[simp] theorem decode_encode (bs : List UInt8) : decode (encode bs) = some bs := by
  induction bs using encode.induct with
  | case1 => rfl
  | case2 a => simp only [encode, decode, if_true, tail1_sextet]
  | case3 a b =>
      have hb := b.toNat_lt
      simp only [encode, decode, if_true, tail2_sextet,
        if_neg (sextet_ne_pad _ (show b.toNat % 16 * 4 < 64 by omega))]
  | case4 a b c s ih =>
      simp only [encode, decode, if_neg (sextet_ne_pad _ (show c.toNat % 64 < 64 by omega)),
        quad_sextet, ih]
      rfl

theorem encode_quad {a b c d : Char} {bs : List UInt8} (h : quad a b c d = some bs)
    (s : List UInt8) : encode (bs ++ s) = a :: b :: c :: d :: encode s := by
  unfold quad at h
  split at h
  next x y z w hx hy hz hw =>
    obtain ⟨hx', rfl⟩ := value_eq_some hx
    obtain ⟨hy', rfl⟩ := value_eq_some hy
    obtain ⟨hz', rfl⟩ := value_eq_some hz
    obtain ⟨hw', rfl⟩ := value_eq_some hw
    obtain rfl := Option.some.inj h
    simp only [List.cons_append, List.nil_append, encode,
      toNat_ofNat (show x * 4 + y / 16 < 256 by omega),
      toNat_ofNat (show y % 16 * 16 + z / 4 < 256 by omega),
      toNat_ofNat (show z % 4 * 64 + w < 256 by omega)]
    congr 2
    · omega
    congr 2
    · omega
    congr 2
    · omega
    congr 2
    omega
  next => cases h

theorem encode_tail2 {a b c : Char} {bs : List UInt8} (h : tail2 a b c = some bs) :
    encode bs = [a, b, c, '='] := by
  unfold tail2 at h
  split at h
  next x y z hx hy hz =>
    obtain ⟨hx', rfl⟩ := value_eq_some hx
    obtain ⟨hy', rfl⟩ := value_eq_some hy
    obtain ⟨hz', rfl⟩ := value_eq_some hz
    -- The two bits left over are zero, or the last character would not come back.
    split_ifs at h with hbits
    obtain rfl := Option.some.inj h
    simp only [encode, toNat_ofNat (show x * 4 + y / 16 < 256 by omega),
      toNat_ofNat (show y % 16 * 16 + z / 4 < 256 by omega)]
    congr 2
    · omega
    congr 2
    · omega
    congr 2
    omega
  next => cases h

theorem encode_tail1 {a b : Char} {bs : List UInt8} (h : tail1 a b = some bs) :
    encode bs = [a, b, '=', '='] := by
  unfold tail1 at h
  split at h
  next x y hx hy =>
    obtain ⟨hx', rfl⟩ := value_eq_some hx
    obtain ⟨hy', rfl⟩ := value_eq_some hy
    -- Likewise the four.
    split_ifs at h with hbits
    obtain rfl := Option.some.inj h
    simp only [encode, toNat_ofNat (show x * 4 + y / 16 < 256 by omega)]
    congr 2
    · omega
    congr 2
    omega
  next => cases h

theorem encode_of_decode {s : List Char} {bs : List UInt8} (h : decode s = some bs) :
    encode bs = s := by
  induction s using decode.induct generalizing bs with
  | case1 =>
      obtain rfl := Option.some.inj h
      rfl
  | case2 a b =>
      simp only [decode, if_true] at h
      exact encode_tail1 h
  | case3 a b c hc =>
      simp only [decode, if_true, if_neg hc] at h
      exact encode_tail2 h
  | case4 a b c s hs =>
      simp only [decode, if_true, if_neg hs, reduceCtorEq] at h
  | case5 a b c d s hd bs' hq ih =>
      simp only [decode, if_neg hd, hq, Option.map_eq_some_iff] at h
      obtain ⟨r, hr, rfl⟩ := h
      rw [encode_quad hq, ih hr]
  | case6 a b c d s hd hq =>
      simp only [decode, if_neg hd, hq, reduceCtorEq] at h
  | case7 s h1 h2 =>
      -- One, two or three characters.
      rw [decode] at h
      · cases h
      all_goals assumption

/-- **The decoder accepts exactly the encodings.** -/
theorem decode_eq_some {s : List Char} {bs : List UInt8} : decode s = some bs ↔ s = encode bs :=
  ⟨fun h => (encode_of_decode h).symm, fun h => h ▸ decode_encode bs⟩

/-! ## What a text looks like -/

/-- Only the alphabet and the padding are printed. -/
theorem mem_encode {bs : List UInt8} {c : Char} (h : c ∈ encode bs) :
    c = '=' ∨ ∃ n < 64, c = sextet n := by
  induction bs using encode.induct with
  | case1 => simp [encode] at h
  | case2 a =>
      have ha := a.toNat_lt
      simp only [encode, List.mem_cons, List.not_mem_nil, or_false] at h
      rcases h with rfl | rfl | rfl | rfl
      · exact .inr ⟨_, by omega, rfl⟩
      · exact .inr ⟨_, by omega, rfl⟩
      · exact .inl rfl
      · exact .inl rfl
  | case3 a b =>
      have ha := a.toNat_lt
      have hb := b.toNat_lt
      simp only [encode, List.mem_cons, List.not_mem_nil, or_false] at h
      rcases h with rfl | rfl | rfl | rfl
      · exact .inr ⟨_, by omega, rfl⟩
      · exact .inr ⟨_, by omega, rfl⟩
      · exact .inr ⟨_, by omega, rfl⟩
      · exact .inl rfl
  | case4 a b c s ih =>
      have ha := a.toNat_lt
      have hb := b.toNat_lt
      have hc := c.toNat_lt
      simp only [encode, List.mem_cons] at h
      rcases h with rfl | rfl | rfl | rfl | h
      · exact .inr ⟨_, by omega, rfl⟩
      · exact .inr ⟨_, by omega, rfl⟩
      · exact .inr ⟨_, by omega, rfl⟩
      · exact .inr ⟨_, by omega, rfl⟩
      · exact ih h

private theorem plain_sextet : ∀ n < 64, sextet n ≠ '-' ∧ Str.isWhitespace (sextet n) = false := by
  decide

/-- No dash and no whitespace is printed. -/
theorem plain_of_mem_encode {bs : List UInt8} {c : Char} (h : c ∈ encode bs) :
    c ≠ '-' ∧ Str.isWhitespace c = false := by
  rcases mem_encode h with rfl | ⟨n, hn, rfl⟩
  · decide
  · exact plain_sextet n hn

end Base64
