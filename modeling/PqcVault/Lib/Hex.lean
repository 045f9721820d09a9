/-
`Hex.lean` -- the `hex` codec: lower-case encoder, case-insensitive decoder.

The decoder follows the `hex` crate: an odd number of bytes is refused before
any digit is looked at, then the digits are read pair by pair and the first bad
one is reported with its byte offset. What callers need is one equivalence,
`decode_eq_ok`: the decoder accepts exactly the texts whose lower-case form the
encoder prints, and then returns what was encoded. Round trip, exactness and
insensitivity to case are all read off it.
-/
import Mathlib.Tactic.IntervalCases
import PqcVault.Lib.Text

set_option autoImplicit false

namespace Hex

open Rust

/-! ## Digits -/

/-- The lower-case digit of a value below 16. -/
def digit (n : ℕ) : Char := if n < 10 then Char.ofNat (48 + n) else Char.ofNat (87 + n)

/-- The value of a digit of either case. -/
def nibble (c : Char) : Option ℕ :=
  if 'A' ≤ c ∧ c ≤ 'F' then some (c.toNat - 'A'.toNat + 10)
  else if 'a' ≤ c ∧ c ≤ 'f' then some (c.toNat - 'a'.toNat + 10)
  else if '0' ≤ c ∧ c ≤ '9' then some (c.toNat - '0'.toNat)
  else none

theorem nibble_digit : ∀ n < 16, nibble (digit n) = some n := by decide

theorem toLower_digit : ∀ n < 16, (digit n).toLower = digit n := by decide

private theorem char_le_iff {c d : Char} : c ≤ d ↔ c.toNat ≤ d.toNat := Iff.rfl

private theorem eq_ofNat {c : Char} {n : ℕ} (h : c.toNat = n) : c = Char.ofNat n := by
  rw [← h, Char.ofNat_toNat]

/-- The value of a digit does not depend on its case. -/
theorem nibble_toLower (c : Char) : nibble c.toLower = nibble c := by
  by_cases hup : 'A'.val ≤ c.val ∧ c.val ≤ 'Z'.val
  · obtain ⟨k, hk⟩ : ∃ k, c.toNat = k := ⟨_, rfl⟩
    have h65 : 65 ≤ k := hk ▸ hup.1
    have h90 : k ≤ 90 := hk ▸ hup.2
    obtain rfl := eq_ofNat hk
    interval_cases k <;> decide
  · rw [show c.toLower = c from dif_neg hup]

/-- The digits, in both cases. -/
def digits : List Char := "0123456789abcdefABCDEF".toList

/-- A character with a value is one of the digits. -/
theorem mem_digits {c : Char} {n : ℕ} (h : nibble c = some n) : c ∈ digits := by
  have hrange : (65 ≤ c.toNat ∧ c.toNat ≤ 70) ∨ (97 ≤ c.toNat ∧ c.toNat ≤ 102)
      ∨ (48 ≤ c.toNat ∧ c.toNat ≤ 57) := by
    unfold nibble at h
    simp only [char_le_iff] at h
    split_ifs at h with h1 h2 h3
    · exact .inl h1
    · exact .inr (.inl h2)
    · exact .inr (.inr h3)
  obtain ⟨k, hk⟩ : ∃ k, c.toNat = k := ⟨_, rfl⟩
  rw [hk] at hrange
  obtain rfl := eq_ofNat hk
  rcases hrange with ⟨h1, h2⟩ | ⟨h1, h2⟩ | ⟨h1, h2⟩ <;> interval_cases k <;> decide

/-- A digit has the value whose lower-case spelling it is a case of. -/
theorem nibble_eq_some {c : Char} {n : ℕ} : nibble c = some n ↔ n < 16 ∧ c.toLower = digit n := by
  constructor
  · intro h
    -- Twenty-two characters, each with its value.
    have hall : digits.all (fun d => (nibble d).all fun m => m < 16 ∧ d.toLower = digit m) = true := by
      decide
    have hc := List.all_eq_true.mp hall c (mem_digits h)
    rw [h] at hc
    exact of_decide_eq_true hc
  · rintro ⟨hn, h⟩
    rw [← nibble_toLower, h]
    exact nibble_digit n hn

/-- No digit of either case is whitespace. -/
theorem isWhitespace_of_toLower {c : Char} {n : ℕ} (hn : n < 16) (h : c.toLower = digit n) :
    Str.isWhitespace c = false := by
  have hall : digits.all (fun d => Str.isWhitespace d = false) = true := by decide
  exact of_decide_eq_true (List.all_eq_true.mp hall c (mem_digits (nibble_eq_some.mpr ⟨hn, h⟩)))

/-- Digits are ASCII. -/
theorem utf8Size_of_toLower {c : Char} {n : ℕ} (hn : n < 16) (h : c.toLower = digit n) :
    c.utf8Size = 1 := by
  have hall : digits.all (fun d => d.utf8Size = 1) = true := by decide
  exact of_decide_eq_true (List.all_eq_true.mp hall c (mem_digits (nibble_eq_some.mpr ⟨hn, h⟩)))

/-! ## The codec -/

/-- The two digits of a byte. -/
def encodeByte (b : UInt8) : List Char := [digit (b.toNat / 16), digit (b.toNat % 16)]

/-- `hex::encode`. -/
def encode (bs : List UInt8) : List Char := bs.flatMap encodeByte

/-- `hex::FromHexError`. -/
inductive FromHexError where
  | oddLength
  | invalidHexCharacter (c : UInt8) (index : ℕ)
  deriving DecidableEq

/-- One digit at byte offset `i`. A character outside ASCII is refused at its
first byte. -/
def val (c : Char) (i : ℕ) : Except FromHexError ℕ :=
  match nibble c with
  | some n => .ok n
  | none => .error (.invalidHexCharacter ((String.utf8EncodeChar c).headD 0) i)

/-- The digits pair by pair, from byte offset `i`. -/
def decodePairs : List Char → ℕ → Except FromHexError (List UInt8)
  | [], _ => .ok []
  | [a], i =>
      match val a i with
      | .ok _ => .error .oddLength
      | .error e => .error e
  | a :: b :: s, i =>
      match val a i with
      | .error e => .error e
      | .ok h =>
          match val b (i + 1) with
          | .error e => .error e
          | .ok l =>
              match decodePairs s (i + 2) with
              | .error e => .error e
              | .ok bs => .ok (UInt8.ofNat (16 * h + l) :: bs)

/-- `hex::decode`. -/
def decode (s : List Char) : Except FromHexError (List UInt8) :=
  if Str.len s % 2 = 1 then .error .oddLength else decodePairs s 0

/-! ## What the decoder accepts -/

theorem val_eq_ok {c : Char} {i n : ℕ} : val c i = .ok n ↔ n < 16 ∧ c.toLower = digit n := by
  rw [← nibble_eq_some, val]
  cases nibble c <;> simp

@[simp] theorem encode_nil : encode [] = [] := rfl

@[simp] theorem encode_cons (b : UInt8) (bs : List UInt8) :
    encode (b :: bs) = digit (b.toNat / 16) :: digit (b.toNat % 16) :: encode bs := rfl

@[simp] theorem encode_append (as bs : List UInt8) : encode (as ++ bs) = encode as ++ encode bs := by
  simp [encode]

theorem length_encode (bs : List UInt8) : (encode bs).length = 2 * bs.length := by
  induction bs with
  | nil => rfl
  | cons b bs ih => simp only [encode_cons, List.length_cons, ih]; omega

/-- Every character printed is a lower-case digit. -/
theorem mem_encode {bs : List UInt8} {c : Char} (h : c ∈ encode bs) : ∃ n < 16, c = digit n := by
  obtain ⟨b, -, hb⟩ := List.mem_flatMap.mp h
  have hlt := b.toNat_lt
  simp only [encodeByte, List.mem_cons, List.not_mem_nil, or_false] at hb
  rcases hb with rfl | rfl
  · exact ⟨_, by omega, rfl⟩
  · exact ⟨_, by omega, rfl⟩

theorem dash_not_mem_encode (bs : List UInt8) : '-' ∉ encode bs := by
  have hdigit : ∀ n < 16, '-' ≠ digit n := by decide
  intro h
  obtain ⟨n, hn, heq⟩ := mem_encode h
  exact hdigit n hn heq

/-- A text that is an encoding up to case holds no whitespace. -/
theorem isWhitespace_of_mem {s : List Char} {bs : List UInt8}
    (h : s.map Char.toLower = encode bs) {c : Char} (hc : c ∈ s) : Str.isWhitespace c = false := by
  obtain ⟨n, hn, he⟩ := mem_encode (h ▸ List.mem_map_of_mem hc : c.toLower ∈ encode bs)
  exact isWhitespace_of_toLower hn he

private theorem byte_of_nibbles {h l : ℕ} (hh : h < 16) (hl : l < 16) :
    (UInt8.ofNat (16 * h + l)).toNat / 16 = h ∧ (UInt8.ofNat (16 * h + l)).toNat % 16 = l := by
  have : (UInt8.ofNat (16 * h + l)).toNat = 16 * h + l := by
    rw [UInt8.toNat_ofNat']
    omega
  omega

private theorem nibbles_of_byte (b : UInt8) :
    UInt8.ofNat (16 * (b.toNat / 16) + b.toNat % 16) = b := by
  rw [Nat.div_add_mod]
  exact UInt8.ofNat_toNat

private theorem digit_inj {m n : ℕ} (hm : m < 16) (hn : n < 16) (h : digit m = digit n) :
    m = n := by
  have hnm := nibble_digit m hm
  rw [h, nibble_digit n hn] at hnm
  exact (Option.some.inj hnm).symm

private theorem singleton_ne_encode (a : Char) (bs : List UInt8) :
    [a].map Char.toLower ≠ encode bs := fun h => by
  have hlen := congrArg List.length h
  rw [length_encode, List.length_map, List.length_singleton] at hlen
  omega

/-- An encoding that starts with two characters is of a byte and a rest. -/
private theorem encode_eq_cons_cons {x y : Char} {s : List Char} {bs : List UInt8}
    (h : x :: y :: s = encode bs) :
    ∃ b bs', bs = b :: bs' ∧ x = digit (b.toNat / 16) ∧ y = digit (b.toNat % 16)
      ∧ s = encode bs' := by
  cases bs with
  | nil => simp at h
  | cons b bs =>
      rw [encode_cons, List.cons.injEq, List.cons.injEq] at h
      exact ⟨b, bs, rfl, h⟩

/-- Pair by pair, the decoder accepts the case variants of what is encoded. -/
theorem decodePairs_eq_ok {s : List Char} {i : ℕ} {bs : List UInt8} :
    decodePairs s i = .ok bs ↔ s.map Char.toLower = encode bs := by
  induction s, i using decodePairs.induct generalizing bs with
  | case1 i => cases bs <;> simp [decodePairs]
  | case2 a i n hv =>
      simp only [decodePairs, hv, reduceCtorEq, false_iff]
      exact singleton_ne_encode a bs
  | case3 a i e hv =>
      simp only [decodePairs, hv, reduceCtorEq, false_iff]
      exact singleton_ne_encode a bs
  | case4 a b s i e hv =>
      -- The first character of the pair is no digit.
      simp only [decodePairs, hv, reduceCtorEq, false_iff]
      intro h
      obtain ⟨c, bs', -, ha, -, -⟩ := encode_eq_cons_cons h
      have hlt := c.toNat_lt
      rw [val_eq_ok.mpr ⟨by omega, ha⟩] at hv
      cases hv
  | case5 a b s i n hv e hw =>
      -- The second one is none.
      simp only [decodePairs, hv, hw, reduceCtorEq, false_iff]
      intro h
      obtain ⟨c, bs', -, -, hb, -⟩ := encode_eq_cons_cons h
      have hlt := c.toNat_lt
      rw [val_eq_ok.mpr ⟨by omega, hb⟩] at hw
      cases hw
  | case6 a b s i n hv m hw e hs ih =>
      -- Something after the pair is none.
      simp only [decodePairs, hv, hw, hs, reduceCtorEq, false_iff]
      intro h
      obtain ⟨c, bs', -, -, -, hrest⟩ := encode_eq_cons_cons h
      rw [ih.mpr hrest] at hs
      cases hs
  | case7 a b s i n hv m hw cs hs ih =>
      obtain ⟨hn, ha⟩ := val_eq_ok.mp hv
      obtain ⟨hm, hb⟩ := val_eq_ok.mp hw
      have hcs : s.map Char.toLower = encode cs := ih.mp hs
      obtain ⟨hdiv, hmod⟩ := byte_of_nibbles hn hm
      simp only [decodePairs, hv, hw, hs, Except.ok.injEq, List.map_cons, ha, hb, hcs]
      constructor
      · rintro rfl
        rw [encode_cons, hdiv, hmod]
      · intro h
        -- Digits have one value each, so the byte is the one the two nibbles make.
        obtain ⟨c, bs', rfl, hhigh, hlow, hrest⟩ := encode_eq_cons_cons h
        have hlt := c.toNat_lt
        rw [digit_inj hn (by omega) hhigh, digit_inj hm (by omega) hlow, nibbles_of_byte]
        have hok := ih.mpr (hcs.trans hrest)
        rw [hs] at hok
        rw [Except.ok.inj hok]

private theorem len_of_toLower_encode {s : List Char} {bs : List UInt8}
    (h : s.map Char.toLower = encode bs) : Str.len s = 2 * bs.length := by
  have hlen : s.length = 2 * bs.length := by
    rw [← length_encode, ← h, List.length_map]
  have hsize : ∀ c ∈ s, c.utf8Size = 1 := fun c hc => by
    have hm : c.toLower ∈ encode bs := h ▸ List.mem_map_of_mem hc
    obtain ⟨n, hn, he⟩ := mem_encode hm
    exact utf8Size_of_toLower hn he
  rw [← hlen, Str.len, List.map_congr_left hsize, List.map_const', List.sum_replicate_nat, mul_one]

/-- **What `hex::decode` accepts**: the texts whose lower-case form is an
encoding, and it returns what that encoding is of. -/
theorem decode_eq_ok {s : List Char} {bs : List UInt8} :
    decode s = .ok bs ↔ s.map Char.toLower = encode bs := by
  rw [decode]
  split_ifs with hodd
  · refine iff_of_false (by simp) fun h => ?_
    rw [len_of_toLower_encode h] at hodd
    omega
  · exact decodePairs_eq_ok

/-- The digits are the characters whose lower-case form is printed for a value. -/
theorem mem_digits_iff {c : Char} : c ∈ digits ↔ ∃ n < 16, c.toLower = digit n := by
  constructor
  · intro hc
    have hall : digits.all (fun d => (nibble d).isSome) = true := by decide
    obtain ⟨n, hn⟩ := Option.isSome_iff_exists.mp (List.all_eq_true.mp hall c hc)
    exact ⟨n, nibble_eq_some.mp hn⟩
  · rintro ⟨n, hn, h⟩
    exact mem_digits (nibble_eq_some.mpr ⟨hn, h⟩)

/-- An even number of digits is an encoding up to case; the induction is on the
number of pairs. -/
theorem exists_encode {k : ℕ} {s : List Char} (hs : ∀ c ∈ s, c ∈ digits)
    (hlen : s.length = 2 * k) : ∃ bs, s.map Char.toLower = encode bs := by
  induction k generalizing s with
  | zero =>
      rw [List.length_eq_zero_iff.mp hlen]
      exact ⟨[], rfl⟩
  | succ k ih =>
      match s, hlen with
      | a :: b :: s, hlen =>
          obtain ⟨h, hh, ha⟩ := mem_digits_iff.mp (hs a (by simp))
          obtain ⟨l, hl, hb⟩ := mem_digits_iff.mp (hs b (by simp))
          have hrest : s.length = 2 * k := by
            rw [List.length_cons, List.length_cons] at hlen
            omega
          obtain ⟨bs, hbs⟩ := ih (fun c hc => hs c (by simp [hc])) hrest
          obtain ⟨hdiv, hmod⟩ := byte_of_nibbles hh hl
          refine ⟨UInt8.ofNat (16 * h + l) :: bs, ?_⟩
          rw [List.map_cons, List.map_cons, ha, hb, hbs, encode_cons, hdiv, hmod]

/-- **What `hex::decode` accepts**, by looking at the text: an even number of
digits of either case. -/
theorem decode_length_iff {s : List Char} {k : ℕ} :
    (∃ bs, decode s = .ok bs ∧ bs.length = k) ↔ (∀ c ∈ s, c ∈ digits) ∧ s.length = 2 * k := by
  constructor
  · rintro ⟨bs, hdec, rfl⟩
    have henc := decode_eq_ok.mp hdec
    refine ⟨?_, ?_⟩
    · intro c hc
      exact mem_digits_iff.mpr (mem_encode (henc ▸ List.mem_map_of_mem hc))
    · rw [← length_encode, ← henc, List.length_map]
  · rintro ⟨hs, hlen⟩
    obtain ⟨bs, henc⟩ := exists_encode hs hlen
    have hbs := congrArg List.length henc
    rw [List.length_map, length_encode] at hbs
    exact ⟨bs, decode_eq_ok.mpr henc, by omega⟩

/-- An encoding is its own lower-case form. -/
@[simp] theorem map_toLower_encode (bs : List UInt8) :
    (encode bs).map Char.toLower = encode bs := by
  induction bs with
  | nil => rfl
  | cons b bs ih =>
      have hlt := b.toNat_lt
      rw [encode_cons, List.map_cons, List.map_cons, ih, toLower_digit _ (by omega),
        toLower_digit _ (by omega)]

@[simp] theorem decode_encode (bs : List UInt8) : decode (encode bs) = .ok bs :=
  decode_eq_ok.mpr (map_toLower_encode bs)

/-- Decoding a text that differs from an encoding in letter case and in
surrounding whitespace. -/
theorem decode_trim_padded {w₁ t w₂ : List Char} {bs : List UInt8}
    (h₁ : ∀ c ∈ w₁, Str.isWhitespace c = true) (h₂ : ∀ c ∈ w₂, Str.isWhitespace c = true)
    (ht : t.map Char.toLower = encode bs) : decode (Str.trim (w₁ ++ t ++ w₂)) = .ok bs := by
  rw [Str.trim_padded h₁ h₂ (fun c hc => isWhitespace_of_mem ht hc)]
  exact decode_eq_ok.mpr ht

theorem encode_injective : Function.Injective encode := fun as bs h => by
  have hdec := decode_encode as
  rw [h, decode_encode] at hdec
  exact (Except.ok.inj hdec).symm

/-! ## What the decoder refuses -/

/-- The first character that is no digit, and where it starts, counted from `i`. -/
def FirstBad (s : List Char) (i : ℕ) (e : FromHexError) : Prop :=
  ∃ pre c post, s = pre ++ c :: post ∧ (∀ d ∈ pre, d ∈ digits) ∧ c ∉ digits
    ∧ e = .invalidHexCharacter ((String.utf8EncodeChar c).headD 0) (i + pre.length)

theorem val_eq_error {c : Char} {i : ℕ} {e : FromHexError} :
    val c i = .error e
      ↔ c ∉ digits ∧ e = .invalidHexCharacter ((String.utf8EncodeChar c).headD 0) i := by
  rw [val]
  cases h : nibble c with
  | some n => simp [mem_digits h]
  | none =>
      have hc : c ∉ digits := fun hc => by
        obtain ⟨n, hn⟩ := mem_digits_iff.mp hc
        rw [nibble_eq_some.mpr hn] at h
        exact absurd h (by simp)
      simp [hc, eq_comm]

theorem mem_digits_of_val {c : Char} {i n : ℕ} (h : val c i = .ok n) : c ∈ digits :=
  mem_digits_iff.mpr ⟨n, val_eq_ok.mp h⟩

theorem firstBad_cons_of_mem {c : Char} (hc : c ∈ digits) {s : List Char} {i : ℕ}
    {e : FromHexError} : FirstBad (c :: s) i e ↔ FirstBad s (i + 1) e := by
  constructor
  · rintro ⟨pre, d, post, heq, hpre, hd, rfl⟩
    cases pre with
    | nil =>
        obtain ⟨rfl, -⟩ := List.cons.inj heq
        exact absurd hc hd
    | cons x pre =>
        obtain ⟨rfl, rfl⟩ := List.cons.inj heq
        refine ⟨pre, d, post, rfl, fun y hy => hpre y (List.mem_cons_of_mem _ hy), hd, ?_⟩
        rw [List.length_cons, Nat.add_right_comm, Nat.add_assoc]
  · rintro ⟨pre, d, post, rfl, hpre, hd, rfl⟩
    refine ⟨c :: pre, d, post, rfl, List.forall_mem_cons.mpr ⟨hc, hpre⟩, hd, ?_⟩
    rw [List.length_cons, Nat.add_right_comm, Nat.add_assoc]

theorem firstBad_cons_of_notMem {c : Char} (hc : c ∉ digits) {s : List Char} {i : ℕ}
    {e : FromHexError} : FirstBad (c :: s) i e
      ↔ e = .invalidHexCharacter ((String.utf8EncodeChar c).headD 0) i := by
  constructor
  · rintro ⟨pre, d, post, heq, hpre, hd, rfl⟩
    cases pre with
    | nil =>
        obtain ⟨rfl, -⟩ := List.cons.inj heq
        rfl
    | cons x pre =>
        obtain ⟨rfl, -⟩ := List.cons.inj heq
        exact absurd (hpre c List.mem_cons_self) hc
  · rintro rfl
    exact ⟨[], c, s, rfl, List.forall_mem_nil _, hc, rfl⟩

theorem not_firstBad_nil {i : ℕ} {e : FromHexError} : ¬ FirstBad [] i e := by
  rintro ⟨pre, c, post, heq, -⟩
  exact absurd heq (by simp)

/-- A pair of digits in front of what is refused. -/
theorem refused_cons_cons {a b : Char} (ha : a ∈ digits) (hb : b ∈ digits) {s : List Char} {i : ℕ}
    {e : FromHexError} :
    (FirstBad (a :: b :: s) i e
        ∨ ((∀ c ∈ a :: b :: s, c ∈ digits) ∧ (a :: b :: s).length % 2 = 1 ∧ e = .oddLength))
      ↔ FirstBad s (i + 2) e ∨ ((∀ c ∈ s, c ∈ digits) ∧ s.length % 2 = 1 ∧ e = .oddLength) := by
  have hlen : (a :: b :: s).length % 2 = s.length % 2 := by
    rw [List.length_cons, List.length_cons]
    omega
  rw [firstBad_cons_of_mem ha, firstBad_cons_of_mem hb, hlen, List.forall_mem_cons,
    List.forall_mem_cons, and_iff_right ha, and_iff_right hb]

/-- Digits have one byte each. -/
theorem len_of_digits {s : List Char} (h : ∀ c ∈ s, c ∈ digits) : Str.len s = s.length := by
  have hsize : ∀ c ∈ s, c.utf8Size = 1 := fun c hc => by
    obtain ⟨n, hn, hlower⟩ := mem_digits_iff.mp (h c hc)
    exact utf8Size_of_toLower hn hlower
  rw [Str.len, List.map_congr_left hsize, List.map_const', List.sum_replicate_nat, mul_one]

/-- Pair by pair: the first bad character, or else a digit left over. -/
theorem decodePairs_eq_error {s : List Char} {i : ℕ} {e : FromHexError} :
    decodePairs s i = .error e
      ↔ FirstBad s i e ∨ ((∀ c ∈ s, c ∈ digits) ∧ s.length % 2 = 1 ∧ e = .oddLength) := by
  induction s, i using decodePairs.induct with
  | case1 i => simp [decodePairs, not_firstBad_nil]
  | case2 a i n hv =>
      have ha := mem_digits_of_val hv
      rw [firstBad_cons_of_mem ha]
      simp [decodePairs, hv, not_firstBad_nil, ha, eq_comm]
  | case3 a i e' hv =>
      obtain ⟨ha, rfl⟩ := val_eq_error.mp hv
      rw [firstBad_cons_of_notMem ha]
      simp [decodePairs, hv, ha, eq_comm]
  | case4 a b s i e' hv =>
      obtain ⟨ha, rfl⟩ := val_eq_error.mp hv
      rw [firstBad_cons_of_notMem ha]
      simp [decodePairs, hv, ha, eq_comm]
  | case5 a b s i n hv e' hw =>
      have ha := mem_digits_of_val hv
      obtain ⟨hb, rfl⟩ := val_eq_error.mp hw
      rw [firstBad_cons_of_mem ha, firstBad_cons_of_notMem hb]
      simp [decodePairs, hv, hw, hb, eq_comm]
  | case6 a b s i n hv m hw e' hs ih =>
      have hstep : decodePairs (a :: b :: s) i = .error e ↔ decodePairs s (i + 2) = .error e := by
        simp only [decodePairs, hv, hw, hs]
      rw [hstep, ih, refused_cons_cons (mem_digits_of_val hv) (mem_digits_of_val hw)]
  | case7 a b s i n hv m hw cs hs ih =>
      have hstep : decodePairs (a :: b :: s) i = .error e ↔ decodePairs s (i + 2) = .error e := by
        simp [decodePairs, hv, hw, hs]
      rw [hstep, ih, refused_cons_cons (mem_digits_of_val hv) (mem_digits_of_val hw)]

/-- What is wrong with a text that is not hex: an odd number of bytes, and else the first
character that is no digit, with its offset. -/
def Malformed (s : List Char) (e : FromHexError) : Prop :=
  (Str.len s % 2 = 1 ∧ e = .oddLength) ∨ (Str.len s % 2 = 0 ∧ FirstBad s 0 e)

/-- **What `hex::decode` refuses**, and with which error. -/
theorem decode_eq_error {s : List Char} {e : FromHexError} :
    decode s = .error e ↔ Malformed s e := by
  rw [decode, Malformed]
  split_ifs with hodd
  · have hne : Str.len s % 2 ≠ 0 := by omega
    simp [hodd, eq_comm]
  · rw [decodePairs_eq_error]
    constructor
    · rintro (h | ⟨hall, hlen, -⟩)
      · exact .inr ⟨by omega, h⟩
      · -- Digits have one byte each, so their number is even.
        have hsize : Str.len s = s.length := len_of_digits hall
        exact absurd hlen (hsize ▸ hodd)
    · rintro (⟨h, -⟩ | ⟨-, h⟩)
      · exact absurd h hodd
      · exact .inl h

end Hex
