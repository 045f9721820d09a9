/-
`Plaintext.lean` -- the plaintext of a bundle, `encode_*_plaintext` and
`decode_*_plaintext` of `serial.rs`.

The format is a 32-bit little-endian length, the public key, and the secret key
up to the end. The source writes encoder and decoder twice, once for each kind
of key, with the same body; here the body is written once over the two byte
strings.

The decoder adds `4 + pk_len` in `usize`. A release build does not trap
overflow, so the sum is taken modulo the word size, and the bounds check and the
slices that follow see the wrapped value. `decode_plaintext_noPanic` says what
that costs: on a prefix that wraps, and on no other, the decoder panics.
-/
import PqcVault.Dsa
import PqcVault.Kem
import PqcVault.Lib.Word

set_option autoImplicit false

namespace PqcVault

open Rust Outcome

/-! ## The format -/

/-- The buffer `encode_kem_plaintext` and `encode_dsa_plaintext` build. -/
def encode_plaintext (pk sk : Bytes) : Bytes := u32ToLeBytes pk.length ++ pk ++ sk

/-- What `decode_kem_plaintext` and `decode_dsa_plaintext` cut a buffer into.
Every `4 + pk_len` of the source is the same wrapped sum. -/
def decode_plaintext (usizeBits : ℕ) (data : Bytes) : Result (Bytes × Bytes) := do
  if data.length < 4 then
    err (.Other "Truncated key data")
  else
    let head ← slice data 0 4
    let word : FixedArray UInt8 4 ← FixedArray.fromSlice 4 head
    let pk_len := u32FromLeBytes word.val
    -- `4 + pk_len` is a `usize`, and wraps in a release build.
    let stop := (4 + pk_len) % 2 ^ usizeBits
    if data.length < stop then
      err (.Other "Truncated public key")
    else
      -- A sum that wrapped below four makes this range run backwards.
      let pk ← slice data 4 stop
      let sk ← slice data stop data.length
      pure (pk, sk)

def encode_kem_plaintext (d : KemKeyData) : Bytes := encode_plaintext d.public_key d.secret_key

def encode_dsa_plaintext (d : DsaKeyData) : Bytes := encode_plaintext d.public_key d.secret_key

def decode_kem_plaintext (P : Platform) (level : SecurityLevel) (data : Bytes) :
    Result KemKeyData := do
  let (public_key, secret_key) ← decode_plaintext P.usizeBits data
  pure { level, public_key, secret_key }

def decode_dsa_plaintext (P : Platform) (level : SecurityLevel) (data : Bytes) :
    Result DsaKeyData := do
  let (public_key, secret_key) ← decode_plaintext P.usizeBits data
  pure { level, public_key, secret_key }

/-! ## What the decoder does

`pkLen` is the number the prefix holds, whatever the buffer. -/

/-- The length a buffer announces for its public key. -/
def pkLen (data : Bytes) : ℕ := u32FromLeBytes (data.take 4)

theorem pkLen_lt (data : Bytes) : pkLen data < 2 ^ 32 := u32FromLeBytes_lt _

/-- The sum `4 + pk_len` of a buffer fits the word. -/
def PrefixFits (usizeBits : ℕ) (data : Bytes) : Prop := 4 + pkLen data < 2 ^ usizeBits

theorem decode_plaintext_of_short {usizeBits : ℕ} {data : Bytes} (h : data.length < 4) :
    decode_plaintext usizeBits data = err (.Other "Truncated key data") := by
  rw [decode_plaintext, if_pos h]

/-- Past the first check, the decoder is a bounds check and two slices. -/
theorem decode_plaintext_of_long {usizeBits : ℕ} {data : Bytes} (h : 4 ≤ data.length) :
    decode_plaintext usizeBits data
      = if data.length < (4 + pkLen data) % 2 ^ usizeBits then err (.Other "Truncated public key")
        else
          (slice data 4 ((4 + pkLen data) % 2 ^ usizeBits) >>= fun pk =>
            slice data ((4 + pkLen data) % 2 ^ usizeBits) data.length >>= fun sk =>
              ok (pk, sk)) := by
  have hlen : (data.take 4).length = 4 := by rw [List.length_take]; omega
  rw [decode_plaintext, if_neg (by omega), slice_eq_ok (by omega) h, bind_ok, List.drop_zero,
    FixedArray.fromSlice_of_length hlen, bind_ok]
  rfl

/-- A prefix that fits is taken at its word. -/
theorem decode_plaintext_of_fits {usizeBits : ℕ} {data : Bytes} (h : 4 ≤ data.length)
    (hfit : PrefixFits usizeBits data) :
    decode_plaintext usizeBits data
      = if data.length < 4 + pkLen data then err (.Other "Truncated public key")
        else ok ((data.take (4 + pkLen data)).drop 4, data.drop (4 + pkLen data)) := by
  rw [decode_plaintext_of_long h, Nat.mod_eq_of_lt hfit]
  split_ifs with hshort
  · rfl
  · have hpk : (slice data 4 (4 + pkLen data) : Result Bytes)
        = ok ((data.take (4 + pkLen data)).drop 4) := slice_eq_ok (by omega) (by omega)
    have hsk : (slice data (4 + pkLen data) data.length : Result Bytes)
        = ok ((data.take data.length).drop (4 + pkLen data)) := slice_eq_ok (by omega) (by omega)
    rw [hpk, hsk, bind_ok, bind_ok, List.take_length]

/-- **Where the decoder panics**: on the buffers whose prefix wraps. -/
theorem decode_plaintext_noPanic {usizeBits : ℕ} (hbits : 32 ≤ usizeBits) (data : Bytes) :
    (decode_plaintext usizeBits data).NoPanic ↔ data.length < 4 ∨ PrefixFits usizeBits data := by
  by_cases hshort : data.length < 4
  · rw [decode_plaintext_of_short hshort]
    simp [hshort]
  by_cases hfit : PrefixFits usizeBits data
  · rw [decode_plaintext_of_fits (by omega) hfit]
    split_ifs <;> simp [hfit]
  · -- The sum wraps to less than four, so it passes the bounds check and `4..stop` is reversed.
    have hpow : 2 ^ 32 ≤ 2 ^ usizeBits := Nat.pow_le_pow_right (by omega) hbits
    have hlt := pkLen_lt data
    have hle : 2 ^ usizeBits ≤ 4 + pkLen data := Nat.le_of_not_lt hfit
    have hstop : (4 + pkLen data) % 2 ^ usizeBits < 4 := by
      rw [Nat.mod_eq_sub_mod hle, Nat.mod_eq_of_lt (by omega)]
      omega
    have hpanic : (slice data 4 ((4 + pkLen data) % 2 ^ usizeBits) : Result Bytes) = panic :=
      if_neg (by omega)
    rw [decode_plaintext_of_long (by omega), if_neg (by omega), hpanic]
    simp [hshort, hfit]

/-- On a 64-bit target no prefix wraps. -/
theorem prefixFits_of_64 (data : Bytes) : PrefixFits 64 data := by
  have hlt := pkLen_lt data
  unfold PrefixFits
  omega

/-! ## The round trip -/

theorem take_encode_plaintext (pk sk : Bytes) :
    (encode_plaintext pk sk).take 4 = u32ToLeBytes pk.length := by
  rw [encode_plaintext, List.append_assoc]
  exact List.take_left' rfl

theorem pkLen_encode_plaintext {pk : Bytes} (hpk : pk.length < 2 ^ 32) (sk : Bytes) :
    pkLen (encode_plaintext pk sk) = pk.length := by
  rw [pkLen, take_encode_plaintext, u32FromLeBytes_toLeBytes, Nat.mod_eq_of_lt hpk]

theorem length_encode_plaintext (pk sk : Bytes) :
    (encode_plaintext pk sk).length = 4 + pk.length + sk.length := by
  simp [encode_plaintext, Nat.add_assoc]

/-- Decoding undoes encoding for the public keys whose length fits the prefix. -/
theorem decode_encode_plaintext {usizeBits : ℕ} {pk : Bytes} (hpk : pk.length < 2 ^ 32)
    (hfit : 4 + pk.length < 2 ^ usizeBits) (sk : Bytes) :
    decode_plaintext usizeBits (encode_plaintext pk sk) = ok (pk, sk) := by
  have hlen := length_encode_plaintext pk sk
  have hpre := pkLen_encode_plaintext hpk sk
  rw [decode_plaintext_of_fits (by omega) (by rw [PrefixFits, hpre]; exact hfit), hpre,
    if_neg (by omega)]
  -- The cut is where the public key ends.
  have hcut : (u32ToLeBytes pk.length ++ pk).length = 4 + pk.length := by simp
  rw [encode_plaintext, List.take_left' hcut, List.drop_left' hcut,
    List.drop_left' (length_u32ToLeBytes _)]

end PqcVault
