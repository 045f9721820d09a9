/-
`Platform.lean` -- what the crate is compiled against.

None of the cryptography is in the repository: `pqcrypto-kyber`,
`pqcrypto-dilithium`, `aes-gcm`, `argon2`, `x25519-dalek`, `hkdf` and
`serde_json` are called, not written. They are the fields of `Platform` here,
and every definition of the model takes a `Platform`, so a theorem holds of any
implementation of them. What a theorem relies on beyond the shapes below is a
hypothesis it names, stated next to the code that relies on it.

The shapes are the crates' own types. A `pqcrypto` key is an array of a fixed
size, so its length is in its type and `from_bytes` is the checked conversion
from a slice; randomness is the byte stream the operating system hands out.
-/
import PqcVault.Lib.Json
import PqcVault.Lib.Outcome

set_option autoImplicit false

namespace PqcVault

open Rust Outcome

/-- `Vec<u8>` and `&[u8]`. -/
abbrev Bytes := List UInt8

/-- A fresh stream of random bytes. -/
abbrev Entropy := ℕ → UInt8

/-! ## Levels and errors -/

/-- `SecurityLevel` of `lib.rs`. -/
inductive SecurityLevel where
  | Level1
  | Level3
  | Level5
  deriving DecidableEq

/-- `PqcError` of `error.rs`. -/
inductive PqcError where
  | KeyGenerationFailed
  | EncapsulationFailed
  | DecapsulationFailed
  | SigningFailed
  | VerificationFailed
  | InvalidKey (m : String)
  | InvalidCiphertext (m : String)
  | InvalidSignature (m : String)
  | HexDecodeError (m : String)
  | Other (m : String)
  deriving DecidableEq

/-- `Result<T>` of `error.rs`, with the panic it does not show. -/
abbrev Result (α : Type) := Outcome PqcError α

/-! ## `from_bytes`

Every `from_bytes` of `pqcrypto` on a fixed-size type is a length check, and the
crate wraps each in an error of its own. Two shapes recur: parse one half, and
parse both halves and throw them away. -/

/-- `T::from_bytes(bytes).map_err(|_| e)?` for a type of `n` bytes. -/
def fromBytes (n : ℕ) (e : PqcError) (bytes : Bytes) : Result (FixedArray UInt8 n) :=
  okOr (FixedArray.ofList? n bytes) e

theorem fromBytes_of_length {n : ℕ} {bytes : Bytes} (h : bytes.length = n) (e : PqcError) :
    fromBytes n e bytes = ok ⟨bytes, h⟩ := by
  rw [fromBytes, FixedArray.ofList?_of_length h, okOr_some]

theorem fromBytes_of_length_ne {n : ℕ} {bytes : Bytes} (h : bytes.length ≠ n) (e : PqcError) :
    fromBytes n e bytes = err e := by
  rw [fromBytes, FixedArray.ofList?_eq_none.mpr h, okOr_none]

theorem fromBytes_noPanic (n : ℕ) (e : PqcError) (bytes : Bytes) :
    (fromBytes n e bytes).NoPanic := noPanic_okOr _ _

/-- The check of `from_validated` and of `from_bytes`: a public key of `n` bytes. -/
def checkPublic (n : ℕ) (e : PqcError) (pk : Bytes) : Result Unit := do
  let _ ← fromBytes n e pk
  pure ()

theorem checkPublic_eq_ok {n : ℕ} {e : PqcError} {pk : Bytes} :
    checkPublic n e pk = ok () ↔ pk.length = n := by
  rw [checkPublic]
  by_cases h : pk.length = n
  · rw [fromBytes_of_length h, bind_ok]
    simp [h]
  · rw [fromBytes_of_length_ne h, bind_err]
    simp [h]

theorem checkPublic_eq_err {n : ℕ} {e e' : PqcError} {pk : Bytes} :
    checkPublic n e pk = err e' ↔ pk.length ≠ n ∧ e' = e := by
  rw [checkPublic]
  by_cases h : pk.length = n
  · rw [fromBytes_of_length h, bind_ok]
    simp [h]
  · rw [fromBytes_of_length_ne h, bind_err]
    simp [h, eq_comm]

theorem checkPublic_noPanic (n : ℕ) (e : PqcError) (pk : Bytes) :
    (checkPublic n e pk).NoPanic := by
  rw [checkPublic, noPanic_bind]
  exact ⟨fromBytes_noPanic _ _ _, fun _ _ => noPanic_ok _⟩

/-- The check of `from_bytes` on a pair: a public half of `n` bytes, then a
secret half of `m`. -/
def checkHalves (n m : ℕ) (pkErr skErr : PqcError) (pk sk : Bytes) : Result Unit := do
  let _ ← fromBytes n pkErr pk
  let _ ← fromBytes m skErr sk
  pure ()

theorem checkHalves_eq_ok {n m : ℕ} {pkErr skErr : PqcError} {pk sk : Bytes} :
    checkHalves n m pkErr skErr pk sk = ok () ↔ pk.length = n ∧ sk.length = m := by
  rw [checkHalves]
  by_cases hpk : pk.length = n
  · rw [fromBytes_of_length hpk, bind_ok]
    by_cases hsk : sk.length = m
    · rw [fromBytes_of_length hsk, bind_ok]
      simp [hpk, hsk]
    · rw [fromBytes_of_length_ne hsk, bind_err]
      simp [hsk]
  · rw [fromBytes_of_length_ne hpk, bind_err]
    simp [hpk]

theorem checkHalves_noPanic (n m : ℕ) (pkErr skErr : PqcError) (pk sk : Bytes) :
    (checkHalves n m pkErr skErr pk sk).NoPanic := by
  rw [checkHalves, noPanic_bind]
  refine ⟨fromBytes_noPanic _ _ _, fun _ _ => ?_⟩
  rw [noPanic_bind]
  exact ⟨fromBytes_noPanic _ _ _, fun _ _ => noPanic_ok _⟩

/-! ## The primitives -/

/-- One of the modules `kyber512`, `kyber768`, `kyber1024`. -/
structure Kyber where
  publicKeyBytes : ℕ
  secretKeyBytes : ℕ
  ciphertextBytes : ℕ
  sharedSecretBytes : ℕ
  keypair : Entropy → FixedArray UInt8 publicKeyBytes × FixedArray UInt8 secretKeyBytes
  encapsulate : FixedArray UInt8 publicKeyBytes → Entropy →
    FixedArray UInt8 sharedSecretBytes × FixedArray UInt8 ciphertextBytes
  decapsulate : FixedArray UInt8 ciphertextBytes → FixedArray UInt8 secretKeyBytes →
    FixedArray UInt8 sharedSecretBytes

/-- One of the modules `dilithium2`, `dilithium3`, `dilithium5`. A detached
signature is its bytes; `signatureFromBytes` says which byte strings
`DetachedSignature::from_bytes` takes. -/
structure Dilithium where
  publicKeyBytes : ℕ
  secretKeyBytes : ℕ
  keypair : Entropy → FixedArray UInt8 publicKeyBytes × FixedArray UInt8 secretKeyBytes
  detachedSign : Bytes → FixedArray UInt8 secretKeyBytes → Entropy → Bytes
  signatureFromBytes : Bytes → Bool
  verifyDetachedSignature : Bytes → Bytes → FixedArray UInt8 publicKeyBytes → Bool

/-- `Aes256Gcm`: a 32-byte key, a 12-byte nonce. -/
structure Aes256Gcm where
  encrypt : FixedArray UInt8 32 → FixedArray UInt8 12 → Bytes → Option Bytes
  decrypt : FixedArray UInt8 32 → FixedArray UInt8 12 → Bytes → Option Bytes

/-- `argon2::Params`. -/
structure Argon2Params where
  mCost : ℕ
  tCost : ℕ
  pCost : ℕ
  outputLen : Option ℕ

/-- `Argon2` with `Algorithm::Argon2id` and `Version::V0x13`.
`hashPasswordInto` fills a buffer whose length it is given. -/
structure Argon2id where
  newParams : ℕ → ℕ → ℕ → Option ℕ → Option Argon2Params
  hashPasswordInto : Argon2Params → Bytes → Bytes → (n : ℕ) → Option (FixedArray UInt8 n)

/-- `x25519_dalek`. A secret is the bytes it stores. -/
structure X25519 where
  staticFromBytes : FixedArray UInt8 32 → FixedArray UInt8 32
  randomStatic : Entropy → FixedArray UInt8 32
  randomEphemeral : Entropy → FixedArray UInt8 32
  publicKey : FixedArray UInt8 32 → FixedArray UInt8 32
  diffieHellman : FixedArray UInt8 32 → FixedArray UInt8 32 → FixedArray UInt8 32

/-- `Hkdf<Sha256>`: extraction gives a state, expansion fills a buffer. -/
structure Hkdf where
  new : Option Bytes → Bytes → Bytes
  expand : Bytes → Bytes → (n : ℕ) → Option (FixedArray UInt8 n)

/-- `serde_json`: reading a text for a derived `Deserialize`, reading it as a
`Value`, printing a document, and the messages the two ways to read end in. A
`Value` has to hold every number of the text and every level of its nesting, so
the two need not take the same texts. -/
structure SerdeJson where
  fromStr : String → Option Json
  valueFromStr : String → Option Json
  toString : Json → String
  errorText : String → String
  valueErrorText : String → String

/-- Everything outside the repository, the word size of the target included. -/
structure Platform where
  usizeBits : ℕ
  kyber512 : Kyber
  kyber768 : Kyber
  kyber1024 : Kyber
  dilithium2 : Dilithium
  dilithium3 : Dilithium
  dilithium5 : Dilithium
  aes : Aes256Gcm
  argon2 : Argon2id
  x25519 : X25519
  hkdf : Hkdf
  serdeJson : SerdeJson

namespace Platform

/-- The Kyber module of a level. -/
def kyber (P : Platform) : SecurityLevel → Kyber
  | .Level1 => P.kyber512
  | .Level3 => P.kyber768
  | .Level5 => P.kyber1024

/-- The Dilithium module of a level. -/
def dilithium (P : Platform) : SecurityLevel → Dilithium
  | .Level1 => P.dilithium2
  | .Level3 => P.dilithium3
  | .Level5 => P.dilithium5

/-- The word sizes Rust's standard targets have. -/
def WordSize (P : Platform) : Prop := P.usizeBits = 32 ∨ P.usizeBits = 64

theorem WordSize.le {P : Platform} (h : P.WordSize) : 32 ≤ P.usizeBits := by
  rcases h with h | h <;> omega

end Platform

end PqcVault
