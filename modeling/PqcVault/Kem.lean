/-
`Kem.lean` -- `kem.rs`: ML-KEM key pairs, encapsulation and decapsulation.

Every function of `kem.rs` dispatches on the level by its own `match`, and each
arm names its own module and its own error text. The arms are kept as they are
written there; what an arm *does* is the same everywhere and is one definition
over a `Kyber` (`Kyber.encapsulateTo` and so on). The lemmas `*_eq` say that the
six dispatching functions agree on which module a level means, and from there on
nothing looks at an arm again.
-/
import PqcVault.Platform

set_option autoImplicit false

namespace PqcVault

open Rust Outcome

/-! ## Types -/

/-- `SharedSecretKey`; its constant-time `==` is equality of the bytes. -/
structure SharedSecretKey where
  bytes : Bytes
  deriving DecidableEq

/-- `KemPublicKey`. -/
structure KemPublicKey where
  level : SecurityLevel
  bytes : Bytes
  deriving DecidableEq

/-- `KemInner`. -/
structure KemInner where
  level : SecurityLevel
  pk_bytes : Bytes
  sk_bytes : Bytes
  deriving DecidableEq

/-- `KemKeyPair`. -/
structure KemKeyPair where
  inner : KemInner
  deriving DecidableEq

/-- `KemKeyData` of `serial.rs`: what `export` hands out. -/
structure KemKeyData where
  level : SecurityLevel
  public_key : Bytes
  secret_key : Bytes
  deriving DecidableEq

/-- `KemSizes`. -/
structure KemSizes where
  public_key : ℕ
  private_key : ℕ
  ciphertext : ℕ
  shared_secret : ℕ
  deriving DecidableEq

/-- The table of `KemKeyPair::key_sizes`. -/
def kemSizes : SecurityLevel → KemSizes
  | .Level1 => { public_key := 800, private_key := 1632, ciphertext := 768, shared_secret := 32 }
  | .Level3 => { public_key := 1184, private_key := 2400, ciphertext := 1088, shared_secret := 32 }
  | .Level5 => { public_key := 1568, private_key := 3168, ciphertext := 1568, shared_secret := 32 }

/-- All levels have shared secrets of one length. -/
theorem kemSizes_shared_secret (level : SecurityLevel) : (kemSizes level).shared_secret = 32 := by
  cases level <;> rfl

/-- No level has an empty ciphertext. -/
theorem kemSizes_ciphertext_pos (level : SecurityLevel) : 0 < (kemSizes level).ciphertext := by
  cases level <;> decide

/-- The length of a public key tells its level. -/
theorem kemSizes_public_key_injective {level level' : SecurityLevel}
    (h : (kemSizes level).public_key = (kemSizes level').public_key) : level = level' := by
  cases level <;> cases level' <;> first | rfl | exact absurd h (by decide)

theorem kemSizes_public_key_le (level : SecurityLevel) : (kemSizes level).public_key ≤ 4096 := by
  cases level <;> decide

def KemKeyPair.key_sizes (kp : KemKeyPair) : KemSizes := kemSizes kp.inner.level

def KemKeyPair.security_level (kp : KemKeyPair) : SecurityLevel := kp.inner.level

def KemKeyPair.public_key (kp : KemKeyPair) : KemPublicKey :=
  { level := kp.inner.level, bytes := kp.inner.pk_bytes }

/-! ## What one arm does -/

namespace Kyber

variable (K : Kyber)

/-- `keypair()` with both halves as bytes. -/
def keypairBytes (e : Entropy) : Bytes × Bytes := ((K.keypair e).1.val, (K.keypair e).2.val)

/-- An arm of `encapsulate`. -/
def encapsulateTo (msg : String) (bytes : Bytes) (e : Entropy) :
    Result (Bytes × SharedSecretKey) := do
  let pk ← fromBytes K.publicKeyBytes (.InvalidKey msg) bytes
  let (ss, ct) := K.encapsulate pk e
  pure (ct.val, ⟨ss.val⟩)

/-- An arm of `decapsulate`. -/
def decapsulateWith (skMsg ctMsg : String) (sk ciphertext : Bytes) : Result SharedSecretKey := do
  let sk ← fromBytes K.secretKeyBytes (.InvalidKey skMsg) sk
  let ct ← fromBytes K.ciphertextBytes (.InvalidCiphertext ctMsg) ciphertext
  pure ⟨(K.decapsulate ct sk).val⟩

/-- An arm of `from_bytes`. -/
def checkHalves (pkMsg skMsg : String) (pk sk : Bytes) : Result Unit :=
  PqcVault.checkHalves K.publicKeyBytes K.secretKeyBytes (.InvalidKey pkMsg) (.InvalidKey skMsg)
    pk sk

/-- An arm of `from_validated`. -/
def checkPublic (msg : String) (pk : Bytes) : Result Unit :=
  PqcVault.checkPublic K.publicKeyBytes (.InvalidKey msg) pk

end Kyber

/-! ## The functions of `kem.rs` -/

section Functions

variable (P : Platform)

/-- `KemKeyPair::generate`. -/
def KemKeyPair.generate (level : SecurityLevel) (e : Entropy) : Result KemKeyPair :=
  let (pk_bytes, sk_bytes) := match level with
    | .Level1 => P.kyber512.keypairBytes e
    | .Level3 => P.kyber768.keypairBytes e
    | .Level5 => P.kyber1024.keypairBytes e
  ok ⟨{ level, pk_bytes, sk_bytes }⟩

/-- `KemKeyPair::encapsulate`. -/
def KemKeyPair.encapsulate (pub_key : KemPublicKey) (e : Entropy) :
    Result (Bytes × SharedSecretKey) :=
  match pub_key.level with
  | .Level1 => P.kyber512.encapsulateTo "Invalid Kyber512 public key" pub_key.bytes e
  | .Level3 => P.kyber768.encapsulateTo "Invalid Kyber768 public key" pub_key.bytes e
  | .Level5 => P.kyber1024.encapsulateTo "Invalid Kyber1024 public key" pub_key.bytes e

/-- `KemKeyPair::decapsulate`. -/
def KemKeyPair.decapsulate (kp : KemKeyPair) (ciphertext : Bytes) : Result SharedSecretKey :=
  match kp.inner.level with
  | .Level1 =>
      P.kyber512.decapsulateWith "Invalid Kyber512 secret key" "Invalid Kyber512 ciphertext"
        kp.inner.sk_bytes ciphertext
  | .Level3 =>
      P.kyber768.decapsulateWith "Invalid Kyber768 secret key" "Invalid Kyber768 ciphertext"
        kp.inner.sk_bytes ciphertext
  | .Level5 =>
      P.kyber1024.decapsulateWith "Invalid Kyber1024 secret key" "Invalid Kyber1024 ciphertext"
        kp.inner.sk_bytes ciphertext

/-- `KemKeyPair::export`. -/
def KemKeyPair.export (kp : KemKeyPair) : Result KemKeyData :=
  ok { level := kp.inner.level, public_key := kp.inner.pk_bytes, secret_key := kp.inner.sk_bytes }

/-- `KemKeyPair::from_bytes`. -/
def KemKeyPair.from_bytes (level : SecurityLevel) (pk_bytes sk_bytes : Bytes) :
    Result KemKeyPair := do
  match level with
  | .Level1 =>
      P.kyber512.checkHalves "Invalid Kyber512 public key length"
        "Invalid Kyber512 secret key length" pk_bytes sk_bytes
  | .Level3 =>
      P.kyber768.checkHalves "Invalid Kyber768 public key length"
        "Invalid Kyber768 secret key length" pk_bytes sk_bytes
  | .Level5 =>
      P.kyber1024.checkHalves "Invalid Kyber1024 public key length"
        "Invalid Kyber1024 secret key length" pk_bytes sk_bytes
  pure ⟨{ level, pk_bytes, sk_bytes }⟩

/-- `KemPublicKey::from_validated`. -/
def KemPublicKey.from_validated (level : SecurityLevel) (bytes : Bytes) : Result KemPublicKey := do
  match level with
  | .Level1 => P.kyber512.checkPublic "Invalid Kyber512 public key" bytes
  | .Level3 => P.kyber768.checkPublic "Invalid Kyber768 public key" bytes
  | .Level5 => P.kyber1024.checkPublic "Invalid Kyber1024 public key" bytes
  pure { level, bytes }

/-- `KemKeyData::into_keypair` of `serial.rs`. -/
def KemKeyData.into_keypair (d : KemKeyData) : Result KemKeyPair :=
  KemKeyPair.from_bytes P d.level d.public_key d.secret_key

end Functions

/-! ## One arm, as its cases

`from_bytes` of `pqcrypto` is a length check, so an arm has one way to go on and
one error for each length that is off. -/

namespace Kyber

variable {K : Kyber}

theorem encapsulateTo_of_length {msg : String} {bytes : Bytes} (h : bytes.length = K.publicKeyBytes)
    (e : Entropy) :
    K.encapsulateTo msg bytes e
      = ok ((K.encapsulate ⟨bytes, h⟩ e).2.val, ⟨(K.encapsulate ⟨bytes, h⟩ e).1.val⟩) := by
  rw [encapsulateTo, fromBytes_of_length h]
  rfl

theorem decapsulateWith_of_length {skMsg ctMsg : String} {sk ct : Bytes}
    (hsk : sk.length = K.secretKeyBytes) (hct : ct.length = K.ciphertextBytes) :
    K.decapsulateWith skMsg ctMsg sk ct = ok ⟨(K.decapsulate ⟨ct, hct⟩ ⟨sk, hsk⟩).val⟩ := by
  rw [decapsulateWith, fromBytes_of_length hsk, bind_ok, fromBytes_of_length hct]
  rfl

theorem decapsulateWith_of_length_ne {skMsg ctMsg : String} {sk ct : Bytes}
    (hsk : sk.length = K.secretKeyBytes) (hct : ct.length ≠ K.ciphertextBytes) :
    K.decapsulateWith skMsg ctMsg sk ct = err (.InvalidCiphertext ctMsg) := by
  rw [decapsulateWith, fromBytes_of_length hsk, bind_ok, fromBytes_of_length_ne hct]
  rfl

end Kyber

/-! ## The dispatch

The name a level goes by in the error texts, and each function with its `match`
replaced by the module of the level. -/

/-- The variant name the error texts of `kem.rs` use. -/
def kyberName : SecurityLevel → String
  | .Level1 => "Kyber512"
  | .Level3 => "Kyber768"
  | .Level5 => "Kyber1024"

section Dispatch

variable {P : Platform}

theorem KemKeyPair.generate_eq (level : SecurityLevel) (e : Entropy) :
    KemKeyPair.generate P level e
      = ok ⟨{ level, pk_bytes := ((P.kyber level).keypair e).1.val,
              sk_bytes := ((P.kyber level).keypair e).2.val }⟩ := by
  cases level <;> rfl

theorem KemKeyPair.encapsulate_eq (pk : KemPublicKey) (e : Entropy) :
    KemKeyPair.encapsulate P pk e
      = (P.kyber pk.level).encapsulateTo ("Invalid " ++ kyberName pk.level ++ " public key")
          pk.bytes e := by
  obtain ⟨level, bytes⟩ := pk
  cases level <;> rfl

theorem KemKeyPair.decapsulate_eq (kp : KemKeyPair) (ct : Bytes) :
    kp.decapsulate P ct
      = (P.kyber kp.inner.level).decapsulateWith
          ("Invalid " ++ kyberName kp.inner.level ++ " secret key")
          ("Invalid " ++ kyberName kp.inner.level ++ " ciphertext") kp.inner.sk_bytes ct := by
  obtain ⟨⟨level, pk, sk⟩⟩ := kp
  cases level <;> rfl

theorem KemKeyPair.from_bytes_eq (level : SecurityLevel) (pk_bytes sk_bytes : Bytes) :
    KemKeyPair.from_bytes P level pk_bytes sk_bytes
      = ((P.kyber level).checkHalves ("Invalid " ++ kyberName level ++ " public key length")
            ("Invalid " ++ kyberName level ++ " secret key length") pk_bytes sk_bytes >>=
          fun _ => ok ⟨{ level, pk_bytes, sk_bytes }⟩) := by
  cases level <;> rfl

theorem KemPublicKey.from_validated_eq (level : SecurityLevel) (bytes : Bytes) :
    KemPublicKey.from_validated P level bytes
      = ((P.kyber level).checkPublic ("Invalid " ++ kyberName level ++ " public key") bytes >>=
          fun _ => ok { level, bytes }) := by
  cases level <;> rfl

/-! ## Restoring is a length check

Both restoring functions return what they were given, and they return it exactly
when the lengths are the level's. -/

theorem KemKeyPair.from_bytes_eq_ok {level : SecurityLevel} {pk sk : Bytes} {kp : KemKeyPair} :
    KemKeyPair.from_bytes P level pk sk = ok kp
      ↔ (pk.length = (P.kyber level).publicKeyBytes ∧ sk.length = (P.kyber level).secretKeyBytes)
        ∧ kp = ⟨{ level, pk_bytes := pk, sk_bytes := sk }⟩ := by
  rw [from_bytes_eq, check_eq_ok]
  exact and_congr_left' checkHalves_eq_ok

theorem KemKeyPair.from_bytes_noPanic (level : SecurityLevel) (pk sk : Bytes) :
    (KemKeyPair.from_bytes P level pk sk).NoPanic := by
  rw [from_bytes_eq, noPanic_bind]
  exact ⟨checkHalves_noPanic _ _ _ _ _ _, fun _ _ => noPanic_ok _⟩

theorem KemKeyPair.encapsulate_noPanic (pk : KemPublicKey) (e : Entropy) :
    (KemKeyPair.encapsulate P pk e).NoPanic := by
  rw [encapsulate_eq, Kyber.encapsulateTo, noPanic_bind]
  exact ⟨fromBytes_noPanic _ _ _, fun _ _ => noPanic_ok _⟩

theorem KemKeyPair.decapsulate_noPanic (kp : KemKeyPair) (ct : Bytes) :
    (kp.decapsulate P ct).NoPanic := by
  rw [decapsulate_eq, Kyber.decapsulateWith, noPanic_bind]
  refine ⟨fromBytes_noPanic _ _ _, fun _ _ => ?_⟩
  rw [noPanic_bind]
  exact ⟨fromBytes_noPanic _ _ _, fun _ _ => noPanic_ok _⟩

theorem KemPublicKey.from_validated_eq_ok {level : SecurityLevel} {bytes : Bytes}
    {k : KemPublicKey} :
    KemPublicKey.from_validated P level bytes = ok k
      ↔ bytes.length = (P.kyber level).publicKeyBytes ∧ k = { level, bytes } := by
  rw [from_validated_eq, check_eq_ok]
  exact and_congr_left' checkPublic_eq_ok

theorem KemPublicKey.from_validated_eq_err {level : SecurityLevel} {bytes : Bytes}
    {e : PqcError} :
    KemPublicKey.from_validated P level bytes = err e
      ↔ bytes.length ≠ (P.kyber level).publicKeyBytes
        ∧ e = .InvalidKey ("Invalid " ++ kyberName level ++ " public key") := by
  rw [from_validated_eq, bind_eq_err]
  simp only [reduceCtorEq, and_false, exists_false, or_false]
  exact checkPublic_eq_err

theorem KemPublicKey.from_validated_noPanic (level : SecurityLevel) (bytes : Bytes) :
    (KemPublicKey.from_validated P level bytes).NoPanic := by
  rw [from_validated_eq, noPanic_bind]
  exact ⟨checkPublic_noPanic _ _ _, fun _ _ => noPanic_ok _⟩

end Dispatch

/-! ## Lengths

`key_sizes` writes the array sizes of `pqcrypto` out a second time. That the two
agree is a fact about the crate, so it is a hypothesis. -/

/-- The array sizes of `pqcrypto-kyber` are those of `key_sizes`. -/
def Platform.KyberSizes (P : Platform) : Prop := ∀ level,
  (P.kyber level).publicKeyBytes = (kemSizes level).public_key
    ∧ (P.kyber level).secretKeyBytes = (kemSizes level).private_key
    ∧ (P.kyber level).ciphertextBytes = (kemSizes level).ciphertext
    ∧ (P.kyber level).sharedSecretBytes = (kemSizes level).shared_secret

/-- A public key has the length of its level. -/
def KemPublicKey.Fits (k : KemPublicKey) : Prop :=
  k.bytes.length = (kemSizes k.level).public_key

/-- Both halves of a pair have the lengths of its level. -/
def KemKeyPair.Fits (kp : KemKeyPair) : Prop :=
  kp.inner.pk_bytes.length = kp.key_sizes.public_key
    ∧ kp.inner.sk_bytes.length = kp.key_sizes.private_key

theorem KemKeyPair.Fits.public_key {kp : KemKeyPair} (h : kp.Fits) : kp.public_key.Fits := h.1

section Lengths

variable {P : Platform}

theorem KemKeyPair.fits_iff (hP : P.KyberSizes) {kp : KemKeyPair} :
    kp.Fits ↔ kp.inner.pk_bytes.length = (P.kyber kp.inner.level).publicKeyBytes
      ∧ kp.inner.sk_bytes.length = (P.kyber kp.inner.level).secretKeyBytes := by
  obtain ⟨hpk, hsk, -⟩ := hP kp.inner.level
  rw [hpk, hsk]
  rfl

theorem KemPublicKey.fits_iff (hP : P.KyberSizes) {k : KemPublicKey} :
    k.Fits ↔ k.bytes.length = (P.kyber k.level).publicKeyBytes := by
  rw [(hP k.level).1]
  rfl

theorem KemKeyPair.generate_fits (hP : P.KyberSizes) {level : SecurityLevel} {e : Entropy}
    {kp : KemKeyPair} (h : KemKeyPair.generate P level e = ok kp) : kp.Fits := by
  rw [generate_eq] at h
  obtain rfl := Outcome.ok.inj h
  rw [fits_iff hP]
  exact ⟨FixedArray.length_val _, FixedArray.length_val _⟩

theorem KemKeyPair.from_bytes_fits (hP : P.KyberSizes) {level : SecurityLevel} {pk sk : Bytes}
    {kp : KemKeyPair} (h : KemKeyPair.from_bytes P level pk sk = ok kp) : kp.Fits := by
  obtain ⟨hlen, rfl⟩ := from_bytes_eq_ok.mp h
  exact (fits_iff hP).mpr hlen

theorem KemPublicKey.from_validated_fits (hP : P.KyberSizes) {level : SecurityLevel}
    {bytes : Bytes} {k : KemPublicKey} (h : KemPublicKey.from_validated P level bytes = ok k) :
    k.Fits := by
  obtain ⟨hlen, rfl⟩ := from_validated_eq_ok.mp h
  exact (fits_iff hP).mpr hlen

/-- `from_bytes` accepts the halves that have the lengths of the level. -/
theorem KemKeyPair.from_bytes_isOk (hP : P.KyberSizes) {level : SecurityLevel} {pk sk : Bytes} :
    (KemKeyPair.from_bytes P level pk sk).IsOk
      ↔ pk.length = (kemSizes level).public_key ∧ sk.length = (kemSizes level).private_key := by
  rw [← (hP level).1, ← (hP level).2.1]
  constructor
  · rintro ⟨kp, hkp⟩
    exact (from_bytes_eq_ok.mp hkp).1
  · intro hlen
    exact ⟨_, from_bytes_eq_ok.mpr ⟨hlen, rfl⟩⟩

/-- A pair that fits survives its own check. -/
theorem KemKeyPair.Fits.from_bytes (hP : P.KyberSizes) {kp : KemKeyPair} (h : kp.Fits) :
    KemKeyPair.from_bytes P kp.inner.level kp.inner.pk_bytes kp.inner.sk_bytes = ok kp :=
  from_bytes_eq_ok.mpr ⟨(fits_iff hP).mp h, rfl⟩

/-- Encapsulation to a key that fits returns a ciphertext of the level's length
and a 32-byte secret. -/
theorem KemPublicKey.Fits.encapsulate (hP : P.KyberSizes) {k : KemPublicKey} (h : k.Fits)
    (e : Entropy) :
    ∃ ct ss, KemKeyPair.encapsulate P k e = ok (ct, ss)
      ∧ ct.length = (kemSizes k.level).ciphertext
      ∧ ss.bytes.length = (kemSizes k.level).shared_secret := by
  rw [KemKeyPair.encapsulate_eq, Kyber.encapsulateTo_of_length ((fits_iff hP).mp h)]
  refine ⟨_, _, rfl, ?_, ?_⟩
  · rw [FixedArray.length_val, (hP k.level).2.2.1]
  · rw [FixedArray.length_val, (hP k.level).2.2.2]

/-- Whatever key was encapsulated to, the ciphertext has the length of its level. -/
theorem KemKeyPair.encapsulate_length {pk : KemPublicKey} {e : Entropy} {ct : Bytes}
    {ss : SharedSecretKey} (h : KemKeyPair.encapsulate P pk e = ok (ct, ss)) :
    ct.length = (P.kyber pk.level).ciphertextBytes := by
  simp only [encapsulate_eq, Kyber.encapsulateTo, bind_eq_ok, pure_eq, Outcome.ok.injEq,
    Prod.mk.injEq] at h
  obtain ⟨a, -, rfl, -⟩ := h
  exact FixedArray.length_val _

/-- A shared secret has the length of its level, on either side. -/
theorem KemKeyPair.encapsulate_secret_length {pk : KemPublicKey} {e : Entropy} {ct : Bytes}
    {ss : SharedSecretKey} (h : KemKeyPair.encapsulate P pk e = ok (ct, ss)) :
    ss.bytes.length = (P.kyber pk.level).sharedSecretBytes := by
  simp only [encapsulate_eq, Kyber.encapsulateTo, bind_eq_ok, pure_eq, Outcome.ok.injEq,
    Prod.mk.injEq] at h
  obtain ⟨a, -, -, rfl⟩ := h
  exact FixedArray.length_val _

theorem KemKeyPair.decapsulate_secret_length {kp : KemKeyPair} {ct : Bytes} {ss : SharedSecretKey}
    (h : kp.decapsulate P ct = ok ss) :
    ss.bytes.length = (P.kyber kp.inner.level).sharedSecretBytes := by
  simp only [decapsulate_eq, Kyber.decapsulateWith, bind_eq_ok, pure_eq, Outcome.ok.injEq] at h
  obtain ⟨a, -, b, -, rfl⟩ := h
  exact FixedArray.length_val _

/-- Decapsulation with a pair that fits fails on the ciphertexts of another
length, and on no others. -/
theorem KemKeyPair.Fits.decapsulate (hP : P.KyberSizes) {kp : KemKeyPair} (h : kp.Fits)
    (ct : Bytes) :
    (ct.length = kp.key_sizes.ciphertext → (kp.decapsulate P ct).IsOk)
      ∧ (ct.length ≠ kp.key_sizes.ciphertext →
          ∃ msg, kp.decapsulate P ct = err (.InvalidCiphertext msg)) := by
  have hsk := ((fits_iff hP).mp h).2
  have hct := (hP kp.inner.level).2.2.1
  rw [decapsulate_eq]
  constructor
  · intro hlen
    rw [Kyber.decapsulateWith_of_length hsk (hlen.trans hct.symm)]
    exact isOk_ok _
  · intro hlen
    rw [Kyber.decapsulateWith_of_length_ne hsk (fun hc => hlen (hc.trans hct))]
    exact ⟨_, rfl⟩

end Lengths

/-! ## Pairs whose halves belong together -/

/-- `kyberN` is a correct KEM: decapsulation undoes encapsulation to the other
half of the pair. -/
def Kyber.Correct (K : Kyber) : Prop := ∀ e coins,
  K.decapsulate (K.encapsulate (K.keypair e).1 coins).2 (K.keypair e).2
    = (K.encapsulate (K.keypair e).1 coins).1

/-- All three modules are. -/
def Platform.KyberCorrect (P : Platform) : Prop := ∀ level, (P.kyber level).Correct

/-- Two byte strings are the halves of one `keypair()` of the level. -/
def KemHalves (P : Platform) (level : SecurityLevel) (pk sk : Bytes) : Prop :=
  ∃ e, (P.kyber level).keypairBytes e = (pk, sk)

/-- The halves of a pair belong together. -/
def KemKeyPair.Matched (P : Platform) (kp : KemKeyPair) : Prop :=
  KemHalves P kp.inner.level kp.inner.pk_bytes kp.inner.sk_bytes

theorem KemKeyPair.generate_matched {P : Platform} {level : SecurityLevel} {e : Entropy}
    {kp : KemKeyPair} (h : KemKeyPair.generate P level e = ok kp) : kp.Matched P := by
  rw [generate_eq] at h
  obtain rfl := Outcome.ok.inj h
  exact ⟨e, rfl⟩

/-- Encapsulation to the public half of a generated pair. -/
theorem KemKeyPair.encapsulate_keypair {P : Platform} (level : SecurityLevel) (e coins : Entropy) :
    KemKeyPair.encapsulate P { level, bytes := ((P.kyber level).keypair e).1.val } coins
      = ok (((P.kyber level).encapsulate ((P.kyber level).keypair e).1 coins).2.val,
          ⟨((P.kyber level).encapsulate ((P.kyber level).keypair e).1 coins).1.val⟩) :=
  (encapsulate_eq _ _).trans
    (Kyber.encapsulateTo_of_length (K := P.kyber level) (FixedArray.length_val _) coins)

/-- Decapsulation with the secret half of a generated pair. -/
theorem KemKeyPair.decapsulate_keypair {P : Platform} (level : SecurityLevel) (e : Entropy)
    (pk_bytes : Bytes) (ct : FixedArray UInt8 (P.kyber level).ciphertextBytes) :
    KemKeyPair.decapsulate P
        ⟨{ level, pk_bytes, sk_bytes := ((P.kyber level).keypair e).2.val }⟩ ct.val
      = ok ⟨((P.kyber level).decapsulate ct ((P.kyber level).keypair e).2).val⟩ :=
  (decapsulate_eq _ _).trans
    (Kyber.decapsulateWith_of_length (K := P.kyber level) (FixedArray.length_val _)
      (FixedArray.length_val _))

/-- Whoever encapsulates to the public half, the pair recovers the secret. -/
theorem KemKeyPair.Matched.decapsulate {P : Platform} (hP : P.KyberCorrect) {kp : KemKeyPair}
    (h : kp.Matched P) {coins : Entropy} {ct : Bytes} {ss : SharedSecretKey}
    (henc : KemKeyPair.encapsulate P kp.public_key coins = ok (ct, ss)) :
    kp.decapsulate P ct = ok ss := by
  obtain ⟨⟨level, pk, sk⟩⟩ := kp
  obtain ⟨e, he⟩ := h
  have hpk : ((P.kyber level).keypair e).1.val = pk := congrArg Prod.fst he
  have hsk : ((P.kyber level).keypair e).2.val = sk := congrArg Prod.snd he
  subst hpk hsk
  -- Both halves are of the one entropy, so the ciphertext is one the module is correct on.
  obtain ⟨rfl, rfl⟩ := Prod.mk.inj
    (Outcome.ok.inj ((encapsulate_keypair level e coins).symm.trans henc))
  rw [decapsulate_keypair, hP level e coins]

end PqcVault
