/-
`Dsa.lean` -- `dsa.rs`: ML-DSA key pairs, signing and verification.

Laid out as `Kem.lean` is: the `match` of each function as the source writes it,
one definition over a `Dilithium` for what an arm does, and the lemmas `*_eq`
that replace the `match` by the module of the level.
-/
import PqcVault.Platform

set_option autoImplicit false

namespace PqcVault

open Rust Outcome

/-! ## Types -/

/-- `DsaPublicKey`. -/
structure DsaPublicKey where
  level : SecurityLevel
  bytes : Bytes
  deriving DecidableEq

/-- `DsaInner`. -/
structure DsaInner where
  level : SecurityLevel
  pk_bytes : Bytes
  sk_bytes : Bytes
  deriving DecidableEq

/-- `DsaKeyPair`. -/
structure DsaKeyPair where
  inner : DsaInner
  deriving DecidableEq

/-- `DsaKeyData` of `serial.rs`: what `export` hands out. -/
structure DsaKeyData where
  level : SecurityLevel
  public_key : Bytes
  secret_key : Bytes
  deriving DecidableEq

/-- `DsaSizes`. -/
structure DsaSizes where
  public_key : ℕ
  private_key : ℕ
  signature : ℕ
  deriving DecidableEq

/-- The table of `DsaKeyPair::key_sizes`. -/
def dsaSizes : SecurityLevel → DsaSizes
  | .Level1 => { public_key := 1312, private_key := 2528, signature := 2420 }
  | .Level3 => { public_key := 1952, private_key := 4000, signature := 3293 }
  | .Level5 => { public_key := 2592, private_key := 4864, signature := 4595 }

/-- The length of a public key tells its level. -/
theorem dsaSizes_public_key_injective {level level' : SecurityLevel}
    (h : (dsaSizes level).public_key = (dsaSizes level').public_key) : level = level' := by
  cases level <;> cases level' <;> first | rfl | exact absurd h (by decide)

theorem dsaSizes_public_key_le (level : SecurityLevel) : (dsaSizes level).public_key ≤ 4096 := by
  cases level <;> decide

def DsaKeyPair.key_sizes (kp : DsaKeyPair) : DsaSizes := dsaSizes kp.inner.level

def DsaKeyPair.security_level (kp : DsaKeyPair) : SecurityLevel := kp.inner.level

def DsaKeyPair.public_key (kp : DsaKeyPair) : DsaPublicKey :=
  { level := kp.inner.level, bytes := kp.inner.pk_bytes }

/-! ## What one arm does -/

namespace Dilithium

variable (D : Dilithium)

/-- `keypair()` with both halves as bytes. -/
def keypairBytes (e : Entropy) : Bytes × Bytes := ((D.keypair e).1.val, (D.keypair e).2.val)

/-- An arm of `sign`. -/
def signWith (msg : String) (sk message : Bytes) (e : Entropy) : Result Bytes := do
  let sk ← fromBytes D.secretKeyBytes (.InvalidKey msg) sk
  pure (D.detachedSign message sk e)

/-- An arm of `verify_with_typed_key`. -/
def verifyWith (pkMsg sigMsg : String) (pk message signature : Bytes) : Result Unit := do
  let pk ← fromBytes D.publicKeyBytes (.InvalidKey pkMsg) pk
  if D.signatureFromBytes signature then
    if D.verifyDetachedSignature signature message pk then ok ()
    else err .VerificationFailed
  else err (.InvalidSignature sigMsg)

/-- An arm of `from_bytes`. -/
def checkHalves (pkMsg skMsg : String) (pk sk : Bytes) : Result Unit :=
  PqcVault.checkHalves D.publicKeyBytes D.secretKeyBytes (.InvalidKey pkMsg) (.InvalidKey skMsg)
    pk sk

/-- An arm of `from_validated`. -/
def checkPublic (msg : String) (pk : Bytes) : Result Unit :=
  PqcVault.checkPublic D.publicKeyBytes (.InvalidKey msg) pk

end Dilithium

/-! ## The functions of `dsa.rs` -/

section Functions

variable (P : Platform)

/-- `DsaKeyPair::generate`. -/
def DsaKeyPair.generate (level : SecurityLevel) (e : Entropy) : Result DsaKeyPair :=
  let (pk_bytes, sk_bytes) := match level with
    | .Level1 => P.dilithium2.keypairBytes e
    | .Level3 => P.dilithium3.keypairBytes e
    | .Level5 => P.dilithium5.keypairBytes e
  ok ⟨{ level, pk_bytes, sk_bytes }⟩

/-- `DsaKeyPair::sign`. -/
def DsaKeyPair.sign (kp : DsaKeyPair) (message : Bytes) (e : Entropy) : Result Bytes :=
  match kp.inner.level with
  | .Level1 => P.dilithium2.signWith "Invalid Dilithium2 secret key" kp.inner.sk_bytes message e
  | .Level3 => P.dilithium3.signWith "Invalid Dilithium3 secret key" kp.inner.sk_bytes message e
  | .Level5 => P.dilithium5.signWith "Invalid Dilithium5 secret key" kp.inner.sk_bytes message e

/-- `DsaKeyPair::verify_with_typed_key`. -/
def DsaKeyPair.verify_with_typed_key (pub_key : DsaPublicKey) (message signature : Bytes) :
    Result Unit :=
  match pub_key.level with
  | .Level1 =>
      P.dilithium2.verifyWith "Invalid Dilithium2 public key" "Invalid Dilithium2 signature"
        pub_key.bytes message signature
  | .Level3 =>
      P.dilithium3.verifyWith "Invalid Dilithium3 public key" "Invalid Dilithium3 signature"
        pub_key.bytes message signature
  | .Level5 =>
      P.dilithium5.verifyWith "Invalid Dilithium5 public key" "Invalid Dilithium5 signature"
        pub_key.bytes message signature

/-- `DsaKeyPair::verify`. -/
def DsaKeyPair.verify (kp : DsaKeyPair) (message signature : Bytes) : Result Unit :=
  DsaKeyPair.verify_with_typed_key P kp.public_key message signature

/-- `DsaKeyPair::export`. -/
def DsaKeyPair.export (kp : DsaKeyPair) : Result DsaKeyData :=
  ok { level := kp.inner.level, public_key := kp.inner.pk_bytes, secret_key := kp.inner.sk_bytes }

/-- `DsaKeyPair::from_bytes`. -/
def DsaKeyPair.from_bytes (level : SecurityLevel) (pk_bytes sk_bytes : Bytes) :
    Result DsaKeyPair := do
  match level with
  | .Level1 =>
      P.dilithium2.checkHalves "Invalid Dilithium2 public key length"
        "Invalid Dilithium2 secret key length" pk_bytes sk_bytes
  | .Level3 =>
      P.dilithium3.checkHalves "Invalid Dilithium3 public key length"
        "Invalid Dilithium3 secret key length" pk_bytes sk_bytes
  | .Level5 =>
      P.dilithium5.checkHalves "Invalid Dilithium5 public key length"
        "Invalid Dilithium5 secret key length" pk_bytes sk_bytes
  pure ⟨{ level, pk_bytes, sk_bytes }⟩

/-- `DsaPublicKey::from_validated`. -/
def DsaPublicKey.from_validated (level : SecurityLevel) (bytes : Bytes) : Result DsaPublicKey := do
  match level with
  | .Level1 => P.dilithium2.checkPublic "Invalid Dilithium2 public key" bytes
  | .Level3 => P.dilithium3.checkPublic "Invalid Dilithium3 public key" bytes
  | .Level5 => P.dilithium5.checkPublic "Invalid Dilithium5 public key" bytes
  pure { level, bytes }

/-- `DsaKeyData::into_keypair` of `serial.rs`. -/
def DsaKeyData.into_keypair (d : DsaKeyData) : Result DsaKeyPair :=
  DsaKeyPair.from_bytes P d.level d.public_key d.secret_key

end Functions

/-! ## One arm, as its cases -/

namespace Dilithium

variable {D : Dilithium}

theorem signWith_of_length {msg : String} {sk : Bytes} (h : sk.length = D.secretKeyBytes)
    (message : Bytes) (e : Entropy) :
    D.signWith msg sk message e = ok (D.detachedSign message ⟨sk, h⟩ e) := by
  rw [signWith, fromBytes_of_length h]
  rfl

theorem verifyWith_of_length {pkMsg sigMsg : String} {pk : Bytes}
    (h : pk.length = D.publicKeyBytes) (message signature : Bytes) :
    D.verifyWith pkMsg sigMsg pk message signature
      = if D.signatureFromBytes signature then
          if D.verifyDetachedSignature signature message ⟨pk, h⟩ then ok ()
          else err .VerificationFailed
        else err (.InvalidSignature sigMsg) := by
  rw [verifyWith, fromBytes_of_length h]
  rfl

end Dilithium

/-! ## The dispatch -/

/-- The variant name the error texts of `dsa.rs` use. -/
def dilithiumName : SecurityLevel → String
  | .Level1 => "Dilithium2"
  | .Level3 => "Dilithium3"
  | .Level5 => "Dilithium5"

section Dispatch

variable {P : Platform}

theorem DsaKeyPair.generate_eq (level : SecurityLevel) (e : Entropy) :
    DsaKeyPair.generate P level e
      = ok ⟨{ level, pk_bytes := ((P.dilithium level).keypair e).1.val,
              sk_bytes := ((P.dilithium level).keypair e).2.val }⟩ := by
  cases level <;> rfl

theorem DsaKeyPair.sign_eq (kp : DsaKeyPair) (message : Bytes) (e : Entropy) :
    kp.sign P message e
      = (P.dilithium kp.inner.level).signWith
          ("Invalid " ++ dilithiumName kp.inner.level ++ " secret key") kp.inner.sk_bytes
          message e := by
  obtain ⟨⟨level, pk, sk⟩⟩ := kp
  cases level <;> rfl

theorem DsaKeyPair.verify_with_typed_key_eq (k : DsaPublicKey) (message signature : Bytes) :
    DsaKeyPair.verify_with_typed_key P k message signature
      = (P.dilithium k.level).verifyWith ("Invalid " ++ dilithiumName k.level ++ " public key")
          ("Invalid " ++ dilithiumName k.level ++ " signature") k.bytes message signature := by
  obtain ⟨level, bytes⟩ := k
  cases level <;> rfl

theorem DsaKeyPair.from_bytes_eq (level : SecurityLevel) (pk_bytes sk_bytes : Bytes) :
    DsaKeyPair.from_bytes P level pk_bytes sk_bytes
      = ((P.dilithium level).checkHalves
            ("Invalid " ++ dilithiumName level ++ " public key length")
            ("Invalid " ++ dilithiumName level ++ " secret key length") pk_bytes sk_bytes >>=
          fun _ => ok ⟨{ level, pk_bytes, sk_bytes }⟩) := by
  cases level <;> rfl

theorem DsaPublicKey.from_validated_eq (level : SecurityLevel) (bytes : Bytes) :
    DsaPublicKey.from_validated P level bytes
      = ((P.dilithium level).checkPublic ("Invalid " ++ dilithiumName level ++ " public key") bytes
          >>= fun _ => ok { level, bytes }) := by
  cases level <;> rfl

/-! ## Restoring is a length check -/

theorem DsaKeyPair.from_bytes_eq_ok {level : SecurityLevel} {pk sk : Bytes} {kp : DsaKeyPair} :
    DsaKeyPair.from_bytes P level pk sk = ok kp
      ↔ (pk.length = (P.dilithium level).publicKeyBytes
          ∧ sk.length = (P.dilithium level).secretKeyBytes)
        ∧ kp = ⟨{ level, pk_bytes := pk, sk_bytes := sk }⟩ := by
  rw [from_bytes_eq, check_eq_ok]
  exact and_congr_left' checkHalves_eq_ok

theorem DsaKeyPair.from_bytes_noPanic (level : SecurityLevel) (pk sk : Bytes) :
    (DsaKeyPair.from_bytes P level pk sk).NoPanic := by
  rw [from_bytes_eq, noPanic_bind]
  exact ⟨checkHalves_noPanic _ _ _ _ _ _, fun _ _ => noPanic_ok _⟩

theorem DsaKeyPair.sign_noPanic (kp : DsaKeyPair) (message : Bytes) (e : Entropy) :
    (kp.sign P message e).NoPanic := by
  rw [sign_eq, Dilithium.signWith, noPanic_bind]
  exact ⟨fromBytes_noPanic _ _ _, fun _ _ => noPanic_ok _⟩

theorem DsaKeyPair.verify_with_typed_key_noPanic (k : DsaPublicKey) (message signature : Bytes) :
    (DsaKeyPair.verify_with_typed_key P k message signature).NoPanic := by
  rw [verify_with_typed_key_eq, Dilithium.verifyWith, noPanic_bind]
  refine ⟨fromBytes_noPanic _ _ _, fun _ _ => ?_⟩
  split_ifs <;> simp

theorem DsaPublicKey.from_validated_eq_ok {level : SecurityLevel} {bytes : Bytes}
    {k : DsaPublicKey} :
    DsaPublicKey.from_validated P level bytes = ok k
      ↔ bytes.length = (P.dilithium level).publicKeyBytes ∧ k = { level, bytes } := by
  rw [from_validated_eq, check_eq_ok]
  exact and_congr_left' checkPublic_eq_ok

theorem DsaPublicKey.from_validated_eq_err {level : SecurityLevel} {bytes : Bytes}
    {e : PqcError} :
    DsaPublicKey.from_validated P level bytes = err e
      ↔ bytes.length ≠ (P.dilithium level).publicKeyBytes
        ∧ e = .InvalidKey ("Invalid " ++ dilithiumName level ++ " public key") := by
  rw [from_validated_eq, bind_eq_err]
  simp only [reduceCtorEq, and_false, exists_false, or_false]
  exact checkPublic_eq_err

theorem DsaPublicKey.from_validated_noPanic (level : SecurityLevel) (bytes : Bytes) :
    (DsaPublicKey.from_validated P level bytes).NoPanic := by
  rw [from_validated_eq, noPanic_bind]
  exact ⟨checkPublic_noPanic _ _ _, fun _ _ => noPanic_ok _⟩

end Dispatch

/-! ## Lengths -/

/-- The array sizes of `pqcrypto-dilithium` are those of `key_sizes`. -/
def Platform.DilithiumSizes (P : Platform) : Prop := ∀ level,
  (P.dilithium level).publicKeyBytes = (dsaSizes level).public_key
    ∧ (P.dilithium level).secretKeyBytes = (dsaSizes level).private_key

/-- A public key has the length of its level. -/
def DsaPublicKey.Fits (k : DsaPublicKey) : Prop :=
  k.bytes.length = (dsaSizes k.level).public_key

/-- Both halves of a pair have the lengths of its level. -/
def DsaKeyPair.Fits (kp : DsaKeyPair) : Prop :=
  kp.inner.pk_bytes.length = kp.key_sizes.public_key
    ∧ kp.inner.sk_bytes.length = kp.key_sizes.private_key

theorem DsaKeyPair.Fits.public_key {kp : DsaKeyPair} (h : kp.Fits) : kp.public_key.Fits := h.1

section Lengths

variable {P : Platform}

theorem DsaKeyPair.fits_iff (hP : P.DilithiumSizes) {kp : DsaKeyPair} :
    kp.Fits ↔ kp.inner.pk_bytes.length = (P.dilithium kp.inner.level).publicKeyBytes
      ∧ kp.inner.sk_bytes.length = (P.dilithium kp.inner.level).secretKeyBytes := by
  obtain ⟨hpk, hsk⟩ := hP kp.inner.level
  rw [hpk, hsk]
  rfl

theorem DsaPublicKey.fits_iff (hP : P.DilithiumSizes) {k : DsaPublicKey} :
    k.Fits ↔ k.bytes.length = (P.dilithium k.level).publicKeyBytes := by
  rw [(hP k.level).1]
  rfl

theorem DsaKeyPair.generate_fits (hP : P.DilithiumSizes) {level : SecurityLevel} {e : Entropy}
    {kp : DsaKeyPair} (h : DsaKeyPair.generate P level e = ok kp) : kp.Fits := by
  rw [generate_eq] at h
  obtain rfl := Outcome.ok.inj h
  rw [fits_iff hP]
  exact ⟨FixedArray.length_val _, FixedArray.length_val _⟩

theorem DsaKeyPair.from_bytes_fits (hP : P.DilithiumSizes) {level : SecurityLevel} {pk sk : Bytes}
    {kp : DsaKeyPair} (h : DsaKeyPair.from_bytes P level pk sk = ok kp) : kp.Fits := by
  obtain ⟨hlen, rfl⟩ := from_bytes_eq_ok.mp h
  exact (fits_iff hP).mpr hlen

theorem DsaPublicKey.from_validated_fits (hP : P.DilithiumSizes) {level : SecurityLevel}
    {bytes : Bytes} {k : DsaPublicKey} (h : DsaPublicKey.from_validated P level bytes = ok k) :
    k.Fits := by
  obtain ⟨hlen, rfl⟩ := from_validated_eq_ok.mp h
  exact (fits_iff hP).mpr hlen

/-- `from_bytes` accepts the halves that have the lengths of the level. -/
theorem DsaKeyPair.from_bytes_isOk (hP : P.DilithiumSizes) {level : SecurityLevel} {pk sk : Bytes} :
    (DsaKeyPair.from_bytes P level pk sk).IsOk
      ↔ pk.length = (dsaSizes level).public_key ∧ sk.length = (dsaSizes level).private_key := by
  rw [← (hP level).1, ← (hP level).2]
  constructor
  · rintro ⟨kp, hkp⟩
    exact (from_bytes_eq_ok.mp hkp).1
  · intro hlen
    exact ⟨_, from_bytes_eq_ok.mpr ⟨hlen, rfl⟩⟩

/-- A pair that fits survives its own check. -/
theorem DsaKeyPair.Fits.from_bytes (hP : P.DilithiumSizes) {kp : DsaKeyPair} (h : kp.Fits) :
    DsaKeyPair.from_bytes P kp.inner.level kp.inner.pk_bytes kp.inner.sk_bytes = ok kp :=
  from_bytes_eq_ok.mpr ⟨(fits_iff hP).mp h, rfl⟩

/-- Signing with a pair that fits succeeds on every message. -/
theorem DsaKeyPair.Fits.sign (hP : P.DilithiumSizes) {kp : DsaKeyPair} (h : kp.Fits)
    (message : Bytes) (e : Entropy) : (kp.sign P message e).IsOk := by
  rw [sign_eq, Dilithium.signWith_of_length ((fits_iff hP).mp h).2]
  exact isOk_ok _

/-- Verification under a key that fits never blames the key. -/
theorem DsaPublicKey.Fits.verify (hP : P.DilithiumSizes) {k : DsaPublicKey} (h : k.Fits)
    (message signature : Bytes) (m : String) :
    DsaKeyPair.verify_with_typed_key P k message signature ≠ err (.InvalidKey m) := by
  rw [DsaKeyPair.verify_with_typed_key_eq, Dilithium.verifyWith_of_length ((fits_iff hP).mp h)]
  split_ifs <;> simp

end Lengths

/-! ## Pairs whose halves belong together -/

/-- `dilithiumN` is a correct signature scheme: what one half signs, the other
half verifies, and a signature survives being sent as bytes. -/
def Dilithium.Correct (D : Dilithium) : Prop := ∀ e message coins,
  D.signatureFromBytes (D.detachedSign message (D.keypair e).2 coins) = true
    ∧ D.verifyDetachedSignature (D.detachedSign message (D.keypair e).2 coins) message
        (D.keypair e).1 = true

/-- All three modules are. -/
def Platform.DilithiumCorrect (P : Platform) : Prop := ∀ level, (P.dilithium level).Correct

/-- Two byte strings are the halves of one `keypair()` of the level. -/
def DsaHalves (P : Platform) (level : SecurityLevel) (pk sk : Bytes) : Prop :=
  ∃ e, (P.dilithium level).keypairBytes e = (pk, sk)

/-- The halves of a pair belong together. -/
def DsaKeyPair.Matched (P : Platform) (kp : DsaKeyPair) : Prop :=
  DsaHalves P kp.inner.level kp.inner.pk_bytes kp.inner.sk_bytes

theorem DsaKeyPair.generate_matched {P : Platform} {level : SecurityLevel} {e : Entropy}
    {kp : DsaKeyPair} (h : DsaKeyPair.generate P level e = ok kp) : kp.Matched P := by
  rw [generate_eq] at h
  obtain rfl := Outcome.ok.inj h
  exact ⟨e, rfl⟩

/-- Signing with the secret half of a generated pair. -/
theorem DsaKeyPair.sign_keypair {P : Platform} (level : SecurityLevel) (e : Entropy)
    (pk_bytes message : Bytes) (coins : Entropy) :
    DsaKeyPair.sign P ⟨{ level, pk_bytes, sk_bytes := ((P.dilithium level).keypair e).2.val }⟩
        message coins
      = ok ((P.dilithium level).detachedSign message ((P.dilithium level).keypair e).2 coins) :=
  (sign_eq _ _ _).trans
    (Dilithium.signWith_of_length (D := P.dilithium level) (FixedArray.length_val _) _ _)

/-- Verification under the public half of a generated pair. -/
theorem DsaKeyPair.verify_keypair {P : Platform} (level : SecurityLevel) (e : Entropy)
    (message signature : Bytes) :
    DsaKeyPair.verify_with_typed_key P
        { level, bytes := ((P.dilithium level).keypair e).1.val } message signature
      = if (P.dilithium level).signatureFromBytes signature then
          if (P.dilithium level).verifyDetachedSignature signature message
              ((P.dilithium level).keypair e).1 then ok ()
          else err .VerificationFailed
        else err (.InvalidSignature ("Invalid " ++ dilithiumName level ++ " signature")) :=
  (verify_with_typed_key_eq _ _ _).trans
    (Dilithium.verifyWith_of_length (D := P.dilithium level) (FixedArray.length_val _) _ _)

/-- What the pair signs, it verifies. -/
theorem DsaKeyPair.Matched.verify {P : Platform} (hP : P.DilithiumCorrect) {kp : DsaKeyPair}
    (h : kp.Matched P) {message signature : Bytes} {coins : Entropy}
    (hsign : kp.sign P message coins = ok signature) :
    DsaKeyPair.verify_with_typed_key P kp.public_key message signature = ok () := by
  obtain ⟨⟨level, pk, sk⟩⟩ := kp
  obtain ⟨e, he⟩ := h
  have hpk : ((P.dilithium level).keypair e).1.val = pk := congrArg Prod.fst he
  have hsk : ((P.dilithium level).keypair e).2.val = sk := congrArg Prod.snd he
  subst hpk hsk
  obtain rfl := Outcome.ok.inj ((sign_keypair level e _ message coins).symm.trans hsign)
  obtain ⟨hfrom, hver⟩ := hP level e message coins
  exact (verify_keypair level e message _).trans (by rw [if_pos hfrom, if_pos hver])

end PqcVault
