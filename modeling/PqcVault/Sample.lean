/-
`Sample.lean` -- a platform that can be run.

Every theorem of the development is about any platform with the laws it names.
Here is one that has all of them, so no theorem is about nothing. The keys have
the lengths of the real ones, the AEAD appends a 16-byte tag and checks it,
Argon2 has its length limits, and `serde_json` prints and reads text; the
cryptography is a toy. A key is one byte over and over, the same byte in both
halves, so pairs from different entropy have different keys and do not
interoperate.
-/
import PqcVault.Hybrid
import PqcVault.Serial

set_option autoImplicit false

namespace PqcVault

open Rust Outcome

namespace Sample

/-! ## The primitives -/

/-- An array of one byte. -/
def fill (n : ℕ) (b : UInt8) : FixedArray UInt8 n := ⟨List.replicate n b, List.length_replicate⟩

/-- The byte a filled array holds. -/
def byte (bs : Bytes) : UInt8 := bs.headD 0

/-- A digest of one byte. -/
def digest (bs : Bytes) : UInt8 := bs.foldl (· ^^^ ·) 0

theorem byte_fill {n : ℕ} (hn : 0 < n) (b : UInt8) : byte (fill n b).val = b := by
  cases n with
  | zero => exact absurd hn (lt_irrefl 0)
  | succ n => rfl

def kyber (level : SecurityLevel) : Kyber where
  publicKeyBytes := (kemSizes level).public_key
  secretKeyBytes := (kemSizes level).private_key
  ciphertextBytes := (kemSizes level).ciphertext
  sharedSecretBytes := (kemSizes level).shared_secret
  keypair e := (fill _ (e 0), fill _ (e 0))
  encapsulate pk e := (fill _ (e 0 ^^^ byte pk.val), fill _ (e 0))
  decapsulate ct sk := fill _ (byte ct.val ^^^ byte sk.val)

/-- The longest signature of a level. -/
def signatureBytes : SecurityLevel → ℕ
  | .Level1 => 2420
  | .Level3 => 3293
  | .Level5 => 4595

def dilithium (level : SecurityLevel) : Dilithium where
  publicKeyBytes := (dsaSizes level).public_key
  secretKeyBytes := (dsaSizes level).private_key
  keypair e := (fill _ (e 0), fill _ (e 0))
  detachedSign message sk _ :=
    List.replicate (signatureBytes level) (digest message ^^^ byte sk.val)
  signatureFromBytes sig := sig.length ≤ signatureBytes level
  verifyDetachedSignature sig message pk :=
    sig = List.replicate (signatureBytes level) (digest message ^^^ byte pk.val)

/-- The 16 bytes that authenticate a plaintext. -/
def tag (key : FixedArray UInt8 32) (nonce : FixedArray UInt8 12) (pt : Bytes) : Bytes :=
  List.replicate 16 (digest (key.val ++ nonce.val ++ pt))

def aes : Aes256Gcm where
  encrypt key nonce pt := if pt.length ≤ 2 ^ 36 - 32 then some (pt ++ tag key nonce pt) else none
  decrypt key nonce ct :=
    let pt := ct.take (ct.length - 16)
    if ct = pt ++ tag key nonce pt then some pt else none

def argon2 : Argon2id where
  newParams m t p out :=
    if 8 * p ≤ m ∧ 1 ≤ t ∧ 1 ≤ p then
      some { mCost := m, tCost := t, pCost := p, outputLen := out }
    else none
  hashPasswordInto _ pw salt n :=
    if pw.length ≤ 2 ^ 32 - 1 ∧ 8 ≤ salt.length ∧ salt.length ≤ 2 ^ 32 - 1 then
      some (fill n (digest (pw ++ salt)))
    else none

/-- The group is the bytes under `^^^`, and a secret is its own public key. -/
def x25519 : X25519 where
  staticFromBytes b := b
  randomStatic e := fill 32 (e 0)
  randomEphemeral e := fill 32 (e 0)
  publicKey s := s
  diffieHellman a b := fill 32 (byte a.val ^^^ byte b.val)

def hkdf : Hkdf where
  new _ ikm := ikm
  expand prk info n := if n ≤ 255 * 32 then some (fill n (digest (prk ++ info))) else none

def serdeJson : SerdeJson where
  fromStr := Json.read
  valueFromStr := Json.read
  toString := Json.print
  errorText _ := "expected value"
  valueErrorText _ := "expected value"

end Sample

/-- A 64-bit platform. -/
def samplePlatform : Platform where
  usizeBits := 64
  kyber512 := Sample.kyber .Level1
  kyber768 := Sample.kyber .Level3
  kyber1024 := Sample.kyber .Level5
  dilithium2 := Sample.dilithium .Level1
  dilithium3 := Sample.dilithium .Level3
  dilithium5 := Sample.dilithium .Level5
  aes := Sample.aes
  argon2 := Sample.argon2
  x25519 := Sample.x25519
  hkdf := Sample.hkdf
  serdeJson := Sample.serdeJson

/-! ## The laws -/

namespace Sample

theorem kyber_eq (level : SecurityLevel) : samplePlatform.kyber level = kyber level := by
  cases level <;> rfl

theorem dilithium_eq (level : SecurityLevel) :
    samplePlatform.dilithium level = dilithium level := by
  cases level <;> rfl

theorem wordSize : samplePlatform.WordSize := .inr rfl

theorem kyberSizes : samplePlatform.KyberSizes := by
  intro level
  rw [kyber_eq]
  exact ⟨rfl, rfl, rfl, rfl⟩

theorem dilithiumSizes : samplePlatform.DilithiumSizes := by
  intro level
  rw [dilithium_eq]
  exact ⟨rfl, rfl⟩

theorem kyberCorrect : samplePlatform.KyberCorrect := by
  intro level e coins
  have hpk : 0 < (kemSizes level).public_key := by cases level <;> decide
  have hsk : 0 < (kemSizes level).private_key := by cases level <;> decide
  rw [kyber_eq]
  change fill (kemSizes level).shared_secret
      (byte (fill (kemSizes level).ciphertext (coins 0)).val
        ^^^ byte (fill (kemSizes level).private_key (e 0)).val)
    = fill _ (coins 0 ^^^ byte (fill (kemSizes level).public_key (e 0)).val)
  rw [byte_fill (kemSizes_ciphertext_pos level), byte_fill hpk, byte_fill hsk]

theorem dilithiumCorrect : samplePlatform.DilithiumCorrect := by
  intro level e message coins
  have hpk : 0 < (dsaSizes level).public_key := by cases level <;> decide
  have hsk : 0 < (dsaSizes level).private_key := by cases level <;> decide
  rw [dilithium_eq]
  constructor
  · simp [dilithium]
  · simp only [dilithium, byte_fill hpk, byte_fill hsk, decide_true]

theorem length_tag (key : FixedArray UInt8 32) (nonce : FixedArray UInt8 12) (pt : Bytes) :
    (tag key nonce pt).length = 16 := List.length_replicate

theorem aeadRoundTrip : samplePlatform.AeadRoundTrip := by
  intro key nonce pt ct h
  change (if _ then _ else none) = some ct at h
  split_ifs at h
  obtain rfl := Option.some.inj h
  have htake : (pt ++ tag key nonce pt).take ((pt ++ tag key nonce pt).length - 16) = pt := by
    rw [List.length_append, length_tag, Nat.add_sub_cancel]
    exact List.take_left' rfl
  change (if _ then _ else none) = some pt
  rw [htake, if_pos rfl]

theorem aeadEncrypts : samplePlatform.AeadEncrypts := by
  intro key nonce pt h
  change (if _ then _ else none : Option Bytes).isSome
  rw [if_pos h]
  rfl

/-- Whatever key opens a ciphertext, it opens it to the same plaintext. -/
theorem decrypt_eq_some {key : FixedArray UInt8 32} {nonce : FixedArray UInt8 12} {ct pt : Bytes}
    (h : samplePlatform.aes.decrypt key nonce ct = some pt) : pt = ct.take (ct.length - 16) := by
  change (if _ then some (ct.take (ct.length - 16)) else none) = some pt at h
  split_ifs at h
  exact (Option.some.inj h).symm

/-- So a ciphertext holds one plaintext only, whatever passphrase it opens under. -/
theorem decrypt_unique {b : BundleJson} {passphrase passphrase' pt pt' : Bytes}
    (h : decrypt samplePlatform b passphrase = ok pt)
    (h' : decrypt samplePlatform b passphrase' = ok pt') : pt = pt' := by
  obtain ⟨_, ct, _, _, _, -, -, hct, -, -, hdec⟩ := decrypt_eq_ok.mp h
  obtain ⟨_, ct', _, _, _, -, -, hct', -, -, hdec'⟩ := decrypt_eq_ok.mp h'
  obtain rfl : ct = ct' := Except.ok.inj (hct.symm.trans hct')
  rw [decrypt_eq_some hdec, decrypt_eq_some hdec']

theorem argon2Limits : samplePlatform.Argon2Limits := by
  refine ⟨_, rfl, fun passphrase salt => ?_⟩
  change (if passphrase.length ≤ 2 ^ 32 - 1 ∧ 8 ≤ salt.length ∧ salt.length ≤ 2 ^ 32 - 1 then _
    else none : Option (FixedArray UInt8 32)).isSome ↔ Argon2Lengths passphrase salt
  unfold Argon2Lengths
  split_ifs with h
  · exact iff_of_true rfl h
  · exact iff_of_false (by simp) h

theorem x25519Laws : samplePlatform.X25519Laws where
  dh_comm a b := by
    change fill 32 _ = fill 32 _
    rw [UInt8.xor_comm]
    rfl
  rebuild _ := rfl

theorem hkdfExpands : samplePlatform.HkdfExpands := by
  intro prk info
  have h32 : 32 ≤ 255 * 32 := by decide
  change (if 32 ≤ 255 * 32 then _ else none : Option (FixedArray UInt8 32)).isSome
  rw [if_pos h32]
  rfl

/-- The members of a bundle. -/
def members (b : BundleJson) : List (String × Json) :=
  [("version", .int b.version.toNat), ("kind", .str b.kind), ("level", .int b.level.toNat),
    ("salt", .str b.salt), ("nonce", .str b.nonce), ("ciphertext", .str b.ciphertext)]

theorem isFlat_byte (n : UInt8) : (Json.int n.toNat).IsFlat := by
  have h := n.toNat_lt
  refine ⟨Int.natCast_nonneg _, ?_⟩
  omega

theorem flat_members (b : BundleJson) : ∀ m ∈ members b, m.2.IsFlat := by
  intro m hm
  simp only [members, List.mem_cons, List.not_mem_nil, or_false] at hm
  rcases hm with rfl | rfl | rfl | rfl | rfl | rfl
  · exact isFlat_byte b.version
  · trivial
  · exact isFlat_byte b.level
  all_goals trivial

@[simp] theorem fromStr_eq (s : String) : samplePlatform.serdeJson.fromStr s = Json.read s := rfl

@[simp] theorem toString_eq (j : Json) : samplePlatform.serdeJson.toString j = Json.print j := rfl

theorem serialize_eq (b : BundleJson) : b.serialize = .obj (members b) := rfl

theorem serdeRoundTrip : samplePlatform.SerdeRoundTrip := by
  intro b
  rw [fromStr_eq, toString_eq, serialize_eq]
  exact Json.read_print (flat_members b) (List.cons_ne_nil _ _)

theorem serdePlain : samplePlatform.SerdePlain := by
  intro b h
  rw [toString_eq, serialize_eq] at h
  obtain ⟨m, hm, hdash⟩ := Json.dash_of_mem_print (flat_members b) h
  have hkey : ∀ m ∈ members b, '-' ∉ m.1.toList := by
    have hkeys : ∀ k ∈ (members b).map Prod.fst, '-' ∉ k.toList := by
      change ∀ k ∈ ["version", "kind", "level", "salt", "nonce", "ciphertext"], '-' ∉ k.toList
      decide
    intro m hm
    exact hkeys _ (List.mem_map_of_mem hm)
  obtain ⟨s, hs, hmem⟩ := hdash.resolve_left (hkey m hm)
  simp only [members, List.mem_cons, List.not_mem_nil, or_false] at hm
  rcases hm with rfl | rfl | rfl | rfl | rfl | rfl
  · exact absurd hs (by simp)
  · exact .inl (Json.str.inj hs ▸ hmem)
  · exact absurd hs (by simp)
  · exact .inr (.inl (Json.str.inj hs ▸ hmem))
  · exact .inr (.inr (.inl (Json.str.inj hs ▸ hmem)))
  · exact .inr (.inr (.inr (Json.str.inj hs ▸ hmem)))

theorem serdeRejectsDashes : samplePlatform.SerdeRejectsDashes := by
  intro s hs
  obtain ⟨t, ht⟩ := hs
  rw [fromStr_eq]
  exact Json.read_of_head ht.symm (by decide)

/-! ## Pairs

The pair whose byte is `b`. -/

def kemPair (level : SecurityLevel) (b : UInt8) : KemKeyPair where
  inner := { level := level, pk_bytes := List.replicate (kemSizes level).public_key b,
             sk_bytes := List.replicate (kemSizes level).private_key b }

def dsaPair (level : SecurityLevel) (b : UInt8) : DsaKeyPair where
  inner := { level := level, pk_bytes := List.replicate (dsaSizes level).public_key b,
             sk_bytes := List.replicate (dsaSizes level).private_key b }

theorem generate_kemPair (level : SecurityLevel) (b : UInt8) :
    KemKeyPair.generate samplePlatform level (fun _ => b) = ok (kemPair level b) := by
  rw [KemKeyPair.generate_eq, kyber_eq]
  rfl

theorem generate_dsaPair (level : SecurityLevel) (b : UInt8) :
    DsaKeyPair.generate samplePlatform level (fun _ => b) = ok (dsaPair level b) := by
  rw [DsaKeyPair.generate_eq, dilithium_eq]
  rfl

/-- A hybrid pair of two such bytes. -/
def hybridPair (level : SecurityLevel) (b c : UInt8) : HybridKeyPair where
  x25519_secret := fill 32 b
  x25519_public := fill 32 b
  kyber := kemPair level c

theorem generate_hybridPair (level : SecurityLevel) (b c : UInt8) :
    HybridKeyPair.generate samplePlatform level (fun _ => b) (fun _ => c)
      = ok (hybridPair level b c) := by
  rw [HybridKeyPair.generate, generate_kemPair]
  rfl

theorem kemPair_fits (level : SecurityLevel) (b : UInt8) : (kemPair level b).Fits :=
  KemKeyPair.generate_fits kyberSizes (generate_kemPair level b)

theorem dsaPair_fits (level : SecurityLevel) (b : UInt8) : (dsaPair level b).Fits :=
  DsaKeyPair.generate_fits dilithiumSizes (generate_dsaPair level b)

/-- Argon2 takes a passphrase that is not too long, with any salt of 16 bytes. -/
theorem derive_key_isOk {passphrase : Bytes} (h : passphrase.length ≤ 2 ^ 32 - 1)
    (salt : FixedArray UInt8 16) : (derive_key samplePlatform passphrase salt.val).IsOk := by
  rw [PqcVault.derive_key_isOk argon2Limits]
  refine ⟨h, ?_, ?_⟩
  all_goals rw [salt.length_val]; decide

theorem seal_kemPair_isOk (level : SecurityLevel) (b : UInt8) {passphrase : Bytes}
    (h : passphrase.length ≤ 2 ^ 32 - 1) (salt : FixedArray UInt8 16)
    (nonce : FixedArray UInt8 12) :
    (EncryptedKeyBundle.seal_kem samplePlatform (kemPair level b) passphrase salt nonce).IsOk :=
  EncryptedKeyBundle.seal_kem_isOk aeadEncrypts (kemPair_fits level b) nonce (derive_key_isOk h salt)

theorem seal_dsaPair_isOk (level : SecurityLevel) (b : UInt8) {passphrase : Bytes}
    (h : passphrase.length ≤ 2 ^ 32 - 1) (salt : FixedArray UInt8 16)
    (nonce : FixedArray UInt8 12) :
    (EncryptedKeyBundle.seal_dsa samplePlatform (dsaPair level b) passphrase salt nonce).IsOk :=
  EncryptedKeyBundle.seal_dsa_isOk aeadEncrypts (dsaPair_fits level b) nonce (derive_key_isOk h salt)

end Sample

end PqcVault
