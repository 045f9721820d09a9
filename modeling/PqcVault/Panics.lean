/-
`Panics.lean` -- untrusted input and the calls that do not return.

Two entry points take text from outside: a bundle that is unsealed and a PEM
file that is decoded. Both return `Result`, and each has one place where a bad
length ends in a panic instead of an error: the nonce of a bundle is turned into
an array without a check, and the body of a PEM is sliced between two markers
that were searched for independently. The theorems say for which input exactly
that happens.
-/
import PqcVault.Pem
import PqcVault.Sample
import PqcVault.Serial

set_option autoImplicit false

namespace PqcVault

open Rust Outcome

/-! ## Unsealing a bundle -/

/-- The clear fields of a bundle are those of a sealed key. -/
def ClearFieldsValid (b : BundleJson) : Prop :=
  (b.kind = "kem" ∨ b.kind = "dsa") ∧ b.version = BUNDLE_VERSION
    ∧ ∃ level, b.level = level_to_u8 level

/-- If all three hex fields decode and Argon2 takes the passphrase and the salt,
the nonce has 12 bytes. -/
def NonceFits (b : BundleJson) (passphrase : Bytes) : Prop :=
  ∀ salt nonce ct, Hex.decode b.salt.toList = .ok salt → Hex.decode b.nonce.toList = .ok nonce →
    Hex.decode b.ciphertext.toList = .ok ct → Argon2Lengths passphrase salt → nonce.length = 12

/-- No authentic plaintext of the bundle announces a public key whose end wraps
the word. -/
def PrefixSafe (P : Platform) (b : BundleJson) (passphrase : Bytes) : Prop :=
  ∀ plaintext, AuthenticPlaintext P b passphrase plaintext →
    plaintext.length < 4 ∨ PrefixFits P.usizeBits plaintext

section Unseal

variable {P : Platform}

/-- With 64-bit words the second condition is no condition. -/
theorem prefixSafe_of_64 (h : P.usizeBits = 64) (b : BundleJson) (passphrase : Bytes) :
    PrefixSafe P b passphrase := by
  intro plaintext _
  rw [h]
  exact .inr (prefixFits_of_64 plaintext)

/-- Opening a bundle and restoring its halves, for either kind: `restore` is what
comes after the bundle is open. -/
theorem open_restore_noPanic {α : Type} (hP : P.Argon2Limits) {kind notKind : String}
    {b : BundleJson} {passphrase : Bytes} {restore : SecurityLevel → Bytes → Result α}
    (hrestore : ∀ level plaintext, (restore level plaintext).NoPanic
      ↔ plaintext.length < 4 ∨ PrefixFits P.usizeBits plaintext) :
    (open_bundle P kind notKind b passphrase >>= fun x => restore x.1 x.2).NoPanic
      ↔ (b.kind = kind → b.version = BUNDLE_VERSION → (∃ level, b.level = level_to_u8 level) →
          NonceFits b passphrase ∧ PrefixSafe P b passphrase) := by
  rw [noPanic_bind, open_bundle_noPanic]
  constructor
  · rintro ⟨hopen, hrest⟩ hkind hver ⟨level, hlevel⟩
    refine ⟨(decrypt_noPanic hP b passphrase).mp (hopen hkind hver ⟨level, hlevel⟩), ?_⟩
    intro plaintext hpt
    have hok : open_bundle P kind notKind b passphrase = ok (level, plaintext) :=
      open_bundle_eq_ok.mpr ⟨hkind, hver, hlevel, decrypt_eq_ok.mpr hpt⟩
    exact (hrestore level plaintext).mp (hrest _ hok)
  · intro h
    constructor
    · intro hkind hver hlevel
      exact (decrypt_noPanic hP b passphrase).mpr (h hkind hver hlevel).1
    · rintro ⟨level, plaintext⟩ hok
      obtain ⟨hkind, hver, hlevel, hdec⟩ := open_bundle_eq_ok.mp hok
      exact (hrestore level plaintext).mpr
        ((h hkind hver ⟨level, hlevel⟩).2 plaintext (decrypt_eq_ok.mp hdec))

theorem unseal_kem_noPanic (hword : P.WordSize) (hP : P.Argon2Limits) (b : EncryptedKeyBundle)
    (passphrase : Bytes) :
    (b.unseal_kem P passphrase).NoPanic
      ↔ (b.inner.kind = "kem" → b.inner.version = BUNDLE_VERSION →
          (∃ level, b.inner.level = level_to_u8 level) →
            NonceFits b.inner passphrase ∧ PrefixSafe P b.inner passphrase) :=
  open_restore_noPanic hP fun level plaintext => restore_kem_noPanic hword.le level plaintext

theorem unseal_dsa_noPanic (hword : P.WordSize) (hP : P.Argon2Limits) (b : EncryptedKeyBundle)
    (passphrase : Bytes) :
    (b.unseal_dsa P passphrase).NoPanic
      ↔ (b.inner.kind = "dsa" → b.inner.version = BUNDLE_VERSION →
          (∃ level, b.inner.level = level_to_u8 level) →
            NonceFits b.inner passphrase ∧ PrefixSafe P b.inner passphrase) :=
  open_restore_noPanic hP fun level plaintext => restore_dsa_noPanic hword.le level plaintext

/-- **Unsealing untrusted bundles.** Whatever bundle a text parses to is unsealed
without a panic, as either kind of key, exactly when its clear fields are off, or
its nonce has 12 bytes wherever it is used and its plaintext does not wrap. -/
theorem unseal_noPanic_iff (hword : P.WordSize) (hP : P.Argon2Limits) (s : String)
    (passphrase : Bytes) :
    (∀ b, EncryptedKeyBundle.from_json P s = ok b →
        (b.unseal_kem P passphrase).NoPanic ∧ (b.unseal_dsa P passphrase).NoPanic)
      ↔ ∀ b, EncryptedKeyBundle.from_json P s = ok b → ClearFieldsValid b.inner →
          NonceFits b.inner passphrase ∧ PrefixSafe P b.inner passphrase := by
  refine forall_congr' fun b => imp_congr_right fun _ => ?_
  rw [unseal_kem_noPanic hword hP, unseal_dsa_noPanic hword hP]
  constructor
  · rintro ⟨hkem, hdsa⟩ ⟨hkind, hver, hlevel⟩
    rcases hkind with hkind | hkind
    · exact hkem hkind hver hlevel
    · exact hdsa hkind hver hlevel
  · intro h
    exact ⟨fun hkind hver hlevel => h ⟨.inl hkind, hver, hlevel⟩,
      fun hkind hver hlevel => h ⟨.inr hkind, hver, hlevel⟩⟩

end Unseal

/-- A bundle as `seal_kem` writes them, but with an empty nonce. -/
def shortNonceJson : String :=
  "\x7b\"version\":1,\"kind\":\"kem\",\"level\":1,\"salt\":\"000102030405060708090a0b0c0d0e0f\"," ++
    "\"nonce\":\"\",\"ciphertext\":\"00\"\x7d"

def shortNonceBundle : EncryptedKeyBundle where
  inner := { version := 1, kind := "kem", level := 1, salt := "000102030405060708090a0b0c0d0e0f",
             nonce := "", ciphertext := "00" }

/-- It parses, and unsealing it panics. -/
theorem unseal_shortNonce_panics :
    samplePlatform.WordSize ∧ samplePlatform.Argon2Limits
      ∧ EncryptedKeyBundle.from_json samplePlatform shortNonceJson = ok shortNonceBundle
      ∧ ¬ (shortNonceBundle.unseal_kem samplePlatform []).NoPanic := by
  refine ⟨Sample.wordSize, Sample.argon2Limits, by decide +kernel, ?_⟩
  have h : shortNonceBundle.unseal_kem samplePlatform [] = panic := by decide +kernel
  rw [h]
  exact not_noPanic_panic

/-- Its fields decode and Argon2 takes them, but the nonce has no bytes. -/
theorem not_nonceFits_shortNonce : ¬ NonceFits shortNonceBundle.inner [] := by
  intro h
  have hargon : Argon2Lengths [] ((List.range 16).map UInt8.ofNat) := by
    unfold Argon2Lengths
    decide
  have hlen := h _ [] [0] (by decide +kernel) rfl (by decide +kernel) hargon
  exact absurd hlen (by decide)

/-- At that text, both sides of the equivalence are false. -/
theorem unseal_noPanic_iff_shortNonce :
    (¬ ∀ b, EncryptedKeyBundle.from_json samplePlatform shortNonceJson = ok b →
        (b.unseal_kem samplePlatform []).NoPanic ∧ (b.unseal_dsa samplePlatform []).NoPanic)
      ∧ ¬ ∀ b, EncryptedKeyBundle.from_json samplePlatform shortNonceJson = ok b →
          ClearFieldsValid b.inner →
            NonceFits b.inner [] ∧ PrefixSafe samplePlatform b.inner [] := by
  have hjson : EncryptedKeyBundle.from_json samplePlatform shortNonceJson = ok shortNonceBundle := by
    decide +kernel
  have hno : ¬ ∀ b, EncryptedKeyBundle.from_json samplePlatform shortNonceJson = ok b →
      ClearFieldsValid b.inner → NonceFits b.inner [] ∧ PrefixSafe samplePlatform b.inner [] :=
    fun h => not_nonceFits_shortNonce (h _ hjson ⟨.inl rfl, rfl, .Level1, rfl⟩).1
  have hiff := unseal_noPanic_iff Sample.wordSize Sample.argon2Limits shortNonceJson []
  exact ⟨fun h => hno (hiff.mp h), hno⟩

/-! ## Decoding a PEM -/

/-- **PEM parsing.** Each public decoder returns exactly on the texts whose
markers of its label stand in order. -/
theorem public_key_from_pem_noPanic (P : Platform) (pem : String) :
    ((kem_public_key_from_pem P pem).NoPanic ↔ MarkersInOrder KEM_LABEL pem)
      ∧ ((dsa_public_key_from_pem P pem).NoPanic ↔ MarkersInOrder DSA_LABEL pem) := by
  constructor
  · rw [kem_public_key_from_pem, noPanic_bind, decode_pem_noPanic]
    exact and_iff_left fun _ _ => KemPublicKey.from_validated_noPanic _ _
  · rw [dsa_public_key_from_pem, noPanic_bind, decode_pem_noPanic]
    exact and_iff_left fun _ _ => DsaPublicKey.from_validated_noPanic _ _

/-- The end of one block followed by the start of the next, and two markers that
share their dashes. -/
theorem public_key_from_pem_panics :
    ¬ (kem_public_key_from_pem samplePlatform
        "-----END ML-KEM PUBLIC KEY-----\n-----BEGIN ML-KEM PUBLIC KEY-----\n").NoPanic
      ∧ ¬ (dsa_public_key_from_pem samplePlatform
        "-----BEGIN ML-DSA PUBLIC KEY-----END ML-DSA PUBLIC KEY-----\n").NoPanic := by
  have hkem : kem_public_key_from_pem samplePlatform
      "-----END ML-KEM PUBLIC KEY-----\n-----BEGIN ML-KEM PUBLIC KEY-----\n" = panic := by
    decide +kernel
  have hdsa : dsa_public_key_from_pem samplePlatform
      "-----BEGIN ML-DSA PUBLIC KEY-----END ML-DSA PUBLIC KEY-----\n" = panic := by
    decide +kernel
  rw [hkem, hdsa]
  exact ⟨not_noPanic_panic, not_noPanic_panic⟩

end PqcVault
