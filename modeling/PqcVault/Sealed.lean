/-
`Sealed.lean` -- the bundles that open.

What AES-GCM decrypts is what it encrypts: tag and ciphertext are functions of the key, the
nonce and the plaintext. So a bundle that opens to a pair is one that sealing that pair
gives, under the passphrase it was opened with, the salt it holds and a nonce; all that is
left free is the letter case of its three hex fields. The salt is the exception, since
opening derives a key from a salt of any length and sealing draws 16 bytes.
-/
import PqcVault.Format

set_option autoImplicit false

namespace PqcVault

open Rust Outcome

/-- AES-256-GCM decrypts nothing but what it encrypts. -/
def Platform.AeadExact (P : Platform) : Prop := ∀ key nonce pt ct,
  P.aes.decrypt key nonce ct = some pt → P.aes.encrypt key nonce pt = some ct

/-- A text up to the case of its letters. -/
def SpellsHex (s t : String) : Prop := s.toList.map Char.toLower = t.toList

/-- A bundle up to the case of the letters in its hex fields. -/
structure Spells (b b' : EncryptedKeyBundle) : Prop where
  version : b.version = b'.version
  kind : b.kind = b'.kind
  level : b.level = b'.level
  salt : SpellsHex b.inner.salt b'.inner.salt
  nonce : SpellsHex b.inner.nonce b'.inner.nonce
  ciphertext : SpellsHex b.inner.ciphertext b'.inner.ciphertext

theorem spellsHex_encode {s : String} {bytes : Bytes} :
    SpellsHex s (String.ofList (Hex.encode bytes)) ↔ Hex.decode s.toList = .ok bytes := by
  rw [SpellsHex, String.toList_ofList, Hex.decode_eq_ok]

section Exact

variable {P : Platform} {passphrase : Bytes} {salt : FixedArray UInt8 16}

/-- What `encrypt` returns, field by field. -/
theorem encrypt_eq_ok {plaintext : Bytes} {nonce : FixedArray UInt8 12} {s n c : String} :
    encrypt P plaintext passphrase salt nonce = ok (s, n, c)
      ↔ ∃ params ct, ∃ key : FixedArray UInt8 32,
          P.argon2.newParams (64 * 1024) 3 4 (some 32) = some params
          ∧ P.argon2.hashPasswordInto params passphrase salt.val 32 = some key
          ∧ P.aes.encrypt key nonce plaintext = some ct
          ∧ s = String.ofList (Hex.encode salt.val) ∧ n = String.ofList (Hex.encode nonce.val)
          ∧ c = String.ofList (Hex.encode ct) := by
  constructor
  · intro h
    simp only [encrypt, derive_key, bind_eq_ok, okOr_eq_ok, pure_eq, Outcome.ok.injEq,
      Prod.mk.injEq] at h
    obtain ⟨_, ⟨params, hp, key, hkey, rfl⟩, key', hfrom, nonce', hnonce, ct, hct, rfl, rfl, rfl⟩ := h
    rw [FixedArray.fromSlice_val] at hfrom hnonce
    obtain rfl := Outcome.ok.inj hfrom
    obtain rfl := Outcome.ok.inj hnonce
    exact ⟨params, ct, key, hp, hkey, hct, rfl, rfl, rfl⟩
  · rintro ⟨params, ct, key, hp, hkey, hct, rfl, rfl, rfl⟩
    simp only [encrypt, derive_key, hp, hkey, hct, okOr_some, bind_ok, pure_eq,
      FixedArray.fromSlice_val]

/-- **Decryption is encryption read backwards**: a bundle decrypts to what encrypts to it. -/
theorem decrypt_iff_encrypt (hA : P.AeadRoundTrip) (hE : P.AeadExact) {b : BundleJson}
    (hsalt : Hex.decode b.salt.toList = .ok salt.val) {plaintext : Bytes} :
    decrypt P b passphrase = ok plaintext
      ↔ ∃ nonce s n c, encrypt P plaintext passphrase salt nonce = ok (s, n, c)
          ∧ SpellsHex b.salt s ∧ SpellsHex b.nonce n ∧ SpellsHex b.ciphertext c := by
  rw [decrypt_eq_ok]
  constructor
  · rintro ⟨salt', ct, params, nonce, key, hs, hn, hc, hp, hkey, hdec⟩
    obtain rfl := Except.ok.inj (hsalt.symm.trans hs)
    exact ⟨nonce, _, _, _, encrypt_eq_ok.mpr ⟨params, ct, key, hp, hkey, hE _ _ _ _ hdec, rfl, rfl, rfl⟩,
      spellsHex_encode.mpr hs, spellsHex_encode.mpr hn, spellsHex_encode.mpr hc⟩
  · rintro ⟨nonce, s, n, c, henc, hs, hn, hc⟩
    obtain ⟨params, ct, key, hp, hkey, hct, rfl, rfl, rfl⟩ := encrypt_eq_ok.mp henc
    exact ⟨salt.val, ct, params, nonce, key, hsalt, spellsHex_encode.mp hn, spellsHex_encode.mp hc,
      hp, hkey, hA _ _ _ _ hct⟩

/-- What seals to a bundle up to spelling, for either kind of key. -/
theorem seal_spells_iff (hA : P.AeadRoundTrip) (hE : P.AeadExact) {b : EncryptedKeyBundle}
    (hsalt : Hex.decode b.inner.salt.toList = .ok salt.val) {kind : String} {level : SecurityLevel}
    {plaintext : Bytes} :
    (∃ nonce b', seal_plaintext P kind level plaintext passphrase salt nonce = ok b' ∧ Spells b b')
      ↔ (b.kind = kind ∧ b.version = BUNDLE_VERSION ∧ b.level = level_to_u8 level)
        ∧ decrypt P b.inner passphrase = ok plaintext := by
  rw [decrypt_iff_encrypt hA hE hsalt]
  constructor
  · rintro ⟨nonce, b', hseal, h⟩
    obtain ⟨henc, hv, hk, hl⟩ := seal_plaintext_eq_ok.mp hseal
    exact ⟨⟨h.kind.trans hk, h.version.trans hv, h.level.trans hl⟩, nonce, _, _, _, henc, h.salt,
      h.nonce, h.ciphertext⟩
  · rintro ⟨⟨hk, hv, hl⟩, nonce, s, n, c, henc, hs, hn, hc⟩
    refine ⟨nonce, ⟨⟨BUNDLE_VERSION, kind, level_to_u8 level, s, n, c⟩⟩,
      seal_plaintext_eq_ok.mpr ⟨henc, rfl, rfl, rfl⟩, hv, hk, hl, hs, hn, hc⟩

/-- Opening, down to the plaintext of the pair. -/
theorem unseal_kem_eq_ok (hword : P.WordSize) (hK : P.KyberSizes) {b : EncryptedKeyBundle}
    {kp : KemKeyPair} :
    b.unseal_kem P passphrase = ok kp
      ↔ kp.Fits ∧ (b.kind = "kem" ∧ b.version = BUNDLE_VERSION
          ∧ b.level = level_to_u8 kp.inner.level)
        ∧ decrypt P b.inner passphrase
          = ok (encode_plaintext kp.inner.pk_bytes kp.inner.sk_bytes) := by
  constructor
  · intro h
    have hfits := KemKeyPair.from_bytes_fits hK (EncryptedKeyBundle.unseal_kem_from_bytes h)
    rw [EncryptedKeyBundle.unseal_kem_eq, bind_eq_ok] at h
    obtain ⟨⟨level, plaintext⟩, hopen, hrestore⟩ := h
    obtain ⟨hkind, hversion, hlevel, hdec⟩ := open_bundle_eq_ok.mp hopen
    rw [restore_kem, bind_eq_ok] at hrestore
    obtain ⟨d, hd, hinto⟩ := hrestore
    obtain ⟨rfl, rfl, -⟩ := (decode_kem_plaintext_eq_ok hword.le).mp hd
    obtain ⟨-, rfl⟩ := KemKeyPair.from_bytes_eq_ok.mp hinto
    exact ⟨hfits, ⟨hkind, hversion, hlevel⟩, hdec⟩
  · rintro ⟨hfits, ⟨hkind, hversion, hlevel⟩, hdec⟩
    obtain ⟨-, hok⟩ := EncryptedKeyBundle.unseal_kem_encoded hword hfits.pk_le hdec
    exact (hok kp).mpr ⟨hkind, hversion, _, hlevel, hfits.from_bytes hK⟩

theorem unseal_dsa_eq_ok (hword : P.WordSize) (hD : P.DilithiumSizes) {b : EncryptedKeyBundle}
    {kp : DsaKeyPair} :
    b.unseal_dsa P passphrase = ok kp
      ↔ kp.Fits ∧ (b.kind = "dsa" ∧ b.version = BUNDLE_VERSION
          ∧ b.level = level_to_u8 kp.inner.level)
        ∧ decrypt P b.inner passphrase
          = ok (encode_plaintext kp.inner.pk_bytes kp.inner.sk_bytes) := by
  constructor
  · intro h
    have hfits := DsaKeyPair.from_bytes_fits hD (EncryptedKeyBundle.unseal_dsa_from_bytes h)
    rw [EncryptedKeyBundle.unseal_dsa_eq, bind_eq_ok] at h
    obtain ⟨⟨level, plaintext⟩, hopen, hrestore⟩ := h
    obtain ⟨hkind, hversion, hlevel, hdec⟩ := open_bundle_eq_ok.mp hopen
    rw [restore_dsa, bind_eq_ok] at hrestore
    obtain ⟨d, hd, hinto⟩ := hrestore
    obtain ⟨rfl, rfl, -⟩ := (decode_dsa_plaintext_eq_ok hword.le).mp hd
    obtain ⟨-, rfl⟩ := DsaKeyPair.from_bytes_eq_ok.mp hinto
    exact ⟨hfits, ⟨hkind, hversion, hlevel⟩, hdec⟩
  · rintro ⟨hfits, ⟨hkind, hversion, hlevel⟩, hdec⟩
    obtain ⟨-, hok⟩ := EncryptedKeyBundle.unseal_dsa_encoded hword hfits.pk_le hdec
    exact (hok kp).mpr ⟨hkind, hversion, _, hlevel, hfits.from_bytes hD⟩

/-- **The bundles that open are the sealed ones**: a bundle with a salt of 16 bytes opens to
a pair exactly when sealing the pair with that passphrase and salt gives it, up to the case
of hex digits, and the pair has the lengths of its level. -/
theorem opens_iff_sealed (hword : P.WordSize) (hK : P.KyberSizes) (hD : P.DilithiumSizes)
    (hA : P.AeadRoundTrip) (hE : P.AeadExact) {b : EncryptedKeyBundle}
    (hsalt : Hex.decode b.inner.salt.toList = .ok salt.val) (passphrase : Bytes) :
    (∀ kp, b.unseal_kem P passphrase = ok kp
        ↔ kp.Fits ∧ ∃ nonce b', EncryptedKeyBundle.seal_kem P kp passphrase salt nonce = ok b'
          ∧ Spells b b')
      ∧ ∀ kp, b.unseal_dsa P passphrase = ok kp
        ↔ kp.Fits ∧ ∃ nonce b', EncryptedKeyBundle.seal_dsa P kp passphrase salt nonce = ok b'
          ∧ Spells b b' := by
  constructor
  · intro kp
    rw [unseal_kem_eq_ok hword hK]
    simp only [EncryptedKeyBundle.seal_kem_eq, seal_spells_iff hA hE hsalt]
  · intro kp
    rw [unseal_dsa_eq_ok hword hD]
    simp only [EncryptedKeyBundle.seal_dsa_eq, seal_spells_iff hA hE hsalt]

end Exact

/-! ## A cipher with its limit on both sides -/

namespace Sample

/-- As `aes`, with ciphertexts of plaintexts that are too long refused. -/
def gcm : Aes256Gcm where
  encrypt := aes.encrypt
  decrypt key nonce ct := if ct.length ≤ 2 ^ 36 - 16 then aes.decrypt key nonce ct else none

end Sample

def gcmPlatform : Platform := { samplePlatform with aes := Sample.gcm }

namespace Sample

theorem aes_encrypt_eq_some {key : FixedArray UInt8 32} {nonce : FixedArray UInt8 12}
    {pt ct : Bytes} :
    aes.encrypt key nonce pt = some ct ↔ pt.length ≤ 2 ^ 36 - 32 ∧ ct = pt ++ tag key nonce pt := by
  change (if pt.length ≤ 2 ^ 36 - 32 then some _ else none) = some ct ↔ _
  split_ifs with hlen
  · rw [Option.some.injEq, eq_comm]
    exact (and_iff_right hlen).symm
  · exact iff_of_false (by simp) fun h => hlen h.1

theorem aes_decrypt_eq_some {key : FixedArray UInt8 32} {nonce : FixedArray UInt8 12}
    {pt ct : Bytes} (h : aes.decrypt key nonce ct = some pt) : ct = pt ++ tag key nonce pt := by
  change (if ct = ct.take (ct.length - 16) ++ tag key nonce (ct.take (ct.length - 16)) then some _
    else none) = some pt at h
  split_ifs at h with hct
  rw [← Option.some.inj h]
  exact hct

theorem gcm_aeadRoundTrip : gcmPlatform.AeadRoundTrip := by
  intro key nonce pt ct h
  obtain ⟨hlen, hct⟩ := aes_encrypt_eq_some.mp h
  have hlimit : ct.length ≤ 2 ^ 36 - 16 := by
    rw [hct, List.length_append, length_tag]
    omega
  change (if ct.length ≤ 2 ^ 36 - 16 then _ else none) = some pt
  rw [if_pos hlimit]
  exact aeadRoundTrip key nonce pt ct h

theorem gcm_aeadExact : gcmPlatform.AeadExact := by
  intro key nonce pt ct h
  change (if ct.length ≤ 2 ^ 36 - 16 then _ else none) = some pt at h
  split_ifs at h with hlimit
  have hct := aes_decrypt_eq_some h
  refine aes_encrypt_eq_some.mpr ⟨?_, hct⟩
  rw [hct, List.length_append, length_tag] at hlimit
  omega

theorem seal_gcm_isOk (nonce : FixedArray UInt8 12) :
    (EncryptedKeyBundle.seal_kem gcmPlatform (kemPair .Level1 7) [112, 119] (fill 16 0xab)
      nonce).IsOk := by
  have hE : gcmPlatform.AeadEncrypts := aeadEncrypts
  have hkey : (derive_key gcmPlatform [112, 119] (fill 16 0xab).val).IsOk :=
    derive_key_isOk (by decide) (fill 16 0xab)
  exact EncryptedKeyBundle.seal_kem_isOk hE (kemPair_fits .Level1 7) nonce hkey

end Sample

open Sample in
/-- A sealed pair whose salt is written in upper case. -/
theorem opens_iff_sealed_sample :
    ∃ b : EncryptedKeyBundle, b.inner.salt = "ABABABABABABABABABABABABABABABAB"
      ∧ b.unseal_kem gcmPlatform [112, 119] = ok (kemPair .Level1 7) := by
  obtain ⟨b', hseal⟩ := seal_gcm_isOk (fill 12 0)
  have hplain := hseal
  rw [EncryptedKeyBundle.seal_kem_eq, seal_plaintext_eq_ok] at hplain
  obtain ⟨henc, -, -, -⟩ := hplain
  obtain ⟨_, ct, _, -, -, -, hs, hn, hc⟩ := encrypt_eq_ok.mp henc
  have hword : gcmPlatform.WordSize := .inr rfl
  have hK : gcmPlatform.KyberSizes := kyberSizes
  have hD : gcmPlatform.DilithiumSizes := dilithiumSizes
  obtain ⟨b, hb⟩ : ∃ b, b = EncryptedKeyBundle.mk
      { b'.inner with salt := "ABABABABABABABABABABABABABABABAB" } := ⟨_, rfl⟩
  have hupper : b.inner.salt = "ABABABABABABABABABABABABABABABAB" := by
    rw [hb]
  have hsalt : Hex.decode b.inner.salt.toList = .ok (fill 16 (0xab : UInt8)).val := by
    rw [hupper]
    decide
  have hspells : Spells b b' := by
    refine ⟨by rw [hb]; rfl, by rw [hb]; rfl, by rw [hb]; rfl, ?_, ?_, ?_⟩
    · rw [hs]
      exact spellsHex_encode.mpr hsalt
    · rw [hb, hn]
      exact spellsHex_encode.mpr (by simp)
    · rw [hb, hc]
      exact spellsHex_encode.mpr (by simp)
  obtain ⟨hkem, -⟩ := opens_iff_sealed hword hK hD gcm_aeadRoundTrip gcm_aeadExact hsalt [112, 119]
  exact ⟨b, hupper, (hkem _).mpr ⟨kemPair_fits .Level1 7, _, b', hseal, hspells⟩⟩

end PqcVault
