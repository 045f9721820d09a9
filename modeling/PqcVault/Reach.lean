/-
`Reach.lean` -- the keys the public operations can produce.

A key is made in about a dozen ways: generated, restored from bytes, taken out
of a pair, exported and turned back after its public fields were rewritten, read
from a PEM or out of a bundle. `Obtainable` is the closure of all of them. What
comes from outside the crate, and may be anything, is what a caller hands to
`from_bytes`, writes into the public fields of an export, or unseals; a `Promise`
says what such bytes are known to be. With no promise, every key still fits its
level. That its two halves belong together nothing checks, so it takes a promise.
-/
import PqcVault.PemText
import PqcVault.Sample

set_option autoImplicit false

namespace PqcVault

open Rust Outcome

/-! ## What can be obtained -/

/-- A key, a pair, or what `export` hands out. -/
inductive Value where
  | kemPublic (k : KemPublicKey)
  | kemPair (kp : KemKeyPair)
  | kemData (d : KemKeyData)
  | dsaPublic (k : DsaPublicKey)
  | dsaPair (kp : DsaKeyPair)
  | dsaData (d : DsaKeyData)

/-- What is known of a level and two halves from outside. -/
structure Promise where
  kem : SecurityLevel → Bytes → Bytes → Prop
  dsa : SecurityLevel → Bytes → Bytes → Prop

/-- Nothing is. -/
def Promise.none : Promise := { kem := fun _ _ _ => True, dsa := fun _ _ _ => True }

/-- The halves are those of one `keypair()`. -/
def Promise.halves (P : Platform) : Promise := { kem := KemHalves P, dsa := DsaHalves P }

/-- The values any sequence of public operations can produce. -/
inductive Obtainable (P : Platform) (promise : Promise) : Value → Prop
  | clone {v : Value} (h : Obtainable P promise v) : Obtainable P promise v
  | kem_generate {level : SecurityLevel} {e : Entropy} {kp : KemKeyPair}
      (h : KemKeyPair.generate P level e = ok kp) : Obtainable P promise (.kemPair kp)
  | kem_from_bytes {level : SecurityLevel} {pk sk : Bytes} {kp : KemKeyPair}
      (hp : promise.kem level pk sk) (h : KemKeyPair.from_bytes P level pk sk = ok kp) :
      Obtainable P promise (.kemPair kp)
  | kem_from_validated {level : SecurityLevel} {bytes : Bytes} {k : KemPublicKey}
      (h : KemPublicKey.from_validated P level bytes = ok k) : Obtainable P promise (.kemPublic k)
  | kem_from_pem {pem : String} {k : KemPublicKey} (h : kem_public_key_from_pem P pem = ok k) :
      Obtainable P promise (.kemPublic k)
  | kem_public_key {kp : KemKeyPair} (h : Obtainable P promise (.kemPair kp)) :
      Obtainable P promise (.kemPublic kp.public_key)
  | kem_export {kp : KemKeyPair} {d : KemKeyData} (h : Obtainable P promise (.kemPair kp))
      (hd : kp.export = ok d) : Obtainable P promise (.kemData d)
  | kem_edit {d d' : KemKeyData} (h : Obtainable P promise (.kemData d))
      (hsk : d'.secret_key = d.secret_key)
      (hp : promise.kem d'.level d'.public_key d'.secret_key) : Obtainable P promise (.kemData d')
  | kem_into_keypair {d : KemKeyData} {kp : KemKeyPair} (h : Obtainable P promise (.kemData d))
      (hkp : d.into_keypair P = ok kp) : Obtainable P promise (.kemPair kp)
  | kem_unseal_sealed {kp kp' : KemKeyPair} {passphrase : Bytes} {salt : FixedArray UInt8 16}
      {nonce : FixedArray UInt8 12} {b b' : EncryptedKeyBundle}
      (h : Obtainable P promise (.kemPair kp))
      (hseal : EncryptedKeyBundle.seal_kem P kp passphrase salt nonce = ok b)
      (hsame : SameSecret b b') (hkp : b'.unseal_kem P passphrase = ok kp') :
      Obtainable P promise (.kemPair kp')
  | kem_unseal {b : EncryptedKeyBundle} {passphrase : Bytes} {kp : KemKeyPair}
      (h : b.unseal_kem P passphrase = ok kp)
      (hp : promise.kem kp.inner.level kp.inner.pk_bytes kp.inner.sk_bytes) :
      Obtainable P promise (.kemPair kp)
  | hybrid_kyber_key {level : SecurityLevel} {ex ek : Entropy} {kp : HybridKeyPair}
      (h : HybridKeyPair.generate P level ex ek = ok kp) :
      Obtainable P promise (.kemPublic kp.public_key.kyber_key)
  | dsa_generate {level : SecurityLevel} {e : Entropy} {kp : DsaKeyPair}
      (h : DsaKeyPair.generate P level e = ok kp) : Obtainable P promise (.dsaPair kp)
  | dsa_from_bytes {level : SecurityLevel} {pk sk : Bytes} {kp : DsaKeyPair}
      (hp : promise.dsa level pk sk) (h : DsaKeyPair.from_bytes P level pk sk = ok kp) :
      Obtainable P promise (.dsaPair kp)
  | dsa_from_validated {level : SecurityLevel} {bytes : Bytes} {k : DsaPublicKey}
      (h : DsaPublicKey.from_validated P level bytes = ok k) : Obtainable P promise (.dsaPublic k)
  | dsa_from_pem {pem : String} {k : DsaPublicKey} (h : dsa_public_key_from_pem P pem = ok k) :
      Obtainable P promise (.dsaPublic k)
  | dsa_public_key {kp : DsaKeyPair} (h : Obtainable P promise (.dsaPair kp)) :
      Obtainable P promise (.dsaPublic kp.public_key)
  | dsa_export {kp : DsaKeyPair} {d : DsaKeyData} (h : Obtainable P promise (.dsaPair kp))
      (hd : kp.export = ok d) : Obtainable P promise (.dsaData d)
  | dsa_edit {d d' : DsaKeyData} (h : Obtainable P promise (.dsaData d))
      (hsk : d'.secret_key = d.secret_key)
      (hp : promise.dsa d'.level d'.public_key d'.secret_key) : Obtainable P promise (.dsaData d')
  | dsa_into_keypair {d : DsaKeyData} {kp : DsaKeyPair} (h : Obtainable P promise (.dsaData d))
      (hkp : d.into_keypair P = ok kp) : Obtainable P promise (.dsaPair kp)
  | dsa_unseal_sealed {kp kp' : DsaKeyPair} {passphrase : Bytes} {salt : FixedArray UInt8 16}
      {nonce : FixedArray UInt8 12} {b b' : EncryptedKeyBundle}
      (h : Obtainable P promise (.dsaPair kp))
      (hseal : EncryptedKeyBundle.seal_dsa P kp passphrase salt nonce = ok b)
      (hsame : SameSecret b b') (hkp : b'.unseal_dsa P passphrase = ok kp') :
      Obtainable P promise (.dsaPair kp')
  | dsa_unseal {b : EncryptedKeyBundle} {passphrase : Bytes} {kp : DsaKeyPair}
      (h : b.unseal_dsa P passphrase = ok kp)
      (hp : promise.dsa kp.inner.level kp.inner.pk_bytes kp.inner.sk_bytes) :
      Obtainable P promise (.dsaPair kp)

/-! ## Every key fits its level -/

/-- A key and a pair have the lengths of their level; an export promises nothing. -/
def Value.Fits : Value → Prop
  | .kemPublic k => k.Fits
  | .kemPair kp => kp.Fits
  | .kemData _ => True
  | .dsaPublic k => k.Fits
  | .dsaPair kp => kp.Fits
  | .dsaData _ => True

section Fits

variable {P : Platform}

theorem kem_public_key_from_pem_fits (hK : P.KyberSizes) {pem : String} {k : KemPublicKey}
    (h : kem_public_key_from_pem P pem = ok k) : k.Fits := by
  simp only [kem_public_key_from_pem, bind_eq_ok] at h
  obtain ⟨⟨level, bytes⟩, -, hk⟩ := h
  exact KemPublicKey.from_validated_fits hK hk

theorem dsa_public_key_from_pem_fits (hD : P.DilithiumSizes) {pem : String} {k : DsaPublicKey}
    (h : dsa_public_key_from_pem P pem = ok k) : k.Fits := by
  simp only [dsa_public_key_from_pem, bind_eq_ok] at h
  obtain ⟨⟨level, bytes⟩, -, hk⟩ := h
  exact DsaPublicKey.from_validated_fits hD hk

/-- Every operation makes values that fit out of values that fit. -/
theorem Obtainable.fits (hK : P.KyberSizes) (hD : P.DilithiumSizes) {promise : Promise} {v : Value}
    (h : Obtainable P promise v) : v.Fits := by
  induction h with
  | clone _ ih => exact ih
  | kem_generate h => exact KemKeyPair.generate_fits hK h
  | kem_from_bytes _ h => exact KemKeyPair.from_bytes_fits hK h
  | kem_from_validated h => exact KemPublicKey.from_validated_fits hK h
  | kem_from_pem h => exact kem_public_key_from_pem_fits hK h
  | kem_public_key _ ih => exact KemKeyPair.Fits.public_key ih
  -- An export promises nothing: `into_keypair` checks its lengths again.
  | kem_export _ _ _ => trivial
  | kem_edit _ _ _ _ => trivial
  | kem_into_keypair _ hkp _ => exact KemKeyPair.from_bytes_fits hK hkp
  | kem_unseal_sealed _ _ _ hkp _ =>
      exact KemKeyPair.from_bytes_fits hK (EncryptedKeyBundle.unseal_kem_from_bytes hkp)
  | kem_unseal h _ =>
      exact KemKeyPair.from_bytes_fits hK (EncryptedKeyBundle.unseal_kem_from_bytes h)
  | hybrid_kyber_key h =>
      obtain ⟨-, -, hkem⟩ := HybridKeyPair.generate_eq_ok h
      exact (KemKeyPair.generate_fits hK hkem).public_key
  | dsa_generate h => exact DsaKeyPair.generate_fits hD h
  | dsa_from_bytes _ h => exact DsaKeyPair.from_bytes_fits hD h
  | dsa_from_validated h => exact DsaPublicKey.from_validated_fits hD h
  | dsa_from_pem h => exact dsa_public_key_from_pem_fits hD h
  | dsa_public_key _ ih => exact DsaKeyPair.Fits.public_key ih
  | dsa_export _ _ _ => trivial
  | dsa_edit _ _ _ _ => trivial
  | dsa_into_keypair _ hkp _ => exact DsaKeyPair.from_bytes_fits hD hkp
  | dsa_unseal_sealed _ _ _ hkp _ =>
      exact DsaKeyPair.from_bytes_fits hD (EncryptedKeyBundle.unseal_dsa_from_bytes hkp)
  | dsa_unseal h _ =>
      exact DsaKeyPair.from_bytes_fits hD (EncryptedKeyBundle.unseal_dsa_from_bytes h)

end Fits

/-! ## What a key that fits can be used for -/

/-- Encapsulation and signing succeed, decapsulation succeeds on the ciphertexts
of the right length and blames the others, and nothing blames the key. -/
def Value.Usable (P : Platform) : Value → Prop
  | .kemPublic k => ∀ e, (KemKeyPair.encapsulate P k e).IsOk
  | .kemPair kp => ∀ ct : Bytes,
      (ct.length = kp.key_sizes.ciphertext → (kp.decapsulate P ct).IsOk)
        ∧ (ct.length ≠ kp.key_sizes.ciphertext →
            ∃ msg, kp.decapsulate P ct = err (.InvalidCiphertext msg))
  | .kemData _ => True
  | .dsaPublic k => ∀ message signature msg,
      DsaKeyPair.verify_with_typed_key P k message signature ≠ err (.InvalidKey msg)
  | .dsaPair kp => ∀ message,
      (∀ e, (kp.sign P message e).IsOk)
        ∧ ∀ signature msg, kp.verify P message signature ≠ err (.InvalidKey msg)
  | .dsaData _ => True

theorem Value.Fits.usable {P : Platform} (hK : P.KyberSizes) (hD : P.DilithiumSizes) {v : Value}
    (h : v.Fits) : v.Usable P := by
  cases v with
  | kemPublic k =>
      intro e
      obtain ⟨ct, ss, henc, -⟩ := KemPublicKey.Fits.encapsulate hK h e
      exact ⟨_, henc⟩
  | kemPair kp => exact fun ct => KemKeyPair.Fits.decapsulate hK h ct
  | kemData _ => trivial
  | dsaPublic k => exact fun message signature msg => DsaPublicKey.Fits.verify hD h _ _ msg
  | dsaPair kp =>
      intro message
      refine ⟨fun e => DsaKeyPair.Fits.sign hD h message e, fun signature msg => ?_⟩
      exact DsaPublicKey.Fits.verify hD (DsaKeyPair.Fits.public_key h) _ _ msg
  | dsaData _ => trivial

/-- **Typed keys always fit their level**, whatever the caller hands in, and so
no operation on one ever rejects it. -/
theorem obtainable_fits_usable {P : Platform} (hK : P.KyberSizes) (hD : P.DilithiumSizes)
    {v : Value} (h : Obtainable P .none v) : v.Fits ∧ v.Usable P :=
  ⟨h.fits hK hD, (h.fits hK hD).usable hK hD⟩

/-- The public half of one pair and the secret half of another. -/
def mixedKem : KemKeyPair where
  inner := { level := .Level1, pk_bytes := (Sample.kemPair .Level1 0).inner.pk_bytes,
             sk_bytes := (Sample.kemPair .Level1 1).inner.sk_bytes }

def mixedDsa : DsaKeyPair where
  inner := { level := .Level1, pk_bytes := (Sample.dsaPair .Level1 0).inner.pk_bytes,
             sk_bytes := (Sample.dsaPair .Level1 1).inner.sk_bytes }

/-- Such a pair comes of an export whose public half was rewritten. -/
theorem obtainable_fits_usable_mixedKem :
    (Value.kemPair mixedKem).Fits ∧ (Value.kemPair mixedKem).Usable samplePlatform := by
  have hexport : Obtainable samplePlatform .none (.kemData ⟨.Level1, _, mixedKem.inner.sk_bytes⟩) :=
    .kem_export (.kem_generate (Sample.generate_kemPair .Level1 1)) rfl
  have hedit : Obtainable samplePlatform .none
      (.kemData ⟨.Level1, mixedKem.inner.pk_bytes, mixedKem.inner.sk_bytes⟩) :=
    .kem_edit hexport rfl trivial
  -- `into_keypair` looks at the lengths, and these are right.
  exact obtainable_fits_usable Sample.kyberSizes Sample.dilithiumSizes
    (.kem_into_keypair hedit (by decide +kernel))

/-! ## Which pairs are pairs

Restoring is a length check, so two halves of the right lengths that were never
generated together pass it. Bytes from outside are restored to a real pair when
they are the halves of one, and everything the crate does on its own keeps that. -/

/-- The halves of a pair, and of an export, belong together. -/
def Value.Matched (P : Platform) : Value → Prop
  | .kemPublic _ => True
  | .kemPair kp => kp.Matched P
  | .kemData d => KemHalves P d.level d.public_key d.secret_key
  | .dsaPublic _ => True
  | .dsaPair kp => kp.Matched P
  | .dsaData d => DsaHalves P d.level d.public_key d.secret_key

section Matched

variable {P : Platform}

theorem KemKeyPair.matched_of_from_bytes {level : SecurityLevel} {pk sk : Bytes} {kp : KemKeyPair}
    (hp : KemHalves P level pk sk) (h : KemKeyPair.from_bytes P level pk sk = ok kp) :
    kp.Matched P := by
  obtain ⟨-, rfl⟩ := from_bytes_eq_ok.mp h
  exact hp

theorem DsaKeyPair.matched_of_from_bytes {level : SecurityLevel} {pk sk : Bytes} {kp : DsaKeyPair}
    (hp : DsaHalves P level pk sk) (h : DsaKeyPair.from_bytes P level pk sk = ok kp) :
    kp.Matched P := by
  obtain ⟨-, rfl⟩ := from_bytes_eq_ok.mp h
  exact hp

/-- Every operation keeps halves together. -/
theorem Obtainable.matched (hword : P.WordSize) (hK : P.KyberSizes) (hD : P.DilithiumSizes)
    (hA : P.AeadRoundTrip) {v : Value} (h : Obtainable P (.halves P) v) : v.Matched P := by
  induction h with
  | clone _ ih => exact ih
  | kem_generate h => exact KemKeyPair.generate_matched h
  | kem_from_bytes hp h => exact KemKeyPair.matched_of_from_bytes hp h
  | kem_from_validated _ => trivial
  | kem_from_pem _ => trivial
  | kem_public_key _ _ => trivial
  | kem_export _ hd ih =>
      obtain rfl := Outcome.ok.inj hd
      exact ih
  | kem_edit _ _ hp _ =>
      -- The new public fields are the caller's, who promised halves of one pair.
      exact hp
  | kem_into_keypair _ hkp ih => exact KemKeyPair.matched_of_from_bytes ih hkp
  | kem_unseal_sealed h hseal hsame hkp ih =>
      -- Whatever the clear fields say, what comes out is the pair that went in.
      obtain ⟨-, rfl⟩ := ((unseal_kem_sealed hword hK hA (h.fits hK hD) hseal hsame).2 _).mp hkp
      exact ih
  | kem_unseal _ hp => exact hp
  | hybrid_kyber_key _ => trivial
  | dsa_generate h => exact DsaKeyPair.generate_matched h
  | dsa_from_bytes hp h => exact DsaKeyPair.matched_of_from_bytes hp h
  | dsa_from_validated _ => trivial
  | dsa_from_pem _ => trivial
  | dsa_public_key _ _ => trivial
  | dsa_export _ hd ih =>
      obtain rfl := Outcome.ok.inj hd
      exact ih
  | dsa_edit _ _ hp _ => exact hp
  | dsa_into_keypair _ hkp ih => exact DsaKeyPair.matched_of_from_bytes ih hkp
  | dsa_unseal_sealed h hseal hsame hkp ih =>
      obtain ⟨-, rfl⟩ := ((unseal_dsa_sealed hword hD hA (h.fits hK hD) hseal hsame).2 _).mp hkp
      exact ih
  | dsa_unseal _ hp => exact hp

/-- What a caller must see to, and what the restoring operations check: pairs
made of matching halves work, and `from_bytes` takes any two halves of the
lengths of the level. -/
theorem obtainable_halves_work (hword : P.WordSize) (hK : P.KyberSizes) (hD : P.DilithiumSizes)
    (hA : P.AeadRoundTrip) (hKC : P.KyberCorrect) (hDC : P.DilithiumCorrect) :
    (∀ kp, Obtainable P (.halves P) (.kemPair kp) → ∀ e ct s,
        KemKeyPair.encapsulate P kp.public_key e = ok (ct, s) → kp.decapsulate P ct = ok s)
      ∧ (∀ kp, Obtainable P (.halves P) (.dsaPair kp) → ∀ message e,
          ∃ signature, kp.sign P message e = ok signature
            ∧ kp.verify P message signature = ok ())
      ∧ (∀ level pk sk, (KemKeyPair.from_bytes P level pk sk).IsOk
          ↔ pk.length = (kemSizes level).public_key ∧ sk.length = (kemSizes level).private_key)
      ∧ ∀ level pk sk, (DsaKeyPair.from_bytes P level pk sk).IsOk
          ↔ pk.length = (dsaSizes level).public_key
            ∧ sk.length = (dsaSizes level).private_key := by
  refine ⟨fun kp h e ct s henc => ?_, fun kp h message e => ?_,
    fun _ _ _ => KemKeyPair.from_bytes_isOk hK, fun _ _ _ => DsaKeyPair.from_bytes_isOk hD⟩
  · exact KemKeyPair.Matched.decapsulate hKC (h.matched hword hK hD hA) henc
  · obtain ⟨signature, hsign⟩ := DsaKeyPair.Fits.sign hD (h.fits hK hD) message e
    exact ⟨signature, hsign, DsaKeyPair.Matched.verify hDC (h.matched hword hK hD hA) hsign⟩

end Matched

/-- Two pairs that are restored from their halves. -/
theorem obtainable_halves_work_sample :
    (∃ kp, KemKeyPair.from_bytes samplePlatform .Level3 (Sample.kemPair .Level3 7).inner.pk_bytes
          (Sample.kemPair .Level3 7).inner.sk_bytes = ok kp
        ∧ ∀ e ct s, KemKeyPair.encapsulate samplePlatform kp.public_key e = ok (ct, s) →
          kp.decapsulate samplePlatform ct = ok s)
      ∧ ∃ kp, DsaKeyPair.from_bytes samplePlatform .Level3 (Sample.dsaPair .Level3 7).inner.pk_bytes
          (Sample.dsaPair .Level3 7).inner.sk_bytes = ok kp
        ∧ ∀ message e, ∃ signature, kp.sign samplePlatform message e = ok signature
          ∧ kp.verify samplePlatform message signature = ok () := by
  obtain ⟨hkem, hdsa, hkemBytes, hdsaBytes⟩ := obtainable_halves_work Sample.wordSize
    Sample.kyberSizes Sample.dilithiumSizes Sample.aeadRoundTrip Sample.kyberCorrect
    Sample.dilithiumCorrect
  constructor
  · obtain ⟨kp, hkp⟩ := (hkemBytes .Level3 _ _).mpr (Sample.kemPair_fits .Level3 7)
    have hhalves := KemKeyPair.generate_matched (Sample.generate_kemPair .Level3 7)
    exact ⟨kp, hkp, hkem kp (.kem_from_bytes hhalves hkp)⟩
  · obtain ⟨kp, hkp⟩ := (hdsaBytes .Level3 _ _).mpr (Sample.dsaPair_fits .Level3 7)
    have hhalves := DsaKeyPair.generate_matched (Sample.generate_dsaPair .Level3 7)
    exact ⟨kp, hkp, hdsa kp (.dsa_from_bytes hhalves hkp)⟩

/-- `from_bytes` takes both, and neither works: the KEM pair recovers another
secret and the DSA pair refuses its own signature. -/
theorem from_bytes_mixed_halves :
    samplePlatform.KyberCorrect ∧ samplePlatform.DilithiumCorrect
      ∧ KemKeyPair.from_bytes samplePlatform .Level1 (Sample.kemPair .Level1 0).inner.pk_bytes
          (Sample.kemPair .Level1 1).inner.sk_bytes = ok mixedKem
      ∧ (∃ ct s, KemKeyPair.encapsulate samplePlatform mixedKem.public_key (fun _ => 0) = ok (ct, s)
          ∧ mixedKem.decapsulate samplePlatform ct ≠ ok s)
      ∧ DsaKeyPair.from_bytes samplePlatform .Level1 (Sample.dsaPair .Level1 0).inner.pk_bytes
          (Sample.dsaPair .Level1 1).inner.sk_bytes = ok mixedDsa
      ∧ ∃ signature, mixedDsa.sign samplePlatform [] (fun _ => 0) = ok signature
          ∧ mixedDsa.verify samplePlatform [] signature ≠ ok () := by
  refine ⟨Sample.kyberCorrect, Sample.dilithiumCorrect, by decide +kernel, ?_, by decide +kernel, ?_⟩
  · exact ⟨List.replicate 768 0, ⟨List.replicate 32 0⟩, by decide +kernel, by decide +kernel⟩
  · exact ⟨List.replicate 2420 1, by decide +kernel, by decide +kernel⟩

end PqcVault
