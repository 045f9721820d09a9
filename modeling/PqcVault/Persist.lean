/-
`Persist.lean` -- key pairs that are stored and come back.

A pair leaves the program as an export or as a bundle and comes back by the
matching restoring call. Any number of such steps in any order gives the pair
back, and the clear fields of a bundle cannot be exchanged for others although
nothing authenticates them. Both rest on one fact about one bundle,
`unseal_kem_sealed`: the plaintext names its own public-key length, and the six
lengths there are tell kind and level apart.
-/
import PqcVault.Reach
import PqcVault.Sample

set_option autoImplicit false

namespace PqcVault

open Rust Outcome

/-! ## Chains of steps -/

/-- One way to store a pair and restore it. -/
inductive PersistStep where
  | exportImport
  | sealUnseal (passphrase : Bytes) (salt : FixedArray UInt8 16) (nonce : FixedArray UInt8 12)

section Functions

variable (P : Platform)

def PersistStep.runKem (step : PersistStep) (kp : KemKeyPair) : Result KemKeyPair :=
  match step with
  | .exportImport => do
      let data ← kp.export
      data.into_keypair P
  | .sealUnseal passphrase salt nonce => do
      let bundle ← EncryptedKeyBundle.seal_kem P kp passphrase salt nonce
      let bundle' ← EncryptedKeyBundle.from_json P (bundle.to_json P)
      bundle'.unseal_kem P passphrase

def PersistStep.runDsa (step : PersistStep) (kp : DsaKeyPair) : Result DsaKeyPair :=
  match step with
  | .exportImport => do
      let data ← kp.export
      data.into_keypair P
  | .sealUnseal passphrase salt nonce => do
      let bundle ← EncryptedKeyBundle.seal_dsa P kp passphrase salt nonce
      let bundle' ← EncryptedKeyBundle.from_json P (bundle.to_json P)
      bundle'.unseal_dsa P passphrase

/-- The seal of the step, if it has one, returns `Ok`. -/
def PersistStep.SealsKem (step : PersistStep) (kp : KemKeyPair) : Prop :=
  match step with
  | .exportImport => True
  | .sealUnseal passphrase salt nonce =>
      (EncryptedKeyBundle.seal_kem P kp passphrase salt nonce).IsOk

def PersistStep.SealsDsa (step : PersistStep) (kp : DsaKeyPair) : Prop :=
  match step with
  | .exportImport => True
  | .sealUnseal passphrase salt nonce =>
      (EncryptedKeyBundle.seal_dsa P kp passphrase salt nonce).IsOk

end Functions

section Chain

variable {κ : Type}

/-- The steps one after the other. -/
def runSteps (step : PersistStep → κ → Result κ) (steps : List PersistStep) (k : κ) : Result κ :=
  steps.foldlM (fun k s => step s k) k

/-- Every seal on the way returns `Ok`. -/
def SealsOk (step : PersistStep → κ → Result κ) (seals : PersistStep → κ → Prop) :
    List PersistStep → κ → Prop
  | [], _ => True
  | s :: rest, k => seals s k ∧ ∀ k', step s k = ok k' → SealsOk step seals rest k'

/-- Where every step that seals gives its argument back, each seal is one of the
first value. -/
theorem sealsOk_iff {step : PersistStep → κ → Result κ} {seals : PersistStep → κ → Prop} {k : κ}
    (hstep : ∀ s, seals s k → step s k = ok k) (steps : List PersistStep) :
    SealsOk step seals steps k ↔ ∀ s ∈ steps, seals s k := by
  induction steps with
  | nil => simp [SealsOk]
  | cons s rest ih =>
      -- A step that sealed hands the same value on, so the rest starts from it too.
      rw [SealsOk, List.forall_mem_cons, ← ih]
      refine and_congr_right fun hs => ?_
      rw [hstep s hs]
      simp

/-- And every chain gives its argument back. -/
theorem runSteps_fixed {step : PersistStep → κ → Result κ} {seals : PersistStep → κ → Prop} {k : κ}
    (hstep : ∀ s, seals s k → step s k = ok k) {steps : List PersistStep}
    (h : SealsOk step seals steps k) : runSteps step steps k = ok k := by
  induction steps with
  | nil => rfl
  | cons s rest ih =>
      have hs : step s k = ok k := hstep s h.1
      rw [runSteps, List.foldlM_cons, hs, bind_ok]
      exact ih (h.2 k hs)

end Chain

section Round

variable {P : Platform}

/-- One step on a pair that fits. -/
theorem PersistStep.runKem_fixed (hword : P.WordSize) (hK : P.KyberSizes) (hA : P.AeadRoundTrip)
    (hS : P.SerdeRoundTrip) {kp : KemKeyPair} (hkp : kp.Fits) (step : PersistStep)
    (h : step.SealsKem P kp) : step.runKem P kp = ok kp := by
  cases step with
  | exportImport => exact hkp.from_bytes hK
  | sealUnseal passphrase salt nonce =>
      obtain ⟨bundle, hseal⟩ := h
      rw [runKem, hseal, bind_ok, EncryptedKeyBundle.from_json_to_json hS, bind_ok,
        unseal_kem_of_seal hword hK hA hkp hseal]

theorem PersistStep.runDsa_fixed (hword : P.WordSize) (hD : P.DilithiumSizes)
    (hA : P.AeadRoundTrip) (hS : P.SerdeRoundTrip) {kp : DsaKeyPair} (hkp : kp.Fits)
    (step : PersistStep) (h : step.SealsDsa P kp) : step.runDsa P kp = ok kp := by
  cases step with
  | exportImport => exact hkp.from_bytes hD
  | sealUnseal passphrase salt nonce =>
      obtain ⟨bundle, hseal⟩ := h
      rw [runDsa, hseal, bind_ok, EncryptedKeyBundle.from_json_to_json hS, bind_ok,
        unseal_dsa_of_seal hword hD hA hkp hseal]

/-- **Key persistence**: over any chain of steps, a generated pair of either kind
comes back as it was. -/
theorem persist_chain (hword : P.WordSize) (hK : P.KyberSizes) (hD : P.DilithiumSizes)
    (hA : P.AeadRoundTrip) (hS : P.SerdeRoundTrip) (level : SecurityLevel) (e : Entropy)
    (steps : List PersistStep) :
    (∀ kp, KemKeyPair.generate P level e = ok kp →
        SealsOk (PersistStep.runKem P) (PersistStep.SealsKem P) steps kp →
          runSteps (PersistStep.runKem P) steps kp = ok kp)
      ∧ ∀ kp, DsaKeyPair.generate P level e = ok kp →
        SealsOk (PersistStep.runDsa P) (PersistStep.SealsDsa P) steps kp →
          runSteps (PersistStep.runDsa P) steps kp = ok kp := by
  constructor
  · intro kp hgen hseals
    have hkp := KemKeyPair.generate_fits hK hgen
    exact runSteps_fixed (fun s => s.runKem_fixed hword hK hA hS hkp) hseals
  · intro kp hgen hseals
    have hkp := DsaKeyPair.generate_fits hD hgen
    exact runSteps_fixed (fun s => s.runDsa_fixed hword hD hA hS hkp) hseals

end Round

/-- A chain of three steps. -/
def sampleSteps : List PersistStep :=
  [.sealUnseal [1, 2, 3] (Sample.fill 16 4) (Sample.fill 12 5), .exportImport,
    .sealUnseal [] (Sample.fill 16 6) (Sample.fill 12 7)]

theorem persist_chain_sample :
    runSteps (PersistStep.runKem samplePlatform) sampleSteps (Sample.kemPair .Level5 9)
        = ok (Sample.kemPair .Level5 9)
      ∧ runSteps (PersistStep.runDsa samplePlatform) sampleSteps (Sample.dsaPair .Level5 9)
        = ok (Sample.dsaPair .Level5 9) := by
  have h := persist_chain Sample.wordSize Sample.kyberSizes Sample.dilithiumSizes
    Sample.aeadRoundTrip Sample.serdeRoundTrip .Level5 (fun _ => 9) sampleSteps
  constructor
  · apply h.1 _ (Sample.generate_kemPair .Level5 9)
    rw [sealsOk_iff fun s => s.runKem_fixed Sample.wordSize Sample.kyberSizes
      Sample.aeadRoundTrip Sample.serdeRoundTrip (Sample.kemPair_fits .Level5 9)]
    intro s hs
    simp only [sampleSteps, List.mem_cons, List.not_mem_nil, or_false] at hs
    rcases hs with rfl | rfl | rfl
    · exact Sample.seal_kemPair_isOk _ _ (by decide) _ _
    · trivial
    · exact Sample.seal_kemPair_isOk _ _ (by decide) _ _
  · apply h.2 _ (Sample.generate_dsaPair .Level5 9)
    rw [sealsOk_iff fun s => s.runDsa_fixed Sample.wordSize Sample.dilithiumSizes
      Sample.aeadRoundTrip Sample.serdeRoundTrip (Sample.dsaPair_fits .Level5 9)]
    intro s hs
    simp only [sampleSteps, List.mem_cons, List.not_mem_nil, or_false] at hs
    rcases hs with rfl | rfl | rfl
    · exact Sample.seal_dsaPair_isOk _ _ (by decide) _ _
    · trivial
    · exact Sample.seal_dsaPair_isOk _ _ (by decide) _ _

/-! ## Clear fields

Version, kind and level stand outside the AEAD. -/

/-- The bundle with other clear fields. -/
def EncryptedKeyBundle.relabel (b : EncryptedKeyBundle) (version : UInt8) (kind : String)
    (level : UInt8) : EncryptedKeyBundle where
  inner := { b.inner with version := version, kind := kind, level := level }

/-- The clear fields of a bundle. -/
def EncryptedKeyBundle.clear (b : EncryptedKeyBundle) : UInt8 × String × UInt8 :=
  (b.version, b.kind, b.level)

section Relabel

variable {P : Platform}

theorem sameSecret_relabel (b : EncryptedKeyBundle) (version : UInt8) (kind : String)
    (level : UInt8) : SameSecret b (b.relabel version kind level) := ⟨rfl, rfl, rfl⟩

/-- The clear fields of a sealed KEM pair. -/
theorem clear_of_seal_kem {kp : KemKeyPair} {passphrase : Bytes} {salt : FixedArray UInt8 16}
    {nonce : FixedArray UInt8 12} {b : EncryptedKeyBundle}
    (hseal : EncryptedKeyBundle.seal_kem P kp passphrase salt nonce = ok b) :
    b.clear = (BUNDLE_VERSION, "kem", level_to_u8 kp.inner.level) := by
  obtain ⟨-, hver, hkind, hlevel⟩ := seal_plaintext_eq_ok.mp hseal
  rw [EncryptedKeyBundle.clear, hver, hkind, hlevel]

theorem clear_eq_iff {b b' : EncryptedKeyBundle} :
    b'.clear = b.clear ↔ b'.kind = b.kind ∧ b'.version = b.version ∧ b'.level = b.level := by
  simp only [EncryptedKeyBundle.clear, Prod.mk.injEq]
  tauto

/-- Of the bundles that hold a sealed KEM pair, the one with the sealed clear
fields is unsealed as that pair, and every other as nothing. -/
theorem unseal_relabelled_kem (hword : P.WordSize) (hK : P.KyberSizes) (hD : P.DilithiumSizes)
    (hA : P.AeadRoundTrip) {kp : KemKeyPair} (hkp : kp.Fits) {passphrase : Bytes}
    {salt : FixedArray UInt8 16} {nonce : FixedArray UInt8 12} {b b' : EncryptedKeyBundle}
    (hseal : EncryptedKeyBundle.seal_kem P kp passphrase salt nonce = ok b)
    (hsame : SameSecret b b') :
    (b'.clear = b.clear → b'.unseal_kem P passphrase = ok kp)
      ∧ (b'.clear ≠ b.clear → (b'.unseal_kem P passphrase).IsErr)
      ∧ (b'.unseal_dsa P passphrase).IsErr := by
  obtain ⟨hpanic, hok⟩ := unseal_kem_sealed hword hK hA hkp hseal hsame
  refine ⟨fun hclear => ?_, fun hclear => ?_, unseal_dsa_of_seal_kem hword hD hA hkp hseal hsame⟩
  · exact (hok kp).mpr ⟨clear_eq_iff.mp hclear, rfl⟩
  · apply hpanic.isErr
    intro kp' hkp'
    exact hclear (clear_eq_iff.mpr ((hok kp').mp hkp').1)

theorem unseal_relabelled_dsa (hword : P.WordSize) (hK : P.KyberSizes) (hD : P.DilithiumSizes)
    (hA : P.AeadRoundTrip) {kp : DsaKeyPair} (hkp : kp.Fits) {passphrase : Bytes}
    {salt : FixedArray UInt8 16} {nonce : FixedArray UInt8 12} {b b' : EncryptedKeyBundle}
    (hseal : EncryptedKeyBundle.seal_dsa P kp passphrase salt nonce = ok b)
    (hsame : SameSecret b b') :
    (b'.clear = b.clear → b'.unseal_dsa P passphrase = ok kp)
      ∧ (b'.clear ≠ b.clear → (b'.unseal_dsa P passphrase).IsErr)
      ∧ (b'.unseal_kem P passphrase).IsErr := by
  obtain ⟨hpanic, hok⟩ := unseal_dsa_sealed hword hD hA hkp hseal hsame
  refine ⟨fun hclear => ?_, fun hclear => ?_, unseal_kem_of_seal_dsa hword hK hA hkp hseal hsame⟩
  · exact (hok kp).mpr ⟨clear_eq_iff.mp hclear, rfl⟩
  · apply hpanic.isErr
    intro kp' hkp'
    exact hclear (clear_eq_iff.mpr ((hok kp').mp hkp').1)

/-- **Clear fields cannot be swapped.** A bundle with the salt, nonce and
ciphertext of a sealed pair and any other version, kind and level is unsealed as
neither kind; with its own, as its own kind only. -/
theorem unseal_relabelled (hword : P.WordSize) (hK : P.KyberSizes) (hD : P.DilithiumSizes)
    (hA : P.AeadRoundTrip) (passphrase : Bytes) (salt : FixedArray UInt8 16)
    (nonce : FixedArray UInt8 12) :
    (∀ kp b, Obtainable P .none (.kemPair kp) →
        EncryptedKeyBundle.seal_kem P kp passphrase salt nonce = ok b →
          (∀ version kind level, (version, kind, level) ≠ b.clear →
            ((b.relabel version kind level).unseal_kem P passphrase).IsErr
              ∧ ((b.relabel version kind level).unseal_dsa P passphrase).IsErr)
          ∧ b.unseal_kem P passphrase = ok kp ∧ (b.unseal_dsa P passphrase).IsErr)
      ∧ ∀ kp b, Obtainable P .none (.dsaPair kp) →
        EncryptedKeyBundle.seal_dsa P kp passphrase salt nonce = ok b →
          (∀ version kind level, (version, kind, level) ≠ b.clear →
            ((b.relabel version kind level).unseal_kem P passphrase).IsErr
              ∧ ((b.relabel version kind level).unseal_dsa P passphrase).IsErr)
          ∧ b.unseal_dsa P passphrase = ok kp ∧ (b.unseal_kem P passphrase).IsErr := by
  constructor
  · intro kp b hobt hseal
    have hkp : kp.Fits := hobt.fits hK hD
    -- The bundle itself first, and then the bundle under other clear fields.
    have hown := unseal_relabelled_kem hword hK hD hA hkp hseal (SameSecret.refl b)
    refine ⟨fun version kind level hne => ?_, hown.1 rfl, hown.2.2⟩
    have h := unseal_relabelled_kem hword hK hD hA hkp hseal
      (sameSecret_relabel b version kind level)
    exact ⟨h.2.1 hne, h.2.2⟩
  · intro kp b hobt hseal
    have hkp : kp.Fits := hobt.fits hK hD
    have hown := unseal_relabelled_dsa hword hK hD hA hkp hseal (SameSecret.refl b)
    refine ⟨fun version kind level hne => ?_, hown.1 rfl, hown.2.2⟩
    have h := unseal_relabelled_dsa hword hK hD hA hkp hseal
      (sameSecret_relabel b version kind level)
    exact ⟨h.2.2, h.2.1 hne⟩

end Relabel

/-- A sealed KEM pair of the first level, and the same bundle as one of the third
level or as a DSA key. -/
theorem unseal_relabelled_sample :
    ∃ b, EncryptedKeyBundle.seal_kem samplePlatform (Sample.kemPair .Level1 7) [1, 2]
          (Sample.fill 16 3) (Sample.fill 12 4) = ok b
      ∧ ((b.relabel 1 "kem" 3).unseal_kem samplePlatform [1, 2]).IsErr
      ∧ ((b.relabel 1 "dsa" 1).unseal_dsa samplePlatform [1, 2]).IsErr
      ∧ b.unseal_kem samplePlatform [1, 2] = ok (Sample.kemPair .Level1 7) := by
  have hlen : ([1, 2] : Bytes).length ≤ 2 ^ 32 - 1 := by simp
  obtain ⟨b, hb⟩ := Sample.seal_kemPair_isOk .Level1 7 hlen (Sample.fill 16 3) (Sample.fill 12 4)
  have hclear := clear_of_seal_kem hb
  obtain ⟨hother, hown, -⟩ := (unseal_relabelled Sample.wordSize Sample.kyberSizes
    Sample.dilithiumSizes Sample.aeadRoundTrip [1, 2] (Sample.fill 16 3) (Sample.fill 12 4)).1 _ b
    (.kem_generate (Sample.generate_kemPair .Level1 7)) hb
  refine ⟨b, hb, (hother 1 "kem" 3 ?_).1, (hother 1 "dsa" 1 ?_).2, hown⟩
  · rw [hclear]
    decide
  · rw [hclear]
    decide

end PqcVault
