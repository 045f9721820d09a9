/-
`Malleability.lean` -- two ciphertexts under one pair.

`combine_secrets` is fed the two shared secrets and nothing of the ciphertext they
came from. So with an ideal KDF and an ideal Kyber the secrets of two ciphertexts
are equal exactly when the Kyber components are and the X25519 components lead to
one shared value. The first is as one would wish; the second is not, since X25519
drops a bit of the coordinate, and whoever flips that bit in transit changes the
ciphertext and not the secret.
-/
import Mathlib.Data.Set.Function
import PqcVault.Lib.X25519
import PqcVault.Sample

set_option autoImplicit false

namespace PqcVault

open Rust Outcome

/-! ## What a secret is made of -/

/-- `x25519_shared` of `decapsulate`. -/
def HybridKeyPair.x25519_shared (P : Platform) (kp : HybridKeyPair) (c : HybridCiphertext) :
    FixedArray UInt8 32 :=
  P.x25519.diffieHellman (P.x25519.staticFromBytes kp.x25519_secret) c.x25519_ephemeral

/-- What `combine_secrets` feeds the KDF for a ciphertext that is decapsulated. -/
def HybridKeyPair.KeyingMaterial (P : Platform) (kp : HybridKeyPair) (c : HybridCiphertext)
    (ikm : Bytes) : Prop :=
  ∃ ks, kp.kyber.decapsulate P c.kyber_ct = ok ks
    ∧ ikm = (kp.x25519_shared P c).val ++ ks.bytes

/-- The `output` of `combine_secrets`. -/
def Platform.hybridKdf (P : Platform) (ikm : Bytes) : Option (FixedArray UInt8 32) :=
  P.hkdf.expand (P.hkdf.new none ikm) HKDF_INFO 32

/-- The ideal functions, on a set of ciphertexts: Kyber takes no two of their Kyber
components to one secret, and HKDF no two of their keying materials to one output.
On all byte strings neither is possible, since both outputs have 32 bytes. -/
structure Platform.IdealOn (P : Platform) (kp : HybridKeyPair) (C : Set HybridCiphertext) :
    Prop where
  kyber : Set.InjOn (kp.kyber.decapsulate P)
    {ct | (kp.kyber.decapsulate P ct).IsOk ∧ ∃ c ∈ C, c.kyber_ct = ct}
  hkdf : Set.InjOn P.hybridKdf {ikm | ∃ c ∈ C, kp.KeyingMaterial P c ikm}

section Secrets

variable {P : Platform} {kp : HybridKeyPair} {c d : HybridCiphertext} {s t : Bytes}

theorem HybridKeyPair.decapsulate_eq_ok : kp.decapsulate P c = ok s
    ↔ ∃ ikm out, kp.KeyingMaterial P c ikm ∧ P.hybridKdf ikm = some out ∧ out.val = s := by
  simp only [decapsulate, combine_secrets, bind_eq_ok, okOr_eq_ok, pure_eq, Outcome.ok.injEq,
    KeyingMaterial]
  constructor
  · rintro ⟨ks, hks, out, hout, hs⟩
    exact ⟨_, out, ⟨ks, hks, rfl⟩, hout, hs⟩
  · rintro ⟨ikm, out, ⟨ks, hks, rfl⟩, hout, hs⟩
    exact ⟨ks, hks, out, hout, hs⟩

/-- Nothing else of the ciphertext is used. -/
theorem HybridKeyPair.decapsulate_congr (hct : c.kyber_ct = d.kyber_ct)
    (hx : kp.x25519_shared P c = kp.x25519_shared P d) :
    kp.decapsulate P c = kp.decapsulate P d := by
  change kp.kyber.decapsulate P c.kyber_ct
      >>= (fun ks => combine_secrets P (kp.x25519_shared P c).val ks.bytes) = _
  rw [hct, hx]
  rfl

/-- The keying material determines the shared value and the Kyber secret: the first
is its first 32 bytes. -/
theorem HybridKeyPair.KeyingMaterial.inj {ikm : Bytes} (hc : kp.KeyingMaterial P c ikm)
    (hd : kp.KeyingMaterial P d ikm) :
    kp.x25519_shared P c = kp.x25519_shared P d
      ∧ kp.kyber.decapsulate P c.kyber_ct = kp.kyber.decapsulate P d.kyber_ct := by
  obtain ⟨ks, hks, rfl⟩ := hc
  obtain ⟨ls, hls, heq⟩ := hd
  have hlen : (kp.x25519_shared P c).val.length = (kp.x25519_shared P d).val.length := by
    rw [FixedArray.length_val, FixedArray.length_val]
  obtain ⟨hx, hbytes⟩ := List.append_inj heq hlen
  refine ⟨FixedArray.ext hx, ?_⟩
  rw [hks, hls]
  exact congrArg (fun bytes => ok (SharedSecretKey.mk bytes)) hbytes

/-- **Two ciphertexts under one pair**: where the functions are ideal, they have one
secret exactly when they have one Kyber component and one X25519 shared value. -/
theorem decapsulate_secret_eq_iff {C : Set HybridCiphertext} (hI : P.IdealOn kp C) (hc : c ∈ C)
    (hd : d ∈ C) (hs : kp.decapsulate P c = ok s) (ht : kp.decapsulate P d = ok t) :
    s = t ↔ c.kyber_ct = d.kyber_ct ∧ kp.x25519_shared P c = kp.x25519_shared P d := by
  constructor
  · intro heq
    obtain ⟨ikm, out, hikm, hout, rfl⟩ := HybridKeyPair.decapsulate_eq_ok.mp hs
    obtain ⟨ikm', out', hikm', hout', rfl⟩ := HybridKeyPair.decapsulate_eq_ok.mp ht
    have hsame : P.hybridKdf ikm = P.hybridKdf ikm' := by
      rw [hout, hout', FixedArray.ext heq]
    obtain rfl := hI.hkdf ⟨c, hc, hikm⟩ ⟨d, hd, hikm'⟩ hsame
    obtain ⟨hx, hkem⟩ := hikm.inj hikm'
    obtain ⟨ks, hks, -⟩ := hikm
    obtain ⟨ls, hls, -⟩ := hikm'
    exact ⟨hI.kyber ⟨⟨ks, hks⟩, c, hc, rfl⟩ ⟨⟨ls, hls⟩, d, hd, rfl⟩ hkem, hx⟩
  · rintro ⟨hct, hx⟩
    rw [HybridKeyPair.decapsulate_congr hct hx, ht] at hs
    exact (Outcome.ok.inj hs).symm

end Secrets

/-! ## A ciphertext that was altered -/

/-- `x25519-dalek` computes X25519. -/
def Platform.X25519Standard (P : Platform) : Prop := ∀ k u,
  (P.x25519.diffieHellman k u).val = Curve25519.x25519 k.val u.val

/-- The ciphertext with the highest bit of its X25519 component the other way. -/
def HybridCiphertext.flipTop (c : HybridCiphertext) : HybridCiphertext where
  x25519_ephemeral := ⟨Curve25519.flipTop c.x25519_ephemeral.val,
    (Curve25519.length_flipTop _).trans c.x25519_ephemeral.length_val⟩
  kyber_ct := c.kyber_ct

section Altered

variable {P : Platform}

/-- Another encoding. -/
theorem HybridCiphertext.to_hex_flipTop_ne (c : HybridCiphertext) : c.flipTop.to_hex ≠ c.to_hex := by
  intro heq
  have hlist := congrArg String.toList heq
  rw [toList_to_hex, toList_to_hex] at hlist
  have hc := wire_injective (Hex.encode_injective hlist)
  have hx : Curve25519.flipTop c.x25519_ephemeral.val = c.x25519_ephemeral.val :=
    congrArg (fun c => c.x25519_ephemeral.val) hc
  have hlen : 31 < c.x25519_ephemeral.val.length := by
    rw [FixedArray.length_val]
    omega
  exact Curve25519.flipTop_ne hlen hx

/-- The same shared value. -/
theorem HybridKeyPair.x25519_shared_flipTop (hX : P.X25519Standard) (kp : HybridKeyPair)
    (c : HybridCiphertext) : kp.x25519_shared P c.flipTop = kp.x25519_shared P c := by
  apply FixedArray.ext
  rw [x25519_shared, x25519_shared, hX, hX]
  exact Curve25519.x25519_flipTop _ _

/-- **The altered ciphertext has the same secret**, under every pair. -/
theorem HybridKeyPair.decapsulate_flipTop (hX : P.X25519Standard) (kp : HybridKeyPair)
    (c : HybridCiphertext) : kp.decapsulate P c.flipTop = kp.decapsulate P c :=
  decapsulate_congr rfl (x25519_shared_flipTop hX kp c)

/-- Ideal functions do not help: of the two ciphertexts there is one Kyber component
and one keying material. -/
theorem Platform.idealOn_flipTop (hX : P.X25519Standard) (kp : HybridKeyPair)
    (c : HybridCiphertext) : P.IdealOn kp {c, c.flipTop} where
  kyber := by
    rintro ct ⟨-, d, hd, rfl⟩ ct' ⟨-, d', hd', rfl⟩ -
    rcases hd with rfl | rfl <;> rcases hd' with rfl | rfl <;> rfl
  hkdf := by
    have hone : ∀ d ∈ ({c, c.flipTop} : Set HybridCiphertext), ∀ ikm,
        kp.KeyingMaterial P d ikm → kp.KeyingMaterial P c ikm := by
      rintro d (rfl | rfl) ikm h
      · exact h
      · obtain ⟨ks, hks, rfl⟩ := h
        exact ⟨ks, hks, by rw [HybridKeyPair.x25519_shared_flipTop hX]⟩
    rintro ikm ⟨d, hd, h⟩ ikm' ⟨d', hd', h'⟩ -
    obtain ⟨ks, hks, rfl⟩ := hone d hd ikm h
    obtain ⟨ls, hls, rfl⟩ := hone d' hd' ikm' h'
    rw [Outcome.ok.inj (hks.symm.trans hls)]

end Altered

/-! ## One such pair -/

namespace Sample

/-- `x25519-dalek`, with a generator of one byte. -/
def dalek : X25519 where
  staticFromBytes b := b
  randomStatic e := fill 32 (e 0)
  randomEphemeral e := fill 32 (e 0)
  publicKey s := ⟨Curve25519.x25519 s.val (9 :: List.replicate 31 0), Curve25519.length_x25519 _ _⟩
  diffieHellman s u := ⟨Curve25519.x25519 s.val u.val, Curve25519.length_x25519 _ _⟩

/-- A KDF that keeps the last byte. -/
def lastByte : Hkdf where
  new _ ikm := ikm
  expand prk _ n := if n ≤ 255 * 32 then some (fill n (prk.getLastD 0)) else none

end Sample

def curvePlatform : Platform :=
  { samplePlatform with x25519 := Sample.dalek, hkdf := Sample.lastByte }

namespace Sample

theorem curve_x25519Standard : curvePlatform.X25519Standard := fun _ _ => rfl

theorem curve_hkdfExpands : curvePlatform.HkdfExpands := by
  intro prk info
  have h32 : 32 ≤ 255 * 32 := by decide
  change (if 32 ≤ 255 * 32 then _ else none : Option (FixedArray UInt8 32)).isSome
  rw [if_pos h32]
  rfl

def curvePair : HybridKeyPair where
  x25519_secret := fill 32 1
  x25519_public := dalek.publicKey (fill 32 1)
  kyber := kemPair .Level1 2

theorem generate_curvePair :
    HybridKeyPair.generate curvePlatform .Level1 (fun _ => 1) (fun _ => 2) = ok curvePair := by
  have hkem : KemKeyPair.generate curvePlatform .Level1 (fun _ => 2) = ok (kemPair .Level1 2) :=
    generate_kemPair .Level1 2
  rw [HybridKeyPair.generate, hkem]
  rfl

/-- A ciphertext for the pair, of which the Kyber component is one byte. -/
def curveCiphertext (b : UInt8) : HybridCiphertext where
  x25519_ephemeral := fill 32 9
  kyber_ct := (fill 768 b).val

theorem decapsulate_curve_kyber (b : UInt8) :
    curvePair.kyber.decapsulate curvePlatform (fill 768 b).val = ok ⟨(fill 32 (b ^^^ 2)).val⟩ := by
  have h768 : 0 < 768 := by decide
  have hsk : 0 < (kemSizes .Level1).private_key := by decide
  have h := @KemKeyPair.decapsulate_keypair curvePlatform .Level1 (fun _ => 2)
    curvePair.kyber.inner.pk_bytes (fill 768 b)
  change _ = ok (SharedSecretKey.mk (fill 32 (byte (fill 768 b).val
    ^^^ byte (fill (kemSizes .Level1).private_key 2).val)).val) at h
  rwa [byte_fill h768, byte_fill hsk] at h

theorem hybridKdf_curve (x : Bytes) (b : UInt8) :
    curvePlatform.hybridKdf (x ++ (fill 32 b).val) = some (fill 32 b) := by
  have hne : (fill 32 b).val ≠ [] := List.cons_ne_nil b _
  have hlast : (x ++ (fill 32 b).val).getLastD 0 = b := by
    rw [List.getLastD_eq_getLast?, List.getLast?_append_of_ne_nil _ hne]
    rfl
  have h32 : 32 ≤ 255 * 32 := by decide
  change (if 32 ≤ 255 * 32 then some (fill 32 ((x ++ (fill 32 b).val).getLastD 0)) else none) = _
  rw [if_pos h32, hlast]

theorem decapsulate_curve (b : UInt8) :
    curvePair.decapsulate curvePlatform (curveCiphertext b) = ok (fill 32 (b ^^^ 2)).val :=
  HybridKeyPair.decapsulate_eq_ok.mpr
    ⟨_, _, ⟨_, decapsulate_curve_kyber b, rfl⟩, hybridKdf_curve _ _, rfl⟩

theorem fill_inj {n : ℕ} (hn : 0 < n) {a b : UInt8} (h : fill n a = fill n b) : a = b := by
  rw [← byte_fill hn a, h, byte_fill hn]

/-- The ciphertexts for the pair, altered or not. -/
def curveCiphertexts : Set HybridCiphertext :=
  {c | ∃ b, c = curveCiphertext b ∨ c = (curveCiphertext b).flipTop}

/-- What they are decapsulated from. -/
theorem mem_curveCiphertexts {c : HybridCiphertext} (h : c ∈ curveCiphertexts) :
    ∃ b, c.kyber_ct = (fill 768 b).val
      ∧ curvePair.x25519_shared curvePlatform c
        = curvePair.x25519_shared curvePlatform (curveCiphertext 0) := by
  obtain ⟨b, rfl | rfl⟩ := h
  · exact ⟨b, rfl, rfl⟩
  · refine ⟨b, rfl, ?_⟩
    rw [HybridKeyPair.x25519_shared_flipTop curve_x25519Standard]
    rfl

/-- On them the functions are ideal. -/
theorem curve_idealOn : curvePlatform.IdealOn curvePair curveCiphertexts where
  kyber := by
    rintro ct ⟨-, c, hc, rfl⟩ ct' ⟨-, d, hd, rfl⟩ heq
    obtain ⟨b, hb, -⟩ := mem_curveCiphertexts hc
    obtain ⟨b', hb', -⟩ := mem_curveCiphertexts hd
    rw [hb, hb', decapsulate_curve_kyber, decapsulate_curve_kyber] at heq
    have hbytes := congrArg SharedSecretKey.bytes (Outcome.ok.inj heq)
    have hxor := fill_inj (by decide) (FixedArray.ext hbytes)
    rw [hb, hb', (UInt8.xor_left_inj 2).mp hxor]
  hkdf := by
    have hform : ∀ c ∈ curveCiphertexts, ∀ ikm, curvePair.KeyingMaterial curvePlatform c ikm →
        ∃ b, ikm = (curvePair.x25519_shared curvePlatform (curveCiphertext 0)).val
          ++ (fill 32 b).val := by
      rintro c hc ikm ⟨ks, hks, rfl⟩
      obtain ⟨b, hb, hx⟩ := mem_curveCiphertexts hc
      rw [hb, decapsulate_curve_kyber] at hks
      exact ⟨b ^^^ 2, by rw [hx, ← Outcome.ok.inj hks]⟩
    rintro ikm ⟨c, hc, h⟩ ikm' ⟨d, hd, h'⟩ heq
    obtain ⟨b, rfl⟩ := hform c hc ikm h
    obtain ⟨b', rfl⟩ := hform d hd ikm' h'
    rw [hybridKdf_curve, hybridKdf_curve] at heq
    rw [Option.some.inj heq]

end Sample

open Sample in
/-- Flipping the bit keeps the secret, another Kyber component changes it. -/
theorem decapsulate_secret_eq_iff_sample :
    ∃ s t u, curvePair.decapsulate curvePlatform (curveCiphertext 3) = ok s
      ∧ curvePair.decapsulate curvePlatform (curveCiphertext 3).flipTop = ok t
      ∧ curvePair.decapsulate curvePlatform (curveCiphertext 4) = ok u ∧ s = t ∧ s ≠ u := by
  have hc := decapsulate_curve 3
  have hd := decapsulate_curve 4
  have hflip := (HybridKeyPair.decapsulate_flipTop curve_x25519Standard curvePair _).trans hc
  refine ⟨_, _, _, hc, hflip, hd, ?_, ?_⟩
  · refine (decapsulate_secret_eq_iff curve_idealOn ⟨3, .inl rfl⟩ ⟨3, .inr rfl⟩ hc hflip).mpr ?_
    exact ⟨rfl, (HybridKeyPair.x25519_shared_flipTop curve_x25519Standard _ _).symm⟩
  · intro heq
    have hct := ((decapsulate_secret_eq_iff curve_idealOn ⟨3, .inl rfl⟩ ⟨4, .inl rfl⟩ hc hd).mp
      heq).1
    exact absurd (fill_inj (by decide) (FixedArray.ext hct)) (by decide)

open Sample in
/-- A ciphertext altered in transit: the functions are ideal on it and on what it
was, the two encodings differ, and the generated pair recovers one secret. -/
theorem altered_ciphertext_same_secret :
    curvePlatform.X25519Standard ∧ curvePlatform.HkdfExpands
      ∧ HybridKeyPair.generate curvePlatform .Level1 (fun _ => 1) (fun _ => 2) = ok curvePair
      ∧ curvePlatform.IdealOn curvePair {curveCiphertext 3, (curveCiphertext 3).flipTop}
      ∧ (curveCiphertext 3).flipTop.to_hex ≠ (curveCiphertext 3).to_hex
      ∧ ∃ s, curvePair.decapsulate curvePlatform (curveCiphertext 3) = ok s
          ∧ curvePair.decapsulate curvePlatform (curveCiphertext 3).flipTop = ok s := by
  have hX := curve_x25519Standard
  have hs := decapsulate_curve 3
  refine ⟨hX, curve_hkdfExpands, generate_curvePair, Platform.idealOn_flipTop hX _ _,
    HybridCiphertext.to_hex_flipTop_ne _, _, hs, ?_⟩
  rw [HybridKeyPair.decapsulate_flipTop hX, hs]

end PqcVault
