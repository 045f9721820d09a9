/-
`Contribution.lean` -- a share that contributes nothing.

`diffie_hellman` is called on whatever 32 bytes the other side sent, and what it returns is
fed to `combine_secrets` as it is. On a coordinate of low order that is 32 zero bytes,
whichever secret was there; the exchange goes on, and what it agrees on is a function of
the Kyber secret alone. Both sides behave so: the holder of a pair with a ciphertext that
has such an ephemeral key, and the sender with a public key that has such a component.
-/
import PqcVault.Lib.LowOrder
import PqcVault.Malleability

set_option autoImplicit false

namespace PqcVault

open Rust Outcome

/-- 32 bytes that X25519 takes to no secret. -/
def IsLowOrderKey (u : FixedArray UInt8 32) : Prop :=
  Curve25519.IsLowOrder (Curve25519.decodeUCoordinate u.val : ZMod Curve25519.p)

/-- What `combine_secrets` makes of a Kyber secret and of no other. -/
def kyberOnly (P : Platform) (ks : SharedSecretKey) : Result Bytes :=
  combine_secrets P (List.replicate 32 0) ks.bytes

section Shares

variable {P : Platform}

theorem HybridCiphertext.from_hex_to_hex {c : HybridCiphertext} (hct : c.kyber_ct ≠ []) :
    from_hex c.to_hex = ok c := by
  have hlower : c.to_hex.toList.map Char.toLower = c.to_hex.toList := by
    rw [toList_to_hex, Hex.map_toLower_encode]
  have hback : from_hex (String.ofList ([] ++ c.to_hex.toList ++ [])) = ok c :=
    from_hex_padded hct (by simp) (by simp) hlower
  rwa [List.nil_append, List.append_nil, String.ofList_toList] at hback

theorem diffieHellman_of_lowOrder (hX : P.X25519Standard) (k : FixedArray UInt8 32)
    {u : FixedArray UInt8 32} (hu : IsLowOrderKey u) :
    (P.x25519.diffieHellman k u).val = List.replicate 32 0 := by
  rw [hX]
  exact Curve25519.x25519_of_lowOrder _ hu

theorem HybridKeyPair.decapsulate_of_lowOrder (hX : P.X25519Standard) {c : HybridCiphertext}
    (hc : IsLowOrderKey c.x25519_ephemeral) (kp : HybridKeyPair) :
    kp.decapsulate P c = kp.kyber.decapsulate P c.kyber_ct >>= kyberOnly P := by
  have hshared := diffieHellman_of_lowOrder hX (P.x25519.staticFromBytes kp.x25519_secret) hc
  simp only [decapsulate, hshared]
  rfl

theorem HybridKeyPair.encapsulate_of_lowOrder (hX : P.X25519Standard) {pk : HybridPublicKey}
    (hpk : IsLowOrderKey pk.x25519) {ex ek : Entropy} {ct : HybridCiphertext} {s : Bytes}
    (henc : HybridKeyPair.encapsulate P pk ex ek = ok (ct, s)) :
    ∃ ks, KemKeyPair.encapsulate P pk.kyber ek = ok (ct.kyber_ct, ks) ∧ kyberOnly P ks = ok s := by
  obtain ⟨ks, -, hkem, hcombine⟩ := encapsulate_eq_ok henc
  rw [diffieHellman_of_lowOrder hX _ hpk] at hcombine
  exact ⟨ks, hkem, hcombine⟩

/-- **A share of low order is accepted, and the secret is Kyber's.** A ciphertext with such
an ephemeral key passes the wire and is decapsulated to the same by all pairs with one Kyber
half, whatever their X25519 halves are; and a sender with a public key that has such a
component agrees on a secret that anyone has who has the Kyber secret. -/
theorem low_order_share (hX : P.X25519Standard) (hK : P.KyberSizes) (hH : P.HkdfExpands)
    {u : FixedArray UInt8 32} (hu : IsLowOrderKey u) :
    (∀ ct : Bytes, ct ≠ [] → HybridCiphertext.from_hex (HybridCiphertext.mk u ct).to_hex
        = ok (HybridCiphertext.mk u ct))
      ∧ (∀ (kp : HybridKeyPair) (ct : Bytes), kp.kyber.Fits →
        ct.length = kp.kyber.key_sizes.ciphertext →
          ∃ ks s, kp.kyber.decapsulate P ct = ok ks ∧ kyberOnly P ks = ok s
            ∧ ∀ kp' : HybridKeyPair, kp'.kyber = kp.kyber →
              kp'.decapsulate P (HybridCiphertext.mk u ct) = ok s)
      ∧ ∀ (kyber : KemPublicKey) (ex ek : Entropy), kyber.Fits →
        ∃ c ks s, HybridKeyPair.encapsulate P (HybridPublicKey.mk u kyber) ex ek = ok (c, s)
          ∧ KemKeyPair.encapsulate P kyber ek = ok (c.kyber_ct, ks) ∧ kyberOnly P ks = ok s := by
  refine ⟨fun ct hct => ?_, fun kp ct hkp hlen => ?_, fun kyber ex ek hfits => ?_⟩
  · exact HybridCiphertext.from_hex_to_hex hct
  · obtain ⟨ks, hks⟩ := (hkp.decapsulate hK ct).1 hlen
    obtain ⟨s, hs⟩ := combine_secrets_isOk hH (List.replicate 32 0) ks.bytes
    refine ⟨ks, s, hks, hs, fun kp' hkyber => ?_⟩
    rw [HybridKeyPair.decapsulate_of_lowOrder hX hu, hkyber, hks, bind_ok]
    exact hs
  · obtain ⟨⟨c, s⟩, henc⟩ :
        (HybridKeyPair.encapsulate P (HybridPublicKey.mk u kyber) ex ek).IsOk :=
      HybridKeyPair.encapsulate_isOk hK hH hfits ex ek
    obtain ⟨ks, hkem, hs⟩ := HybridKeyPair.encapsulate_of_lowOrder hX hu henc
    exact ⟨c, ks, s, henc, hkem, hs⟩

end Shares

namespace Sample

/-- The `u`-coordinate of a point of order 8. -/
def orderEight : FixedArray UInt8 32 where
  val := [0xe0, 0xeb, 0x7a, 0x7c, 0x3b, 0x41, 0xb8, 0xae, 0x16, 0x56, 0xe3, 0xfa, 0xf1, 0x9f, 0xc4,
    0x6a, 0xda, 0x09, 0x8d, 0xeb, 0x9c, 0x32, 0xb1, 0xfd, 0x86, 0x62, 0x05, 0x16, 0x5f, 0x49,
    0xb8, 0x00]
  length_val := rfl

theorem isLowOrderKey_orderEight : IsLowOrderKey orderEight := by
  refine .inr (.inr ⟨1, one_pow 2, ?_⟩)
  generalize hn : Curve25519.decodeUCoordinate orderEight.val = n
  -- The equation modulo the order of the field, with the difference moved over.
  have hmod : (n ^ 4 + 1) % Curve25519.p
      = (2 * n ^ 2 + 4 * n * (n ^ 2 + 486662 * n + 1)) % Curve25519.p := by
    rw [← hn]
    decide +kernel
  have hcast := (ZMod.natCast_eq_natCast_iff' _ _ _).mpr hmod
  push_cast at hcast
  linear_combination hcast

end Sample

open Sample in
/-- Two pairs with one Kyber half, and the point of order 8. -/
theorem low_order_share_sample :
    ∃ ks s, kyberOnly curvePlatform ks = ok s ∧ ∀ kp' : HybridKeyPair, kp'.kyber = curvePair.kyber →
      kp'.decapsulate curvePlatform (HybridCiphertext.mk orderEight (fill 768 3).val) = ok s := by
  have hsizes : curvePlatform.KyberSizes := kyberSizes
  have hfits : curvePair.kyber.Fits :=
    KemKeyPair.generate_fits hsizes (HybridKeyPair.generate_eq_ok generate_curvePair).2.2
  have hlen : (fill 768 (3 : UInt8)).val.length = curvePair.kyber.key_sizes.ciphertext := by
    rw [FixedArray.length_val]
    rfl
  obtain ⟨ks, s, -, hs, hall⟩ := (low_order_share curve_x25519Standard hsizes
    curve_hkdfExpands isLowOrderKey_orderEight).2.1 curvePair _ hfits hlen
  exact ⟨ks, s, hs, hall⟩

end PqcVault
