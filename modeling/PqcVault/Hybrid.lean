/-
`Hybrid.lean` -- `hybrid.rs`: X25519 and ML-KEM combined through HKDF.

Two sides are written separately in the source and have to agree: `encapsulate`
builds a ciphertext from an ephemeral X25519 key and a Kyber ciphertext,
`decapsulate` takes one apart again, and each feeds its own two shared secrets
to `combine_secrets`. Between them stands the wire format, which is hex of the
two components back to back with the cut after byte 32.

`from_hex_eq_ok` is the whole reasoning interface of the format, and
`HybridKeyPair.decapsulate_encapsulate` that of the exchange.
-/
import PqcVault.Kem
import PqcVault.Lib.Hex

set_option autoImplicit false

namespace PqcVault

open Rust Outcome

/-! ## Types -/

/-- `b"pqc_vault hybrid v1"`. -/
def HKDF_INFO : Bytes :=
  [112, 113, 99, 95, 118, 97, 117, 108, 116, 32, 104, 121, 98, 114, 105, 100, 32, 118, 49]

def X25519_PUBLIC_KEY_LEN : ℕ := 32

/-- `HybridPublicKey`. -/
structure HybridPublicKey where
  x25519 : FixedArray UInt8 32
  kyber : KemPublicKey
  deriving DecidableEq

/-- `HybridCiphertext`. -/
@[ext] structure HybridCiphertext where
  x25519_ephemeral : FixedArray UInt8 32
  kyber_ct : Bytes
  deriving DecidableEq

/-- `HybridKeyPair`. -/
structure HybridKeyPair where
  x25519_secret : FixedArray UInt8 32
  x25519_public : FixedArray UInt8 32
  kyber : KemKeyPair
  deriving DecidableEq

def HybridPublicKey.x25519_bytes (k : HybridPublicKey) : Bytes := k.x25519.val

def HybridPublicKey.kyber_key (k : HybridPublicKey) : KemPublicKey := k.kyber

def HybridKeyPair.public_key (kp : HybridKeyPair) : HybridPublicKey :=
  { x25519 := kp.x25519_public, kyber := kp.kyber.public_key }

def HybridKeyPair.security_level (kp : HybridKeyPair) : SecurityLevel := kp.kyber.security_level

/-! ## The wire format -/

namespace HybridCiphertext

def to_hex (c : HybridCiphertext) : String :=
  String.ofList (Hex.encode c.x25519_ephemeral.val) ++ String.ofList (Hex.encode c.kyber_ct)

def from_hex (s : String) : Result HybridCiphertext := do
  let bytes ← match Hex.decode (Str.trim s.toList) with
    | .ok bytes => ok bytes
    | .error _ => err (.InvalidCiphertext "Invalid hex in HybridCiphertext")
  if bytes.length ≤ X25519_PUBLIC_KEY_LEN then
    err (.InvalidCiphertext "HybridCiphertext too short — missing Kyber component")
  else
    -- The length was checked, so neither slice panics and the conversion succeeds.
    let head ← slice bytes 0 X25519_PUBLIC_KEY_LEN
    let x25519_bytes ← fromBytes 32 (.InvalidCiphertext "Invalid X25519 component") head
    let kyber_ct ← slice bytes X25519_PUBLIC_KEY_LEN bytes.length
    pure { x25519_ephemeral := x25519_bytes, kyber_ct }

def len (c : HybridCiphertext) : ℕ := X25519_PUBLIC_KEY_LEN + c.kyber_ct.length

def is_empty (c : HybridCiphertext) : Bool := c.len = 0

end HybridCiphertext

/-! ## The exchange -/

section Functions

variable (P : Platform)

def combine_secrets (x25519 kyber : Bytes) : Result Bytes := do
  let ikm := x25519 ++ kyber
  let prk := P.hkdf.new none ikm
  let output ← okOr (P.hkdf.expand prk HKDF_INFO 32) (.Other "HKDF expand failed")
  pure output.val

/-- `HybridKeyPair::generate`. The two components draw their own randomness. -/
def HybridKeyPair.generate (level : SecurityLevel) (ex ek : Entropy) : Result HybridKeyPair := do
  let secret := P.x25519.randomStatic ex
  let pub := P.x25519.publicKey secret
  let kyber ← KemKeyPair.generate P level ek
  pure { x25519_secret := secret, x25519_public := pub, kyber }

/-- `HybridKeyPair::encapsulate`. -/
def HybridKeyPair.encapsulate (remote_pub : HybridPublicKey) (ex ek : Entropy) :
    Result (HybridCiphertext × Bytes) := do
  let ephemeral := P.x25519.randomEphemeral ex
  let ephemeral_pub := P.x25519.publicKey ephemeral
  let x25519_shared := P.x25519.diffieHellman ephemeral remote_pub.x25519
  let (kyber_ct, kyber_shared) ← KemKeyPair.encapsulate P remote_pub.kyber ek
  let combined ← combine_secrets P x25519_shared.val kyber_shared.bytes
  pure ({ x25519_ephemeral := ephemeral_pub, kyber_ct }, combined)

/-- `HybridKeyPair::decapsulate`. -/
def HybridKeyPair.decapsulate (kp : HybridKeyPair) (ct : HybridCiphertext) : Result Bytes := do
  let static_secret := P.x25519.staticFromBytes kp.x25519_secret
  let x25519_shared := P.x25519.diffieHellman static_secret ct.x25519_ephemeral
  let kyber_shared ← kp.kyber.decapsulate P ct.kyber_ct
  combine_secrets P x25519_shared.val kyber_shared.bytes

end Functions

/-! ## The format, exactly

The decoder takes whatever trims to the hex digits of more than 32 bytes, and
cuts after the 32nd. -/

namespace HybridCiphertext

/-- The bytes that go over the wire. -/
def wire (c : HybridCiphertext) : Bytes := c.x25519_ephemeral.val ++ c.kyber_ct

theorem toList_to_hex (c : HybridCiphertext) : c.to_hex.toList = Hex.encode c.wire := by
  rw [to_hex, String.toList_append, String.toList_ofList, String.toList_ofList, wire,
    Hex.encode_append]

/-- Past the hex, the decoder undoes `wire`. -/
theorem from_hex_of_decode {s : String} {bytes : Bytes}
    (h : Hex.decode (Str.trim s.toList) = .ok bytes) (hlen : 32 < bytes.length) :
    ∃ c, from_hex s = ok c ∧ c.wire = bytes ∧ c.kyber_ct ≠ [] := by
  have hhead : (bytes.take 32).length = 32 := by rw [List.length_take]; omega
  have hslice : (slice bytes 0 32 : Result Bytes) = ok (bytes.take 32) :=
    slice_eq_ok (by omega) (by omega)
  have hrest : (slice bytes 32 bytes.length : Result Bytes) = ok (bytes.drop 32) := by
    rw [slice_eq_ok (by omega) le_rfl, List.take_length]
  refine ⟨{ x25519_ephemeral := ⟨bytes.take 32, hhead⟩, kyber_ct := bytes.drop 32 }, ?_, ?_, ?_⟩
  · simp only [from_hex, h, X25519_PUBLIC_KEY_LEN, bind_ok, if_neg (Nat.not_le.mpr hlen), hslice,
      fromBytes_of_length hhead, hrest, pure_eq]
  · exact List.take_append_drop 32 bytes
  · intro hnil
    have hle := List.drop_eq_nil_iff.mp hnil
    omega

theorem wire_injective {c d : HybridCiphertext} (h : c.wire = d.wire) : c = d := by
  obtain ⟨hx, hk⟩ := List.append_inj h
    (c.x25519_ephemeral.length_val.trans d.x25519_ephemeral.length_val.symm)
  exact HybridCiphertext.ext (FixedArray.ext hx) hk

/-- **The decoder**: it accepts a text exactly when its trim is the hex of a
ciphertext with a Kyber component, in any letter case. -/
theorem from_hex_eq_ok {s : String} {c : HybridCiphertext} :
    from_hex s = ok c
      ↔ (Str.trim s.toList).map Char.toLower = Hex.encode c.wire ∧ c.kyber_ct ≠ [] := by
  constructor
  · intro h
    cases hd : Hex.decode (Str.trim s.toList) with
    | error e => simp [from_hex, hd] at h
    | ok bytes =>
        by_cases hlen : bytes.length ≤ 32
        · -- Too short for a Kyber component.
          simp [from_hex, hd, X25519_PUBLIC_KEY_LEN, hlen] at h
        · obtain ⟨d, hfrom, hwire, hct⟩ := from_hex_of_decode hd (by omega)
          obtain rfl : d = c := Outcome.ok.inj (hfrom.symm.trans h)
          rw [hwire]
          exact ⟨Hex.decode_eq_ok.mp hd, hct⟩
  · rintro ⟨hhex, hct⟩
    have hpos : c.kyber_ct.length ≠ 0 := fun h0 => hct (List.length_eq_zero_iff.mp h0)
    have hlen : 32 < c.wire.length := by
      rw [wire, List.length_append, FixedArray.length_val]
      omega
    obtain ⟨d, hfrom, hwire, -⟩ := from_hex_of_decode (Hex.decode_eq_ok.mpr hhex) hlen
    rw [hfrom, wire_injective hwire]

/-- What `to_hex` writes comes back, in any letter case and amid whitespace. -/
theorem from_hex_padded {c : HybridCiphertext} (hct : c.kyber_ct ≠ []) {w₁ t w₂ : List Char}
    (h₁ : ∀ x ∈ w₁, Str.isWhitespace x = true) (h₂ : ∀ x ∈ w₂, Str.isWhitespace x = true)
    (ht : t.map Char.toLower = c.to_hex.toList) :
    from_hex (String.ofList (w₁ ++ t ++ w₂)) = ok c := by
  rw [toList_to_hex] at ht
  rw [from_hex_eq_ok, String.toList_ofList, Str.trim_padded h₁ h₂ fun x hx =>
    Hex.isWhitespace_of_mem ht hx]
  exact ⟨ht, hct⟩

/-- The decoder returns, and its only error is `InvalidCiphertext`. -/
theorem from_hex_cases (s : String) :
    (∃ c, from_hex s = ok c) ∨ ∃ msg, from_hex s = err (.InvalidCiphertext msg) := by
  cases hd : Hex.decode (Str.trim s.toList) with
  | error e =>
      refine .inr ⟨"Invalid hex in HybridCiphertext", ?_⟩
      rw [from_hex, hd]
      rfl
  | ok bytes =>
      by_cases hlen : bytes.length ≤ 32
      · refine .inr ⟨"HybridCiphertext too short — missing Kyber component", ?_⟩
        rw [from_hex, hd]
        exact if_pos hlen
      · obtain ⟨c, hfrom, -⟩ := from_hex_of_decode hd (by omega)
        exact .inl ⟨c, hfrom⟩

end HybridCiphertext

/-! ## What is assumed of the crates -/

/-- Diffie-Hellman commutes, and a static secret rebuilt from the bytes it
stored is the same secret. -/
structure Platform.X25519Laws (P : Platform) : Prop where
  dh_comm : ∀ a b, P.x25519.diffieHellman a (P.x25519.publicKey b)
    = P.x25519.diffieHellman b (P.x25519.publicKey a)
  rebuild : ∀ e, P.x25519.staticFromBytes (P.x25519.randomStatic e) = P.x25519.randomStatic e

/-- HKDF-SHA256 can fill 32 bytes. -/
def Platform.HkdfExpands (P : Platform) : Prop := ∀ prk info, (P.hkdf.expand prk info 32).isSome

/-! ## The exchange, both sides -/

section Exchange

variable {P : Platform}

theorem combine_secrets_length {x25519 kyber out : Bytes}
    (h : combine_secrets P x25519 kyber = ok out) : out.length = 32 := by
  simp only [combine_secrets, bind_eq_ok, okOr_eq_ok, pure_eq, Outcome.ok.injEq] at h
  obtain ⟨a, -, rfl⟩ := h
  exact a.length_val

theorem combine_secrets_isOk (hP : P.HkdfExpands) (x25519 kyber : Bytes) :
    (combine_secrets P x25519 kyber).IsOk := by
  obtain ⟨out, hout⟩ := Option.isSome_iff_exists.mp
    (hP (P.hkdf.new none (x25519 ++ kyber)) HKDF_INFO)
  exact ⟨out.val, by simp only [combine_secrets, hout, okOr_some, bind_ok, pure_eq]⟩

/-- What a generated pair stores: the X25519 public half is that of the secret,
and the Kyber half is a generated pair. -/
theorem HybridKeyPair.generate_eq_ok {level : SecurityLevel} {ex ek : Entropy}
    {kp : HybridKeyPair} (h : HybridKeyPair.generate P level ex ek = ok kp) :
    kp.x25519_secret = P.x25519.randomStatic ex
      ∧ kp.x25519_public = P.x25519.publicKey (P.x25519.randomStatic ex)
      ∧ KemKeyPair.generate P level ek = ok kp.kyber := by
  simp only [HybridKeyPair.generate, bind_eq_ok, pure_eq, Outcome.ok.injEq] at h
  obtain ⟨k, hk, rfl⟩ := h
  exact ⟨rfl, rfl, hk⟩

/-- What an encapsulation is made of. -/
theorem HybridKeyPair.encapsulate_eq_ok {pk : HybridPublicKey} {ex ek : Entropy}
    {ct : HybridCiphertext} {s : Bytes} (h : HybridKeyPair.encapsulate P pk ex ek = ok (ct, s)) :
    ∃ ks, ct.x25519_ephemeral = P.x25519.publicKey (P.x25519.randomEphemeral ex)
      ∧ KemKeyPair.encapsulate P pk.kyber ek = ok (ct.kyber_ct, ks)
      ∧ combine_secrets P (P.x25519.diffieHellman (P.x25519.randomEphemeral ex) pk.x25519).val
          ks.bytes = ok s := by
  simp only [HybridKeyPair.encapsulate, bind_eq_ok, pure_eq, Outcome.ok.injEq,
    Prod.mk.injEq] at h
  obtain ⟨⟨kct, ks⟩, henc, s', hcomb, rfl, rfl⟩ := h
  exact ⟨ks, rfl, henc, hcomb⟩

/-- Encapsulation to a key that fits succeeds. -/
theorem HybridKeyPair.encapsulate_isOk (hK : P.KyberSizes) (hH : P.HkdfExpands)
    {pk : HybridPublicKey} (hpk : pk.kyber.Fits) (ex ek : Entropy) :
    (HybridKeyPair.encapsulate P pk ex ek).IsOk := by
  obtain ⟨kct, ks, henc, -⟩ := hpk.encapsulate hK ek
  obtain ⟨s, hs⟩ := combine_secrets_isOk hH
    (P.x25519.diffieHellman (P.x25519.randomEphemeral ex) pk.x25519).val ks.bytes
  simp only [HybridKeyPair.encapsulate, henc, hs, bind_ok, pure_eq]
  exact isOk_ok _

/-- **The exchange**: whatever was encapsulated to a generated pair, the pair
recovers. -/
theorem HybridKeyPair.decapsulate_encapsulate (hX : P.X25519Laws) (hK : P.KyberCorrect)
    {level : SecurityLevel} {ex ek ex' ek' : Entropy} {kp : HybridKeyPair}
    (hgen : HybridKeyPair.generate P level ex ek = ok kp) {ct : HybridCiphertext} {s : Bytes}
    (henc : HybridKeyPair.encapsulate P kp.public_key ex' ek' = ok (ct, s)) :
    kp.decapsulate P ct = ok s := by
  obtain ⟨hsec, hpub, hkem⟩ := generate_eq_ok hgen
  obtain ⟨ks, heph, hkenc, hcomb⟩ := encapsulate_eq_ok henc
  have hkdec : kp.kyber.decapsulate P ct.kyber_ct = ok ks :=
    (KemKeyPair.generate_matched hkem).decapsulate hK hkenc
  -- The two sides compute the same X25519 secret from opposite halves.
  have hdh : P.x25519.diffieHellman (P.x25519.staticFromBytes kp.x25519_secret)
        ct.x25519_ephemeral
      = P.x25519.diffieHellman (P.x25519.randomEphemeral ex') kp.public_key.x25519 := by
    calc
      _ = P.x25519.diffieHellman (P.x25519.randomStatic ex)
            (P.x25519.publicKey (P.x25519.randomEphemeral ex')) := by
          rw [hsec, hX.rebuild, heph]
      _ = P.x25519.diffieHellman (P.x25519.randomEphemeral ex')
            (P.x25519.publicKey (P.x25519.randomStatic ex)) := hX.dh_comm _ _
      _ = _ := by rw [← hpub]; rfl
  simp only [HybridKeyPair.decapsulate, hdh, hkdec, bind_ok, hcomb]

/-- Decapsulation with a pair that fits fails on the ciphertexts whose Kyber
component has another length, and on no others. -/
theorem HybridKeyPair.decapsulate_cases (hK : P.KyberSizes) (hH : P.HkdfExpands)
    {kp : HybridKeyPair} (hkp : kp.kyber.Fits) (ct : HybridCiphertext) :
    (ct.kyber_ct.length = kp.kyber.key_sizes.ciphertext → (kp.decapsulate P ct).IsOk)
      ∧ (ct.kyber_ct.length ≠ kp.kyber.key_sizes.ciphertext →
          ∃ msg, kp.decapsulate P ct = err (.InvalidCiphertext msg)) := by
  obtain ⟨hfit, hother⟩ := hkp.decapsulate hK ct.kyber_ct
  constructor
  · intro hlen
    obtain ⟨ks, hks⟩ := hfit hlen
    rw [decapsulate, hks, bind_ok]
    exact combine_secrets_isOk hH _ _
  · intro hlen
    obtain ⟨msg, hmsg⟩ := hother hlen
    refine ⟨msg, ?_⟩
    rw [decapsulate, hmsg, bind_err]

/-- The Kyber component of an encapsulation is there. -/
theorem HybridKeyPair.encapsulate_kyber_ct (hP : P.KyberSizes) {pk : HybridPublicKey}
    {ex ek : Entropy} {ct : HybridCiphertext} {s : Bytes}
    (henc : HybridKeyPair.encapsulate P pk ex ek = ok (ct, s)) : ct.kyber_ct ≠ [] := by
  obtain ⟨ks, -, hkenc, -⟩ := encapsulate_eq_ok henc
  have hlen := KemKeyPair.encapsulate_length hkenc
  rw [(hP _).2.2.1] at hlen
  intro hnil
  rw [hnil] at hlen
  exact absurd hlen (kemSizes_ciphertext_pos _).ne

end Exchange

end PqcVault
