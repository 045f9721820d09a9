/-
`Wire.lean` -- public keys and ciphertexts that travel as text.

Two texts carry something from one party to another and may be touched on the
way: a PEM file, to which other blocks and prose are added, and the hex of a
hybrid ciphertext, which changes letter case and picks up whitespace. What the
receiver reads is what the sender wrote, and of the hex it reads nothing else.
-/
import PqcVault.Hybrid
import PqcVault.PemText
import PqcVault.Sample

set_option autoImplicit false

namespace PqcVault

open Rust Outcome

/-! ## Keys out of a file -/

/-- The first KEM key of a file. -/
def firstKem (keys : List (PublicKey × String)) : Option KemPublicKey :=
  keys.findSome? fun s => s.1.asKem

/-- The first DSA key of a file. -/
def firstDsa (keys : List (PublicKey × String)) : Option DsaPublicKey :=
  keys.findSome? fun s => s.1.asDsa

section Files

variable {P : Platform} {pre : String} {keys : List (PublicKey × String)}

theorem mem_of_firstKem {k : KemPublicKey} (h : firstKem keys = some k) :
    ∃ s ∈ keys, s.1 = .kem k := by
  obtain ⟨⟨key, post⟩, hs, hk⟩ := List.exists_of_findSome?_eq_some h
  refine ⟨(key, post), hs, ?_⟩
  cases key with
  | kem k' => exact congrArg PublicKey.kem (Option.some.inj hk)
  | dsa k' => exact absurd hk (by simp [PublicKey.asKem])

theorem mem_of_firstDsa {k : DsaPublicKey} (h : firstDsa keys = some k) :
    ∃ s ∈ keys, s.1 = .dsa k := by
  obtain ⟨⟨key, post⟩, hs, hk⟩ := List.exists_of_findSome?_eq_some h
  refine ⟨(key, post), hs, ?_⟩
  cases key with
  | kem k' => exact absurd hk (by simp [PublicKey.asDsa])
  | dsa k' => exact congrArg PublicKey.dsa (Option.some.inj hk)

/-- **Keys from a file of keys and prose**: each decoder returns the first key of
its kind, or an error where there is none. -/
theorem public_key_from_keyFile (P : Platform) (pre : String) (keys : List (PublicKey × String))
    (hpre : IsProse pre) (hkeys : ∀ s ∈ keys, s.1.Valid P ∧ IsProse s.2) :
    Returns (kem_public_key_from_pem P (keyFile pre keys)) (firstKem keys)
      ∧ Returns (dsa_public_key_from_pem P (keyFile pre keys)) (firstDsa keys) := by
  have hprose : ∀ s ∈ keys, IsProse s.2 := fun s hs => (hkeys s hs).2
  constructor
  · refine (decode_pem_keyFile_kem hpre hprose).bind fun k hfirst => ?_
    obtain ⟨s, hs, hk⟩ := mem_of_firstKem hfirst
    have hvalid : (PublicKey.kem k).Valid P := hk ▸ (hkeys s hs).1
    exact hvalid
  · refine (decode_pem_keyFile_dsa hpre hprose).bind fun k hfirst => ?_
    obtain ⟨s, hs, hk⟩ := mem_of_firstDsa hfirst
    have hvalid : (PublicKey.dsa k).Valid P := hk ▸ (hkeys s hs).1
    exact hvalid

end Files

/-- A file with a DSA key before two KEM keys. -/
def sampleKeys : List (PublicKey × String) :=
  [(.dsa (Sample.dsaPair .Level3 1).public_key, "and for Alice\n"),
    (.kem (Sample.kemPair .Level1 2).public_key, ""),
    (.kem (Sample.kemPair .Level5 3).public_key, "-----\n")]

theorem public_key_from_keyFile_sample :
    kem_public_key_from_pem samplePlatform (keyFile "Keys:\n" sampleKeys)
        = ok (Sample.kemPair .Level1 2).public_key
      ∧ dsa_public_key_from_pem samplePlatform (keyFile "Keys:\n" sampleKeys)
        = ok (Sample.dsaPair .Level3 1).public_key := by
  have hprose : ∀ t ∈ ["Keys:\n", "and for Alice\n", "", "-----\n"], IsProse t := by
    have hno : ∀ t ∈ ["Keys:\n", "and for Alice\n", "", "-----\n"],
        (t.toList = [] ∨ ['\n'] <:+ t.toList)
          ∧ ∀ pat ∈ markers, Str.contains t.toList pat = false := by decide
    intro t ht
    exact ⟨(hno t ht).1, fun pat hpat => Str.contains_eq_false.mp ((hno t ht).2 pat hpat)⟩
  have hkem : ∀ level b, (PublicKey.kem (Sample.kemPair level b).public_key).Valid samplePlatform :=
    fun level b => (Sample.kemPair_fits level b).valid Sample.kyberSizes
  have hdsa : ∀ level b, (PublicKey.dsa (Sample.dsaPair level b).public_key).Valid samplePlatform :=
    fun level b => (Sample.dsaPair_fits level b).valid Sample.dilithiumSizes
  apply public_key_from_keyFile samplePlatform "Keys:\n" sampleKeys (hprose _ (by simp))
  intro s hs
  simp only [sampleKeys, List.mem_cons, List.not_mem_nil, or_false] at hs
  rcases hs with rfl | rfl | rfl
  · exact ⟨hdsa _ _, hprose _ (by simp)⟩
  · exact ⟨hkem _ _, hprose _ (by simp)⟩
  · exact ⟨hkem _ _, hprose _ (by simp)⟩

/-! ## A hybrid exchange -/

section Exchange

variable {P : Platform}

/-- **A hybrid exchange over the wire**: whatever case and whitespace the text of
the ciphertext arrives in, the pair recovers the secret. -/
theorem hybrid_exchange_over_wire (hX : P.X25519Laws) (hK : P.KyberSizes) (hKC : P.KyberCorrect)
    {level : SecurityLevel} {ex ek ex' ek' : Entropy} {kp : HybridKeyPair}
    (hgen : HybridKeyPair.generate P level ex ek = ok kp) {ct : HybridCiphertext} {s : Bytes}
    (henc : HybridKeyPair.encapsulate P kp.public_key ex' ek' = ok (ct, s)) {w₁ t w₂ : List Char}
    (h₁ : ∀ c ∈ w₁, Str.isWhitespace c = true) (h₂ : ∀ c ∈ w₂, Str.isWhitespace c = true)
    (ht : t.map Char.toLower = ct.to_hex.toList) :
    ∃ ct' s', HybridCiphertext.from_hex (String.ofList (w₁ ++ t ++ w₂)) = ok ct'
      ∧ kp.decapsulate P ct' = ok s' ∧ s' = s ∧ s'.length = 32 := by
  have hct := HybridKeyPair.encapsulate_kyber_ct hK henc
  obtain ⟨_, -, -, hcomb⟩ := HybridKeyPair.encapsulate_eq_ok henc
  refine ⟨ct, s, HybridCiphertext.from_hex_padded hct h₁ h₂ ht, ?_, rfl, ?_⟩
  · exact HybridKeyPair.decapsulate_encapsulate hX hKC hgen henc
  · exact combine_secrets_length hcomb

end Exchange

/-- An exchange at the first level, with a blank before and a newline after. -/
theorem hybrid_exchange_over_wire_sample :
    ∃ kp ct s, HybridKeyPair.generate samplePlatform .Level1 (fun _ => 1) (fun _ => 2) = ok kp
      ∧ HybridKeyPair.encapsulate samplePlatform kp.public_key (fun _ => 3) (fun _ => 4) = ok (ct, s)
      ∧ ∃ ct' s', HybridCiphertext.from_hex (String.ofList ([' '] ++ ct.to_hex.toList ++ ['\n']))
          = ok ct'
        ∧ kp.decapsulate samplePlatform ct' = ok s' ∧ s' = s ∧ s'.length = 32 := by
  have hgen := Sample.generate_hybridPair .Level1 1 2
  have henc : (HybridKeyPair.encapsulate samplePlatform
      (Sample.hybridPair .Level1 1 2).public_key (fun _ => 3) (fun _ => 4)).IsOk :=
    HybridKeyPair.encapsulate_isOk Sample.kyberSizes Sample.hkdfExpands
      (Sample.kemPair_fits .Level1 2).public_key _ _
  obtain ⟨⟨ct, s⟩, henc⟩ := henc
  refine ⟨_, ct, s, hgen, henc, ?_⟩
  apply hybrid_exchange_over_wire Sample.x25519Laws Sample.kyberSizes Sample.kyberCorrect hgen henc
  · exact List.forall_mem_singleton.mpr (by decide)
  · exact List.forall_mem_singleton.mpr (by decide)
  · rw [HybridCiphertext.toList_to_hex, Hex.map_toLower_encode]

/-! ## The hex of a ciphertext

The text has no length prefix. What makes it one format is that the first
component always has 32 bytes and the second always has one at least, and that the
decoder asks for the second just as strictly. -/

/-- The ciphertexts there are: those a sender made and those a receiver read. -/
def HybridCiphertext.Obtainable (P : Platform) (c : HybridCiphertext) : Prop :=
  (∃ pk ex ek s, HybridKeyPair.encapsulate P pk ex ek = ok (c, s))
    ∨ ∃ s, HybridCiphertext.from_hex s = ok c

section Hex

variable {P : Platform}

theorem HybridCiphertext.Obtainable.kyber_ct_ne_nil (hK : P.KyberSizes) {c : HybridCiphertext}
    (h : c.Obtainable P) : c.kyber_ct ≠ [] := by
  rcases h with ⟨pk, ex, ek, s, henc⟩ | ⟨s, hs⟩
  · exact HybridKeyPair.encapsulate_kyber_ct hK henc
  · exact (HybridCiphertext.from_hex_eq_ok.mp hs).2

theorem HybridCiphertext.length_wire (c : HybridCiphertext) : c.wire.length = c.len := by
  rw [wire, List.length_append, FixedArray.length_val]
  rfl

/-- The text a ciphertext was read from has two digits for each of its bytes. -/
theorem HybridCiphertext.from_hex_length {s : String} {c : HybridCiphertext}
    (h : from_hex s = ok c) :
    (∀ x ∈ Str.trim s.toList, x ∈ Hex.digits) ∧ (Str.trim s.toList).length = 2 * c.len := by
  have hdec : Hex.decode (Str.trim s.toList) = .ok c.wire :=
    Hex.decode_eq_ok.mpr (from_hex_eq_ok.mp h).1
  exact Hex.decode_length_iff.mp ⟨c.wire, hdec, c.length_wire⟩

/-- **The hex codec is exact**: every ciphertext there is comes back from its hex,
in any letter case and amid any whitespace, and every text the decoder takes is
the hex of what it returned. -/
theorem hybrid_hex_exact (hK : P.KyberSizes) :
    (∀ (c : HybridCiphertext) (w₁ t w₂ : List Char), c.Obtainable P →
        (∀ x ∈ w₁, Str.isWhitespace x = true) → (∀ x ∈ w₂, Str.isWhitespace x = true) →
        t.map Char.toLower = c.to_hex.toList →
          ∃ d, HybridCiphertext.from_hex (String.ofList (w₁ ++ t ++ w₂)) = ok d
            ∧ d.x25519_ephemeral = c.x25519_ephemeral ∧ d.kyber_ct = c.kyber_ct)
      ∧ ∀ (s : String) (c : HybridCiphertext), HybridCiphertext.from_hex s = ok c →
          c.to_hex.toList = (Str.trim s.toList).map Char.toLower
            ∧ (∀ x ∈ Str.trim s.toList, x ∈ Hex.digits)
            ∧ (Str.trim s.toList).length = 2 * c.len := by
  constructor
  · intro c w₁ t w₂ hc h₁ h₂ ht
    exact ⟨c, HybridCiphertext.from_hex_padded (hc.kyber_ct_ne_nil hK) h₁ h₂ ht, rfl, rfl⟩
  · intro s c h
    have hhex := (HybridCiphertext.from_hex_eq_ok.mp h).1
    rw [HybridCiphertext.toList_to_hex]
    exact ⟨hhex.symm, HybridCiphertext.from_hex_length h⟩

/-- Upper case, behind a blank. -/
theorem hybrid_hex_exact_sample :
    ∃ c, HybridCiphertext.from_hex (String.ofList (' ' :: List.replicate 66 'A')) = ok c
      ∧ c.to_hex.toList = List.replicate 66 'a' ∧ c.len = 33 := by
  let c : HybridCiphertext := { x25519_ephemeral := Sample.fill 32 170, kyber_ct := [170] }
  have h : HybridCiphertext.from_hex (String.ofList (' ' :: List.replicate 66 'A')) = ok c := by
    decide +kernel
  obtain ⟨hhex, -, -⟩ := (hybrid_hex_exact Sample.kyberSizes).2 _ c h
  refine ⟨c, h, ?_, rfl⟩
  rw [hhex]
  decide +kernel

/-- **What a receiver accepts**: for a generated pair, exactly the texts whose trim
is hex of the one length that the level has. Every other text is the error
`InvalidCiphertext`, of the decoder or of decapsulation. -/
theorem received_hybrid_ciphertext (hK : P.KyberSizes) (hH : P.HkdfExpands)
    {level : SecurityLevel} {ex ek : Entropy} {kp : HybridKeyPair}
    (hgen : HybridKeyPair.generate P level ex ek = ok kp) (s : String) :
    ((HybridCiphertext.from_hex s >>= kp.decapsulate P).IsOk
        ↔ (∀ x ∈ Str.trim s.toList, x ∈ Hex.digits)
          ∧ (Str.trim s.toList).length = 2 * (32 + (kemSizes level).ciphertext))
      ∧ (¬ (HybridCiphertext.from_hex s >>= kp.decapsulate P).IsOk →
          ∃ msg, (HybridCiphertext.from_hex s >>= kp.decapsulate P)
            = err (.InvalidCiphertext msg)) := by
  obtain ⟨-, -, hkem⟩ := HybridKeyPair.generate_eq_ok hgen
  have hfits := KemKeyPair.generate_fits hK hkem
  have hsizes : kp.kyber.key_sizes = kemSizes level := by
    rw [KemKeyPair.generate_eq] at hkem
    rw [← Outcome.ok.inj hkem]
    rfl
  rcases HybridCiphertext.from_hex_cases s with ⟨c, hc⟩ | ⟨msg, hmsg⟩
  · -- The text was read, and the length of its Kyber component decides.
    obtain ⟨hdigits, hlen⟩ := HybridCiphertext.from_hex_length hc
    obtain ⟨hok, herr⟩ := HybridKeyPair.decapsulate_cases hK hH hfits c
    rw [hsizes] at hok herr
    have hclen : c.len = 32 + c.kyber_ct.length := rfl
    rw [hc, bind_ok]
    by_cases hct : c.kyber_ct.length = (kemSizes level).ciphertext
    · refine ⟨iff_of_true (hok hct) ⟨hdigits, by omega⟩, ?_⟩
      intro hno
      exact absurd (hok hct) hno
    · obtain ⟨msg, hmsg⟩ := herr hct
      rw [hmsg]
      refine ⟨iff_of_false (not_isOk_err _) ?_, fun _ => ⟨msg, rfl⟩⟩
      rintro ⟨-, hlen'⟩
      exact hct (by omega)
  · -- It was not, so it is no hex of more than 32 bytes.
    rw [hmsg, bind_err]
    refine ⟨iff_of_false (not_isOk_err _) ?_, fun _ => ⟨msg, rfl⟩⟩
    intro h
    obtain ⟨bs, hdec, hbs⟩ := Hex.decode_length_iff.mpr h
    have hpos := kemSizes_ciphertext_pos level
    obtain ⟨c, hc, -⟩ := HybridCiphertext.from_hex_of_decode hdec (by omega)
    rw [hmsg] at hc
    exact absurd hc (by simp)

end Hex

/-- The zeros of the right length, and a text that is not hex. -/
theorem received_hybrid_ciphertext_sample :
    (HybridCiphertext.from_hex (String.ofList (List.replicate 1600 '0'))
        >>= (Sample.hybridPair .Level1 1 2).decapsulate samplePlatform).IsOk
      ∧ ∃ msg, (HybridCiphertext.from_hex "zz"
          >>= (Sample.hybridPair .Level1 1 2).decapsulate samplePlatform)
        = err (.InvalidCiphertext msg) := by
  have h := received_hybrid_ciphertext Sample.kyberSizes Sample.hkdfExpands
    (Sample.generate_hybridPair .Level1 1 2)
  have hzero : ∀ c ∈ List.replicate 1600 '0', c = '0' := fun c hc => List.eq_of_mem_replicate hc
  have htrim : Str.trim (List.replicate 1600 '0') = List.replicate 1600 '0' := by
    apply Str.trim_self
    intro c hc
    rw [hzero c hc]
    decide
  constructor
  · refine (h _).1.mpr ?_
    rw [String.toList_ofList, htrim]
    refine ⟨?_, List.length_replicate⟩
    intro c hc
    rw [hzero c hc]
    decide
  · refine (h "zz").2 ?_
    rw [(h "zz").1]
    rintro ⟨-, hlen⟩
    exact absurd hlen (by decide)

end PqcVault
