/-
`Utils.lean` -- `utils.rs`, and the keys and secrets that go through it.

A public key is handed around as hex (`to_hex`) and taken in by decoding the text and
validating the bytes at a level (`from_hex`, `from_validated`). The two steps together accept
the spellings of the keys of that level and nothing else; the text does not say the level,
but no text is a key at two levels or of both kinds. What is refused by the first step is
refused with the first thing that is wrong with it. So two parties that send a public key and
a ciphertext as hex get one secret, which `ct_eq` and `==` find equal on both sides.
-/
import PqcVault.Exit
import PqcVault.Sealed

set_option autoImplicit false

namespace PqcVault

open Rust Outcome

def to_hex (bytes : Bytes) : String := String.ofList (Hex.encode bytes)

def from_hex (T : Texts) (s : String) : Result Bytes :=
  match Hex.decode s.toList with
  | .ok bytes => ok bytes
  | .error e => err (.HexDecodeError (T.hex e))

/-- `ct_eq`, over the `ct_eq` that `subtle` has for slices. -/
def ct_eq (sliceCtEq : Bytes → Bytes → Bool) (a b : Bytes) : Bool :=
  if a.length ≠ b.length then false else sliceCtEq a b

/-- `==` of shared secrets: the slices, as `subtle` compares them. -/
def SharedSecretKey.eq (sliceCtEq : Bytes → Bytes → Bool) (a b : SharedSecretKey) : Bool :=
  sliceCtEq a.bytes b.bytes

/-- The `Debug` of a shared secret. -/
def SharedSecretKey.debug (s : SharedSecretKey) : String :=
  "SharedSecretKey([redacted " ++ toString s.bytes.length ++ " bytes])"

def KemPublicKey.to_hex (k : KemPublicKey) : String := PqcVault.to_hex k.bytes

def DsaPublicKey.to_hex (k : DsaPublicKey) : String := PqcVault.to_hex k.bytes

section Comparison

variable {sliceCtEq : Bytes → Bytes → Bool}

/-- `ct_eq` is equality when `subtle` is right about slices of one length. -/
theorem ct_eq_iff (hsubtle : ∀ a b : Bytes, a.length = b.length → (sliceCtEq a b = true ↔ a = b))
    {a b : Bytes} : ct_eq sliceCtEq a b = true ↔ a = b := by
  rw [ct_eq]
  split_ifs with hlen
  · exact iff_of_false (by simp) fun h => hlen (congrArg List.length h)
  · exact hsubtle a b (not_not.mp hlen)

/-- `==` has no check of the lengths before it: it is `ct_eq` when `subtle` tells slices of
different lengths apart by itself. -/
theorem SharedSecretKey.eq_eq_ct_eq
    (hlengths : ∀ a b : Bytes, a.length ≠ b.length → sliceCtEq a b = false)
    (a b : SharedSecretKey) : a.eq sliceCtEq b = ct_eq sliceCtEq a.bytes b.bytes := by
  rw [ct_eq, SharedSecretKey.eq]
  split_ifs with hlen
  · exact hlengths _ _ hlen
  · rfl

/-- What `Debug` prints of a secret that a pair recovered is the same for every secret. -/
theorem SharedSecretKey.debug_decapsulate {P : Platform} (hK : P.KyberSizes) {kp kp' : KemKeyPair}
    {ct ct' : Bytes} {s s' : SharedSecretKey} (h : kp.decapsulate P ct = ok s)
    (h' : kp'.decapsulate P ct' = ok s') : s.debug = s'.debug := by
  have hlen : ∀ level, (P.kyber level).sharedSecretBytes = 32 := fun level =>
    (hK level).2.2.2.trans (kemSizes_shared_secret level)
  have hs : s.bytes.length = 32 := (KemKeyPair.decapsulate_secret_length h).trans (hlen _)
  have hs' : s'.bytes.length = 32 := (KemKeyPair.decapsulate_secret_length h').trans (hlen _)
  unfold SharedSecretKey.debug
  rw [hs, hs']

end Comparison

section Text

variable {P : Platform} {T : Texts} {s : String}

theorem from_hex_eq_ok {bytes : Bytes} : from_hex T s = ok bytes ↔ SpellsHex s (to_hex bytes) := by
  rw [to_hex, spellsHex_encode, from_hex]
  cases Hex.decode s.toList <;> simp

/-- What `to_hex` writes is a spelling of itself. -/
theorem spellsHex_to_hex (bytes : Bytes) : SpellsHex (to_hex bytes) (to_hex bytes) :=
  spellsHex_encode.mpr (by rw [to_hex, String.toList_ofList, Hex.decode_encode])

theorem from_hex_eq_err {e : PqcError} :
    from_hex T s = err e
      ↔ ∃ x, Hex.decode s.toList = .error x ∧ e = .HexDecodeError (T.hex x) := by
  rw [from_hex]
  cases Hex.decode s.toList with
  | ok bytes => simp
  | error x => simp [eq_comm]

/-- Either kind of key: `validate` is the check of the length, and the key has the bytes. -/
theorem from_hex_validated {K : Type} {validate : Bytes → Result K} {n : ℕ} {make : Bytes → K}
    (hvalidate : ∀ bytes k, validate bytes = ok k ↔ bytes.length = n ∧ k = make bytes) {k : K} :
    from_hex T s >>= validate = ok k
      ↔ ∃ bytes, SpellsHex s (to_hex bytes) ∧ bytes.length = n ∧ k = make bytes := by
  rw [bind_eq_ok]
  simp only [from_hex_eq_ok, hvalidate]

end Text

section Keys

variable {P : Platform} {T : Texts} {s : String}

/-- `from_hex`, then `KemPublicKey::from_validated`. -/
theorem from_hex_kem_eq_ok (hK : P.KyberSizes) {level : SecurityLevel} {k : KemPublicKey} :
    from_hex T s >>= KemPublicKey.from_validated P level = ok k
      ↔ SpellsHex s k.to_hex ∧ k.level = level ∧ k.Fits := by
  rw [from_hex_validated fun _ _ => KemPublicKey.from_validated_eq_ok, (hK level).1]
  constructor
  · rintro ⟨bytes, hs, hlen, rfl⟩
    exact ⟨hs, rfl, hlen⟩
  · rintro ⟨hs, rfl, hfits⟩
    exact ⟨k.bytes, hs, hfits, rfl⟩

/-- `from_hex`, then `DsaPublicKey::from_validated`. -/
theorem from_hex_dsa_eq_ok (hD : P.DilithiumSizes) {level : SecurityLevel} {k : DsaPublicKey} :
    from_hex T s >>= DsaPublicKey.from_validated P level = ok k
      ↔ SpellsHex s k.to_hex ∧ k.level = level ∧ k.Fits := by
  rw [from_hex_validated fun _ _ => DsaPublicKey.from_validated_eq_ok, (hD level).1]
  constructor
  · rintro ⟨bytes, hs, hlen, rfl⟩
    exact ⟨hs, rfl, hlen⟩
  · rintro ⟨hs, rfl, hfits⟩
    exact ⟨k.bytes, hs, hfits, rfl⟩

/-- A text spells the hex of one byte string at most. -/
theorem spellsHex_unique {bytes bytes' : Bytes} (h : SpellsHex s (to_hex bytes))
    (h' : SpellsHex s (to_hex bytes')) : bytes = bytes' :=
  Hex.encode_injective (String.ofList_injective (String.toList_injective (h.symm.trans h')))

/-- One text, one KEM key. -/
theorem from_hex_kem_unique (hK : P.KyberSizes) {level level' : SecurityLevel}
    {k k' : KemPublicKey} (h : from_hex T s >>= KemPublicKey.from_validated P level = ok k)
    (h' : from_hex T s >>= KemPublicKey.from_validated P level' = ok k') : k = k' := by
  obtain ⟨hs, -, hfits⟩ := (from_hex_kem_eq_ok hK).mp h
  obtain ⟨hs', -, hfits'⟩ := (from_hex_kem_eq_ok hK).mp h'
  have hbytes : k.bytes = k'.bytes := spellsHex_unique hs hs'
  have hlevel : k.level = k'.level :=
    kemSizes_public_key_injective (hfits.symm.trans ((congrArg List.length hbytes).trans hfits'))
  cases k
  cases k'
  congr

/-- One text, one DSA key. -/
theorem from_hex_dsa_unique (hD : P.DilithiumSizes) {level level' : SecurityLevel}
    {k k' : DsaPublicKey} (h : from_hex T s >>= DsaPublicKey.from_validated P level = ok k)
    (h' : from_hex T s >>= DsaPublicKey.from_validated P level' = ok k') : k = k' := by
  obtain ⟨hs, -, hfits⟩ := (from_hex_dsa_eq_ok hD).mp h
  obtain ⟨hs', -, hfits'⟩ := (from_hex_dsa_eq_ok hD).mp h'
  have hbytes : k.bytes = k'.bytes := spellsHex_unique hs hs'
  have hlevel : k.level = k'.level :=
    dsaSizes_public_key_injective (hfits.symm.trans ((congrArg List.length hbytes).trans hfits'))
  cases k
  cases k'
  congr

/-- No text is a key of both kinds. -/
theorem from_hex_kem_ne_dsa (hK : P.KyberSizes) (hD : P.DilithiumSizes)
    {level level' : SecurityLevel} {k : KemPublicKey} {k' : DsaPublicKey}
    (h : from_hex T s >>= KemPublicKey.from_validated P level = ok k) :
    from_hex T s >>= DsaPublicKey.from_validated P level' ≠ ok k' := by
  intro h'
  obtain ⟨hs, -, hfits⟩ := (from_hex_kem_eq_ok hK).mp h
  obtain ⟨hs', -, hfits'⟩ := (from_hex_dsa_eq_ok hD).mp h'
  have hbytes : k.bytes = k'.bytes := spellsHex_unique hs hs'
  exact kemSizes_ne_dsaSizes k.level k'.level
    (hfits.symm.trans ((congrArg List.length hbytes).trans hfits'))

end Keys

/-- **Two parties over hex**: whatever spelling of the public key arrives, it is the key, and
whatever spelling of the ciphertext comes back, the owner of the pair gets the sender's secret,
which both comparisons find equal. -/
theorem hex_exchange {P : Platform} (hK : P.KyberSizes) (hKC : P.KyberCorrect) {T : Texts}
    {sliceCtEq : Bytes → Bytes → Bool} (hsubtle : ∀ a b, sliceCtEq a b = true ↔ a = b)
    {level : SecurityLevel} {e : Entropy} {kp : KemKeyPair}
    (hgen : KemKeyPair.generate P level e = ok kp) {s : String}
    (hs : SpellsHex s kp.public_key.to_hex) (coins : Entropy) :
    from_hex T s >>= KemPublicKey.from_validated P level = ok kp.public_key
      ∧ ∃ ct sent, KemKeyPair.encapsulate P kp.public_key coins = ok (ct, sent)
        ∧ ∀ t, SpellsHex t (to_hex ct) →
          ∃ received, from_hex T t >>= kp.decapsulate P = ok received
            ∧ ct_eq sliceCtEq received.bytes sent.bytes = true
            ∧ received.eq sliceCtEq sent = true := by
  have hlevel : kp.public_key.level = level := by
    rw [KemKeyPair.generate_eq] at hgen
    rw [← Outcome.ok.inj hgen]
    rfl
  have hfits : kp.Fits := KemKeyPair.generate_fits hK hgen
  obtain ⟨ct, sent, henc, -, -⟩ :=
    KemPublicKey.Fits.encapsulate hK (k := kp.public_key) hfits.1 coins
  refine ⟨(from_hex_kem_eq_ok hK).mpr ⟨hs, hlevel, hfits.1⟩, ct, sent, henc, fun t ht => ?_⟩
  have hdec : kp.decapsulate P ct = ok sent :=
    (KemKeyPair.generate_matched hgen).decapsulate hKC henc
  refine ⟨sent, ?_, (ct_eq_iff fun a b _ => hsubtle a b).mpr rfl, (hsubtle _ _).mpr rfl⟩
  rw [from_hex_eq_ok.mpr ht, bind_ok, hdec]

open Sample in
/-- A pair of level 3, with slices compared as lists are. -/
theorem hex_exchange_sample :
    ∃ ct sent, KemKeyPair.encapsulate samplePlatform (kemPair .Level3 5).public_key (fun _ => 9)
        = ok (ct, sent)
      ∧ ∀ t, SpellsHex t (to_hex ct) →
        ∃ received, from_hex sampleTexts t >>= (kemPair .Level3 5).decapsulate samplePlatform
            = ok received
          ∧ ct_eq (fun a b => decide (a = b)) received.bytes sent.bytes = true
          ∧ received.eq (fun a b => decide (a = b)) sent = true :=
  (hex_exchange kyberSizes kyberCorrect (T := sampleTexts) (fun _ _ => decide_eq_true_iff)
    (generate_kemPair .Level3 5) (spellsHex_to_hex _) fun _ => 9).2

/-- **A public key as hex**: decoding and validating gives a key exactly on the spellings of
the hex of that key, a key of the level asked for; a text is one key at most, of one level
and one kind; and a text that does not decode is reported with what is wrong with it first. -/
theorem public_key_hex_exact {P : Platform} (hK : P.KyberSizes) (hD : P.DilithiumSizes) (T : Texts)
    (s : String) :
    (∀ level k, from_hex T s >>= KemPublicKey.from_validated P level = ok k
        ↔ SpellsHex s k.to_hex ∧ k.level = level ∧ k.Fits)
      ∧ (∀ level k, from_hex T s >>= DsaPublicKey.from_validated P level = ok k
        ↔ SpellsHex s k.to_hex ∧ k.level = level ∧ k.Fits)
      ∧ (∀ level k, from_hex T s >>= KemPublicKey.from_validated P level = ok k →
        (∀ level' k', from_hex T s >>= KemPublicKey.from_validated P level' = ok k' → k' = k)
          ∧ ∀ level' k', from_hex T s >>= DsaPublicKey.from_validated P level' ≠ ok k')
      ∧ (∀ level k, from_hex T s >>= DsaPublicKey.from_validated P level = ok k →
        ∀ level' k', from_hex T s >>= DsaPublicKey.from_validated P level' = ok k' → k' = k)
      ∧ ∀ e, from_hex T s = err e
        ↔ ∃ x, Hex.Malformed s.toList x ∧ e = .HexDecodeError (T.hex x) := by
  refine ⟨fun _ _ => from_hex_kem_eq_ok hK, fun _ _ => from_hex_dsa_eq_ok hD,
    fun level k h => ⟨fun level' k' h' => ?_, fun level' k' => ?_⟩, fun level k h level' k' h' => ?_,
    fun e => ?_⟩
  · exact from_hex_kem_unique hK h' h
  · exact from_hex_kem_ne_dsa hK hD h
  · exact from_hex_dsa_unique hD h' h
  · simp only [from_hex_eq_err, Hex.decode_eq_error]

open Sample in
/-- A key of level 3, read back from its hex. -/
theorem public_key_hex_exact_sample :
    from_hex sampleTexts (kemPair .Level3 5).public_key.to_hex
        >>= KemPublicKey.from_validated samplePlatform .Level3
      = ok (kemPair .Level3 5).public_key :=
  ((public_key_hex_exact kyberSizes dilithiumSizes sampleTexts _).1 .Level3 _).mpr
    ⟨spellsHex_to_hex _, rfl, (kemPair_fits .Level3 5).1⟩

end PqcVault
