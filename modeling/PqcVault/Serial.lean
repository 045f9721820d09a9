/-
`Serial.lean` -- `EncryptedKeyBundle` of `serial.rs`: sealing a key pair under a
passphrase, and opening a bundle again.

A bundle is a JSON object of six fields. Three of them (`version`, `kind`,
`level`) are in the clear and outside the AEAD; the other three are hex. Opening
a bundle checks the clear fields one after the other, decodes the three hex
fields, derives the key, decrypts, cuts the plaintext and hands the halves to
`from_bytes`. Everything up to the plaintext is the same for both kinds of key
and is `open_bundle`; the two `unseal` functions differ in the kind they ask for
and in what they restore.

The derived `Serialize` and `Deserialize` of `BundleJson` are written out over
JSON documents: six fields in declaration order on the way out; on the way in an
object with unknown keys ignored and repeated ones refused, or an array of the
six values.
-/
import PqcVault.Lib.Hex
import PqcVault.Plaintext

set_option autoImplicit false

namespace PqcVault

open Rust Outcome

/-! ## Levels as numbers -/

def level_to_u8 : SecurityLevel → UInt8
  | .Level1 => 1
  | .Level3 => 3
  | .Level5 => 5

def u8_to_level (n : UInt8) : Result SecurityLevel :=
  if n = 1 then ok .Level1
  else if n = 3 then ok .Level3
  else if n = 5 then ok .Level5
  else err (.Other ("Unknown security level: " ++ toString n.toNat))

@[simp] theorem u8_to_level_to_u8 (level : SecurityLevel) :
    u8_to_level (level_to_u8 level) = ok level := by
  cases level <;> rfl

theorem u8_to_level_eq_ok {n : UInt8} {level : SecurityLevel} :
    u8_to_level n = ok level ↔ n = level_to_u8 level := by
  constructor
  · intro h
    unfold u8_to_level at h
    split_ifs at h with h1 h3 h5
    · rw [← Outcome.ok.inj h]
      exact h1
    · rw [← Outcome.ok.inj h]
      exact h3
    · rw [← Outcome.ok.inj h]
      exact h5
  · rintro rfl
    exact u8_to_level_to_u8 level

theorem u8_to_level_noPanic (n : UInt8) : (u8_to_level n).NoPanic := by
  unfold u8_to_level
  split_ifs <;> simp

/-! ## The bundle as JSON -/

/-- `BundleJson`. -/
structure BundleJson where
  version : UInt8
  kind : String
  level : UInt8
  salt : String
  nonce : String
  ciphertext : String
  deriving DecidableEq

def BUNDLE_VERSION : UInt8 := 1

namespace BundleJson

/-- The derived `Serialize`. -/
def serialize (b : BundleJson) : Json :=
  .obj [("version", .int b.version.toNat), ("kind", .str b.kind), ("level", .int b.level.toNat),
    ("salt", .str b.salt), ("nonce", .str b.nonce), ("ciphertext", .str b.ciphertext)]

/-- A JSON number read as `u8`. -/
def readU8 : Json → Option UInt8
  | .int i => if 0 ≤ i ∧ i ≤ 255 then some (UInt8.ofNat i.toNat) else none
  | _ => none

/-- A JSON string read as `String`. -/
def readString : Json → Option String
  | .str s => some s
  | _ => none

/-- The fields read so far. -/
structure Fields where
  version : Option UInt8 := none
  kind : Option String := none
  level : Option UInt8 := none
  salt : Option String := none
  nonce : Option String := none
  ciphertext : Option String := none

/-- Setting a field that is set already is the error `duplicate field`. -/
def setField {α : Type} (old : Option α) (read : Option α) : Option (Option α) :=
  match old with
  | some _ => none
  | none => read.map some

/-- One member of an object. -/
def visit (f : Fields) (m : String × Json) : Option Fields :=
  if m.1 = "version" then
    (setField f.version (readU8 m.2)).map fun v => { f with version := v }
  else if m.1 = "kind" then
    (setField f.kind (readString m.2)).map fun v => { f with kind := v }
  else if m.1 = "level" then
    (setField f.level (readU8 m.2)).map fun v => { f with level := v }
  else if m.1 = "salt" then
    (setField f.salt (readString m.2)).map fun v => { f with salt := v }
  else if m.1 = "nonce" then
    (setField f.nonce (readString m.2)).map fun v => { f with nonce := v }
  else if m.1 = "ciphertext" then
    (setField f.ciphertext (readString m.2)).map fun v => { f with ciphertext := v }
  -- `BundleJson` has no `deny_unknown_fields`.
  else some f

/-- Six fields present, or the error `missing field`. -/
def Fields.finish (f : Fields) : Option BundleJson := do
  let version ← f.version
  let kind ← f.kind
  let level ← f.level
  let salt ← f.salt
  let nonce ← f.nonce
  let ciphertext ← f.ciphertext
  pure { version, kind, level, salt, nonce, ciphertext }

/-- The derived `Deserialize`. -/
def deserialize : Json → Option BundleJson
  | .obj members => (members.foldlM visit {}).bind Fields.finish
  | .arr [v, k, l, s, n, c] =>
      Fields.finish { version := readU8 v, kind := readString k, level := readU8 l,
                      salt := readString s, nonce := readString n, ciphertext := readString c }
  | _ => none

@[simp] theorem readU8_int (n : UInt8) : readU8 (.int n.toNat) = some n := by
  have hlt := n.toNat_lt
  rw [readU8, if_pos ⟨by omega, by omega⟩, Int.toNat_natCast, UInt8.ofNat_toNat]

/-- A bundle that was serialised reads back as itself. -/
theorem deserialize_serialize (b : BundleJson) : deserialize b.serialize = some b := by
  simp [deserialize, serialize, visit, setField, readString, Fields.finish]

end BundleJson

/-- `EncryptedKeyBundle`. -/
structure EncryptedKeyBundle where
  inner : BundleJson
  deriving DecidableEq

namespace EncryptedKeyBundle

def version (b : EncryptedKeyBundle) : UInt8 := b.inner.version

def kind (b : EncryptedKeyBundle) : String := b.inner.kind

def level (b : EncryptedKeyBundle) : UInt8 := b.inner.level

def to_json (P : Platform) (b : EncryptedKeyBundle) : String :=
  P.serdeJson.toString b.inner.serialize

def from_json (P : Platform) (s : String) : Result EncryptedKeyBundle :=
  match (P.serdeJson.fromStr s).bind BundleJson.deserialize with
  | some inner => ok { inner }
  | none => err (.Other ("Invalid bundle JSON: " ++ P.serdeJson.errorText s))

end EncryptedKeyBundle

/-! ## The crypto helpers -/

section Functions

variable (P : Platform)

def derive_key (passphrase salt : Bytes) : Result Bytes := do
  -- 64 MiB, three passes, four lanes, a key of 32 bytes.
  let params ← okOr (P.argon2.newParams (64 * 1024) 3 4 (some 32)) (.Other "Argon2 params error")
  let key ← okOr (P.argon2.hashPasswordInto params passphrase salt 32) (.Other "Argon2 KDF failed")
  pure key.val

/-- `encrypt`, with the salt and the nonce that `fill_bytes` drew. -/
def encrypt (plaintext passphrase : Bytes) (salt : FixedArray UInt8 16)
    (nonce : FixedArray UInt8 12) : Result (String × String × String) := do
  let aes_key ← derive_key P passphrase salt.val
  -- Neither conversion can panic here: both arrays have their length.
  let key ← FixedArray.fromSlice 32 aes_key
  let nonce' ← FixedArray.fromSlice 12 nonce.val
  let ct ← okOr (P.aes.encrypt key nonce' plaintext) (.Other "Encryption failed")
  pure (String.ofList (Hex.encode salt.val), String.ofList (Hex.encode nonce.val),
    String.ofList (Hex.encode ct))

/-- `hex::decode` of a field, with the error its failure is replaced by. -/
def hexField (s msg : String) : Result Bytes :=
  match Hex.decode s.toList with
  | .ok bytes => ok bytes
  | .error _ => err (.Other msg)

def decrypt (bundle : BundleJson) (passphrase : Bytes) : Result Bytes := do
  let salt ← hexField bundle.salt "Invalid salt encoding"
  let nonce ← hexField bundle.nonce "Invalid nonce encoding"
  let ct ← hexField bundle.ciphertext "Invalid ciphertext encoding"
  let aes_key ← derive_key P passphrase salt
  let key ← FixedArray.fromSlice 32 aes_key
  -- `Nonce::from_slice` does not return a `Result`: another length than 12 is a panic.
  let nonce ← FixedArray.fromSlice 12 nonce
  okOr (P.aes.decrypt key nonce ct)
    (.Other "Decryption failed — wrong passphrase or corrupted bundle")

/-! ## Sealing and opening -/

/-- The bundle both `seal` functions build. -/
def seal_plaintext (kind : String) (level : SecurityLevel) (plaintext passphrase : Bytes)
    (salt : FixedArray UInt8 16) (nonce : FixedArray UInt8 12) : Result EncryptedKeyBundle := do
  let (salt, nonce, ct) ← encrypt P plaintext passphrase salt nonce
  pure { inner := { version := BUNDLE_VERSION, kind := kind, level := level_to_u8 level,
                    salt := salt, nonce := nonce, ciphertext := ct } }

def EncryptedKeyBundle.seal_kem (kp : KemKeyPair) (passphrase : Bytes)
    (salt : FixedArray UInt8 16) (nonce : FixedArray UInt8 12) : Result EncryptedKeyBundle := do
  let data ← kp.export
  seal_plaintext P "kem" data.level (encode_kem_plaintext data) passphrase salt nonce

def EncryptedKeyBundle.seal_dsa (kp : DsaKeyPair) (passphrase : Bytes)
    (salt : FixedArray UInt8 16) (nonce : FixedArray UInt8 12) : Result EncryptedKeyBundle := do
  let data ← kp.export
  seal_plaintext P "dsa" data.level (encode_dsa_plaintext data) passphrase salt nonce

/-- What both `unseal` functions do before the plaintext is cut: kind, version,
level, decryption, in this order. -/
def open_bundle (kind notKind : String) (b : BundleJson) (passphrase : Bytes) :
    Result (SecurityLevel × Bytes) := do
  if b.kind ≠ kind then
    err (.Other notKind)
  else if b.version ≠ BUNDLE_VERSION then
    err (.Other ("Unsupported bundle version: " ++ toString b.version.toNat ++ ". Expected "
      ++ toString BUNDLE_VERSION.toNat ++ "."))
  else
    let level ← u8_to_level b.level
    let plaintext ← decrypt P b passphrase
    pure (level, plaintext)

def EncryptedKeyBundle.unseal_kem (b : EncryptedKeyBundle) (passphrase : Bytes) :
    Result KemKeyPair := do
  let (level, plaintext) ← open_bundle P "kem" "Bundle is not a KEM key" b.inner passphrase
  let data ← decode_kem_plaintext P level plaintext
  data.into_keypair P

def EncryptedKeyBundle.unseal_dsa (b : EncryptedKeyBundle) (passphrase : Bytes) :
    Result DsaKeyPair := do
  let (level, plaintext) ← open_bundle P "dsa" "Bundle is not a DSA key" b.inner passphrase
  let data ← decode_dsa_plaintext P level plaintext
  data.into_keypair P

end Functions

/-! ## What is assumed of the crates -/

/-- AES-256-GCM decryption undoes encryption under the same key and nonce. -/
def Platform.AeadRoundTrip (P : Platform) : Prop := ∀ key nonce pt ct,
  P.aes.encrypt key nonce pt = some ct → P.aes.decrypt key nonce ct = some pt

/-- AES-256-GCM encrypts any plaintext within its length limit. -/
def Platform.AeadEncrypts (P : Platform) : Prop := ∀ key nonce pt,
  pt.length ≤ 2 ^ 36 - 32 → (P.aes.encrypt key nonce pt).isSome

/-- `serde_json` parses what it printed for a bundle. -/
def Platform.SerdeRoundTrip (P : Platform) : Prop := ∀ b : BundleJson,
  P.serdeJson.fromStr (P.serdeJson.toString b.serialize) = some b.serialize

/-- In the text `serde_json` prints for a bundle, a dash comes from one of the
strings: field names, numbers and punctuation have none. -/
def Platform.SerdePlain (P : Platform) : Prop := ∀ b : BundleJson,
  '-' ∈ (P.serdeJson.toString b.serialize).toList →
    '-' ∈ b.kind.toList ∨ '-' ∈ b.salt.toList ∨ '-' ∈ b.nonce.toList ∨ '-' ∈ b.ciphertext.toList

/-- A text that starts with two dashes is not JSON. -/
def Platform.SerdeRejectsDashes (P : Platform) : Prop := ∀ s : String,
  ['-', '-'] <+: s.toList → P.serdeJson.fromStr s = none

/-- The lengths `argon2` takes: at most `2 ^ 32 - 1` bytes of password, and
between 8 and `2 ^ 32 - 1` bytes of salt. -/
def Argon2Lengths (passphrase salt : Bytes) : Prop :=
  passphrase.length ≤ 2 ^ 32 - 1 ∧ 8 ≤ salt.length ∧ salt.length ≤ 2 ^ 32 - 1

/-- `argon2` takes the crate's parameters, and then exactly those lengths. -/
def Platform.Argon2Limits (P : Platform) : Prop :=
  ∃ params, P.argon2.newParams (64 * 1024) 3 4 (some 32) = some params
    ∧ ∀ passphrase salt,
        (P.argon2.hashPasswordInto params passphrase salt 32).isSome
          ↔ Argon2Lengths passphrase salt

/-! ## The helpers, as their cases -/

section Helpers

variable {P : Platform}

theorem hexField_eq_ok {s msg : String} {bytes : Bytes} :
    hexField s msg = ok bytes ↔ Hex.decode s.toList = .ok bytes := by
  unfold hexField
  cases Hex.decode s.toList <;> simp

theorem hexField_noPanic (s msg : String) : (hexField s msg).NoPanic := by
  unfold hexField
  cases Hex.decode s.toList <;> simp

@[simp] theorem hexField_encode (bytes : Bytes) (msg : String) :
    hexField (String.ofList (Hex.encode bytes)) msg = ok bytes :=
  hexField_eq_ok.mpr (by rw [String.toList_ofList, Hex.decode_encode])

theorem derive_key_noPanic (passphrase salt : Bytes) :
    (derive_key P passphrase salt).NoPanic := by
  simp [derive_key, noPanic_bind]

/-- The derived key always has the 32 bytes the cipher wants. -/
theorem derive_key_length {passphrase salt key : Bytes}
    (h : derive_key P passphrase salt = ok key) : key.length = 32 := by
  simp only [derive_key, bind_eq_ok, okOr_eq_ok, pure_eq, Outcome.ok.injEq] at h
  obtain ⟨params, -, k, -, rfl⟩ := h
  exact k.length_val

theorem derive_key_isOk (hP : P.Argon2Limits) (passphrase salt : Bytes) :
    (derive_key P passphrase salt).IsOk ↔ Argon2Lengths passphrase salt := by
  obtain ⟨params, hnew, hlim⟩ := hP
  rw [derive_key, hnew, okOr_some, bind_ok, ← hlim]
  cases P.argon2.hashPasswordInto params passphrase salt 32 <;> simp

/-- Decryption of what was encrypted under the same passphrase. -/
theorem decrypt_encrypt (hP : P.AeadRoundTrip) {plaintext passphrase : Bytes}
    {salt : FixedArray UInt8 16} {nonce : FixedArray UInt8 12} {s n c : String}
    (h : encrypt P plaintext passphrase salt nonce = ok (s, n, c)) {b : BundleJson}
    (hs : b.salt = s) (hn : b.nonce = n) (hc : b.ciphertext = c) :
    decrypt P b passphrase = ok plaintext := by
  simp only [encrypt, bind_eq_ok, okOr_eq_ok, pure_eq, Outcome.ok.injEq, Prod.mk.injEq] at h
  obtain ⟨aes_key, hkey, key, hfrom, nonce', hnonce, ct, hct, rfl, rfl, rfl⟩ := h
  rw [FixedArray.fromSlice_val] at hnonce
  obtain rfl := Outcome.ok.inj hnonce
  simp only [decrypt, hs, hn, hc, hexField_encode, bind_ok, hkey, hfrom, FixedArray.fromSlice_val,
    hP _ _ _ _ hct, okOr_some]

/-- The fields of a bundle are hex, and under the key of the passphrase its
ciphertext authenticates as this plaintext. -/
def AuthenticPlaintext (P : Platform) (b : BundleJson) (passphrase plaintext : Bytes) : Prop :=
  ∃ salt ct params, ∃ nonce : FixedArray UInt8 12, ∃ key : FixedArray UInt8 32,
    Hex.decode b.salt.toList = .ok salt ∧ Hex.decode b.nonce.toList = .ok nonce.val
      ∧ Hex.decode b.ciphertext.toList = .ok ct
      ∧ P.argon2.newParams (64 * 1024) 3 4 (some 32) = some params
      ∧ P.argon2.hashPasswordInto params passphrase salt 32 = some key
      ∧ P.aes.decrypt key nonce ct = some plaintext

/-- Decryption returns the authentic plaintexts and nothing else. -/
theorem decrypt_eq_ok {b : BundleJson} {passphrase plaintext : Bytes} :
    decrypt P b passphrase = ok plaintext ↔ AuthenticPlaintext P b passphrase plaintext := by
  constructor
  · intro h
    simp only [decrypt, derive_key, bind_eq_ok, hexField_eq_ok, okOr_eq_ok, pure_eq,
      Outcome.ok.injEq] at h
    obtain ⟨salt, hs, n, hn, ct, hc, _, ⟨params, hp, key, hkey, rfl⟩, key', hfrom, nonce, hnonce,
      hdec⟩ := h
    rw [FixedArray.fromSlice_val] at hfrom
    obtain rfl := Outcome.ok.inj hfrom
    obtain rfl := FixedArray.fromSlice_eq_ok.mp hnonce
    exact ⟨salt, ct, params, nonce, key, hs, hn, hc, hp, hkey, hdec⟩
  · rintro ⟨salt, ct, params, nonce, key, hs, hn, hc, hp, hkey, hdec⟩
    simp only [decrypt, derive_key, hexField, hs, hn, hc, hp, hkey, okOr_some, bind_ok, pure_eq,
      FixedArray.fromSlice_val, hdec]

/-- **Where decryption panics**: all three fields are hex, the key can be
derived, and the nonce has another length than 12. -/
theorem decrypt_noPanic (hP : P.Argon2Limits) (b : BundleJson) (passphrase : Bytes) :
    (decrypt P b passphrase).NoPanic ↔
      ∀ salt nonce ct, Hex.decode b.salt.toList = .ok salt → Hex.decode b.nonce.toList = .ok nonce →
        Hex.decode b.ciphertext.toList = .ok ct → Argon2Lengths passphrase salt →
          nonce.length = 12 := by
  simp only [decrypt, noPanic_bind, hexField_noPanic, hexField_eq_ok, derive_key_noPanic, true_and,
    FixedArray.noPanic_fromSlice, noPanic_okOr, implies_true, and_true]
  constructor
  · -- The lengths let the key be derived, so the nonce is reached.
    intro h salt nonce ct hs hn hc hlim
    obtain ⟨key, hkey⟩ := (derive_key_isOk hP passphrase salt).mpr hlim
    have hlen := derive_key_length hkey
    exact (h salt hs nonce hn ct hc key hkey).2 _ (FixedArray.fromSlice_of_length hlen)
  · intro h salt hs nonce hn ct hc key hkey
    exact ⟨derive_key_length hkey, fun _ _ =>
      h salt nonce ct hs hn hc ((derive_key_isOk hP passphrase salt).mp ⟨key, hkey⟩)⟩

end Helpers

/-! ## Sealing and opening, as their cases -/

section Bundles

variable {P : Platform}

theorem EncryptedKeyBundle.from_json_to_json (hP : P.SerdeRoundTrip) (b : EncryptedKeyBundle) :
    EncryptedKeyBundle.from_json P (b.to_json P) = ok b := by
  rw [from_json, to_json, hP b.inner, Option.bind_some, BundleJson.deserialize_serialize]

/-- The clear fields of a sealed bundle, and where its three hex fields come from. -/
theorem seal_plaintext_eq_ok {kind : String} {level : SecurityLevel} {plaintext passphrase : Bytes}
    {salt : FixedArray UInt8 16} {nonce : FixedArray UInt8 12} {b : EncryptedKeyBundle} :
    seal_plaintext P kind level plaintext passphrase salt nonce = ok b
      ↔ encrypt P plaintext passphrase salt nonce
            = ok (b.inner.salt, b.inner.nonce, b.inner.ciphertext)
          ∧ b.version = BUNDLE_VERSION ∧ b.kind = kind ∧ b.level = level_to_u8 level := by
  simp only [seal_plaintext, bind_eq_ok, pure_eq, Outcome.ok.injEq]
  constructor
  · rintro ⟨⟨s, n, c⟩, henc, rfl⟩
    exact ⟨henc, rfl, rfl, rfl⟩
  · obtain ⟨⟨v, k, l, s, n, c⟩⟩ := b
    rintro ⟨henc, hv, hk, hl⟩
    obtain rfl : v = BUNDLE_VERSION := hv
    obtain rfl : k = kind := hk
    obtain rfl : l = level_to_u8 level := hl
    exact ⟨(s, n, c), henc, rfl⟩

/-- The text of a sealed bundle has no dash, unless its kind has one. -/
theorem dash_not_mem_to_json (hS : P.SerdePlain) {kind : String} {level : SecurityLevel}
    {plaintext passphrase : Bytes} {salt : FixedArray UInt8 16} {nonce : FixedArray UInt8 12}
    {b : EncryptedKeyBundle}
    (hseal : seal_plaintext P kind level plaintext passphrase salt nonce = ok b)
    (hkind : '-' ∉ kind.toList) : '-' ∉ (b.to_json P).toList := by
  obtain ⟨henc, -, hk, -⟩ := seal_plaintext_eq_ok.mp hseal
  simp only [encrypt, bind_eq_ok, pure_eq, Outcome.ok.injEq, Prod.mk.injEq] at henc
  obtain ⟨_, -, _, -, _, -, ct, -, hs, hn, hc⟩ := henc
  have hhex : ∀ bs : Bytes, '-' ∉ (String.ofList (Hex.encode bs)).toList := by
    intro bs
    rw [String.toList_ofList]
    exact Hex.dash_not_mem_encode bs
  intro hdash
  -- The dash is in the kind, or in one of the three hex fields.
  rcases hS b.inner hdash with h | h | h | h
  · exact hkind (hk ▸ h)
  · exact hhex salt.val (hs ▸ h)
  · exact hhex nonce.val (hn ▸ h)
  · exact hhex ct (hc ▸ h)

theorem EncryptedKeyBundle.seal_kem_eq (kp : KemKeyPair) (passphrase : Bytes)
    (salt : FixedArray UInt8 16) (nonce : FixedArray UInt8 12) :
    EncryptedKeyBundle.seal_kem P kp passphrase salt nonce
      = seal_plaintext P "kem" kp.inner.level
          (encode_plaintext kp.inner.pk_bytes kp.inner.sk_bytes) passphrase salt nonce := rfl

theorem EncryptedKeyBundle.seal_dsa_eq (kp : DsaKeyPair) (passphrase : Bytes)
    (salt : FixedArray UInt8 16) (nonce : FixedArray UInt8 12) :
    EncryptedKeyBundle.seal_dsa P kp passphrase salt nonce
      = seal_plaintext P "dsa" kp.inner.level
          (encode_plaintext kp.inner.pk_bytes kp.inner.sk_bytes) passphrase salt nonce := rfl

/-- Sealing succeeds when the key can be derived and the plaintext is within the
limit of the cipher. -/
theorem seal_plaintext_isOk (hE : P.AeadEncrypts) (kind : String) (level : SecurityLevel)
    {plaintext passphrase : Bytes} {salt : FixedArray UInt8 16} (nonce : FixedArray UInt8 12)
    (hkey : (derive_key P passphrase salt.val).IsOk) (hpt : plaintext.length ≤ 2 ^ 36 - 32) :
    (seal_plaintext P kind level plaintext passphrase salt nonce).IsOk := by
  obtain ⟨key, hkey⟩ := hkey
  have hlen := derive_key_length hkey
  obtain ⟨ct, hct⟩ := Option.isSome_iff_exists.mp (hE ⟨key, hlen⟩ nonce plaintext hpt)
  simp only [seal_plaintext, encrypt, hkey, bind_ok, FixedArray.fromSlice_of_length hlen,
    FixedArray.fromSlice_val, hct, okOr_some, pure_eq]
  exact isOk_ok _

theorem EncryptedKeyBundle.seal_kem_isOk (hE : P.AeadEncrypts) {kp : KemKeyPair} (hkp : kp.Fits)
    {passphrase : Bytes} {salt : FixedArray UInt8 16} (nonce : FixedArray UInt8 12)
    (hkey : (derive_key P passphrase salt.val).IsOk) :
    (EncryptedKeyBundle.seal_kem P kp passphrase salt nonce).IsOk := by
  rw [seal_kem_eq]
  apply seal_plaintext_isOk hE _ _ _ hkey
  rw [length_encode_plaintext, hkp.1, hkp.2]
  unfold KemKeyPair.key_sizes
  cases kp.inner.level <;> decide

theorem EncryptedKeyBundle.seal_dsa_isOk (hE : P.AeadEncrypts) {kp : DsaKeyPair} (hkp : kp.Fits)
    {passphrase : Bytes} {salt : FixedArray UInt8 16} (nonce : FixedArray UInt8 12)
    (hkey : (derive_key P passphrase salt.val).IsOk) :
    (EncryptedKeyBundle.seal_dsa P kp passphrase salt nonce).IsOk := by
  rw [seal_dsa_eq]
  apply seal_plaintext_isOk hE _ _ _ hkey
  rw [length_encode_plaintext, hkp.1, hkp.2]
  unfold DsaKeyPair.key_sizes
  cases kp.inner.level <;> decide

/-- Sealing returns: the key that is derived has the length the cipher wants. -/
theorem seal_plaintext_noPanic (kind : String) (level : SecurityLevel) (plaintext passphrase : Bytes)
    (salt : FixedArray UInt8 16) (nonce : FixedArray UInt8 12) :
    (seal_plaintext P kind level plaintext passphrase salt nonce).NoPanic := by
  simp only [seal_plaintext, encrypt, noPanic_bind, derive_key_noPanic, FixedArray.noPanic_fromSlice,
    noPanic_okOr, pure_eq, noPanic_ok, FixedArray.length_val, implies_true, and_true, true_and]
  exact fun _ hkey => derive_key_length hkey

theorem EncryptedKeyBundle.from_json_noPanic (s : String) :
    (EncryptedKeyBundle.from_json P s).NoPanic := by
  unfold from_json
  split
  · exact noPanic_ok _
  · exact noPanic_err _

/-- A bundle opens exactly when its clear fields are right and it decrypts. -/
theorem open_bundle_eq_ok {kind notKind : String} {b : BundleJson} {passphrase : Bytes}
    {level : SecurityLevel} {plaintext : Bytes} :
    open_bundle P kind notKind b passphrase = ok (level, plaintext)
      ↔ b.kind = kind ∧ b.version = BUNDLE_VERSION ∧ b.level = level_to_u8 level
          ∧ decrypt P b passphrase = ok plaintext := by
  rw [open_bundle]
  by_cases hkind : b.kind = kind
  · rw [if_neg (not_not.mpr hkind)]
    by_cases hver : b.version = BUNDLE_VERSION
    · rw [if_neg (not_not.mpr hver)]
      simp only [bind_eq_ok, pure_eq, Outcome.ok.injEq, Prod.mk.injEq, u8_to_level_eq_ok]
      constructor
      · rintro ⟨l, hl, pt, hpt, rfl, rfl⟩
        exact ⟨hkind, hver, hl, hpt⟩
      · rintro ⟨-, -, hl, hpt⟩
        exact ⟨level, hl, plaintext, hpt, rfl, rfl⟩
    · rw [if_pos hver]
      simp [hver]
  · rw [if_pos hkind]
    simp [hkind]

/-- Opening returns an error, not a panic, when a clear field is off. -/
theorem open_bundle_isErr {kind notKind : String} {b : BundleJson} {passphrase : Bytes}
    (h : b.kind ≠ kind ∨ b.version ≠ BUNDLE_VERSION ∨ ∀ level, b.level ≠ level_to_u8 level) :
    (open_bundle P kind notKind b passphrase).IsErr := by
  rw [open_bundle]
  split_ifs with hkind hver
  · exact isErr_err _
  · exact isErr_err _
  · -- The kind and the version are right, so the level is the field that is off.
    have hlevel : ∀ level, b.level ≠ level_to_u8 level :=
      (h.resolve_left hkind).resolve_left hver
    have herr : (u8_to_level b.level).IsErr := by
      apply (u8_to_level_noPanic b.level).isErr
      intro level hl
      exact hlevel level (u8_to_level_eq_ok.mp hl)
    exact isErr_bind.mpr (.inl herr)

theorem open_bundle_noPanic {kind notKind : String} {b : BundleJson} {passphrase : Bytes} :
    (open_bundle P kind notKind b passphrase).NoPanic
      ↔ (b.kind = kind → b.version = BUNDLE_VERSION → (∃ level, b.level = level_to_u8 level) →
          (decrypt P b passphrase).NoPanic) := by
  rw [open_bundle]
  by_cases hkind : b.kind = kind
  · rw [if_neg (not_not.mpr hkind)]
    by_cases hver : b.version = BUNDLE_VERSION
    · rw [if_neg (not_not.mpr hver)]
      simp only [noPanic_bind, u8_to_level_noPanic, true_and, u8_to_level_eq_ok, pure_eq,
        noPanic_ok, implies_true, and_true, hkind, hver, forall_const, forall_exists_index]
    · rw [if_pos hver]
      simp [hver]
  · rw [if_pos hkind]
    simp [hkind]

/-! ### Restoring the halves -/

/-- What is left of `unseal_kem` once the bundle is open. -/
def restore_kem (P : Platform) (level : SecurityLevel) (plaintext : Bytes) : Result KemKeyPair :=
  decode_kem_plaintext P level plaintext >>= fun d => d.into_keypair P

/-- What is left of `unseal_dsa` once the bundle is open. -/
def restore_dsa (P : Platform) (level : SecurityLevel) (plaintext : Bytes) : Result DsaKeyPair :=
  decode_dsa_plaintext P level plaintext >>= fun d => d.into_keypair P

theorem EncryptedKeyBundle.unseal_kem_eq (b : EncryptedKeyBundle) (passphrase : Bytes) :
    b.unseal_kem P passphrase
      = (open_bundle P "kem" "Bundle is not a KEM key" b.inner passphrase
          >>= fun x => restore_kem P x.1 x.2) := rfl

theorem EncryptedKeyBundle.unseal_dsa_eq (b : EncryptedKeyBundle) (passphrase : Bytes) :
    b.unseal_dsa P passphrase
      = (open_bundle P "dsa" "Bundle is not a DSA key" b.inner passphrase
          >>= fun x => restore_dsa P x.1 x.2) := rfl

theorem restore_kem_encoded {level : SecurityLevel} {pk : Bytes} (sk : Bytes)
    (hpk : pk.length < 2 ^ 32) (hfit : 4 + pk.length < 2 ^ P.usizeBits) :
    restore_kem P level (encode_plaintext pk sk) = KemKeyPair.from_bytes P level pk sk := by
  rw [restore_kem, decode_kem_plaintext, decode_encode_plaintext hpk hfit]
  rfl

theorem restore_dsa_encoded {level : SecurityLevel} {pk : Bytes} (sk : Bytes)
    (hpk : pk.length < 2 ^ 32) (hfit : 4 + pk.length < 2 ^ P.usizeBits) :
    restore_dsa P level (encode_plaintext pk sk) = DsaKeyPair.from_bytes P level pk sk := by
  rw [restore_dsa, decode_dsa_plaintext, decode_encode_plaintext hpk hfit]
  rfl

theorem restore_kem_noPanic (hbits : 32 ≤ P.usizeBits) (level : SecurityLevel) (data : Bytes) :
    (restore_kem P level data).NoPanic ↔ data.length < 4 ∨ PrefixFits P.usizeBits data := by
  rw [restore_kem, decode_kem_plaintext, bind_assoc, noPanic_bind, decode_plaintext_noPanic hbits]
  exact and_iff_left fun _ _ => KemKeyPair.from_bytes_noPanic _ _ _

theorem restore_dsa_noPanic (hbits : 32 ≤ P.usizeBits) (level : SecurityLevel) (data : Bytes) :
    (restore_dsa P level data).NoPanic ↔ data.length < 4 ∨ PrefixFits P.usizeBits data := by
  rw [restore_dsa, decode_dsa_plaintext, bind_assoc, noPanic_bind, decode_plaintext_noPanic hbits]
  exact and_iff_left fun _ _ => DsaKeyPair.from_bytes_noPanic _ _ _

/-! ### Unsealing a plaintext that is known

What an `unseal` function returns, once the plaintext of the bundle is known:
`restore` is what it does past the decryption. -/

section Known

variable {α : Type} {restore : SecurityLevel → Bytes → Result α} {kind notKind : String}
  {b : BundleJson} {passphrase plaintext : Bytes}

theorem open_restore_eq_ok (hdec : decrypt P b passphrase = ok plaintext) {a : α} :
    (open_bundle P kind notKind b passphrase >>= fun x => restore x.1 x.2) = ok a
      ↔ b.kind = kind ∧ b.version = BUNDLE_VERSION
          ∧ ∃ level, b.level = level_to_u8 level ∧ restore level plaintext = ok a := by
  rw [bind_eq_ok]
  constructor
  · rintro ⟨⟨level, pt⟩, hopen, hrest⟩
    obtain ⟨hkind, hver, hlevel, hpt⟩ := open_bundle_eq_ok.mp hopen
    obtain rfl : plaintext = pt := Outcome.ok.inj (hdec.symm.trans hpt)
    exact ⟨hkind, hver, level, hlevel, hrest⟩
  · rintro ⟨hkind, hver, level, hlevel, hrest⟩
    exact ⟨(level, plaintext), open_bundle_eq_ok.mpr ⟨hkind, hver, hlevel, hdec⟩, hrest⟩

theorem open_restore_noPanic_of_decrypt (hdec : decrypt P b passphrase = ok plaintext)
    (hrest : ∀ level, (restore level plaintext).NoPanic) :
    (open_bundle P kind notKind b passphrase >>= fun x => restore x.1 x.2).NoPanic := by
  rw [noPanic_bind]
  constructor
  · rw [open_bundle_noPanic, hdec]
    intro _ _ _
    exact noPanic_ok _
  · rintro ⟨level, pt⟩ hopen
    obtain ⟨-, -, -, hpt⟩ := open_bundle_eq_ok.mp hopen
    obtain rfl : plaintext = pt := Outcome.ok.inj (hdec.symm.trans hpt)
    exact hrest level

end Known

/-- The public keys of both kinds are far below the length the prefix can hold. -/
theorem prefix_of_length (hword : P.WordSize) {pk : Bytes} (h : pk.length ≤ 4096) :
    pk.length < 2 ^ 32 ∧ 4 + pk.length < 2 ^ P.usizeBits := by
  have hpow : 2 ^ 32 ≤ 2 ^ P.usizeBits := by
    apply Nat.pow_le_pow_right (by omega)
    rcases hword with h | h <;> omega
  omega

theorem EncryptedKeyBundle.unseal_kem_encoded (hword : P.WordSize) {b : EncryptedKeyBundle}
    {passphrase pk sk : Bytes} (hpk : pk.length ≤ 4096)
    (hdec : decrypt P b.inner passphrase = ok (encode_plaintext pk sk)) :
    (b.unseal_kem P passphrase).NoPanic
      ∧ ∀ kp, b.unseal_kem P passphrase = ok kp
          ↔ b.kind = "kem" ∧ b.version = BUNDLE_VERSION
            ∧ ∃ level, b.level = level_to_u8 level
                ∧ KemKeyPair.from_bytes P level pk sk = ok kp := by
  obtain ⟨h32, hfit⟩ := prefix_of_length hword hpk
  rw [unseal_kem_eq]
  constructor
  · apply open_restore_noPanic_of_decrypt hdec
    intro level
    rw [restore_kem_encoded sk h32 hfit]
    exact KemKeyPair.from_bytes_noPanic _ _ _
  · intro kp
    rw [open_restore_eq_ok hdec]
    simp only [restore_kem_encoded sk h32 hfit]
    rfl

theorem EncryptedKeyBundle.unseal_dsa_encoded (hword : P.WordSize) {b : EncryptedKeyBundle}
    {passphrase pk sk : Bytes} (hpk : pk.length ≤ 4096)
    (hdec : decrypt P b.inner passphrase = ok (encode_plaintext pk sk)) :
    (b.unseal_dsa P passphrase).NoPanic
      ∧ ∀ kp, b.unseal_dsa P passphrase = ok kp
          ↔ b.kind = "dsa" ∧ b.version = BUNDLE_VERSION
            ∧ ∃ level, b.level = level_to_u8 level
                ∧ DsaKeyPair.from_bytes P level pk sk = ok kp := by
  obtain ⟨h32, hfit⟩ := prefix_of_length hword hpk
  rw [unseal_dsa_eq]
  constructor
  · apply open_restore_noPanic_of_decrypt hdec
    intro level
    rw [restore_dsa_encoded sk h32 hfit]
    exact DsaKeyPair.from_bytes_noPanic _ _ _
  · intro kp
    rw [open_restore_eq_ok hdec]
    simp only [restore_dsa_encoded sk h32 hfit]
    rfl

/-- Whatever was unsealed went through the length check. -/
theorem EncryptedKeyBundle.unseal_kem_from_bytes {b : EncryptedKeyBundle} {passphrase : Bytes}
    {kp : KemKeyPair} (h : b.unseal_kem P passphrase = ok kp) :
    KemKeyPair.from_bytes P kp.inner.level kp.inner.pk_bytes kp.inner.sk_bytes = ok kp := by
  simp only [unseal_kem, bind_eq_ok] at h
  obtain ⟨_, -, d, -, hd⟩ := h
  obtain ⟨hlen, rfl⟩ := KemKeyPair.from_bytes_eq_ok.mp hd
  exact KemKeyPair.from_bytes_eq_ok.mpr ⟨hlen, rfl⟩

theorem EncryptedKeyBundle.unseal_dsa_from_bytes {b : EncryptedKeyBundle} {passphrase : Bytes}
    {kp : DsaKeyPair} (h : b.unseal_dsa P passphrase = ok kp) :
    DsaKeyPair.from_bytes P kp.inner.level kp.inner.pk_bytes kp.inner.sk_bytes = ok kp := by
  simp only [unseal_dsa, bind_eq_ok] at h
  obtain ⟨_, -, d, -, hd⟩ := h
  obtain ⟨hlen, rfl⟩ := DsaKeyPair.from_bytes_eq_ok.mp hd
  exact DsaKeyPair.from_bytes_eq_ok.mpr ⟨hlen, rfl⟩

/-! ### Unsealing what was sealed

The clear fields of a bundle may be anything; salt, nonce and ciphertext are the
sealed ones. The plaintext is then known, and what is left is the clear fields
against the length of its public key. -/

/-- Two bundles hold the same salt, nonce and ciphertext. -/
def SameSecret (b b' : EncryptedKeyBundle) : Prop :=
  b'.inner.salt = b.inner.salt ∧ b'.inner.nonce = b.inner.nonce
    ∧ b'.inner.ciphertext = b.inner.ciphertext

theorem SameSecret.refl (b : EncryptedKeyBundle) : SameSecret b b := ⟨rfl, rfl, rfl⟩

section Sealed

variable {passphrase : Bytes} {salt : FixedArray UInt8 16} {nonce : FixedArray UInt8 12}
  {b b' : EncryptedKeyBundle}

theorem decrypt_sealed (hA : P.AeadRoundTrip) {kind : String} {level : SecurityLevel}
    {plaintext : Bytes}
    (hseal : seal_plaintext P kind level plaintext passphrase salt nonce = ok b)
    (hsame : SameSecret b b') : decrypt P b'.inner passphrase = ok plaintext := by
  obtain ⟨henc, -⟩ := seal_plaintext_eq_ok.mp hseal
  exact decrypt_encrypt hA henc hsame.1 hsame.2.1 hsame.2.2

theorem KemKeyPair.Fits.pk_le {kp : KemKeyPair} (h : kp.Fits) : kp.inner.pk_bytes.length ≤ 4096 :=
  h.1.le.trans (kemSizes_public_key_le _)

theorem DsaKeyPair.Fits.pk_le {kp : DsaKeyPair} (h : kp.Fits) : kp.inner.pk_bytes.length ≤ 4096 :=
  h.1.le.trans (dsaSizes_public_key_le _)

/-- A sealed KEM pair is unsealed under the sealed clear fields, as itself, and
under no others. -/
theorem unseal_kem_sealed (hword : P.WordSize) (hK : P.KyberSizes) (hA : P.AeadRoundTrip)
    {kp : KemKeyPair} (hkp : kp.Fits)
    (hseal : EncryptedKeyBundle.seal_kem P kp passphrase salt nonce = ok b)
    (hsame : SameSecret b b') :
    (b'.unseal_kem P passphrase).NoPanic
      ∧ ∀ kp', b'.unseal_kem P passphrase = ok kp'
          ↔ (b'.kind = b.kind ∧ b'.version = b.version ∧ b'.level = b.level) ∧ kp' = kp := by
  obtain ⟨-, hver, hkind, hlevel⟩ := seal_plaintext_eq_ok.mp hseal
  obtain ⟨hpanic, hok⟩ := EncryptedKeyBundle.unseal_kem_encoded hword hkp.pk_le
    (decrypt_sealed hA hseal hsame)
  refine ⟨hpanic, fun kp' => ?_⟩
  rw [hok, hver, hkind, hlevel]
  constructor
  · rintro ⟨hk, hv, level, hl, hfrom⟩
    obtain ⟨⟨hlen, -⟩, rfl⟩ := KemKeyPair.from_bytes_eq_ok.mp hfrom
    -- The public key is as long as the level it was sealed at says, so this is that level.
    rw [(hK level).1, hkp.1] at hlen
    obtain rfl := kemSizes_public_key_injective hlen
    exact ⟨⟨hk, hv, hl⟩, rfl⟩
  · rintro ⟨⟨hk, hv, hl⟩, rfl⟩
    exact ⟨hk, hv, kp'.inner.level, hl, hkp.from_bytes hK⟩

theorem unseal_dsa_sealed (hword : P.WordSize) (hD : P.DilithiumSizes) (hA : P.AeadRoundTrip)
    {kp : DsaKeyPair} (hkp : kp.Fits)
    (hseal : EncryptedKeyBundle.seal_dsa P kp passphrase salt nonce = ok b)
    (hsame : SameSecret b b') :
    (b'.unseal_dsa P passphrase).NoPanic
      ∧ ∀ kp', b'.unseal_dsa P passphrase = ok kp'
          ↔ (b'.kind = b.kind ∧ b'.version = b.version ∧ b'.level = b.level) ∧ kp' = kp := by
  obtain ⟨-, hver, hkind, hlevel⟩ := seal_plaintext_eq_ok.mp hseal
  obtain ⟨hpanic, hok⟩ := EncryptedKeyBundle.unseal_dsa_encoded hword hkp.pk_le
    (decrypt_sealed hA hseal hsame)
  refine ⟨hpanic, fun kp' => ?_⟩
  rw [hok, hver, hkind, hlevel]
  constructor
  · rintro ⟨hk, hv, level, hl, hfrom⟩
    obtain ⟨⟨hlen, -⟩, rfl⟩ := DsaKeyPair.from_bytes_eq_ok.mp hfrom
    -- Again the length of the public key names the level.
    rw [(hD level).1, hkp.1] at hlen
    obtain rfl := dsaSizes_public_key_injective hlen
    exact ⟨⟨hk, hv, hl⟩, rfl⟩
  · rintro ⟨⟨hk, hv, hl⟩, rfl⟩
    exact ⟨hk, hv, kp'.inner.level, hl, hkp.from_bytes hD⟩

/-- In particular, what was sealed is unsealed. -/
theorem unseal_kem_of_seal (hword : P.WordSize) (hK : P.KyberSizes) (hA : P.AeadRoundTrip)
    {kp : KemKeyPair} (hkp : kp.Fits)
    (hseal : EncryptedKeyBundle.seal_kem P kp passphrase salt nonce = ok b) :
    b.unseal_kem P passphrase = ok kp :=
  ((unseal_kem_sealed hword hK hA hkp hseal (SameSecret.refl b)).2 kp).mpr ⟨⟨rfl, rfl, rfl⟩, rfl⟩

theorem unseal_dsa_of_seal (hword : P.WordSize) (hD : P.DilithiumSizes) (hA : P.AeadRoundTrip)
    {kp : DsaKeyPair} (hkp : kp.Fits)
    (hseal : EncryptedKeyBundle.seal_dsa P kp passphrase salt nonce = ok b) :
    b.unseal_dsa P passphrase = ok kp :=
  ((unseal_dsa_sealed hword hD hA hkp hseal (SameSecret.refl b)).2 kp).mpr ⟨⟨rfl, rfl, rfl⟩, rfl⟩

/-- The kind a bundle was sealed with is looked at first, so it is not opened as the
other one under any passphrase. -/
theorem unseal_dsa_isErr_of_seal_kem {kp : KemKeyPair}
    (hseal : EncryptedKeyBundle.seal_kem P kp passphrase salt nonce = ok b) (passphrase' : Bytes) :
    (b.unseal_dsa P passphrase').IsErr := by
  have hkind : b.kind ≠ "dsa" := by
    rw [(seal_plaintext_eq_ok.mp hseal).2.2.1]
    decide
  exact isErr_bind.mpr (.inl (open_bundle_isErr (.inl hkind)))

theorem unseal_kem_isErr_of_seal_dsa {kp : DsaKeyPair}
    (hseal : EncryptedKeyBundle.seal_dsa P kp passphrase salt nonce = ok b) (passphrase' : Bytes) :
    (b.unseal_kem P passphrase').IsErr := by
  have hkind : b.kind ≠ "kem" := by
    rw [(seal_plaintext_eq_ok.mp hseal).2.2.1]
    decide
  exact isErr_bind.mpr (.inl (open_bundle_isErr (.inl hkind)))

/-- No length of a KEM public key is that of a DSA public key, at any level. -/
theorem kemSizes_ne_dsaSizes (level level' : SecurityLevel) :
    (kemSizes level).public_key ≠ (dsaSizes level').public_key := by
  cases level <;> cases level' <;> decide

/-- A sealed KEM pair is not a DSA pair, whatever the clear fields say. -/
theorem unseal_dsa_of_seal_kem (hword : P.WordSize) (hD : P.DilithiumSizes)
    (hA : P.AeadRoundTrip) {kp : KemKeyPair} (hkp : kp.Fits)
    (hseal : EncryptedKeyBundle.seal_kem P kp passphrase salt nonce = ok b)
    (hsame : SameSecret b b') : (b'.unseal_dsa P passphrase).IsErr := by
  obtain ⟨hpanic, hok⟩ := EncryptedKeyBundle.unseal_dsa_encoded hword hkp.pk_le
    (decrypt_sealed hA hseal hsame)
  apply hpanic.isErr
  intro kp' hkp'
  -- A KEM public key would have to be as long as a DSA one.
  obtain ⟨-, -, level, -, hfrom⟩ := (hok kp').mp hkp'
  obtain ⟨⟨hlen, -⟩, -⟩ := DsaKeyPair.from_bytes_eq_ok.mp hfrom
  rw [(hD level).1, hkp.1] at hlen
  exact kemSizes_ne_dsaSizes _ _ hlen

/-- And the other way round. -/
theorem unseal_kem_of_seal_dsa (hword : P.WordSize) (hK : P.KyberSizes) (hA : P.AeadRoundTrip)
    {kp : DsaKeyPair} (hkp : kp.Fits)
    (hseal : EncryptedKeyBundle.seal_dsa P kp passphrase salt nonce = ok b)
    (hsame : SameSecret b b') : (b'.unseal_kem P passphrase).IsErr := by
  obtain ⟨hpanic, hok⟩ := EncryptedKeyBundle.unseal_kem_encoded hword hkp.pk_le
    (decrypt_sealed hA hseal hsame)
  apply hpanic.isErr
  intro kp' hkp'
  obtain ⟨-, -, level, -, hfrom⟩ := (hok kp').mp hkp'
  obtain ⟨⟨hlen, -⟩, -⟩ := KemKeyPair.from_bytes_eq_ok.mp hfrom
  rw [(hK level).1, hkp.1] at hlen
  exact kemSizes_ne_dsaSizes _ _ hlen.symm

end Sealed

end Bundles

end PqcVault
