/-
`Refusals.lean` -- why a run fails, and what it says then.

`run_final_iff` says when a command does its work and `run_panic_iff` when it panics. What is
left are the runs that return an error, and here is which error that is: the one that belongs to
the first thing found wrong, in the order in which the command looks. `BadPem` is that for the
PEM decoder, which goes through a text from its markers to its bytes; `Refuses` for the
commands, which go through their arguments, the answers and the files.

So a message can be trusted: whatever it complains of is wrong, and nothing that is looked at
before it is. Of the ten errors of the crate a command returns three.
-/
import PqcVault.CliFaults
import PqcVault.CliPanics
import PqcVault.Layout
import PqcVault.Reach

set_option autoImplicit false

namespace PqcVault

open Rust Outcome Program Utf8

/-! ## Public keys as PEM -/

/-- What stands between the markers of a label. -/
def Body (label pem : String) (body : List Char) : Prop :=
  ∃ p, Str.FirstAt (pemBegin label).toList pem.toList p
    ∧ Str.FirstAt (pemEnd label).toList pem.toList (p ++ (pemBegin label).toList ++ body)

/-- **What is wrong with a text** that is not the PEM of a level and of bytes: the first thing
the decoder looks at that is. -/
inductive BadPem (label pem : String) : PqcError → Prop
  | noHeader (h : ¬ (pemBegin label).toList <:+: pem.toList) :
      BadPem label pem (.Other ("Missing PEM header: " ++ pemBegin label))
  | noFooter (hbegin : (pemBegin label).toList <:+: pem.toList)
      (h : ¬ (pemEnd label).toList <:+: pem.toList) :
      BadPem label pem (.Other ("Missing PEM footer: " ++ pemEnd label))
  | empty {body : List Char} (hbody : Body label pem body) (h : bodyLines body = []) :
      BadPem label pem (.Other "Empty PEM body")
  | header {header : List Char} {rest : List (List Char)} (hline : HeaderLine label pem header rest)
      (h : ∀ level, ¬ NamesLevel header level) :
      BadPem label pem
        (.Other ("Cannot parse security level from PEM header: " ++ String.ofList header))
  | base64 {header : List Char} {rest : List (List Char)} {level : SecurityLevel}
      (hline : HeaderLine label pem header rest) (hlevel : NamesLevel header level)
      (h : ∀ data, rest.flatten ≠ Base64.encode data) :
      BadPem label pem (.Other "Invalid base64 in PEM body")

section Pem

variable {P : Platform} {label pem : String} {e : PqcError}

theorem parse_level_from_header_eq_err {header : List Char} :
    parse_level_from_header header = err e
      ↔ (∀ level, ¬ NamesLevel header level)
        ∧ e = .Other ("Cannot parse security level from PEM header: " ++ String.ofList header) := by
  simp only [← parse_level_from_header_eq_ok]
  unfold parse_level_from_header
  split_ifs <;> simp [eq_comm]

/-- From the body on: no line, no level in the first one, or no base64 below it. -/
theorem decode_body_eq_err {body : List Char} :
    decode_body body = err e
      ↔ (bodyLines body = [] ∧ e = .Other "Empty PEM body")
        ∨ ∃ header rest, bodyLines body = header :: rest
          ∧ (parse_level_from_header header = err e
            ∨ ∃ level, parse_level_from_header header = ok level
              ∧ (∀ data, rest.flatten ≠ Base64.encode data)
              ∧ e = .Other "Invalid base64 in PEM body") := by
  have hnone : ∀ s : List Char, Base64.decode s = none ↔ ∀ data, s ≠ Base64.encode data := by
    intro s
    simp only [← Base64.decode_eq_some, Option.eq_none_iff_forall_ne_some, ne_eq]
  rw [decode_body]
  cases bodyLines body with
  | nil => simp [eq_comm]
  | cons header rest =>
      simp only [bind_eq_err, okOr_eq_err, hnone, pure_eq]
      simp

/-- **The decoder's errors, exactly.** -/
theorem decode_pem_eq_err : decode_pem pem label = err e ↔ BadPem label pem e := by
  constructor
  · intro h
    cases hb : Str.before (pemBegin label).toList pem.toList with
    | none =>
        rw [decode_pem, Str.find, hb, Option.map_none, okOr_none, bind_err] at h
        obtain rfl := Outcome.err.inj h
        exact .noHeader (Str.before_eq_none.mp hb)
    | some p =>
        have hp := Str.before_eq_some.mp hb
        cases he : Str.before (pemEnd label).toList pem.toList with
        | none =>
            rw [decode_pem, Str.find, hb, Option.map_some, okOr_some, bind_ok, Str.find, he,
              Option.map_none, okOr_none, bind_err] at h
            obtain rfl := Outcome.err.inj h
            exact .noFooter ((List.suffix_append _ _).isInfix.trans hp.1.isInfix)
              (Str.before_eq_none.mp he)
        | some q =>
            have hq := Str.before_eq_some.mp he
            -- An error is no panic, so the markers are in order and there is a body.
            have hnp : (decode_pem pem label).NoPanic := h ▸ noPanic_err e
            obtain ⟨body, rfl⟩ := (decode_pem_noPanic pem label).mp hnp p q hp hq
            rw [decode_pem_of_order hp hq, decode_body_eq_err] at h
            rcases h with ⟨hnil, rfl⟩ | ⟨header, rest, hlines, hheader | ⟨level, hlevel, h64, rfl⟩⟩
            · exact .empty ⟨p, hp, hq⟩ hnil
            · obtain ⟨hno, rfl⟩ := parse_level_from_header_eq_err.mp hheader
              exact .header ⟨p, body, hp, hq, hlines⟩ hno
            · exact .base64 ⟨p, body, hp, hq, hlines⟩ (parse_level_from_header_eq_ok.mp hlevel) h64
  · intro h
    cases h with
    | noHeader h =>
        rw [decode_pem, Str.find, Str.before_eq_none.mpr h, Option.map_none, okOr_none, bind_err]
    | noFooter hbegin h =>
        obtain ⟨p, hp⟩ : ∃ p, Str.before (pemBegin label).toList pem.toList = some p :=
          Option.ne_none_iff_exists'.mp fun hnone => Str.before_eq_none.mp hnone hbegin
        rw [decode_pem, Str.find, hp, Option.map_some, okOr_some, bind_ok, Str.find,
          Str.before_eq_none.mpr h, Option.map_none, okOr_none, bind_err]
    | empty hbody h =>
        obtain ⟨p, hp, hq⟩ := hbody
        rw [decode_pem_of_order hp hq, decode_body_eq_err]
        exact .inl ⟨h, rfl⟩
    | header hline h =>
        obtain ⟨p, body, hp, hq, hlines⟩ := hline
        rw [decode_pem_of_order hp hq, decode_body_eq_err]
        exact .inr ⟨_, _, hlines, .inl (parse_level_from_header_eq_err.mpr ⟨h, rfl⟩)⟩
    | base64 hline hlevel h =>
        obtain ⟨p, body, hp, hq, hlines⟩ := hline
        rw [decode_pem_of_order hp hq, decode_body_eq_err]
        exact .inr ⟨_, _, hlines, .inr ⟨_, parse_level_from_header_eq_ok.mpr hlevel, h, rfl⟩⟩

/-- What is wrong with a text that is not the PEM of a public key: as a PEM, or else the number
of its bytes. -/
def BadKey (label : String) (size : SecurityLevel → ℕ) (name : SecurityLevel → String)
    (pem : String) (e : PqcError) : Prop :=
  BadPem label pem e
    ∨ ∃ header rest level data, HeaderLine label pem header rest ∧ NamesLevel header level
      ∧ rest.flatten = Base64.encode data ∧ data.length ≠ size level
      ∧ e = .InvalidKey ("Invalid " ++ name level ++ " public key")

/-- Either kind of key: `validate` refuses the other lengths, and names the level's module. -/
theorem from_pem_eq_err {K : Type} {validate : SecurityLevel → Bytes → Result K}
    {size : SecurityLevel → ℕ} {name : SecurityLevel → String}
    (hvalidate : ∀ level data e, validate level data = err e
      ↔ data.length ≠ size level ∧ e = .InvalidKey ("Invalid " ++ name level ++ " public key")) :
    (decode_pem pem label >>= fun x => validate x.1 x.2) = err e ↔ BadKey label size name pem e := by
  rw [bind_eq_err, decode_pem_eq_err, BadKey]
  simp only [Prod.exists, decode_pem_eq_ok, hvalidate]
  refine or_congr_right ?_
  constructor
  · rintro ⟨level, data, ⟨header, rest, hline, hlevel, hdata⟩, hlen, rfl⟩
    exact ⟨header, rest, level, data, hline, hlevel, hdata, hlen, rfl⟩
  · rintro ⟨header, rest, level, data, hline, hlevel, hdata, hlen, rfl⟩
    exact ⟨level, data, ⟨header, rest, hline, hlevel, hdata⟩, hlen, rfl⟩

theorem kem_public_key_from_pem_eq_err :
    kem_public_key_from_pem P pem = err e
      ↔ BadKey KEM_LABEL (fun level => (P.kyber level).publicKeyBytes) kyberName pem e :=
  from_pem_eq_err fun _ _ _ => KemPublicKey.from_validated_eq_err

theorem dsa_public_key_from_pem_eq_err :
    dsa_public_key_from_pem P pem = err e
      ↔ BadKey DSA_LABEL (fun level => (P.dilithium level).publicKeyBytes) dilithiumName pem e :=
  from_pem_eq_err fun _ _ _ => DsaPublicKey.from_validated_eq_err

/-- **Which error a text gets that is no public key**, for both decoders: of the markers, the
body, the header, the base64 and the length, the first that is wrong. -/
theorem public_key_from_pem_err (P : Platform) (pem : String) (e : PqcError) :
    (kem_public_key_from_pem P pem = err e
        ↔ BadKey KEM_LABEL (fun level => (P.kyber level).publicKeyBytes) kyberName pem e)
      ∧ (dsa_public_key_from_pem P pem = err e
        ↔ BadKey DSA_LABEL (fun level => (P.dilithium level).publicKeyBytes) dilithiumName pem e) :=
  ⟨kem_public_key_from_pem_eq_err, dsa_public_key_from_pem_eq_err⟩

end Pem

/-! ## The library behind the commands

On keys that fit, three of the calls a command makes have one error each, and the others none. -/

section Library

variable {P : Platform} {e : PqcError}

theorem derive_key_eq_err (hP : P.Argon2Limits) {passphrase salt : Bytes} :
    derive_key P passphrase salt = err e
      ↔ ¬ Argon2Lengths passphrase salt ∧ e = .Other "Argon2 KDF failed" := by
  obtain ⟨params, hnew, hlim⟩ := hP
  rw [derive_key, hnew, okOr_some, bind_ok, ← hlim]
  cases P.argon2.hashPasswordInto params passphrase salt 32 <;> simp [eq_comm]

/-- A passphrase that `argon2` does not take. -/
def TooLong (passphrase : Bytes) : Prop := 2 ^ 32 - 1 < passphrase.length

theorem seal_plaintext_eq_err (hP : P.Argon2Limits) (hE : P.AeadEncrypts) {kind : String}
    {level : SecurityLevel} {plaintext passphrase : Bytes} {salt : FixedArray UInt8 16}
    {nonce : FixedArray UInt8 12} (hpt : plaintext.length ≤ 2 ^ 36 - 32) :
    seal_plaintext P kind level plaintext passphrase salt nonce = err e
      ↔ TooLong passphrase ∧ e = .Other "Argon2 KDF failed" := by
  have hlengths : ¬ Argon2Lengths passphrase salt.val ↔ TooLong passphrase := by
    rw [Argon2Lengths, salt.length_val, TooLong]
    omega
  rw [← hlengths, ← derive_key_eq_err hP]
  constructor
  · intro h
    cases hkey : derive_key P passphrase salt.val with
    | ok key =>
        obtain ⟨b, hb⟩ := seal_plaintext_isOk hE kind level nonce ⟨key, hkey⟩ hpt
        exact absurd (hb.symm.trans h) (by simp)
    | err e' =>
        rw [seal_plaintext, encrypt, hkey, bind_err, bind_err] at h
        exact congrArg err (Outcome.err.inj h)
    | panic => exact absurd hkey (derive_key_noPanic _ _)
  · intro h
    rw [seal_plaintext, encrypt, h]
    rfl

theorem EncryptedKeyBundle.seal_kem_eq_err (hP : P.Argon2Limits) (hE : P.AeadEncrypts)
    {kp : KemKeyPair} (hkp : kp.Fits) {passphrase : Bytes} {salt : FixedArray UInt8 16}
    {nonce : FixedArray UInt8 12} :
    EncryptedKeyBundle.seal_kem P kp passphrase salt nonce = err e
      ↔ TooLong passphrase ∧ e = .Other "Argon2 KDF failed" := by
  rw [seal_kem_eq]
  apply seal_plaintext_eq_err hP hE
  rw [length_encode_plaintext, hkp.1, hkp.2]
  unfold KemKeyPair.key_sizes
  cases kp.inner.level <;> decide

theorem EncryptedKeyBundle.seal_dsa_eq_err (hP : P.Argon2Limits) (hE : P.AeadEncrypts)
    {kp : DsaKeyPair} (hkp : kp.Fits) {passphrase : Bytes} {salt : FixedArray UInt8 16}
    {nonce : FixedArray UInt8 12} :
    EncryptedKeyBundle.seal_dsa P kp passphrase salt nonce = err e
      ↔ TooLong passphrase ∧ e = .Other "Argon2 KDF failed" := by
  rw [seal_dsa_eq]
  apply seal_plaintext_eq_err hP hE
  rw [length_encode_plaintext, hkp.1, hkp.2]
  unfold DsaKeyPair.key_sizes
  cases kp.inner.level <;> decide

theorem EncryptedKeyBundle.from_json_eq_err {s : String} :
    EncryptedKeyBundle.from_json P s = err e
      ↔ (P.serdeJson.fromStr s).bind BundleJson.deserialize = none
        ∧ e = .Other ("Invalid bundle JSON: " ++ P.serdeJson.errorText s) := by
  rw [from_json]
  cases (P.serdeJson.fromStr s).bind BundleJson.deserialize <;> simp [eq_comm]

theorem KemKeyPair.Fits.decapsulate_eq_err (hK : P.KyberSizes) {kp : KemKeyPair} (hkp : kp.Fits)
    {ct : Bytes} :
    kp.decapsulate P ct = err e
      ↔ ct.length ≠ kp.key_sizes.ciphertext
        ∧ e = .InvalidCiphertext ("Invalid " ++ kyberName kp.inner.level ++ " ciphertext") := by
  have hsk := ((fits_iff hK).mp hkp).2
  have hct : (P.kyber kp.inner.level).ciphertextBytes = kp.key_sizes.ciphertext :=
    (hK kp.inner.level).2.2.1
  rw [decapsulate_eq, ← hct]
  by_cases hlen : ct.length = (P.kyber kp.inner.level).ciphertextBytes
  · rw [Kyber.decapsulateWith_of_length hsk hlen]
    simp [hlen]
  · rw [Kyber.decapsulateWith_of_length_ne hsk hlen]
    simp [hlen, eq_comm]

theorem EncryptedKeyBundle.unseal_kem_fits (hK : P.KyberSizes) {b : EncryptedKeyBundle}
    {passphrase : Bytes} {kp : KemKeyPair} (h : b.unseal_kem P passphrase = ok kp) : kp.Fits := by
  simp only [unseal_kem, bind_eq_ok] at h
  obtain ⟨_, -, data, -, hkp⟩ := h
  exact KemKeyPair.from_bytes_fits hK hkp

theorem EncryptedKeyBundle.unseal_dsa_fits (hD : P.DilithiumSizes) {b : EncryptedKeyBundle}
    {passphrase : Bytes} {kp : DsaKeyPair} (h : b.unseal_dsa P passphrase = ok kp) : kp.Fits := by
  simp only [unseal_dsa, bind_eq_ok] at h
  obtain ⟨_, -, data, -, hkp⟩ := h
  exact DsaKeyPair.from_bytes_fits hD hkp

end Library

/-! ## The commands -/

/-- A file that does not read as text: there is none, or it is not UTF-8. -/
def Unreadable (f : Files PathBuf Bytes) (p : PathBuf) : Prop := ∀ text, ¬ Reads f p text

/-- What is typed at a prompt, if anything. -/
abbrev Answers : Type := String → Option String

/-- The passphrase for a new key, as it has to be. -/
def Answers.Choose (answer : Answers) (pass : String) : Prop :=
  answer "New passphrase: " = some pass ∧ answer "Confirm passphrase: " = some pass ∧ pass ≠ ""

/-- The passphrase of a key. -/
def Answers.Enters (answer : Answers) (pass : String) : Prop :=
  answer "Passphrase: " = some pass ∧ pass ≠ ""

/-- A passphrase for a new key that is not taken. -/
inductive RefusesNew (answer : Answers) : CliError → Prop
  | unanswered (h : answer "New passphrase: " = none ∨ answer "Confirm passphrase: " = none) :
      RefusesNew answer .io
  | empty {confirm : String} (hnew : answer "New passphrase: " = some "")
      (hconfirm : answer "Confirm passphrase: " = some confirm) :
      RefusesNew answer (.msg "Passphrase cannot be empty")
  | differ {pass confirm : String} (hnew : answer "New passphrase: " = some pass)
      (hconfirm : answer "Confirm passphrase: " = some confirm) (hne : pass ≠ "")
      (h : pass ≠ confirm) : RefusesNew answer (.msg "Passphrases do not match")

/-- A passphrase of a key that is not taken. -/
inductive RefusesPass (answer : Answers) : CliError → Prop
  | unanswered (h : answer "Passphrase: " = none) : RefusesPass answer .io
  | empty (h : answer "Passphrase: " = some "") :
      RefusesPass answer (.msg "Passphrase cannot be empty")

/-- A key file with a bundle that opens under the passphrase that is typed. -/
def Opens {α : Type} (P : Platform) (answer : Answers) (f : Files PathBuf Bytes)
    (unsealAs : EncryptedKeyBundle → Bytes → Result α) (key : PathBuf) (kp : α) : Prop :=
  ∃ json pass bundle, Reads f key json ∧ answer.Enters pass
    ∧ EncryptedKeyBundle.from_json P json = ok bundle ∧ unsealAs bundle (utf8 pass) = ok kp

/-- One that does not. -/
inductive OpenRefused {α : Type} (P : Platform) (answer : Answers) (f : Files PathBuf Bytes)
    (unsealAs : EncryptedKeyBundle → Bytes → Result α) (key : PathBuf) : CliError → Prop
  | file (h : Unreadable f key) : OpenRefused P answer f unsealAs key .io
  | pass {json : String} {e : CliError} (hkey : Reads f key json) (h : RefusesPass answer e) :
      OpenRefused P answer f unsealAs key e
  | json {json pass : String} (hkey : Reads f key json) (hpass : answer.Enters pass)
      (h : (P.serdeJson.fromStr json).bind BundleJson.deserialize = none) :
      OpenRefused P answer f unsealAs key
        (.pqc (.Other ("Invalid bundle JSON: " ++ P.serdeJson.errorText json)))
  | sealed {json pass : String} {bundle : EncryptedKeyBundle} (hkey : Reads f key json)
      (hpass : answer.Enters pass) (hjson : EncryptedKeyBundle.from_json P json = ok bundle)
      (h : (unsealAs bundle (utf8 pass)).IsErr) : OpenRefused P answer f unsealAs key unsealFailed

/-- A key file with a public key in it. -/
def Holds {α : Type} (f : Files PathBuf Bytes) (fromPem : String → Result α) (key : PathBuf)
    (k : α) : Prop := ∃ pem, Reads f key pem ∧ fromPem pem = ok k

/-- One without: `needle` is what the command looks for in front of the decoder. -/
inductive KeyRefused (f : Files PathBuf Bytes) (bad : String → PqcError → Prop) (needle m : String)
    (key : PathBuf) : CliError → Prop
  | file (h : Unreadable f key) : KeyRefused f bad needle m key .io
  | needle {pem : String} (hkey : Reads f key pem) (h : ¬ needle.toList <:+: pem.toList) :
      KeyRefused f bad needle m key (.msg m)
  | pem {pem : String} {e : PqcError} (hkey : Reads f key pem)
      (hneedle : needle.toList <:+: pem.toList) (h : bad pem e) :
      KeyRefused f bad needle m key (.pqc e)

/-- **Why a command refuses**: the first of the things it looks at that is wrong, and the error
it returns for it. -/
inductive Refuses (P : Platform) (answer : Answers) (f : Files PathBuf Bytes) :
    Command → CliError → Prop
  | level {algo : Algo} {n : UInt8} {out : PathBuf} {pub_key : Bool} (h : n ≠ 1 ∧ n ≠ 3 ∧ n ≠ 5) :
      Refuses P answer f (.Keygen algo n out pub_key)
        (.msg ("Invalid security level: " ++ toString n.toNat ++ ". Must be 1, 3, or 5."))
  | new_passphrase {algo : Algo} {n : UInt8} {out : PathBuf} {pub_key : Bool} {e : CliError}
      (hlevel : n = 1 ∨ n = 3 ∨ n = 5) (h : RefusesNew answer e) :
      Refuses P answer f (.Keygen algo n out pub_key) e
  | derivation {algo : Algo} {n : UInt8} {out : PathBuf} {pub_key : Bool} {pass : String}
      (hlevel : n = 1 ∨ n = 3 ∨ n = 5) (hpass : answer.Choose pass) (h : TooLong (utf8 pass)) :
      Refuses P answer f (.Keygen algo n out pub_key) (.pqc (.Other "Argon2 KDF failed"))
  | kem_key {key ct_out secret_out : PathBuf} {e : CliError}
      (h : KeyRefused f (BadKey KEM_LABEL (fun level => (P.kyber level).publicKeyBytes) kyberName)
        "ML-KEM" "Key file does not contain an ML-KEM public key" key e) :
      Refuses P answer f (.Encapsulate key ct_out secret_out) e
  | kem_bundle {key ct_path secret_out : PathBuf} {e : CliError}
      (h : OpenRefused P answer f (EncryptedKeyBundle.unseal_kem P) key e) :
      Refuses P answer f (.Decapsulate key ct_path secret_out) e
  | ciphertext_file {key ct_path secret_out : PathBuf} {kp : KemKeyPair}
      (hkey : Opens P answer f (EncryptedKeyBundle.unseal_kem P) key kp) (h : Unreadable f ct_path) :
      Refuses P answer f (.Decapsulate key ct_path secret_out) .io
  | ciphertext_hex {key ct_path secret_out : PathBuf} {kp : KemKeyPair} {text : String}
      {x : Hex.FromHexError} (hkey : Opens P answer f (EncryptedKeyBundle.unseal_kem P) key kp)
      (hct : Reads f ct_path text) (h : Hex.Malformed (Str.trim text.toList) x) :
      Refuses P answer f (.Decapsulate key ct_path secret_out) (.hex x)
  | ciphertext {key ct_path secret_out : PathBuf} {kp : KemKeyPair} {text : String} {ct : Bytes}
      (hkey : Opens P answer f (EncryptedKeyBundle.unseal_kem P) key kp) (hct : Reads f ct_path text)
      (hhex : HexText text ct) (h : ct.length ≠ kp.key_sizes.ciphertext) :
      Refuses P answer f (.Decapsulate key ct_path secret_out)
        (.pqc (.InvalidCiphertext ("Invalid " ++ kyberName kp.inner.level ++ " ciphertext")))
  | dsa_bundle {key file sig_out : PathBuf} {e : CliError}
      (h : OpenRefused P answer f (EncryptedKeyBundle.unseal_dsa P) key e) :
      Refuses P answer f (.Sign key file sig_out) e
  | message_file {key file sig_out : PathBuf} {kp : DsaKeyPair}
      (hkey : Opens P answer f (EncryptedKeyBundle.unseal_dsa P) key kp) (h : f.content file = none) :
      Refuses P answer f (.Sign key file sig_out) .io
  | dsa_key {key file sig : PathBuf} {e : CliError}
      (h : KeyRefused f
        (BadKey DSA_LABEL (fun level => (P.dilithium level).publicKeyBytes) dilithiumName)
        "ML-DSA" "Key file does not contain an ML-DSA public key" key e) :
      Refuses P answer f (.Verify key file sig) e
  | signed_file {key file sig : PathBuf} {k : DsaPublicKey}
      (hkey : Holds f (dsa_public_key_from_pem P) key k) (h : f.content file = none) :
      Refuses P answer f (.Verify key file sig) .io
  | signature_file {key file sig : PathBuf} {k : DsaPublicKey} {message : Bytes}
      (hkey : Holds f (dsa_public_key_from_pem P) key k) (hfile : f.content file = some message)
      (h : Unreadable f sig) : Refuses P answer f (.Verify key file sig) .io
  | signature_hex {key file sig : PathBuf} {k : DsaPublicKey} {message : Bytes} {text : String}
      {x : Hex.FromHexError} (hkey : Holds f (dsa_public_key_from_pem P) key k)
      (hfile : f.content file = some message) (hsig : Reads f sig text)
      (h : Hex.Malformed (Str.trim text.toList) x) :
      Refuses P answer f (.Verify key file sig) (.hex x)
  | document_file {key : PathBuf} (h : Unreadable f key) : Refuses P answer f (.Inspect key) .io
  | document {key : PathBuf} {text : String} (hkey : Reads f key text)
      (h : P.serdeJson.valueFromStr text = none) :
      Refuses P answer f (.Inspect key) (.json (P.serdeJson.valueErrorText text))

/-! ### Each call -/

section Calls

variable {P : Platform} {env : Env} {w : World} {e : CliError}

theorem run_err_lift {α : Type} {x : Outcome CliError α} :
    ((lift x : Cmd α) env w).1 = err e ↔ x = err e := Iff.rfl

theorem run_err_try {α : Type} {x : Result α} :
    (try_ x env w).1 = err e ↔ ∃ e', x = err e' ∧ e = .pqc e' := by
  rw [try_, run_err_lift, mapErr_eq_err]

theorem run_err_unseal {α : Type} {x : Result α} :
    ((lift (mapErr (fun _ => unsealFailed) x) : Cmd α) env w).1 = err e
      ↔ x.IsErr ∧ e = unsealFailed := by
  rw [run_err_lift, mapErr_eq_err, IsErr, exists_and_right]

theorem run_err_read (hio : env.NoIoError) {p : PathBuf} :
    (fs.read p env w).1 = err e ↔ w.files.content p = none ∧ e = .io := by
  unfold fs.read
  rw [hio w.calls]
  cases w.files.content p <;> simp [eq_comm]

theorem run_err_read_to_string (hio : env.NoIoError) {p : PathBuf} :
    (fs.read_to_string p env w).1 = err e ↔ Unreadable w.files p ∧ e = .io := by
  rw [fs.read_to_string, bind_run_eq_err, run_err_read hio]
  constructor
  · rintro (⟨hnone, rfl⟩ | ⟨c, w', hread, hend⟩)
    · exact ⟨fun text h => absurd (hnone.symm.trans h) (by simp), rfl⟩
    · obtain ⟨-, hc, rfl⟩ := run_read.mp hread
      cases hs : fromUtf8 c with
      | none =>
          rw [hs] at hend
          refine ⟨fun text h => ?_, (Outcome.err.inj hend).symm⟩
          rw [Option.some.inj (hc.symm.trans h), fromUtf8_utf8] at hs
          exact absurd hs (by simp)
      | some s =>
          rw [hs] at hend
          exact absurd hend (by simp [pure])
  · rintro ⟨hno, rfl⟩
    cases hc : w.files.content p with
    | none => exact .inl ⟨rfl, rfl⟩
    | some c =>
        refine .inr ⟨c, w.tick, run_read.mpr ⟨hio _, hc, rfl⟩, ?_⟩
        cases hs : fromUtf8 c with
        | none => rfl
        | some s => exact absurd (hc.trans (congrArg some (fromUtf8_eq_some.mp hs))) (hno s)

theorem run_err_prompt_password {text : String} :
    (prompt_password text env w).1 = err e ↔ env.answer text = none ∧ e = .io := by
  cases h : env.answer text with
  | none => simp [prompt_password_of_none h, eq_comm]
  | some s => simp [prompt_password_of_some h]

theorem run_err_prompt_passphrase :
    (prompt_passphrase env w).1 = err e ↔ RefusesPass env.answer e := by
  rw [prompt_passphrase, bind_run_eq_err, run_err_prompt_password]
  constructor
  · rintro (⟨hnone, rfl⟩ | ⟨s, w', hs, hend⟩)
    · exact .unanswered hnone
    · obtain ⟨hans, rfl⟩ := run_prompt_password.mp hs
      split_ifs at hend with hempty
      · obtain rfl := Outcome.err.inj hend
        exact .empty (hempty ▸ hans)
  · intro h
    cases h with
    | unanswered h => exact .inl ⟨h, rfl⟩
    | empty h =>
        refine .inr ⟨"", w, run_prompt_password.mpr ⟨h, rfl⟩, ?_⟩
        rw [if_pos rfl]
        rfl

theorem run_err_prompt_new_passphrase :
    (prompt_new_passphrase env w).1 = err e ↔ RefusesNew env.answer e := by
  rw [prompt_new_passphrase, bind_run_eq_err, run_err_prompt_password]
  constructor
  · rintro (⟨hnone, rfl⟩ | ⟨s, w', hs, hrest⟩)
    · exact .unanswered (.inl hnone)
    · obtain ⟨hans, rfl⟩ := run_prompt_password.mp hs
      rw [bind_run_eq_err, run_err_prompt_password] at hrest
      rcases hrest with ⟨hnone, rfl⟩ | ⟨t, w', ht, hend⟩
      · exact .unanswered (.inr hnone)
      · obtain ⟨hconf, rfl⟩ := run_prompt_password.mp ht
        split_ifs at hend with hempty hdiff
        · obtain rfl := Outcome.err.inj hend
          exact .empty (hempty ▸ hans) hconf
        · obtain rfl := Outcome.err.inj hend
          exact .differ hans hconf hempty hdiff
  · intro h
    cases h with
    | unanswered h =>
        cases hnew : env.answer "New passphrase: " with
        | none => exact .inl ⟨rfl, rfl⟩
        | some s =>
            have hnone := h.resolve_left (by simp [hnew])
            refine .inr ⟨s, w, run_prompt_password.mpr ⟨hnew, rfl⟩, bind_run_eq_err.mpr (.inl ?_)⟩
            exact run_err_prompt_password.mpr ⟨hnone, rfl⟩
    | empty hnew hconfirm =>
        refine .inr ⟨_, w, run_prompt_password.mpr ⟨hnew, rfl⟩, ?_⟩
        rw [bind_run_of_ok (run_prompt_password.mpr ⟨hconfirm, rfl⟩), if_pos rfl]
        rfl
    | differ hnew hconfirm hne h =>
        refine .inr ⟨_, w, run_prompt_password.mpr ⟨hnew, rfl⟩, ?_⟩
        rw [bind_run_of_ok (run_prompt_password.mpr ⟨hconfirm, rfl⟩), if_neg hne, if_pos h]
        rfl

theorem run_err_hex_decode_trimmed {text : String} :
    (hex_decode_trimmed text env w).1 = err e
      ↔ ∃ x, Hex.Malformed (Str.trim text.toList) x ∧ e = .hex x := by
  simp only [← Hex.decode_eq_error]
  unfold hex_decode_trimmed
  cases Hex.decode (Str.trim text.toList) with
  | ok bytes => simp [pure]
  | error x => simp [fail, lift, eq_comm]

theorem parse_level_eq_err {n : UInt8} :
    parse_level n = err e ↔ (n ≠ 1 ∧ n ≠ 3 ∧ n ≠ 5)
      ∧ e = .msg ("Invalid security level: " ++ toString n.toNat ++ ". Must be 1, 3, or 5.") := by
  unfold parse_level
  split_ifs with h1 h3 h5
  · simp [h1]
  · simp [h3]
  · simp [h5]
  · simp [h1, h3, h5, eq_comm]

theorem parse_level_isOk {n : UInt8} :
    (∃ level, parse_level n = ok level) ↔ n = 1 ∨ n = 3 ∨ n = 5 := by
  unfold parse_level
  split_ifs with h1 h3 h5
  · simp [h1]
  · simp [h3]
  · simp [h5]
  · simp [h1, h3, h5]

end Calls

/-! ### Each command -/

section Commands

variable {P : Platform} {env : Env} {w : World} {e : CliError}

/-- A command that starts with a bundle: the bundle is refused, or the rest refuses behind it. -/
theorem open_key_err {α : Type} (hio : env.NoIoError)
    {unsealAs : EncryptedKeyBundle → Bytes → Result α} {rest : α → Cmd Job} {key : PathBuf} :
    ((do
        let json ← fs.read_to_string key
        let passphrase ← prompt_passphrase
        let bundle ← try_ (EncryptedKeyBundle.from_json P json)
        let kp ← lift (mapErr (fun _ => unsealFailed) (unsealAs bundle (utf8 passphrase)))
        rest kp) env w).1 = err e
      ↔ OpenRefused P env.answer w.files unsealAs key e
        ∨ ∃ kp, Opens P env.answer w.files unsealAs key kp ∧ (rest kp env w.tick).1 = err e := by
  simp only [bind_run_eq_err, run_err_read_to_string hio, run_err_prompt_passphrase, run_err_try,
    run_err_unseal, EncryptedKeyBundle.from_json_eq_err]
  constructor
  · rintro (⟨hno, rfl⟩ | ⟨json, _, hread, hpass | ⟨pass, _, hprompt,
      hjson | ⟨bundle, _, htry, hrest⟩⟩⟩)
    · exact .inl (.file hno)
    · obtain ⟨-, hkey, rfl⟩ := run_read_to_string.mp hread
      exact .inl (.pass hkey hpass)
    · obtain ⟨-, hkey, rfl⟩ := run_read_to_string.mp hread
      obtain ⟨hans, hne, rfl⟩ := run_prompt_passphrase.mp hprompt
      obtain ⟨_, ⟨hnone, rfl⟩, rfl⟩ := hjson
      exact .inl (.json hkey ⟨hans, hne⟩ hnone)
    · obtain ⟨-, hkey, rfl⟩ := run_read_to_string.mp hread
      obtain ⟨hans, hne, rfl⟩ := run_prompt_passphrase.mp hprompt
      obtain ⟨hjson, rfl⟩ := run_try.mp htry
      rcases hrest with ⟨hunseal, rfl⟩ | ⟨kp, _, hlift, hrest⟩
      · exact .inl (.sealed hkey ⟨hans, hne⟩ hjson hunseal)
      · obtain ⟨hunseal, rfl⟩ := run_unseal.mp hlift
        exact .inr ⟨kp, ⟨json, pass, bundle, hkey, ⟨hans, hne⟩, hjson, hunseal⟩, hrest⟩
  · rintro (h | ⟨kp, ⟨json, pass, bundle, hkey, hpass, hjson, hunseal⟩, hrest⟩)
    · cases h with
      | file h => exact .inl ⟨h, rfl⟩
      | pass hkey h => exact .inr ⟨_, _, run_read_to_string.mpr ⟨hio _, hkey, rfl⟩, .inl h⟩
      | json hkey hpass h =>
          exact .inr ⟨_, _, run_read_to_string.mpr ⟨hio _, hkey, rfl⟩, .inr ⟨_, _,
            run_prompt_passphrase.mpr ⟨hpass.1, hpass.2, rfl⟩, .inl ⟨_, ⟨h, rfl⟩, rfl⟩⟩⟩
      | sealed hkey hpass hjson h =>
          exact .inr ⟨_, _, run_read_to_string.mpr ⟨hio _, hkey, rfl⟩, .inr ⟨_, _,
            run_prompt_passphrase.mpr ⟨hpass.1, hpass.2, rfl⟩, .inr ⟨_, _,
            run_try.mpr ⟨hjson, rfl⟩, .inl ⟨h, rfl⟩⟩⟩⟩
    · exact .inr ⟨_, _, run_read_to_string.mpr ⟨hio _, hkey, rfl⟩, .inr ⟨_, _,
        run_prompt_passphrase.mpr ⟨hpass.1, hpass.2, rfl⟩, .inr ⟨_, _,
        run_try.mpr ⟨hjson, rfl⟩, .inr ⟨kp, _, run_unseal.mpr ⟨hunseal, rfl⟩, hrest⟩⟩⟩⟩

/-- A command that starts with a public key. -/
theorem decode_key_err {α : Type} (hio : env.NoIoError) {fromPem : String → Result α}
    {bad : String → PqcError → Prop} (hbad : ∀ pem e, fromPem pem = err e ↔ bad pem e)
    {needle m : String}
    (hneedle : ∀ pem k, fromPem pem = ok k → Str.contains pem.toList needle.toList = true)
    {rest : α → Cmd Job} {key : PathBuf} :
    ((do
        let pem ← fs.read_to_string key
        if Str.contains pem.toList needle.toList then try_ (fromPem pem) >>= rest
        else fail (.msg m)) env w).1 = err e
      ↔ KeyRefused w.files bad needle m key e
        ∨ ∃ k, Holds w.files fromPem key k ∧ (rest k env w.tick).1 = err e := by
  simp only [bind_run_eq_err, run_err_read_to_string hio]
  constructor
  · rintro (⟨hno, rfl⟩ | ⟨pem, _, hread, hrest⟩)
    · exact .inl (.file hno)
    · obtain ⟨-, hkey, rfl⟩ := run_read_to_string.mp hread
      split_ifs at hrest with hgate
      · rw [bind_run_eq_err, run_err_try] at hrest
        rcases hrest with ⟨e', he', rfl⟩ | ⟨k, _, htry, hrest⟩
        · exact .inl (.pem hkey (Str.contains_iff.mp hgate) ((hbad _ _).mp he'))
        · obtain ⟨hk, rfl⟩ := run_try.mp htry
          exact .inr ⟨k, ⟨pem, hkey, hk⟩, hrest⟩
      · obtain rfl := Outcome.err.inj hrest
        exact .inl (.needle hkey fun h => hgate (Str.contains_iff.mpr h))
  · rintro (h | ⟨k, ⟨pem, hkey, hk⟩, hrest⟩)
    · cases h with
      | file h => exact .inl ⟨h, rfl⟩
      | needle hkey h =>
          refine .inr ⟨_, _, run_read_to_string.mpr ⟨hio _, hkey, rfl⟩, ?_⟩
          rw [if_neg fun hgate => h (Str.contains_iff.mp hgate)]
          rfl
      | pem hkey hin h =>
          refine .inr ⟨_, _, run_read_to_string.mpr ⟨hio _, hkey, rfl⟩, ?_⟩
          rw [if_pos (Str.contains_iff.mpr hin), bind_run_eq_err, run_err_try]
          exact .inl ⟨_, (hbad _ _).mpr h, rfl⟩
    · refine .inr ⟨_, _, run_read_to_string.mpr ⟨hio _, hkey, rfl⟩, ?_⟩
      rw [if_pos (hneedle pem k hk), bind_run_of_ok (run_try.mpr ⟨hk, rfl⟩)]
      exact hrest

/-- An arm of `keygen`, from its announcement on: only the derivation can fail. -/
theorem keygen_arm_err {K : Type} (hio : env.NoIoError) {generated : Result K} {kp : K}
    (hgen : generated = ok kp)
    {sealed : K → Result EncryptedKeyBundle} {pass : Bytes}
    (hseal : ∀ e, sealed kp = err e ↔ TooLong pass ∧ e = .Other "Argon2 KDF failed")
    {text : String} {job : K → EncryptedKeyBundle → Job} :
    ((do
        eprint text
        let kp ← try_ generated
        let bundle ← try_ (sealed kp)
        pure (job kp bundle)) env w).1 = err e
      ↔ TooLong pass ∧ e = .pqc (.Other "Argon2 KDF failed") := by
  rw [eprint, bind_run_of_ok ((run_print (u := ())).mpr ⟨hio _, rfl⟩),
    bind_run_of_ok (run_try.mpr ⟨hgen, rfl⟩), bind_run_eq_err, run_err_try]
  constructor
  · rintro (⟨e', he', rfl⟩ | ⟨_, _, -, hend⟩)
    · obtain ⟨hlong, rfl⟩ := (hseal e').mp he'
      exact ⟨hlong, rfl⟩
    · exact absurd hend (by simp [pure])
  · rintro ⟨hlong, rfl⟩
    exact .inl ⟨_, (hseal _).mpr ⟨hlong, rfl⟩, rfl⟩

theorem prepare_keygen_err (hK : P.KyberSizes) (hD : P.DilithiumSizes) (hP : P.Argon2Limits)
    (hE : P.AeadEncrypts) (hio : env.NoIoError) {algo : Algo} {n : UInt8} {out : PathBuf}
    {pub_key : Bool} :
    (prepare_keygen P algo n out pub_key env w).1 = err e
      ↔ Refuses P env.answer w.files (.Keygen algo n out pub_key) e := by
  have hkem : ∀ level pass e, EncryptedKeyBundle.seal_kem P _ pass env.salt env.nonce = err e
      ↔ TooLong pass ∧ e = .Other "Argon2 KDF failed" := fun level _ _ =>
    EncryptedKeyBundle.seal_kem_eq_err hP hE
      (KemKeyPair.generate_fits hK (KemKeyPair.generate_eq level env.entropy))
  have hdsa : ∀ level pass e, EncryptedKeyBundle.seal_dsa P _ pass env.salt env.nonce = err e
      ↔ TooLong pass ∧ e = .Other "Argon2 KDF failed" := fun level _ _ =>
    EncryptedKeyBundle.seal_dsa_eq_err hP hE
      (DsaKeyPair.generate_fits hD (DsaKeyPair.generate_eq level env.entropy))
  rw [prepare_keygen, bind_run_eq_err, run_err_lift, parse_level_eq_err]
  constructor
  · rintro (⟨h, rfl⟩ | ⟨level, _, hlift, hrest⟩)
    · exact .level h
    · obtain ⟨hlevel, rfl⟩ := run_lift.mp hlift
      have hn := parse_level_isOk.mp ⟨level, hlevel⟩
      rw [bind_run_eq_err, run_err_prompt_new_passphrase] at hrest
      rcases hrest with h | ⟨pass, _, hprompt, hrest⟩
      · exact .new_passphrase hn h
      · obtain ⟨hnew, hconf, hne, rfl⟩ := run_prompt_new_passphrase.mp hprompt
        rw [bind_run_of_ok (run_ask.mpr ⟨rfl, rfl⟩)] at hrest
        cases algo with
        | Kem =>
            obtain ⟨hlong, rfl⟩ :=
              (keygen_arm_err hio (KemKeyPair.generate_eq level _) (hkem level _)).mp hrest
            exact .derivation hn ⟨hnew, hconf, hne⟩ hlong
        | Dsa =>
            obtain ⟨hlong, rfl⟩ :=
              (keygen_arm_err hio (DsaKeyPair.generate_eq level _) (hdsa level _)).mp hrest
            exact .derivation hn ⟨hnew, hconf, hne⟩ hlong
  · intro h
    cases h with
    | level h => exact .inl ⟨h, rfl⟩
    | new_passphrase hn h =>
        obtain ⟨level, hlevel⟩ := parse_level_isOk.mpr hn
        exact .inr ⟨level, w, run_lift.mpr ⟨hlevel, rfl⟩,
          bind_run_eq_err.mpr (.inl (run_err_prompt_new_passphrase.mpr h))⟩
    | derivation hn hpass h =>
        obtain ⟨hnew, hconf, hne⟩ := hpass
        obtain ⟨level, hlevel⟩ := parse_level_isOk.mpr hn
        refine .inr ⟨level, w, run_lift.mpr ⟨hlevel, rfl⟩, ?_⟩
        rw [bind_run_of_ok (run_prompt_new_passphrase.mpr ⟨hnew, hconf, hne, rfl⟩),
          bind_run_of_ok (run_ask.mpr ⟨rfl, rfl⟩)]
        cases algo with
        | Kem =>
            refine (keygen_arm_err hio (KemKeyPair.generate_eq level _) (hkem level _)).mpr ?_
            exact ⟨h, rfl⟩
        | Dsa =>
            refine (keygen_arm_err hio (DsaKeyPair.generate_eq level _) (hdsa level _)).mpr ?_
            exact ⟨h, rfl⟩

theorem prepare_encapsulate_err (hK : P.KyberSizes) (hio : env.NoIoError)
    {key ct_out secret_out : PathBuf} :
    (prepare_encapsulate P key ct_out secret_out env w).1 = err e
      ↔ Refuses P env.answer w.files (.Encapsulate key ct_out secret_out) e := by
  refine (decode_key_err hio (fun _ _ => kem_public_key_from_pem_eq_err)
    fun pem k hk => contains_of_kem_from_pem hk).trans ?_
  constructor
  · rintro (h | ⟨k, ⟨pem, hkey, hk⟩, hrest⟩)
    · exact .kem_key h
    · -- A key that was read fits, so encapsulation to it does not fail.
      obtain ⟨ct, secret, henc, -, -⟩ :=
        (kem_public_key_from_pem_fits hK hk).encapsulate hK env.entropy
      rw [bind_run_of_ok (run_ask.mpr ⟨rfl, rfl⟩), bind_run_of_ok (run_try.mpr ⟨henc, rfl⟩)] at hrest
      exact absurd hrest (by simp [pure])
  · intro h
    cases h with
    | kem_key h => exact .inl h

theorem prepare_decapsulate_err (hK : P.KyberSizes) (hio : env.NoIoError)
    {key ct_path secret_out : PathBuf} :
    (prepare_decapsulate P key ct_path secret_out env w).1 = err e
      ↔ Refuses P env.answer w.files (.Decapsulate key ct_path secret_out) e := by
  refine (open_key_err hio).trans ?_
  simp only [bind_run_eq_err, run_err_read_to_string hio, run_err_hex_decode_trimmed, run_err_try]
  constructor
  · rintro (h | ⟨kp, hkey, ⟨hno, rfl⟩ | ⟨text, _, hread, ⟨x, hx, rfl⟩ | ⟨ct, _, hdecode, hdec⟩⟩⟩)
    · exact .kem_bundle h
    · exact .ciphertext_file hkey hno
    · obtain ⟨-, hct, rfl⟩ := run_read_to_string.mp hread
      exact .ciphertext_hex hkey hct hx
    · obtain ⟨-, hct, rfl⟩ := run_read_to_string.mp hread
      obtain ⟨hhex, rfl⟩ := run_hex_decode_trimmed.mp hdecode
      have hfits : kp.Fits := by
        obtain ⟨_, _, _, -, -, -, hunseal⟩ := hkey
        exact EncryptedKeyBundle.unseal_kem_fits hK hunseal
      rcases hdec with ⟨e', he', rfl⟩ | ⟨_, _, -, hend⟩
      · obtain ⟨hlen, rfl⟩ := (hfits.decapsulate_eq_err hK).mp he'
        exact .ciphertext hkey hct hhex hlen
      · exact absurd hend (by simp [pure])
  · intro h
    cases h with
    | kem_bundle h => exact .inl h
    | ciphertext_file hkey h => exact .inr ⟨_, hkey, .inl ⟨h, rfl⟩⟩
    | ciphertext_hex hkey hct h =>
        exact .inr ⟨_, hkey, .inr ⟨_, _, run_read_to_string.mpr ⟨hio _, hct, rfl⟩,
          .inl ⟨_, h, rfl⟩⟩⟩
    | ciphertext hkey hct hhex h =>
        refine .inr ⟨_, hkey, .inr ⟨_, _, run_read_to_string.mpr ⟨hio _, hct, rfl⟩,
          .inr ⟨_, _, run_hex_decode_trimmed.mpr ⟨hhex, rfl⟩, .inl ⟨_, ?_, rfl⟩⟩⟩⟩
        obtain ⟨_, _, _, -, -, -, hunseal⟩ := hkey
        exact ((EncryptedKeyBundle.unseal_kem_fits hK hunseal).decapsulate_eq_err hK).mpr ⟨h, rfl⟩

theorem prepare_sign_err (hD : P.DilithiumSizes) (hio : env.NoIoError)
    {key file sig_out : PathBuf} :
    (prepare_sign P key file sig_out env w).1 = err e
      ↔ Refuses P env.answer w.files (.Sign key file sig_out) e := by
  refine (open_key_err hio).trans ?_
  simp only [bind_run_eq_err, run_err_read hio]
  constructor
  · rintro (h | ⟨kp, hkey, ⟨hno, rfl⟩ | ⟨message, _, -, hrest⟩⟩)
    · exact .dsa_bundle h
    · exact .message_file hkey hno
    · -- A pair that was opened fits, so signing with it does not fail.
      obtain ⟨_, _, _, -, -, -, hunseal⟩ := hkey
      obtain ⟨signature, hsign⟩ :=
        (EncryptedKeyBundle.unseal_dsa_fits hD hunseal).sign hD message env.entropy
      rcases hrest with hask | ⟨_, _, hask, hrest⟩
      · exact absurd hask (by simp [ask])
      · obtain ⟨rfl, rfl⟩ := run_ask.mp hask
        rw [run_err_try, hsign] at hrest
        rcases hrest with ⟨e', he', -⟩ | ⟨_, _, -, hend⟩
        · exact absurd he' (by simp)
        · exact absurd hend (by simp [pure])
  · intro h
    cases h with
    | dsa_bundle h => exact .inl h
    | message_file hkey h => exact .inr ⟨_, hkey, .inl ⟨h, rfl⟩⟩

theorem prepare_verify_err (hio : env.NoIoError) {key file sig : PathBuf} :
    (prepare_verify P key file sig env w).1 = err e
      ↔ Refuses P env.answer w.files (.Verify key file sig) e := by
  refine (decode_key_err hio (fun _ _ => dsa_public_key_from_pem_eq_err)
    fun pem k hk => contains_of_dsa_from_pem hk).trans ?_
  simp only [bind_run_eq_err, run_err_read hio, run_err_read_to_string hio,
    run_err_hex_decode_trimmed]
  constructor
  · rintro (h | ⟨k, hkey, ⟨hno, rfl⟩ | ⟨message, _, hmessage, ⟨hno, rfl⟩ | ⟨text, _, hread, hrest⟩⟩⟩)
    · exact .dsa_key h
    · exact .signed_file hkey hno
    · obtain ⟨-, hfile, rfl⟩ := run_read.mp hmessage
      exact .signature_file hkey hfile hno
    · obtain ⟨-, hfile, rfl⟩ := run_read.mp hmessage
      obtain ⟨-, hsig, rfl⟩ := run_read_to_string.mp hread
      rcases hrest with ⟨x, hx, rfl⟩ | ⟨signature, _, -, hend⟩
      · exact .signature_hex hkey hfile hsig hx
      · -- Whatever the verdict is, it is a job.
        cases hverify : DsaKeyPair.verify_with_typed_key P k message signature with
        | ok u => exact absurd hend (by simp [hverify, pure])
        | err e' => exact absurd hend (by simp [hverify, pure])
        | panic => exact absurd hend (by simp [hverify, lift])
  · intro h
    cases h with
    | dsa_key h => exact .inl h
    | signed_file hkey h => exact .inr ⟨_, hkey, .inl ⟨h, rfl⟩⟩
    | signature_file hkey hfile h =>
        exact .inr ⟨_, hkey, .inr ⟨_, _, run_read.mpr ⟨hio _, hfile, rfl⟩, .inl ⟨h, rfl⟩⟩⟩
    | signature_hex hkey hfile hsig h =>
        exact .inr ⟨_, hkey, .inr ⟨_, _, run_read.mpr ⟨hio _, hfile, rfl⟩, .inr ⟨_, _,
          run_read_to_string.mpr ⟨hio _, hsig, rfl⟩, .inl ⟨_, h, rfl⟩⟩⟩⟩

theorem prepare_inspect_err (hio : env.NoIoError) {key : PathBuf} :
    (prepare_inspect P key env w).1 = err e ↔ Refuses P env.answer w.files (.Inspect key) e := by
  simp only [prepare_inspect, bind_run_eq_err, run_err_read_to_string hio, run_err_lift,
    okOr_eq_err]
  constructor
  · rintro (⟨hno, rfl⟩ | ⟨text, _, hread, ⟨hnone, rfl⟩ | ⟨_, _, -, hend⟩⟩)
    · exact .document_file hno
    · obtain ⟨-, hkey, rfl⟩ := run_read_to_string.mp hread
      exact .document hkey hnone
    · exact absurd hend (by simp [pure])
  · intro h
    cases h with
    | document_file h => exact .inl ⟨h, rfl⟩
    | document hkey h =>
        exact .inr ⟨_, _, run_read_to_string.mpr ⟨hio _, hkey, rfl⟩, .inl ⟨h, rfl⟩⟩

theorem prepare_err (hK : P.KyberSizes) (hD : P.DilithiumSizes) (hP : P.Argon2Limits)
    (hE : P.AeadEncrypts) (hio : env.NoIoError) {c : Command} :
    (prepare P c env w).1 = err e ↔ Refuses P env.answer w.files c e := by
  cases c with
  | Keygen algo n out pub_key =>
      exact prepare_keygen_err hK hD hP hE hio
  | Encapsulate key ct_out secret_out => exact prepare_encapsulate_err hK hio
  | Decapsulate key ct secret_out => exact prepare_decapsulate_err hK hio
  | Sign key file sig_out => exact prepare_sign_err hD hio
  | Verify key file sig => exact prepare_verify_err hio
  | Inspect key => exact prepare_inspect_err hio

/-- Without failing calls, what refuses is the preparation. -/
theorem run_err_of_noIoError (hK : P.KyberSizes) (hD : P.DilithiumSizes) (hP : P.Argon2Limits)
    (hE : P.AeadEncrypts) (hio : env.NoIoError) (he : e.IsReturned) {c : Command} :
    (run P c env w).1 = err e ↔ Refuses P env.answer w.files c e := by
  rw [run_eq, bind_run_eq_err, prepare_err hK hD hP hE hio]
  refine or_iff_left ?_
  rintro ⟨job, w', hprepare, hend⟩
  obtain ⟨hd, -, -⟩ := prepare_eq_ok.mp hprepare
  rcases carryOut_cases job env w' with ⟨hdone, -⟩ | ⟨_, _, _, _, -, hno, -⟩
  · rw [hdone] at hend
    rcases hd.ending with h | h
    · exact absurd (h.symm.trans hend) (by simp)
    · exact he 2 (Outcome.err.inj (hend.symm.trans h))
  · exact Bool.false_ne_true (hno.symm.trans (hio _))

/-- Where calls can fail, the run is the one without failures, or it stops at one. -/
theorem run_faultless_or (c : Command) (env : Env) (w : World) :
    run P c env w = run P c env.faultless w
      ∨ (run P c env w).1 = err .io ∨ (run P c env w).1 = panic := by
  have hstops : StopsAtFault env (run P c) := stops_run c
  by_cases hserved : ioCalls.Served env w.calls (run P c env.faultless w).2.calls
  · exact .inl (hstops.served w hserved)
  · obtain ⟨k, hk⟩ := Calls.exists_firstFault hserved
    obtain ⟨e, hend, -, hbehind⟩ := hstops.fault w k hk
    have hbehind : World.StopsBefore e (run P c env w).2 (run P c env.faultless w).2 := hbehind
    cases hbehind with
    | io _ => exact .inr (.inl hend)
    | print _ _ => exact .inr (.inr hend)

theorem BadPem.other {label pem : String} {p : PqcError} (h : BadPem label pem p) :
    ∃ m, p = .Other m := by
  cases h with
  | _ => exact ⟨_, rfl⟩

/-- The errors of the crate that a command returns are three of its ten. -/
theorem Refuses.pqc {answer : Answers} {f : Files PathBuf Bytes} {c : Command} {p : PqcError}
    (h : Refuses P answer f c (.pqc p)) :
    ∃ m, p = .Other m ∨ p = .InvalidKey m ∨ p = .InvalidCiphertext m := by
  have hkey {label : String} {size : SecurityLevel → ℕ} {name : SecurityLevel → String}
      {needle m : String} {key : PathBuf}
      (h : KeyRefused f (BadKey label size name) needle m key (.pqc p)) :
      ∃ m, p = .Other m ∨ p = .InvalidKey m ∨ p = .InvalidCiphertext m := by
    cases h with
    | pem _ _ h =>
        rcases h with h | ⟨_, _, _, _, -, -, -, -, rfl⟩
        · obtain ⟨m, rfl⟩ := h.other
          exact ⟨m, .inl rfl⟩
        · exact ⟨_, .inr (.inl rfl)⟩
  have hopen {α : Type} {unsealAs : EncryptedKeyBundle → Bytes → Result α} {key : PathBuf}
      (h : OpenRefused P answer f unsealAs key (.pqc p)) :
      ∃ m, p = .Other m ∨ p = .InvalidKey m ∨ p = .InvalidCiphertext m := by
    cases h with
    | pass _ h => cases h
    | json => exact ⟨_, .inl rfl⟩
  cases h with
  | new_passphrase _ h => cases h
  | derivation => exact ⟨_, .inl rfl⟩
  | kem_key h => exact hkey h
  | kem_bundle h => exact hopen h
  | ciphertext => exact ⟨_, .inr (.inr rfl)⟩
  | dsa_bundle h => exact hopen h
  | dsa_key h => exact hkey h

/-- **Which error a run returns**: the one for the first thing that is wrong among those the
command looks at, unless a read or a write failed before. Without failing calls that is
all there is to it; the randomness has no part in it. Of the errors of the crate it is one of
three. -/
theorem run_refuses (hK : P.KyberSizes) (hD : P.DilithiumSizes) (hP : P.Argon2Limits)
    (hE : P.AeadEncrypts) (c : Command) (env : Env) (w : World) {e : CliError} (he : e.IsReturned) :
    ((run P c env w).1 = err e → e = .io ∨ Refuses P env.answer w.files c e)
      ∧ (env.NoIoError → ((run P c env w).1 = err e ↔ Refuses P env.answer w.files c e))
      ∧ ∀ p, (run P c env w).1 = err (.pqc p) →
        ∃ m, p = .Other m ∨ p = .InvalidKey m ∨ p = .InvalidCiphertext m := by
  have hfaults : ∀ e : CliError, e.IsReturned → (run P c env w).1 = err e →
      e = .io ∨ Refuses P env.answer w.files c e := by
    intro e he h
    rcases run_faultless_or (P := P) c env w with hsame | hio | hpanic
    · rw [hsame] at h
      have hclean : env.faultless.NoIoError := fun _ => rfl
      exact .inr ((run_err_of_noIoError hK hD hP hE hclean he).mp h)
    · exact .inl (Outcome.err.inj (h.symm.trans hio))
    · exact absurd (h.symm.trans hpanic) (by simp)
  refine ⟨hfaults e he, fun hio => run_err_of_noIoError hK hD hP hE hio he, fun p h => ?_⟩
  rcases hfaults _ (isReturned_pqc p) h with hio | hrefuses
  · exact absurd hio (by simp)
  · exact hrefuses.pqc

end Commands

/-- A PEM file that was cut off. -/
theorem run_refuses_sample :
    (run samplePlatform (.Encapsulate (samplePath "key") (samplePath "ct") (samplePath "secret"))
        (sampleEnv 0 fun _ => true) (oneFile (pemBegin KEM_LABEL))).1
      = err (.pqc (.Other ("Missing PEM footer: " ++ pemEnd KEM_LABEL))) := by
  have hnoEnd : ¬ (pemEnd KEM_LABEL).toList <:+: (pemBegin KEM_LABEL).toList :=
    Str.contains_eq_false.mp (by decide)
  have hneedle : "ML-KEM".toList <:+: (pemBegin KEM_LABEL).toList :=
    Str.contains_iff.mp (by decide)
  refine ((run_refuses Sample.kyberSizes Sample.dilithiumSizes Sample.argon2Limits
    Sample.aeadEncrypts _ _ _ (isReturned_pqc _)).2.1 fun _ => rfl).mpr ?_
  exact .kem_key (.pem (content_oneFile _) hneedle (.inl (.noFooter List.infix_rfl hnoEnd)))

end PqcVault
