/-
`Cli.lean` -- `bin/pqc-vault.rs`: the six commands.

A command is a `Program` over a process: it is answered at prompts, draws
randomness, reads and writes files and prints. Every read, every write and every
print may fail, which ones is up to the environment. A read or a write that fails
is an error, a print that fails is a panic; a write that fails leaves its target
as it was. An error stops the command where it stands and what was written stays
written.

`process::exit(2)`, which `verify` calls on a bad signature, is kept apart from
the errors a command returns by its own constructor.
-/
import PqcVault.Lib.Files
import PqcVault.Lib.Program
import PqcVault.Pem
import PqcVault.Serial

set_option autoImplicit false

namespace PqcVault

open Rust Outcome Program Utf8

/-! ## The process -/

/-- What a command can end in besides success: the errors it boxes, and
`process::exit`. -/
inductive CliError where
  | io
  | pqc (e : PqcError)
  | hex (e : Hex.FromHexError)
  | json (m : String)
  | msg (m : String)
  | exit (code : ℕ)

/-- Where a line goes. -/
inductive Stream where
  | stdout
  | stderr
  deriving DecidableEq

/-- What a command is run in: the answers at the prompts, the randomness it
draws, and which of its calls succeed, the reads, writes and prints counted
together. -/
structure Env where
  answer : String → Option String
  entropy : Entropy
  salt : FixedArray UInt8 16
  nonce : FixedArray UInt8 12
  io : ℕ → Bool

/-- What a command changes: the files, the number of calls so far, and the
terminal. What a panic itself has to say on stderr is not recorded. -/
structure World where
  files : Files PathBuf Bytes
  calls : ℕ
  console : List (Stream × String)

/-- A command, or a part of one. -/
abbrev Cmd (α : Type) := Program Env World CliError α

instance : LawfulMonad Cmd := inferInstanceAs (LawfulMonad (Program Env World CliError))

/-- A process that starts on these files. -/
def World.start (f : Files PathBuf Bytes) : World := { files := f, calls := 0, console := [] }

namespace World

/-- A call, whatever it does. -/
def tick (w : World) : World := { w with calls := w.calls + 1 }

/-- A print that goes through. -/
def say (w : World) (stream : Stream) (text : String) : World :=
  { w.tick with console := w.console ++ [(stream, text)] }

@[simp] theorem files_tick (w : World) : w.tick.files = w.files := rfl

@[simp] theorem files_say (w : World) (stream : Stream) (text : String) :
    (w.say stream text).files = w.files := rfl

end World

/-! ## The calls a command makes -/

namespace fs

def read (p : PathBuf) : Cmd Bytes := fun env w =>
  match env.io w.calls, w.files.content p with
  | true, some c => (ok c, w.tick)
  | _, _ => (err .io, w.tick)

/-- The contents have to be UTF-8. -/
def read_to_string (p : PathBuf) : Cmd String := do
  let c ← read p
  match fromUtf8 c with
  | some s => pure s
  | none => fail .io

def write (p : PathBuf) (s : String) : Cmd Unit := fun env w =>
  if env.io w.calls then (ok (), { w.tick with files := w.files.write p (utf8 s) })
  else (err .io, w.tick)

end fs

/-- What `print!`, `println!`, `eprint!` and `eprintln!` come to: they panic when the
stream cannot be written. A print that fails counts as none, though some of its
text may be out. -/
def print (stream : Stream) (text : String) : Cmd Unit := fun env w =>
  if env.io w.calls then (ok (), w.say stream text) else (panic, w.tick)

def eprint (text : String) : Cmd Unit := print .stderr text

def eprintln (text : String) : Cmd Unit := print .stderr (text ++ "\n")

def println (text : String) : Cmd Unit := print .stdout (text ++ "\n")

/-- `rpassword::prompt_password`. -/
def prompt_password (text : String) : Cmd String := do
  let env ← ask
  match env.answer text with
  | some s => pure s
  | none => fail .io

/-- `?` on a result of the library. -/
def try_ {α : Type} (x : Result α) : Cmd α := lift (mapErr .pqc x)

/-! ## Helpers -/

/-- `Algo`. -/
inductive Algo where
  | Kem
  | Dsa
  deriving DecidableEq

def parse_level (n : UInt8) : Outcome CliError SecurityLevel :=
  if n = 1 then ok .Level1
  else if n = 3 then ok .Level3
  else if n = 5 then ok .Level5
  else err (.msg ("Invalid security level: " ++ toString n.toNat ++ ". Must be 1, 3, or 5."))

def level_num : SecurityLevel → UInt8
  | .Level1 => 1
  | .Level3 => 3
  | .Level5 => 5

def pub_path (key_path : PathBuf) : PathBuf :=
  let name := fromUtf8Lossy (key_path.file_name.getD [])
  key_path.set_file_name (utf8 (name ++ ".pub"))

theorem pub_path_of_name {out : PathBuf} {n : Bytes} (h : out.name = some n) :
    pub_path out = { out with name := some (utf8 (fromUtf8Lossy n) ++ utf8 ".pub") } := by
  simp only [pub_path, PathBuf.file_name, PathBuf.set_file_name, h, Option.getD_some,
    utf8_append]

def prompt_passphrase : Cmd String := do
  let pass ← prompt_password "Passphrase: "
  if pass = "" then fail (.msg "Passphrase cannot be empty")
  else pure pass

def prompt_new_passphrase : Cmd String := do
  let pass ← prompt_password "New passphrase: "
  let confirm ← prompt_password "Confirm passphrase: "
  if pass = "" then fail (.msg "Passphrase cannot be empty")
  else if pass ≠ confirm then fail (.msg "Passphrases do not match")
  else pure pass

/-- The end of both arms of `cmd_keygen`: the private key, then the public one. -/
def write_key_files (out : PathBuf) (json pem : String) (write_pub : Bool) : Cmd Unit := do
  fs.write out json
  eprintln "done"
  eprintln ("Private key written to: " ++ out.display)
  if write_pub then
    let pub := pub_path out
    fs.write pub pem
    eprintln ("Public key written to:  " ++ pub.display)
  else
    pure ()

/-! ## The commands -/

section Commands

variable (P : Platform)

def cmd_keygen (algo : Algo) (level : UInt8) (out : PathBuf) (write_pub : Bool) : Cmd Unit := do
  let level ← lift (parse_level level)
  let passphrase ← prompt_new_passphrase
  let env ← ask
  match algo with
  | .Kem =>
      eprint ("Generating ML-KEM key pair (level " ++ toString (level_num level).toNat ++ ")... ")
      let kp ← try_ (KemKeyPair.generate P level env.entropy)
      let pub_key := kp.public_key
      let bundle ← try_ (EncryptedKeyBundle.seal_kem P kp (utf8 passphrase) env.salt env.nonce)
      write_key_files out (bundle.to_json P) (kem_public_key_to_pem pub_key) write_pub
  | .Dsa =>
      eprint ("Generating ML-DSA key pair (level " ++ toString (level_num level).toNat ++ ")... ")
      let kp ← try_ (DsaKeyPair.generate P level env.entropy)
      let pub_key := kp.public_key
      let bundle ← try_ (EncryptedKeyBundle.seal_dsa P kp (utf8 passphrase) env.salt env.nonce)
      write_key_files out (bundle.to_json P) (dsa_public_key_to_pem pub_key) write_pub

/-- `hex::encode`, as the `String` that is written. -/
def hex_encode (bytes : Bytes) : String := String.ofList (Hex.encode bytes)

/-- `hex::decode(text.trim())?`. -/
def hex_decode_trimmed (text : String) : Cmd Bytes :=
  match Hex.decode (Str.trim text.toList) with
  | .ok bytes => pure bytes
  | .error e => fail (.hex e)

def cmd_encapsulate (key_path ct_out secret_out : PathBuf) : Cmd Unit := do
  let pem ← fs.read_to_string key_path
  if Str.contains pem.toList "ML-KEM".toList then
    let pub_key ← try_ (kem_public_key_from_pem P pem)
    let env ← ask
    let (ct, secret) ← try_ (KemKeyPair.encapsulate P pub_key env.entropy)
    fs.write ct_out (hex_encode ct)
    -- If this one fails, the ciphertext stays where it was written.
    fs.write secret_out (hex_encode secret.bytes)
    eprintln ("Ciphertext written to:    " ++ ct_out.display)
    eprintln ("Shared secret written to: " ++ secret_out.display)
    eprintln ("Shared secret is " ++ toString secret.bytes.length ++ " bytes.")
  else
    fail (.msg "Key file does not contain an ML-KEM public key")

/-- The message both `unseal` calls of the commands replace their error by. -/
def unsealFailed : CliError :=
  .msg "Decryption failed — wrong passphrase or corrupted key file"

def cmd_decapsulate (key_path ct_path secret_out : PathBuf) : Cmd Unit := do
  let json ← fs.read_to_string key_path
  let passphrase ← prompt_passphrase
  let bundle ← try_ (EncryptedKeyBundle.from_json P json)
  let kp ← lift (mapErr (fun _ => unsealFailed) (bundle.unseal_kem P (utf8 passphrase)))
  let ct_hex ← fs.read_to_string ct_path
  let ct ← hex_decode_trimmed ct_hex
  let secret ← try_ (kp.decapsulate P ct)
  fs.write secret_out (hex_encode secret.bytes)
  eprintln ("Shared secret written to: " ++ secret_out.display)
  eprintln ("Shared secret is " ++ toString secret.bytes.length ++ " bytes.")

def cmd_sign (key_path file_path sig_out : PathBuf) : Cmd Unit := do
  let json ← fs.read_to_string key_path
  let passphrase ← prompt_passphrase
  let bundle ← try_ (EncryptedKeyBundle.from_json P json)
  let kp ← lift (mapErr (fun _ => unsealFailed) (bundle.unseal_dsa P (utf8 passphrase)))
  let message ← fs.read file_path
  let env ← ask
  let signature ← try_ (kp.sign P message env.entropy)
  fs.write sig_out (hex_encode signature)
  eprintln ("Signed " ++ file_path.display ++ " (" ++ toString message.length ++ " bytes)")
  eprintln ("Signature written to: " ++ sig_out.display)

def cmd_verify (key_path file_path sig_path : PathBuf) : Cmd Unit := do
  let pem ← fs.read_to_string key_path
  if Str.contains pem.toList "ML-DSA".toList then
    let pub_key ← try_ (dsa_public_key_from_pem P pem)
    let message ← fs.read file_path
    let sig_hex ← fs.read_to_string sig_path
    let sig ← hex_decode_trimmed sig_hex
    match DsaKeyPair.verify_with_typed_key P pub_key message sig with
    | .ok () =>
        println "Signature valid."
        println ("  File:   " ++ file_path.display)
        println ("  Key:    " ++ key_path.display)
    | .err _ =>
        -- Any error of `verify` is reported as a bad signature.
        eprintln "Signature INVALID."
        eprintln "  The file may have been modified, or the wrong key was used."
        fail (.exit 2)
    | .panic => lift .panic
  else
    fail (.msg "Key file does not contain an ML-DSA public key")

end Commands

/-! ### Inspecting a bundle -/

/-- The algorithm `inspect` reports for a kind. -/
def inspectAlgo (kind : String) : String :=
  if kind = "kem" then "ML-KEM (Kyber)"
  else if kind = "dsa" then "ML-DSA (Dilithium)"
  else "Unknown"

/-- The variant `inspect` reports for a kind and a level. -/
def inspectVariant (kind : String) (level : ℕ) : String :=
  if kind = "kem" ∧ level = 1 then "Kyber512  (~AES-128)"
  else if kind = "kem" ∧ level = 3 then "Kyber768  (~AES-192)"
  else if kind = "kem" ∧ level = 5 then "Kyber1024 (~AES-256)"
  else if kind = "dsa" ∧ level = 1 then "Dilithium2 (~AES-128)"
  else if kind = "dsa" ∧ level = 3 then "Dilithium3 (~AES-192)"
  else if kind = "dsa" ∧ level = 5 then "Dilithium5 (~AES-256)"
  else "Unknown"

section Commands

variable (P : Platform)

def cmd_inspect (key_path : PathBuf) : Cmd Unit := do
  let text ← fs.read_to_string key_path
  let json ← lift (okOr (P.serdeJson.valueFromStr text) (.json (P.serdeJson.valueErrorText text)))
  -- The bundle is not parsed as one: its fields are looked up in whatever JSON this is.
  let kind := ((json.index "kind").as_str).getD "unknown"
  let level := ((json.index "level").as_u64).getD 0
  println ("Key bundle: " ++ key_path.display)
  println ("  Algorithm:      " ++ inspectAlgo kind)
  println ("  Variant:        " ++ inspectVariant kind level)
  println ("  Security level: " ++ toString level)
  println "  Encryption:     AES-256-GCM"
  println "  KDF:            Argon2id (64MB, 3 iterations)"
  println "  Format:         Encrypted JSON bundle"

/-- `Command`. -/
inductive Command where
  | Keygen (algo : Algo) (level : UInt8) (out : PathBuf) (pub_key : Bool)
  | Encapsulate (key ct_out secret_out : PathBuf)
  | Decapsulate (key ct secret_out : PathBuf)
  | Sign (key file sig_out : PathBuf)
  | Verify (key file sig : PathBuf)
  | Inspect (key : PathBuf)

def run : Command → Cmd Unit
  | .Keygen algo level out pub_key => cmd_keygen P algo level out pub_key
  | .Encapsulate key ct_out secret_out => cmd_encapsulate P key ct_out secret_out
  | .Decapsulate key ct secret_out => cmd_decapsulate P key ct secret_out
  | .Sign key file sig_out => cmd_sign P key file sig_out
  | .Verify key file sig => cmd_verify P key file sig
  | .Inspect key => cmd_inspect P key

end Commands

end PqcVault
