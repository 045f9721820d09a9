/-
`CliJob.lean` -- what a command decides, and what it then does.

No command reads a file after it has written one. So each of them comes apart in
two: it reads, asks and computes until it knows every text it will write or print,
and then it carries that out. `prepare` is the first part and ends in a `Job`,
`Job.carryOut` is the second, and `run_eq` says that a command is the one followed
by the other. What each call of the first part goes through is listed at the end.
-/
import PqcVault.Inspect

set_option autoImplicit false

namespace PqcVault

open Rust Outcome Program Utf8

/-! ## The two parts of a command -/

section Parts

variable (P : Platform)

/-- The effects at the end of both arms of `cmd_keygen`. -/
def keygenJob (out : PathBuf) (json pem : String) (write_pub : Bool) : Job where
  acts := [.write out json, .print .stderr "done\n",
      .print .stderr ("Private key written to: " ++ out.display ++ "\n")]
    ++ if write_pub then [.write (pub_path out) pem,
        .print .stderr ("Public key written to:  " ++ (pub_path out).display ++ "\n")] else []
  ending := ok ()

def encapsulateJob (ct_out secret_out : PathBuf) (ct : Bytes) (secret : SharedSecretKey) : Job where
  acts := [.write ct_out (hex_encode ct), .write secret_out (hex_encode secret.bytes),
    .print .stderr ("Ciphertext written to:    " ++ ct_out.display ++ "\n"),
    .print .stderr ("Shared secret written to: " ++ secret_out.display ++ "\n"),
    .print .stderr ("Shared secret is " ++ toString secret.bytes.length ++ " bytes." ++ "\n")]
  ending := ok ()

def decapsulateJob (secret_out : PathBuf) (secret : SharedSecretKey) : Job where
  acts := [.write secret_out (hex_encode secret.bytes),
    .print .stderr ("Shared secret written to: " ++ secret_out.display ++ "\n"),
    .print .stderr ("Shared secret is " ++ toString secret.bytes.length ++ " bytes." ++ "\n")]
  ending := ok ()

def signJob (file_path sig_out : PathBuf) (message signature : Bytes) : Job where
  acts := [.write sig_out (hex_encode signature),
    .print .stderr ("Signed " ++ file_path.display ++ " (" ++ toString message.length ++ " bytes)"
      ++ "\n"),
    .print .stderr ("Signature written to: " ++ sig_out.display ++ "\n")]
  ending := ok ()

def validJob (key_path file_path : PathBuf) : Job where
  acts := [.print .stdout ("Signature valid." ++ "\n"),
    .print .stdout ("  File:   " ++ file_path.display ++ "\n"),
    .print .stdout ("  Key:    " ++ key_path.display ++ "\n")]
  ending := ok ()

def invalidJob : Job where
  acts := [.print .stderr ("Signature INVALID." ++ "\n"),
    .print .stderr ("  The file may have been modified, or the wrong key was used." ++ "\n")]
  ending := err (.exit 2)

/-- The report of `inspect` on a document. -/
def inspectJob (key_path : PathBuf) (json : Json) : Job where
  acts :=
    let kind := ((json.index "kind").as_str).getD "unknown"
    let level := ((json.index "level").as_u64).getD 0
    (inspectReport key_path (inspectAlgo kind) (inspectVariant kind level) level).map
      fun l => .print .stdout (l ++ "\n")
  ending := ok ()

def prepare_keygen (algo : Algo) (level : UInt8) (out : PathBuf) (write_pub : Bool) : Cmd Job := do
  let level ← lift (parse_level level)
  let passphrase ← prompt_new_passphrase
  let env ← ask
  match algo with
  | .Kem =>
      eprint ("Generating ML-KEM key pair (level " ++ toString (level_num level).toNat ++ ")... ")
      let kp ← try_ (KemKeyPair.generate P level env.entropy)
      let bundle ← try_ (EncryptedKeyBundle.seal_kem P kp (utf8 passphrase) env.salt env.nonce)
      pure (keygenJob out (bundle.to_json P) (kem_public_key_to_pem kp.public_key) write_pub)
  | .Dsa =>
      eprint ("Generating ML-DSA key pair (level " ++ toString (level_num level).toNat ++ ")... ")
      let kp ← try_ (DsaKeyPair.generate P level env.entropy)
      let bundle ← try_ (EncryptedKeyBundle.seal_dsa P kp (utf8 passphrase) env.salt env.nonce)
      pure (keygenJob out (bundle.to_json P) (dsa_public_key_to_pem kp.public_key) write_pub)

def prepare_encapsulate (key_path ct_out secret_out : PathBuf) : Cmd Job := do
  let pem ← fs.read_to_string key_path
  if Str.contains pem.toList "ML-KEM".toList then
    let pub_key ← try_ (kem_public_key_from_pem P pem)
    let env ← ask
    let (ct, secret) ← try_ (KemKeyPair.encapsulate P pub_key env.entropy)
    pure (encapsulateJob ct_out secret_out ct secret)
  else
    fail (.msg "Key file does not contain an ML-KEM public key")

def prepare_decapsulate (key_path ct_path secret_out : PathBuf) : Cmd Job := do
  let json ← fs.read_to_string key_path
  let passphrase ← prompt_passphrase
  let bundle ← try_ (EncryptedKeyBundle.from_json P json)
  let kp ← lift (mapErr (fun _ => unsealFailed) (bundle.unseal_kem P (utf8 passphrase)))
  let ct_hex ← fs.read_to_string ct_path
  let ct ← hex_decode_trimmed ct_hex
  let secret ← try_ (kp.decapsulate P ct)
  pure (decapsulateJob secret_out secret)

def prepare_sign (key_path file_path sig_out : PathBuf) : Cmd Job := do
  let json ← fs.read_to_string key_path
  let passphrase ← prompt_passphrase
  let bundle ← try_ (EncryptedKeyBundle.from_json P json)
  let kp ← lift (mapErr (fun _ => unsealFailed) (bundle.unseal_dsa P (utf8 passphrase)))
  let message ← fs.read file_path
  let env ← ask
  let signature ← try_ (kp.sign P message env.entropy)
  pure (signJob file_path sig_out message signature)

def prepare_verify (key_path file_path sig_path : PathBuf) : Cmd Job := do
  let pem ← fs.read_to_string key_path
  if Str.contains pem.toList "ML-DSA".toList then
    let pub_key ← try_ (dsa_public_key_from_pem P pem)
    let message ← fs.read file_path
    let sig_hex ← fs.read_to_string sig_path
    let sig ← hex_decode_trimmed sig_hex
    match DsaKeyPair.verify_with_typed_key P pub_key message sig with
    | .ok () => pure (validJob key_path file_path)
    | .err _ => pure invalidJob
    | .panic => lift .panic
  else
    fail (.msg "Key file does not contain an ML-DSA public key")

def prepare_inspect (key_path : PathBuf) : Cmd Job := do
  let text ← fs.read_to_string key_path
  let json ← lift (okOr (P.serdeJson.valueFromStr text) (.json (P.serdeJson.valueErrorText text)))
  pure (inspectJob key_path json)

/-- A command up to its first write. -/
def prepare : Command → Cmd Job
  | .Keygen algo level out pub_key => prepare_keygen P algo level out pub_key
  | .Encapsulate key ct_out secret_out => prepare_encapsulate P key ct_out secret_out
  | .Decapsulate key ct secret_out => prepare_decapsulate P key ct secret_out
  | .Sign key file sig_out => prepare_sign P key file sig_out
  | .Verify key file sig => prepare_verify P key file sig
  | .Inspect key => prepare_inspect P key

end Parts

section Equations

variable {P : Platform}

theorem write_key_files_eq (out : PathBuf) (json pem : String) (write_pub : Bool) :
    write_key_files out json pem write_pub = (keygenJob out json pem write_pub).carryOut := by
  rw [keygenJob, carryOut_ok]
  cases write_pub with
  | true =>
      simp only [write_key_files, if_true, List.cons_append, List.nil_append, performAll,
        Act.perform, bind_pure_unit]
      rfl
  | false => rfl

theorem cmd_keygen_eq (algo : Algo) (level : UInt8) (out : PathBuf) (write_pub : Bool) :
    cmd_keygen P algo level out write_pub
      = (prepare_keygen P algo level out write_pub >>= Job.carryOut) := by
  cases algo with
  | Kem => simp only [cmd_keygen, prepare_keygen, bind_assoc, pure_bind, write_key_files_eq]
  | Dsa => simp only [cmd_keygen, prepare_keygen, bind_assoc, pure_bind, write_key_files_eq]

theorem cmd_encapsulate_eq (key_path ct_out secret_out : PathBuf) :
    cmd_encapsulate P key_path ct_out secret_out
      = (prepare_encapsulate P key_path ct_out secret_out >>= Job.carryOut) := by
  rw [cmd_encapsulate, prepare_encapsulate, bind_assoc]
  refine bind_congr fun pem => ?_
  split_ifs with hgate
  · simp only [bind_assoc, pure_bind, encapsulateJob, carryOut_ok, performAll, Act.perform,
      bind_pure_unit]
    rfl
  · rfl

theorem cmd_decapsulate_eq (key_path ct_path secret_out : PathBuf) :
    cmd_decapsulate P key_path ct_path secret_out
      = (prepare_decapsulate P key_path ct_path secret_out >>= Job.carryOut) := by
  simp only [cmd_decapsulate, prepare_decapsulate, bind_assoc, pure_bind, decapsulateJob,
    carryOut_ok, performAll, Act.perform, bind_pure_unit]
  rfl

theorem cmd_sign_eq (key_path file_path sig_out : PathBuf) :
    cmd_sign P key_path file_path sig_out
      = (prepare_sign P key_path file_path sig_out >>= Job.carryOut) := by
  simp only [cmd_sign, prepare_sign, bind_assoc, pure_bind, signJob, carryOut_ok, performAll,
    Act.perform, bind_pure_unit]
  rfl

theorem cmd_verify_eq (key_path file_path sig_path : PathBuf) :
    cmd_verify P key_path file_path sig_path
      = (prepare_verify P key_path file_path sig_path >>= Job.carryOut) := by
  rw [cmd_verify, prepare_verify, bind_assoc]
  refine bind_congr fun pem => ?_
  split_ifs with hgate
  · simp only [bind_assoc]
    refine bind_congr fun pub_key => bind_congr fun message => ?_
    refine bind_congr fun sig_hex => bind_congr fun sig => ?_
    -- The verdict is the last thing that is computed.
    cases DsaKeyPair.verify_with_typed_key P pub_key message sig with
    | ok u =>
        simp only [pure_bind, validJob, carryOut_ok, performAll, Act.perform, bind_pure_unit]
        rfl
    | err e =>
        simp only [pure_bind, invalidJob, Job.carryOut, performAll, Act.perform, bind_assoc]
        rfl
    | panic => rfl
  · rfl

theorem cmd_inspect_eq_prepare (key_path : PathBuf) :
    cmd_inspect P key_path = (prepare_inspect P key_path >>= Job.carryOut) := by
  simp only [cmd_inspect, prepare_inspect, bind_assoc, pure_bind, inspectJob, carryOut_ok,
    inspectReport, List.map_cons, List.map_nil, performAll, Act.perform, bind_pure_unit]
  rfl

/-- **A command decides, and then does what it decided.** -/
theorem run_eq (c : Command) : run P c = (prepare P c >>= Job.carryOut) := by
  cases c with
  | Keygen algo level out pub_key => exact cmd_keygen_eq algo level out pub_key
  | Encapsulate key ct_out secret_out => exact cmd_encapsulate_eq key ct_out secret_out
  | Decapsulate key ct secret_out => exact cmd_decapsulate_eq key ct secret_out
  | Sign key file sig_out => exact cmd_sign_eq key file sig_out
  | Verify key file sig => exact cmd_verify_eq key file sig
  | Inspect key => exact cmd_inspect_eq_prepare key

end Equations

/-! ## What a step went through

Each call a command makes, run from here, and when it goes on. -/

section Steps

variable {env : Env} {w w' : World}

theorem run_lift {α : Type} {x : Outcome CliError α} {a : α} :
    (lift x : Cmd α) env w = (ok a, w') ↔ x = ok a ∧ w' = w := by
  rw [lift, Prod.mk.injEq, eq_comm (a := w)]

theorem run_try {α : Type} {x : Result α} {a : α} :
    try_ x env w = (ok a, w') ↔ x = ok a ∧ w' = w := by
  rw [try_, run_lift, mapErr_eq_ok]

theorem run_pure {α : Type} {a b : α} : (pure a : Cmd α) env w = (ok b, w') ↔ b = a ∧ w' = w := by
  change (lift (ok a) : Cmd α) env w = _ ↔ _
  rw [run_lift, Outcome.ok.injEq, eq_comm (a := a)]

theorem run_ask {env' : Env} : (ask : Cmd Env) env w = (ok env', w') ↔ env' = env ∧ w' = w := by
  change (lift (ok env) : Cmd Env) env w = _ ↔ _
  rw [run_lift, Outcome.ok.injEq, eq_comm (a := env)]

theorem run_print {stream : Stream} {text : String} {u : Unit} :
    print stream text env w = (ok u, w') ↔ env.io w.calls = true ∧ w' = w.say stream text := by
  unfold print
  by_cases hio : env.io w.calls = true
  · rw [if_pos hio, Prod.mk.injEq, eq_comm (a := w.say stream text)]
    simp [hio]
  · rw [if_neg hio]
    simp [hio]

theorem run_fail {α : Type} {e : CliError} {a : α} : (fail e : Cmd α) env w ≠ (ok a, w') := by
  simp [fail, lift]

theorem run_read {p : PathBuf} {c : Bytes} :
    fs.read p env w = (ok c, w')
      ↔ env.io w.calls = true ∧ w.files.content p = some c ∧ w' = w.tick := by
  unfold fs.read
  split
  case h_1 d hio hd =>
      rw [hio, hd, Prod.mk.injEq, Outcome.ok.injEq, Option.some.injEq, eq_comm (a := w.tick)]
      simp
  case h_2 hno =>
      constructor
      · intro h
        exact absurd (congrArg Prod.fst h) (by simp)
      · rintro ⟨hio, hc, -⟩
        exact absurd hc (hno c hio)

theorem run_read_to_string {p : PathBuf} {t : String} :
    fs.read_to_string p env w = (ok t, w')
      ↔ env.io w.calls = true ∧ w.files.content p = some (utf8 t) ∧ w' = w.tick := by
  rw [fs.read_to_string, bind_run_eq_ok]
  constructor
  · rintro ⟨c, w₁, hread, htext⟩
    obtain ⟨hio, hc, rfl⟩ := run_read.mp hread
    cases hs : fromUtf8 c with
    | none =>
        rw [hs] at htext
        exact absurd htext run_fail
    | some t' =>
        rw [hs] at htext
        obtain ⟨rfl, rfl⟩ := run_pure.mp htext
        rw [fromUtf8_eq_some.mp hs] at hc
        exact ⟨hio, hc, rfl⟩
  · rintro ⟨hio, hc, rfl⟩
    refine ⟨utf8 t, w.tick, run_read.mpr ⟨hio, hc, rfl⟩, ?_⟩
    rw [fromUtf8_utf8]
    rfl

theorem prompt_password_of_none {text : String} (h : env.answer text = none) :
    prompt_password text env w = (err .io, w) := by
  rw [prompt_password, bind_run_of_ok (run_ask.mpr ⟨rfl, rfl⟩), h]
  rfl

theorem prompt_password_of_some {text s : String} (h : env.answer text = some s) :
    prompt_password text env w = (ok s, w) := by
  rw [prompt_password, bind_run_of_ok (run_ask.mpr ⟨rfl, rfl⟩), h]
  rfl

theorem run_prompt_password {text pass : String} :
    prompt_password text env w = (ok pass, w') ↔ env.answer text = some pass ∧ w' = w := by
  cases h : env.answer text with
  | none => simp [prompt_password_of_none h]
  | some s => simp [prompt_password_of_some h, eq_comm]

theorem run_prompt_passphrase {pass : String} :
    prompt_passphrase env w = (ok pass, w')
      ↔ env.answer "Passphrase: " = some pass ∧ pass ≠ "" ∧ w' = w := by
  rw [prompt_passphrase, bind_run_eq_ok]
  constructor
  · rintro ⟨s, w₁, hs, hrest⟩
    obtain ⟨hans, rfl⟩ := run_prompt_password.mp hs
    split_ifs at hrest with hempty
    · exact absurd hrest run_fail
    · obtain ⟨rfl, rfl⟩ := run_pure.mp hrest
      exact ⟨hans, hempty, rfl⟩
  · rintro ⟨hans, hne, rfl⟩
    refine ⟨pass, w', run_prompt_password.mpr ⟨hans, rfl⟩, ?_⟩
    rw [if_neg hne]
    rfl

theorem run_prompt_new_passphrase {pass : String} :
    prompt_new_passphrase env w = (ok pass, w')
      ↔ env.answer "New passphrase: " = some pass ∧ env.answer "Confirm passphrase: " = some pass
        ∧ pass ≠ "" ∧ w' = w := by
  rw [prompt_new_passphrase, bind_run_eq_ok]
  constructor
  · rintro ⟨s, w₁, hs, hrest⟩
    obtain ⟨hans, rfl⟩ := run_prompt_password.mp hs
    obtain ⟨t, w₂, ht, hend⟩ := bind_run_eq_ok.mp hrest
    obtain ⟨hconf, rfl⟩ := run_prompt_password.mp ht
    split_ifs at hend with hempty hdiff
    · exact absurd hend run_fail
    · exact absurd hend run_fail
    · obtain ⟨rfl, rfl⟩ := run_pure.mp hend
      rw [← not_not.mp hdiff] at hconf
      exact ⟨hans, hconf, hempty, rfl⟩
  · rintro ⟨hans, hconf, hne, rfl⟩
    refine ⟨pass, w', run_prompt_password.mpr ⟨hans, rfl⟩, ?_⟩
    refine bind_run_eq_ok.mpr ⟨pass, w', run_prompt_password.mpr ⟨hconf, rfl⟩, ?_⟩
    rw [if_neg hne, if_neg (not_not.mpr rfl)]
    rfl

theorem run_hex_decode_trimmed {text : String} {bytes : Bytes} :
    hex_decode_trimmed text env w = (ok bytes, w')
      ↔ Hex.decode (Str.trim text.toList) = .ok bytes ∧ w' = w := by
  unfold hex_decode_trimmed
  cases Hex.decode (Str.trim text.toList) with
  | error e => simp [run_fail]
  | ok bs =>
      simp only [run_pure, Except.ok.injEq, eq_comm (a := bs)]

theorem run_unseal {α : Type} {x : Result α} {a : α} :
    (lift (mapErr (fun _ => unsealFailed) x) : Cmd α) env w = (ok a, w') ↔ x = ok a ∧ w' = w := by
  rw [run_lift, mapErr_eq_ok]

end Steps

end PqcVault
