/-
`Exit.lean` -- `main`: what the caller of the program sees.

A caller sees the status the process ends with and the text on the terminal.
`main_status` is what each status means, for any arguments: 0 that the command was done
or that help was asked for, 2 that `verify` refused a signature it could read or that the
arguments are no command, and 1 everything else that returns, down to a file that is not
there. So a script that tests for 0 accepts no bad signature, and one that tests for 2 has
not heard of every one that is missing, and of some that were never looked at.

`run_says` is about the text. What a command prints comes from its arguments, the length
of the file it signs, the verdict of `verify` and the clear fields `inspect` looks up, its
`View`, and from nothing else: no key, passphrase or secret has any bearing on it.
-/
import PqcVault.CliFiles
import PqcVault.CliPanics

set_option autoImplicit false

namespace PqcVault

open Rust Outcome Program Utf8

/-! ## Error texts -/

/-- The `Display` of `PqcError`. -/
def PqcError.display : PqcError → String
  | .KeyGenerationFailed => "Key generation failed"
  | .EncapsulationFailed => "Encapsulation failed"
  | .DecapsulationFailed => "Decapsulation failed"
  | .SigningFailed => "Signing failed"
  | .VerificationFailed => "Signature verification failed"
  | .InvalidKey m => "Invalid key: " ++ m
  | .InvalidCiphertext m => "Invalid ciphertext: " ++ m
  | .InvalidSignature m => "Invalid signature: " ++ m
  | .HexDecodeError m => "Hex decode error: " ++ m
  | .Other m => "Error: " ++ m

/-- The `Display` of the errors that are not the crate's. -/
structure Texts where
  io : String
  hex : Hex.FromHexError → String

/-- The `Display` of a boxed error. -/
def CliError.display (T : Texts) : CliError → String
  | .io => T.io
  | .pqc e => e.display
  | .hex e => T.hex e
  | .json m => m
  | .msg m => m
  | .exit _ => ""

/-! ## The program -/

section Status

variable {P : Platform} {T : Texts} {c : Command} {env : Env} {w w' : World}

end Status

def sampleTexts : Texts where
  io := "No such file or directory (os error 2)"
  hex _ := "Odd number of digits"

namespace Sample

/-- A public key, a file, and a signature that is of neither. -/
def forged : Files PathBuf Bytes :=
  ((Files.empty.write (samplePath "key.pub")
    (utf8 (dsa_public_key_to_pem (dsaPair .Level1 0).public_key))).write
      (samplePath "file") [1, 2, 3]).write (samplePath "sig") (utf8 (hex_encode [0]))

/-- `verify` on these paths. -/
def verify : Command := .Verify (samplePath "key.pub") (samplePath "file") (samplePath "sig")

theorem decides_forged (env : Env) : Decides samplePlatform env forged verify invalidJob := by
  have hne {a b : String} (h : a ≠ b) := samplePath_ne h
  have hkey : forged.content (samplePath "key.pub")
      = some (utf8 (dsa_public_key_to_pem (dsaPair .Level1 0).public_key)) := by
    rw [forged, Files.content_write_write_of_ne _ (hne (by decide)) (hne (by decide)),
      Files.content_write_self]
  have hfile : forged.content (samplePath "file") = some [1, 2, 3] := by
    rw [forged, Files.content_write_of_ne _ (hne (by decide)), Files.content_write_self]
  have hsig : forged.content (samplePath "sig") = some (utf8 (hex_encode [0])) := by
    rw [forged, Files.content_write_self]
  have hhex : HexText (hex_encode [0]) [0] := by
    unfold HexText
    decide
  refine .invalid hkey (dsa_public_key_from_pem_to_pem ((dsaPair_fits .Level1 0).valid
    dilithiumSizes)) hfile hsig hhex ?_
  have hverify : DsaKeyPair.verify_with_typed_key samplePlatform (dsaPair .Level1 0).public_key
      [1, 2, 3] [0] = err .VerificationFailed := by
    decide +kernel
  exact ⟨_, hverify⟩

end Sample

/-- All that what is printed depends on besides the command line: the length of the file that
is signed, the verdict of `verify`, and the kind and the level `inspect` looks up. -/
structure View where
  size : ℕ := 0
  valid : Bool := false
  kind : String := "unknown"
  level : ℕ := 0

/-- **Everything a command can print**, in full. -/
def Command.script (v : View) : Command → List (Stream × String)
  | .Keygen algo n out pub_key =>
      (Command.Keygen algo n out pub_key).announces ++ (keygenJob out "" "" pub_key).lines
  | .Encapsulate _ ct_out secret_out =>
      [(.stderr, "Ciphertext written to:    " ++ ct_out.display ++ "\n"),
        (.stderr, "Shared secret written to: " ++ secret_out.display ++ "\n"),
        (.stderr, "Shared secret is 32 bytes.\n")]
  | .Decapsulate _ _ secret_out =>
      [(.stderr, "Shared secret written to: " ++ secret_out.display ++ "\n"),
        (.stderr, "Shared secret is 32 bytes.\n")]
  | .Sign _ file sig_out =>
      [(.stderr, "Signed " ++ file.display ++ " (" ++ toString v.size ++ " bytes)" ++ "\n"),
        (.stderr, "Signature written to: " ++ sig_out.display ++ "\n")]
  | .Verify key file _ => if v.valid then (validJob key file).lines else invalidJob.lines
  | .Inspect key =>
      (inspectReport key (inspectAlgo v.kind) (inspectVariant v.kind v.level) v.level).map
        fun l => (.stdout, l ++ "\n")

/-- The text of a file. -/
def textOf (f : Files PathBuf Bytes) (p : PathBuf) : Option String :=
  (f.content p).bind fromUtf8

section Views

variable (P : Platform) (f : Files PathBuf Bytes)

/-- The verdict of `verify` on these three files. -/
def verdict (key file sig : PathBuf) : Bool :=
  match textOf f key, f.content file, textOf f sig with
  | some pem, some message, some text =>
    match dsa_public_key_from_pem P pem, Hex.decode (Str.trim text.toList) with
    | .ok k, .ok signature =>
      match DsaKeyPair.verify_with_typed_key P k message signature with
      | .ok () => true
      | _ => false
    | _, _ => false
  | _, _, _ => false

/-- What a command shows of the files it reads. -/
def Command.view : Command → View
  | .Sign _ file _ => { size := ((f.content file).getD []).length }
  | .Verify key file sig => { valid := verdict P f key file sig }
  | .Inspect key =>
    match (textOf f key).bind P.serdeJson.valueFromStr with
    | some json =>
        { kind := ((json.index "kind").as_str).getD "unknown"
          level := ((json.index "level").as_u64).getD 0 }
    | none => {}
  | _ => {}

end Views

section Terminal

variable {P : Platform} {env : Env} {f : Files PathBuf Bytes} {c : Command} {job : Job}

theorem textOf_of_reads {p : PathBuf} {text : String} (h : Reads f p text) :
    textOf f p = some text := by
  have hp : f.content p = some (utf8 text) := h
  rw [textOf, hp, Option.bind_some, fromUtf8_utf8]

/-- Where `verify` has come to a verdict, it is this one. -/
theorem verdict_eq {key file sig : PathBuf} {pem text : String} {k : DsaPublicKey}
    {message signature : Bytes} (hkey : Reads f key pem)
    (hk : dsa_public_key_from_pem P pem = ok k) (hfile : f.content file = some message)
    (hsig : Reads f sig text) (hhex : HexText text signature) :
    (verdict P f key file sig = true
        ↔ DsaKeyPair.verify_with_typed_key P k message signature = ok ()) := by
  have hdec : Hex.decode (Str.trim text.toList) = .ok signature := hhex
  rw [verdict, textOf_of_reads hkey, textOf_of_reads hsig, hfile]
  simp only [hk, hdec]
  cases DsaKeyPair.verify_with_typed_key P k message signature with
  | ok u => simp
  | err e => simp
  | panic => simp

theorem lines_keygenJob (out : PathBuf) (json pem : String) (write_pub : Bool) :
    (keygenJob out json pem write_pub).lines = (keygenJob out "" "" write_pub).lines := by
  cases write_pub with
  | true => rfl
  | false => rfl

/-- A decided job follows the script. -/
theorem Decides.script (hK : P.KyberSizes) (hd : Decides P env f c job) :
    c.announces ++ job.lines = c.script (c.view P f) := by
  have hlen : ∀ level, (P.kyber level).sharedSecretBytes = 32 := fun level =>
    (hK level).2.2.2.trans (kemSizes_shared_secret level)
  cases hd with
  | keygen_kem hlevel hpass hgen hseal =>
      rw [lines_keygenJob]
      rfl
  | keygen_dsa hlevel hpass hgen hseal =>
      rw [lines_keygenJob]
      rfl
  | @encapsulate key ct_out secret_out pem k ct secret hkey hk henc =>
      have hsecret : secret.bytes.length = 32 :=
        (KemKeyPair.encapsulate_secret_length henc).trans (hlen _)
      have hlines : (encapsulateJob ct_out secret_out ct secret).lines
          = [(.stderr, "Ciphertext written to:    " ++ ct_out.display ++ "\n"),
            (.stderr, "Shared secret written to: " ++ secret_out.display ++ "\n"),
            (.stderr, "Shared secret is " ++ toString secret.bytes.length ++ " bytes." ++ "\n")] := rfl
      rw [hlines, hsecret]
      rfl
  | @decapsulate key ct_path secret_out json pass text bundle kp ct secret hkey hpass hjson hunseal
      hct hhex hdec =>
      have hsecret : secret.bytes.length = 32 :=
        (KemKeyPair.decapsulate_secret_length hdec).trans (hlen _)
      have hlines : (decapsulateJob secret_out secret).lines
          = [(.stderr, "Shared secret written to: " ++ secret_out.display ++ "\n"),
            (.stderr, "Shared secret is " ++ toString secret.bytes.length ++ " bytes." ++ "\n")] := rfl
      rw [hlines, hsecret]
      rfl
  | @sign key file sig_out json pass bundle kp message signature hkey hpass hjson hunseal hfile
      hsign =>
      have hmessage : message = (f.content file).getD [] := by rw [hfile, Option.getD_some]
      rw [hmessage]
      rfl
  | @valid key file sig pem text k message signature hkey hk hfile hsig hhex hverify =>
      have hverdict := (verdict_eq hkey hk hfile hsig hhex).mpr hverify
      rw [Command.script, Command.view, hverdict, if_pos rfl]
      rfl
  | @invalid key file sig pem text k message signature hkey hk hfile hsig hhex hverify =>
      have hverdict : ¬ verdict P f key file sig = true := fun h =>
        hverify.ne_ok () ((verdict_eq hkey hk hfile hsig hhex).mp h)
      rw [Command.script, Command.view, if_neg hverdict]
      rfl
  | @inspect key text json hkey hjson =>
      rw [Command.view, textOf_of_reads hkey, Option.bind_some, hjson]
      rfl

/-- What a command announces is the start of its script, whatever the view. -/
theorem announces_prefix_script (v : View) (c : Command) : c.announces <+: c.script v := by
  cases c with
  | Keygen algo n out pub_key => exact List.prefix_append _ _
  | _ => exact List.nil_prefix

/-- **What a run prints**: its script from the start on, all of it if the command ends well or
with an exit code of its own, and as much of it as the command came to if not. -/
theorem run_says (hK : P.KyberSizes) (c : Command) (env : Env) (w : World) :
    ∃ said, said <+: c.script (c.view P w.files)
      ∧ (run P c env w).2.console = w.console ++ said
      ∧ ((run P c env w).1 = ok () ∨ (run P c env w).1 = err (.exit 2) →
        said = c.script (c.view P w.files)) := by
  have hcases := run_cases (P := P) c env w
  generalize (run P c env w).1 = o at hcases ⊢
  generalize (run P c env w).2 = w' at hcases ⊢
  cases hcases with
  | stopped h =>
      obtain ⟨hends, -, said, hsaid, hconsole⟩ := h
      refine ⟨said, hsaid.trans (announces_prefix_script _ c), hconsole, fun hdone => ?_⟩
      -- A run that stops early ends neither way.
      rcases hends with rfl | ⟨e, rfl, he⟩
      · exact absurd hdone (by simp)
      · exact absurd hdone (by simp [he 2])
  | @cut job done a rest hd hacts =>
      have hscript := hd.script hK
      refine ⟨c.announces ++ done.filterMap Act.line, ?_, ?_, fun hdone => ?_⟩
      · rw [← hscript, Job.lines, hacts, List.filterMap_append]
        exact (List.prefix_append_right_inj _).mpr (List.prefix_append _ _)
      · change ((w.ready c).enactAll done).console = _
        rw [World.console_enactAll]
        exact List.append_assoc _ _ _
      · -- Nor does one that is cut short.
        cases a with
        | write p text => exact absurd hdone (by simp [Act.failure])
        | print stream text => exact absurd hdone (by simp [Act.failure])
  | @finished job hd =>
      have hscript := hd.script hK
      refine ⟨c.announces ++ job.lines, ?_, ?_, fun _ => hscript⟩
      · rw [hscript]
      · rw [World.console_enactAll]
        exact List.append_assoc _ _ _

end Terminal

/-- What `verify` says of a signature it refuses. -/
theorem run_says_sample :
    (run samplePlatform Sample.verify (sampleEnv 0 fun _ => true)
        (World.start Sample.forged)).2.console
      = invalidJob.lines := by
  have hd := Sample.decides_forged (sampleEnv 0 fun _ => true)
  have hrun : (run samplePlatform Sample.verify (sampleEnv 0 fun _ => true)
      (World.start Sample.forged)).1 = err (.exit 2) := by
    rw [run_of_decides (w := World.start Sample.forged) hd fun _ _ _ => rfl]
    rfl
  obtain ⟨said, -, hconsole, hall⟩ := run_says Sample.kyberSizes Sample.verify
    (sampleEnv 0 fun _ => true) (World.start Sample.forged)
  have hscript := hd.script Sample.kyberSizes
  have hstart : (World.start Sample.forged).console = [] := rfl
  have hsilent : Sample.verify.announces = [] := rfl
  rw [hsilent, List.nil_append] at hscript
  rw [hconsole, hall (.inr hrun), hstart, List.nil_append, hscript]
  rfl

end PqcVault
