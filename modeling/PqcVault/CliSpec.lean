/-
`CliSpec.lean` -- what a command can do to the files, and to the caller.

Each call a command makes gets one rule, and two kinds of step are told apart.
`Quiet` ones, the prompts, the prints and the reads, leave the files alone, so a
command touches nothing before its first write. `WritesOnly` ones have a list of
contents to write and stop anywhere in it. Every command is quiet steps and then
such a tail, and `run_outcomes` is that: whatever fails, the files are what they
were or a part of what the command set out to write is in them.
-/
import PqcVault.Cli
import PqcVault.PemText

set_option autoImplicit false

namespace PqcVault

open Rust Outcome Program Utf8
open Rust.Files (Writes)

/-! ## Rules for the calls -/

section Rules

variable {env : Env} {w : World}

namespace fs

theorem wp_read {p : PathBuf} {Q : Outcome CliError Bytes → World → Prop}
    (hok : ∀ c, w.files.content p = some c → Q (ok c) w.tick) (herr : Q (err .io) w.tick) :
    wp (fs.read p) Q env w := by
  unfold wp fs.read
  split
  case h_1 c _ hc => exact hok c hc
  case h_2 => exact herr

theorem wp_read_eq (hio : env.io w.calls = true) {p : PathBuf} {c : Bytes}
    (hc : w.files.content p = some c) {Q : Outcome CliError Bytes → World → Prop} :
    wp (fs.read p) Q env w ↔ Q (ok c) w.tick := by
  unfold wp fs.read
  rw [hio, hc]

theorem wp_read_to_string {p : PathBuf} {Q : Outcome CliError String → World → Prop}
    (hok : ∀ s, w.files.content p = some (utf8 s) → Q (ok s) w.tick)
    (herr : Q (err .io) w.tick) : wp (fs.read_to_string p) Q env w := by
  rw [fs.read_to_string, wp_bind]
  apply wp_read
  · intro c hc
    rw [andThen_ok]
    cases hs : fromUtf8 c with
    | none =>
        -- A file that is not UTF-8 is an I/O error too.
        exact herr
    | some s =>
        rw [fromUtf8_eq_some.mp hs] at hc
        exact hok s hc
  · exact herr

theorem wp_read_to_string_eq (hio : env.io w.calls = true) {p : PathBuf} {s : String}
    (hs : w.files.content p = some (utf8 s)) {Q : Outcome CliError String → World → Prop} :
    wp (fs.read_to_string p) Q env w ↔ Q (ok s) w.tick := by
  rw [fs.read_to_string, wp_bind, wp_read_eq hio hs, andThen_ok, fromUtf8_utf8]
  exact Iff.rfl

theorem wp_write {p : PathBuf} {s : String} {Q : Outcome CliError Unit → World → Prop}
    (hok : Q (ok ()) { w.tick with files := w.files.write p (utf8 s) })
    (herr : Q (err .io) w.tick) : wp (fs.write p s) Q env w := by
  unfold wp fs.write
  split_ifs
  · exact hok
  · exact herr

theorem wp_write_eq (hio : env.io w.calls = true) {p : PathBuf} {s : String}
    {Q : Outcome CliError Unit → World → Prop} :
    wp (fs.write p s) Q env w
      ↔ Q (ok ()) { w.tick with files := w.files.write p (utf8 s) } := by
  unfold wp fs.write
  rw [if_pos hio]

theorem wp_write_failed (hio : env.io w.calls = false) {p : PathBuf} {s : String}
    {Q : Outcome CliError Unit → World → Prop} :
    wp (fs.write p s) Q env w ↔ Q (err .io) w.tick := by
  unfold wp fs.write
  rw [hio, if_neg Bool.false_ne_true]

end fs

theorem wp_print {stream : Stream} {text : String} {Q : Outcome CliError Unit → World → Prop}
    (hok : Q (ok ()) (w.say stream text)) (hpanic : Q panic w.tick) :
    wp (print stream text) Q env w := by
  unfold wp print
  split_ifs
  · exact hok
  · exact hpanic

theorem wp_print_eq (hio : env.io w.calls = true) {stream : Stream} {text : String}
    {Q : Outcome CliError Unit → World → Prop} :
    wp (print stream text) Q env w ↔ Q (ok ()) (w.say stream text) := by
  unfold wp print
  rw [if_pos hio]

theorem wp_prompt_password_eq {text s : String} (hs : env.answer text = some s)
    {Q : Outcome CliError String → World → Prop} :
    wp (prompt_password text) Q env w ↔ Q (ok s) w := by
  rw [prompt_password, wp_bind, wp_ask, andThen_ok, hs]
  exact Iff.rfl

theorem wp_prompt_password {text : String} {Q : Outcome CliError String → World → Prop}
    (hok : ∀ s, Q (ok s) w) (herr : Q (err .io) w) : wp (prompt_password text) Q env w := by
  rw [prompt_password, wp_bind, wp_ask, andThen_ok]
  cases env.answer text with
  | none => exact herr
  | some s => exact hok s

theorem wp_prompt_passphrase_eq {s : String} (hs : env.answer "Passphrase: " = some s)
    (hne : s ≠ "") {Q : Outcome CliError String → World → Prop} :
    wp prompt_passphrase Q env w ↔ Q (ok s) w := by
  rw [prompt_passphrase, wp_bind, wp_prompt_password_eq hs, andThen_ok, if_neg hne]
  exact Iff.rfl

theorem wp_prompt_new_passphrase_eq {s : String} (hs : env.answer "New passphrase: " = some s)
    (hc : env.answer "Confirm passphrase: " = some s) (hne : s ≠ "")
    {Q : Outcome CliError String → World → Prop} :
    wp prompt_new_passphrase Q env w ↔ Q (ok s) w := by
  rw [prompt_new_passphrase, wp_bind, wp_prompt_password_eq hs, andThen_ok, wp_bind,
    wp_prompt_password_eq hc, andThen_ok, if_neg hne, if_neg (not_not.mpr rfl)]
  exact Iff.rfl

/-- An error a command returns, as opposed to the end of the process. -/
def CliError.IsReturned (e : CliError) : Prop := ∀ code, e ≠ .exit code

theorem wp_prompt_passphrase {Q : Outcome CliError String → World → Prop} (hok : ∀ s, Q (ok s) w)
    (herr : ∀ e, e.IsReturned → Q (err e) w) : wp prompt_passphrase Q env w := by
  rw [prompt_passphrase, wp_bind]
  apply wp_prompt_password
  · intro s
    rw [andThen_ok]
    split_ifs
    · exact herr _ (by simp [CliError.IsReturned])
    · exact hok s
  · exact herr _ (by simp [CliError.IsReturned])

end Rules

/-! ## Quiet steps -/

/-- The files are what they were. -/
def SameFiles (w w' : World) : Prop := w'.files = w.files

theorem SameFiles.refl (w : World) : SameFiles w w := rfl

/-- The step leaves the files alone. -/
def Quiet {α : Type} (m : Cmd α) : Prop := Steps SameFiles m

section Quiet

variable {α β : Type} {m : Cmd α} {f : α → Cmd β}

theorem Quiet.bind (hm : Quiet m) (hf : ∀ a, Quiet (f a)) : Quiet (m >>= f) :=
  Steps.bind (fun _ _ _ h₁ h₂ => h₂.trans h₁) hm hf

theorem quiet_lift (x : Outcome CliError α) : Quiet (lift x) := Steps.lift SameFiles.refl x

theorem quiet_pure (a : α) : Quiet (pure a : Cmd α) := Steps.pure SameFiles.refl a

theorem quiet_fail (e : CliError) : Quiet (fail e : Cmd α) := quiet_lift (err e)

theorem quiet_ask : Quiet (ask : Cmd Env) := Steps.ask SameFiles.refl

theorem quiet_print (stream : Stream) (text : String) : Quiet (print stream text) := fun _ w =>
  wp_print (Q := fun _ => SameFiles w) (w.files_say stream text) w.files_tick

theorem quiet_try (x : Result α) : Quiet (try_ x) := quiet_lift _

theorem quiet_read (p : PathBuf) : Quiet (fs.read p) := fun _ w =>
  fs.wp_read (Q := fun _ => SameFiles w) (fun _ _ => w.files_tick) w.files_tick

theorem quiet_read_to_string (p : PathBuf) : Quiet (fs.read_to_string p) := by
  refine (quiet_read p).bind fun c => ?_
  cases fromUtf8 c with
  | none => exact quiet_fail _
  | some s => exact quiet_pure s

theorem quiet_prompt_password (text : String) : Quiet (prompt_password text) := by
  refine quiet_ask.bind fun env => ?_
  cases env.answer text with
  | none => exact quiet_fail _
  | some s => exact quiet_pure s

theorem quiet_prompt_passphrase : Quiet prompt_passphrase := by
  refine (quiet_prompt_password _).bind fun pass => ?_
  split_ifs
  · exact quiet_fail _
  · exact quiet_pure _

theorem quiet_prompt_new_passphrase : Quiet prompt_new_passphrase := by
  refine (quiet_prompt_password _).bind fun pass => (quiet_prompt_password _).bind fun confirm => ?_
  split_ifs
  · exact quiet_fail _
  · exact quiet_fail _
  · exact quiet_pure _

theorem quiet_hex_decode_trimmed (text : String) : Quiet (hex_decode_trimmed text) := by
  unfold hex_decode_trimmed
  split
  · exact quiet_pure _
  · exact quiet_fail _

end Quiet

/-! ## Writing steps -/

/-- What the step can do to the files is to write these contents, in this order,
or to stop on the way. -/
def WritesOnly {α : Type} (plan : List (PathBuf × Bytes)) (m : Cmd α) : Prop :=
  Steps (fun w w' => Writes plan w.files w'.files) m

section WritesOnly

variable {α β : Type} {plan : List (PathBuf × Bytes)} {m : Cmd α} {f : α → Cmd β}

theorem Quiet.writesOnly (hm : Quiet m) : WritesOnly plan m := by
  intro env w
  rw [show (m env w).2.files = w.files from hm env w]
  exact .stop plan w.files

/-- A quiet step in front. -/
theorem Quiet.bind_writesOnly (hm : Quiet m) (hf : ∀ a, WritesOnly plan (f a)) :
    WritesOnly plan (m >>= f) := by
  intro env w
  have hfiles : SameFiles w (m env w).2 := hm env w
  change wp (m >>= f) (fun _ w' => Writes plan w.files w'.files) env w
  rw [wp_bind]
  unfold wp
  rw [← hfiles]
  rcases m env w with ⟨o, w'⟩
  cases o with
  | ok a => exact hf a env w'
  | err e => exact .stop plan w'.files
  | panic => exact .stop plan w'.files

/-- The first write. -/
theorem WritesOnly.write_bind {p : PathBuf} {s : String} {f : Unit → Cmd β}
    (hf : WritesOnly plan (f ())) : WritesOnly ((p, utf8 s) :: plan) (fs.write p s >>= f) := by
  intro env w
  change wp (fs.write p s >>= f)
    (fun _ w' => Writes ((p, utf8 s) :: plan) w.files w'.files) env w
  rw [wp_bind]
  apply fs.wp_write
  · exact .next (hf env { w.tick with files := w.files.write p (utf8 s) })
  · exact .stop _ _

end WritesOnly

/-- A quiet step in front of a program: either it stops there, with the files as
they were, or the program goes on with the same files. -/
theorem wp_quiet_bind {α β : Type} {m : Cmd α} {f : α → Cmd β} (hm : Quiet m) {Q : World → Prop}
    {env : Env} {w : World} (hstop : ∀ w', SameFiles w w' → Q w')
    (hgo : ∀ a w', m env w = (ok a, w') → SameFiles w w' → wp (f a) (fun _ w' => Q w') env w') :
    wp (m >>= f) (fun _ w' => Q w') env w := by
  rw [wp_bind]
  have hfiles : SameFiles w (m env w).2 := hm env w
  unfold wp
  rcases hmw : m env w with ⟨o, w'⟩
  rw [hmw] at hfiles
  cases o with
  | ok a => exact hgo a w' hmw hfiles
  | err e => exact hstop w' hfiles
  | panic => exact hstop w' hfiles

/-! ## What a command writes -/

/-- What a file is to the commands that write it. -/
inductive Role where
  | privateKey
  | publicKeyOf (out : PathBuf)
  | ciphertext
  | secret
  | recovered
  | signature
  deriving DecidableEq

/-- The files a command may write, in order, and what they are to it. -/
def Command.uses : Command → List (PathBuf × Role)
  | .Keygen _ _ out pub_key =>
      (out, .privateKey) :: if pub_key then [(pub_path out, .publicKeyOf out)] else []
  | .Encapsulate _ ct_out secret_out => [(ct_out, .ciphertext), (secret_out, .secret)]
  | .Decapsulate _ _ secret_out => [(secret_out, .recovered)]
  | .Sign _ _ sig_out => [(sig_out, .signature)]
  | .Verify _ _ _ => []
  | .Inspect _ => []

/-- The files a command may write. -/
def Command.outputs (c : Command) : List PathBuf := c.uses.map Prod.fst

section Plans

variable (P : Platform)

/-- The two texts of one generated pair, sealed under a passphrase. -/
inductive KeyFiles : String → String → Prop
  | kem {level : SecurityLevel} {e : Entropy} {kp : KemKeyPair} {passphrase : Bytes}
      {salt : FixedArray UInt8 16} {nonce : FixedArray UInt8 12} {bundle : EncryptedKeyBundle}
      (hgen : KemKeyPair.generate P level e = ok kp)
      (hseal : EncryptedKeyBundle.seal_kem P kp passphrase salt nonce = ok bundle) :
      KeyFiles (bundle.to_json P) (kem_public_key_to_pem kp.public_key)
  | dsa {level : SecurityLevel} {e : Entropy} {kp : DsaKeyPair} {passphrase : Bytes}
      {salt : FixedArray UInt8 16} {nonce : FixedArray UInt8 12} {bundle : EncryptedKeyBundle}
      (hgen : DsaKeyPair.generate P level e = ok kp)
      (hseal : EncryptedKeyBundle.seal_dsa P kp passphrase salt nonce = ok bundle) :
      KeyFiles (bundle.to_json P) (dsa_public_key_to_pem kp.public_key)

/-- The contents a command sets out to write, in this environment and on these
files. -/
inductive Intends (env : Env) (f : Files PathBuf Bytes) :
    Command → List (PathBuf × Bytes) → Prop
  | keygen {algo : Algo} {level : UInt8} {out : PathBuf} {pub_key : Bool} {json pem : String}
      (h : KeyFiles P json pem) :
      Intends env f (.Keygen algo level out pub_key)
        ((out, utf8 json) :: if pub_key then [(pub_path out, utf8 pem)] else [])
  | encapsulate {key ct_out secret_out : PathBuf} {pem : String} {k : KemPublicKey} {ct : Bytes}
      {secret : SharedSecretKey} (hkey : f.content key = some (utf8 pem))
      (hk : kem_public_key_from_pem P pem = ok k)
      (henc : KemKeyPair.encapsulate P k env.entropy = ok (ct, secret)) :
      Intends env f (.Encapsulate key ct_out secret_out)
        [(ct_out, utf8 (hex_encode ct)), (secret_out, utf8 (hex_encode secret.bytes))]
  | decapsulate {key ct secret_out : PathBuf} (secret : Bytes) :
      Intends env f (.Decapsulate key ct secret_out) [(secret_out, utf8 (hex_encode secret))]
  | sign {key file sig_out : PathBuf} (signature : Bytes) :
      Intends env f (.Sign key file sig_out) [(sig_out, utf8 (hex_encode signature))]

end Plans

variable {P : Platform}

/-- A command sets out to write the files it uses. -/
theorem Intends.paths {env : Env} {f : Files PathBuf Bytes} {c : Command}
    {plan : List (PathBuf × Bytes)} (h : Intends P env f c plan) : plan.map Prod.fst = c.outputs := by
  cases h with
  | @keygen algo level out pub_key json pem _ => cases pub_key <;> rfl
  | encapsulate _ _ _ => rfl
  | decapsulate _ => rfl
  | sign _ => rfl

/-- What a command does to the files: nothing, or part of what it set out to do. -/
def Outcomes (P : Platform) (env : Env) (c : Command) (f f' : Files PathBuf Bytes) : Prop :=
  f' = f ∨ ∃ plan, Intends P env f c plan ∧ Writes plan f f'

section Commands

variable {c : Command}

/-- A quiet step of a command: what is left of the command runs on the same files. -/
theorem outcomes_bind {α : Type} {m : Cmd α} {g : α → Cmd Unit} (hm : Quiet m) {env : Env}
    {w : World}
    (hgo : ∀ a w', m env w = (ok a, w') → w'.files = w.files →
      wp (g a) (fun _ w'' => Outcomes P env c w'.files w''.files) env w') :
    wp (m >>= g) (fun _ w'' => Outcomes P env c w.files w''.files) env w := by
  apply wp_quiet_bind hm
  · intro w' hw'
    exact .inl hw'
  · intro a w' hmw hw'
    have h := hgo a w' hmw hw'
    rwa [hw'] at h

/-- The tail of a command, which writes. -/
theorem outcomes_of_writesOnly {m : Cmd Unit} {plan : List (PathBuf × Bytes)}
    (hm : WritesOnly plan m) {env : Env} {w : World} (hplan : Intends P env w.files c plan) :
    wp m (fun _ w' => Outcomes P env c w.files w'.files) env w :=
  .inr ⟨plan, hplan, hm env w⟩

/-- A branch that stops. -/
theorem outcomes_of_quiet {m : Cmd Unit} (hm : Quiet m) {env : Env} {w : World} :
    wp m (fun _ w' => Outcomes P env c w.files w'.files) env w := .inl (hm env w)

theorem write_key_files_writes (out : PathBuf) (json pem : String) (write_pub : Bool) :
    WritesOnly ((out, utf8 json) :: if write_pub then [(pub_path out, utf8 pem)] else [])
      (write_key_files out json pem write_pub) := by
  apply WritesOnly.write_bind
  refine (quiet_print _ _).bind_writesOnly fun _ => (quiet_print _ _).bind_writesOnly fun _ => ?_
  cases write_pub with
  | true =>
      -- The second write is the last step but a print.
      exact WritesOnly.write_bind (quiet_print _ _).writesOnly
  | false => exact (quiet_pure ()).writesOnly

theorem try_eq_ok {α : Type} {x : Result α} {env : Env} {w w' : World} {a : α}
    (h : try_ x env w = (ok a, w')) : x = ok a := by
  cases x with
  | ok b => exact congrArg Outcome.ok (Outcome.ok.inj (congrArg Prod.fst h))
  | err e => exact absurd (congrArg Prod.fst h) (by simp [try_, Program.lift, mapErr])
  | panic => exact absurd (congrArg Prod.fst h) (by simp [try_, Program.lift, mapErr])

theorem cmd_keygen_outcomes (algo : Algo) (level : UInt8) (out : PathBuf) (write_pub : Bool)
    (env : Env) (w : World) :
    wp (cmd_keygen P algo level out write_pub)
      (fun _ w' => Outcomes P env (.Keygen algo level out write_pub) w.files w'.files) env w := by
  refine outcomes_bind (quiet_lift _) fun lvl w _ _ => ?_
  refine outcomes_bind quiet_prompt_new_passphrase fun pass w _ _ => ?_
  refine outcomes_bind quiet_ask fun env' w _ _ => ?_
  cases algo with
  | Kem =>
      refine outcomes_bind (quiet_print _ _) fun _ w _ _ => ?_
      refine outcomes_bind (quiet_try _) fun kp w hgen _ => ?_
      refine outcomes_bind (quiet_try _) fun bundle w hseal _ => ?_
      exact outcomes_of_writesOnly (write_key_files_writes _ _ _ _)
        (.keygen (.kem (try_eq_ok hgen) (try_eq_ok hseal)))
  | Dsa =>
      refine outcomes_bind (quiet_print _ _) fun _ w _ _ => ?_
      refine outcomes_bind (quiet_try _) fun kp w hgen _ => ?_
      refine outcomes_bind (quiet_try _) fun bundle w hseal _ => ?_
      exact outcomes_of_writesOnly (write_key_files_writes _ _ _ _)
        (.keygen (.dsa (try_eq_ok hgen) (try_eq_ok hseal)))

theorem read_to_string_eq_ok {p : PathBuf} {env : Env} {w w' : World} {s : String}
    (h : fs.read_to_string p env w = (ok s, w')) : w.files.content p = some (utf8 s) := by
  have hwp : wp (fs.read_to_string p)
      (fun o _ => ∀ s, o = ok s → w.files.content p = some (utf8 s)) env w := by
    apply fs.wp_read_to_string
    · intro t ht s hs
      rwa [← Outcome.ok.inj hs]
    · intro s hs
      exact absurd hs (by simp)
  exact hwp s (congrArg Prod.fst h)

theorem cmd_encapsulate_outcomes (key_path ct_out secret_out : PathBuf) (env : Env) (w : World) :
    wp (cmd_encapsulate P key_path ct_out secret_out)
      (fun _ w' => Outcomes P env (.Encapsulate key_path ct_out secret_out) w.files w'.files) env w := by
  refine outcomes_bind (quiet_read_to_string _) fun pem w₁ hread hsame => ?_
  -- The key file is the one there was when the command started.
  have hkey : w₁.files.content key_path = some (utf8 pem) := hsame ▸ read_to_string_eq_ok hread
  split_ifs
  · refine outcomes_bind (quiet_try _) fun k w₂ hk hsame₂ => ?_
    refine outcomes_bind quiet_ask fun env' w₃ hask hsame₃ => ?_
    obtain rfl : env = env' := Outcome.ok.inj (congrArg Prod.fst hask)
    refine outcomes_bind (quiet_try _) fun x w₄ henc hsame₄ => ?_
    obtain ⟨ct, secret⟩ := x
    rw [← hsame₂, ← hsame₃, ← hsame₄] at hkey
    refine outcomes_of_writesOnly ?_ (.encapsulate hkey (try_eq_ok hk) (try_eq_ok henc))
    apply WritesOnly.write_bind
    apply WritesOnly.write_bind
    exact ((quiet_print _ _).bind fun _ => (quiet_print _ _).bind fun _ => quiet_print _ _).writesOnly
  · exact outcomes_of_quiet (quiet_fail _)

theorem cmd_decapsulate_outcomes (key_path ct_path secret_out : PathBuf) (env : Env) (w : World) :
    wp (cmd_decapsulate P key_path ct_path secret_out)
      (fun _ w' => Outcomes P env (.Decapsulate key_path ct_path secret_out) w.files w'.files) env w := by
  refine outcomes_bind (quiet_read_to_string _) fun json w _ _ => ?_
  refine outcomes_bind quiet_prompt_passphrase fun pass w _ _ => ?_
  refine outcomes_bind (quiet_try _) fun bundle w _ _ => ?_
  refine outcomes_bind (quiet_lift _) fun kp w _ _ => ?_
  refine outcomes_bind (quiet_read_to_string _) fun ct_hex w _ _ => ?_
  refine outcomes_bind (quiet_hex_decode_trimmed _) fun ct w _ _ => ?_
  refine outcomes_bind (quiet_try _) fun secret w _ _ => ?_
  refine outcomes_of_writesOnly ?_ (.decapsulate secret.bytes)
  exact WritesOnly.write_bind
    ((quiet_print _ _).bind fun _ => quiet_print _ _).writesOnly

theorem cmd_sign_outcomes (key_path file_path sig_out : PathBuf) (env : Env) (w : World) :
    wp (cmd_sign P key_path file_path sig_out)
      (fun _ w' => Outcomes P env (.Sign key_path file_path sig_out) w.files w'.files) env w := by
  refine outcomes_bind (quiet_read_to_string _) fun json w _ _ => ?_
  refine outcomes_bind quiet_prompt_passphrase fun pass w _ _ => ?_
  refine outcomes_bind (quiet_try _) fun bundle w _ _ => ?_
  refine outcomes_bind (quiet_lift _) fun kp w _ _ => ?_
  refine outcomes_bind (quiet_read _) fun message w _ _ => ?_
  refine outcomes_bind quiet_ask fun env' w _ _ => ?_
  refine outcomes_bind (quiet_try _) fun signature w _ _ => ?_
  refine outcomes_of_writesOnly ?_ (.sign signature)
  exact WritesOnly.write_bind
    ((quiet_print _ _).bind fun _ => quiet_print _ _).writesOnly

theorem quiet_cmd_verify (key_path file_path sig_path : PathBuf) :
    Quiet (cmd_verify P key_path file_path sig_path) := by
  refine (quiet_read_to_string _).bind fun pem => ?_
  split_ifs
  · refine (quiet_try _).bind fun k => (quiet_read _).bind fun message => ?_
    refine (quiet_read_to_string _).bind fun sig_hex => ?_
    refine (quiet_hex_decode_trimmed _).bind fun sig => ?_
    split
    · exact (quiet_print _ _).bind fun _ => (quiet_print _ _).bind fun _ => quiet_print _ _
    · exact (quiet_print _ _).bind fun _ => (quiet_print _ _).bind fun _ => quiet_fail _
    · exact quiet_lift _
  · exact quiet_fail _

theorem quiet_cmd_inspect (key_path : PathBuf) : Quiet (cmd_inspect P key_path) := by
  refine (quiet_read_to_string _).bind fun text => (quiet_lift _).bind fun json => ?_
  refine (quiet_print _ _).bind fun _ => (quiet_print _ _).bind fun _ => ?_
  refine (quiet_print _ _).bind fun _ => (quiet_print _ _).bind fun _ => ?_
  exact (quiet_print _ _).bind fun _ => (quiet_print _ _).bind fun _ => quiet_print _ _

/-- What a run of any command does to the files. -/
theorem run_outcomes (c : Command) (env : Env) (w : World) :
    Outcomes P env c w.files (run P c env w).2.files := by
  cases c with
  | Keygen algo level out pub_key => exact cmd_keygen_outcomes algo level out pub_key env w
  | Encapsulate key ct_out secret_out => exact cmd_encapsulate_outcomes key ct_out secret_out env w
  | Decapsulate key ct secret_out => exact cmd_decapsulate_outcomes key ct secret_out env w
  | Sign key file sig_out => exact cmd_sign_outcomes key file sig_out env w
  | Verify key file sig => exact .inl (quiet_cmd_verify key file sig env w)
  | Inspect key => exact .inl (quiet_cmd_inspect key env w)

/-- A file that is not an output stays as it was. -/
theorem run_content_eq (c : Command) (env : Env) (w : World) {p : PathBuf}
    (hp : p ∉ c.outputs) : (run P c env w).2.files.content p = w.files.content p := by
  rcases run_outcomes (P := P) c env w with h | ⟨plan, hplan, h⟩
  · rw [h]
  · rw [← hplan.paths] at hp
    refine h.content_eq fun q hq heq => hp ?_
    exact heq ▸ List.mem_map_of_mem hq

end Commands

end PqcVault
