/-
`CliMeaning.lean` -- what the six commands mean.

What a command decides is a matter of the files, the answers and the randomness
alone, and `Decides` says it without a program: this key read from that file, that
passphrase typed, this text written. `prepare_eq_ok` is that the code computes it,
in both directions.

`run_cases` is that nothing else can come of a run. Whichever of its calls fail, a
run stops before its first write and changes nothing, or stops at a write or a print
that fails with the acts before it done, or does all it decided. `run_final_iff` is the
last case read as an equivalence: it says what a successful run is, and what a
signature is that `verify` refuses.
-/
import PqcVault.CliJob

set_option autoImplicit false

namespace PqcVault

open Rust Outcome Program Utf8

/-! ## What a command means -/

/-- The files a command reads, in the order in which it reads them. -/
def Command.inputs : Command → List PathBuf
  | .Keygen _ _ _ _ => []
  | .Encapsulate key _ _ => [key]
  | .Decapsulate key ct _ => [key, ct]
  | .Sign key file _ => [key, file]
  | .Verify key file sig => [key, file, sig]
  | .Inspect key => [key]

/-- What a command prints before it has decided. -/
def Command.announces : Command → List (Stream × String)
  | .Keygen .Kem n _ _ =>
      [(.stderr, "Generating ML-KEM key pair (level " ++ toString n.toNat ++ ")... ")]
  | .Keygen .Dsa n _ _ =>
      [(.stderr, "Generating ML-DSA key pair (level " ++ toString n.toNat ++ ")... ")]
  | _ => []

/-- How many calls a command makes before it has decided. -/
def Command.prelude (c : Command) : ℕ := c.inputs.length + c.announces.length

/-- The passphrase for a new key: typed twice, and not empty. -/
def Env.Chooses (env : Env) (pass : String) : Prop :=
  env.answer "New passphrase: " = some pass ∧ env.answer "Confirm passphrase: " = some pass
    ∧ pass ≠ ""

/-- The passphrase of a key. -/
def Env.Types (env : Env) (pass : String) : Prop :=
  env.answer "Passphrase: " = some pass ∧ pass ≠ ""

/-- A file that reads as this text. -/
def Reads (f : Files PathBuf Bytes) (p : PathBuf) (text : String) : Prop :=
  f.content p = some (utf8 text)

/-- A text of hex digits, in any letter case and amid whitespace. -/
def HexText (text : String) (bytes : Bytes) : Prop :=
  Hex.decode (Str.trim text.toList) = .ok bytes

/-- **The commands**: on these files, with these answers and this randomness, a command
comes to this job. -/
inductive Decides (P : Platform) (env : Env) (f : Files PathBuf Bytes) : Command → Job → Prop
  | keygen_kem {n : UInt8} {out : PathBuf} {pub_key : Bool} {level : SecurityLevel} {pass : String}
      {kp : KemKeyPair} {bundle : EncryptedKeyBundle} (hlevel : parse_level n = ok level)
      (hpass : env.Chooses pass) (hgen : KemKeyPair.generate P level env.entropy = ok kp)
      (hseal : EncryptedKeyBundle.seal_kem P kp (utf8 pass) env.salt env.nonce = ok bundle) :
      Decides P env f (.Keygen .Kem n out pub_key)
        (keygenJob out (bundle.to_json P) (kem_public_key_to_pem kp.public_key) pub_key)
  | keygen_dsa {n : UInt8} {out : PathBuf} {pub_key : Bool} {level : SecurityLevel} {pass : String}
      {kp : DsaKeyPair} {bundle : EncryptedKeyBundle} (hlevel : parse_level n = ok level)
      (hpass : env.Chooses pass) (hgen : DsaKeyPair.generate P level env.entropy = ok kp)
      (hseal : EncryptedKeyBundle.seal_dsa P kp (utf8 pass) env.salt env.nonce = ok bundle) :
      Decides P env f (.Keygen .Dsa n out pub_key)
        (keygenJob out (bundle.to_json P) (dsa_public_key_to_pem kp.public_key) pub_key)
  | encapsulate {key ct_out secret_out : PathBuf} {pem : String} {k : KemPublicKey} {ct : Bytes}
      {secret : SharedSecretKey} (hkey : Reads f key pem)
      (hk : kem_public_key_from_pem P pem = ok k)
      (henc : KemKeyPair.encapsulate P k env.entropy = ok (ct, secret)) :
      Decides P env f (.Encapsulate key ct_out secret_out)
        (encapsulateJob ct_out secret_out ct secret)
  | decapsulate {key ct_path secret_out : PathBuf} {json pass text : String}
      {bundle : EncryptedKeyBundle} {kp : KemKeyPair} {ct : Bytes} {secret : SharedSecretKey}
      (hkey : Reads f key json) (hpass : env.Types pass)
      (hjson : EncryptedKeyBundle.from_json P json = ok bundle)
      (hunseal : bundle.unseal_kem P (utf8 pass) = ok kp) (hct : Reads f ct_path text)
      (hhex : HexText text ct) (hdec : kp.decapsulate P ct = ok secret) :
      Decides P env f (.Decapsulate key ct_path secret_out) (decapsulateJob secret_out secret)
  | sign {key file sig_out : PathBuf} {json pass : String} {bundle : EncryptedKeyBundle}
      {kp : DsaKeyPair} {message signature : Bytes} (hkey : Reads f key json)
      (hpass : env.Types pass) (hjson : EncryptedKeyBundle.from_json P json = ok bundle)
      (hunseal : bundle.unseal_dsa P (utf8 pass) = ok kp) (hfile : f.content file = some message)
      (hsign : kp.sign P message env.entropy = ok signature) :
      Decides P env f (.Sign key file sig_out) (signJob file sig_out message signature)
  | valid {key file sig : PathBuf} {pem text : String} {k : DsaPublicKey}
      {message signature : Bytes} (hkey : Reads f key pem)
      (hk : dsa_public_key_from_pem P pem = ok k) (hfile : f.content file = some message)
      (hsig : Reads f sig text) (hhex : HexText text signature)
      (hverify : DsaKeyPair.verify_with_typed_key P k message signature = ok ()) :
      Decides P env f (.Verify key file sig) (validJob key file)
  | invalid {key file sig : PathBuf} {pem text : String} {k : DsaPublicKey}
      {message signature : Bytes} (hkey : Reads f key pem)
      (hk : dsa_public_key_from_pem P pem = ok k) (hfile : f.content file = some message)
      (hsig : Reads f sig text) (hhex : HexText text signature)
      (hverify : (DsaKeyPair.verify_with_typed_key P k message signature).IsErr) :
      Decides P env f (.Verify key file sig) invalidJob
  | inspect {key : PathBuf} {text : String} {json : Json} (hkey : Reads f key text)
      (hjson : P.serdeJson.valueFromStr text = some json) :
      Decides P env f (.Inspect key) (inspectJob key json)

/-- The world in which a command has decided. -/
def World.ready (w : World) (c : Command) : World :=
  { w with calls := w.calls + c.prelude, console := w.console ++ c.announces }

@[simp] theorem World.files_ready (w : World) (c : Command) : (w.ready c).files = w.files := rfl

section Meaning

variable {P : Platform} {env : Env} {w w' : World} {job : Job}

theorem level_num_parse_level {n : UInt8} {level : SecurityLevel} (h : parse_level n = ok level) :
    level_num level = n := by
  unfold parse_level at h
  split_ifs at h with h1 h3 h5
  · rw [← Outcome.ok.inj h, h1, level_num]
  · rw [← Outcome.ok.inj h, h3, level_num]
  · rw [← Outcome.ok.inj h, h5, level_num]

/-- A text the decoder does not return an error on holds the marker, and so everything the
marker holds. -/
theorem contains_of_decode_pem {pem label : String} {needle : List Char}
    (hmarker : Str.contains (pemBegin label).toList needle = true)
    (h : ¬ (decode_pem pem label).IsErr) : Str.contains pem.toList needle = true := by
  rw [Str.contains_iff] at hmarker ⊢
  by_contra hno
  exact h (decode_pem_isErr fun hbegin => hno (hmarker.trans hbegin))

/-- A text with a key in it passes the search in front of the decoder: the search decides
nothing but which error there is. -/
theorem contains_of_kem_from_pem {pem : String} {k : KemPublicKey}
    (h : kem_public_key_from_pem P pem = ok k) :
    Str.contains pem.toList "ML-KEM".toList = true :=
  contains_of_decode_pem (show Str.contains (pemBegin KEM_LABEL).toList _ = true by decide) fun herr =>
    (isErr_bind.mpr (.inl herr)).ne_ok k h

theorem contains_of_dsa_from_pem {pem : String} {k : DsaPublicKey}
    (h : dsa_public_key_from_pem P pem = ok k) :
    Str.contains pem.toList "ML-DSA".toList = true :=
  contains_of_decode_pem (show Str.contains (pemBegin DSA_LABEL).toList _ = true by decide) fun herr =>
    (isErr_bind.mpr (.inl herr)).ne_ok k h

theorem World.ready_of_silent {c : Command} (h : c.announces = []) :
    w.ready c = { w with calls := w.calls + c.inputs.length } := by
  rw [World.ready, Command.prelude, h, List.append_nil, List.length_nil, Nat.add_zero]

theorem prepare_keygen_eq_ok {algo : Algo} {n : UInt8} {out : PathBuf} {write_pub : Bool} :
    prepare_keygen P algo n out write_pub env w = (ok job, w')
      ↔ Decides P env w.files (.Keygen algo n out write_pub) job ∧ env.Serves w.calls 1
        ∧ w' = w.ready (.Keygen algo n out write_pub) := by
  rw [Env.serves_succ]
  constructor
  · intro h
    cases algo with
    | Kem =>
        simp only [prepare_keygen, bind_run_eq_ok, run_lift, run_prompt_new_passphrase, run_ask,
          eprint, run_print, run_try, run_pure] at h
        obtain ⟨level, _, ⟨hlevel, rfl⟩, pass, _, ⟨hnew, hconfirm, hne, rfl⟩, _, _, ⟨rfl, rfl⟩, _, _,
          ⟨hio, rfl⟩, kp, _, ⟨hgen, rfl⟩, bundle, _, ⟨hseal, rfl⟩, rfl, rfl⟩ := h
        rw [level_num_parse_level hlevel]
        exact ⟨.keygen_kem hlevel ⟨hnew, hconfirm, hne⟩ hgen hseal, ⟨hio, Env.serves_zero _ _⟩, rfl⟩
    | Dsa =>
        simp only [prepare_keygen, bind_run_eq_ok, run_lift, run_prompt_new_passphrase, run_ask,
          eprint, run_print, run_try, run_pure] at h
        obtain ⟨level, _, ⟨hlevel, rfl⟩, pass, _, ⟨hnew, hconfirm, hne, rfl⟩, _, _, ⟨rfl, rfl⟩, _, _,
          ⟨hio, rfl⟩, kp, _, ⟨hgen, rfl⟩, bundle, _, ⟨hseal, rfl⟩, rfl, rfl⟩ := h
        rw [level_num_parse_level hlevel]
        exact ⟨.keygen_dsa hlevel ⟨hnew, hconfirm, hne⟩ hgen hseal, ⟨hio, Env.serves_zero _ _⟩, rfl⟩
  · rintro ⟨hd, ⟨hio, -⟩, rfl⟩
    cases hd with
    | keygen_kem hlevel hpass hgen hseal =>
        obtain ⟨hnew, hconfirm, hne⟩ := hpass
        rw [prepare_keygen, bind_run_of_ok (run_lift.mpr ⟨hlevel, rfl⟩),
          bind_run_of_ok (run_prompt_new_passphrase.mpr ⟨hnew, hconfirm, hne, rfl⟩),
          bind_run_of_ok (run_ask.mpr ⟨rfl, rfl⟩)]
        simp only [level_num_parse_level hlevel]
        rw [eprint, bind_run_of_ok ((run_print (u := ())).mpr ⟨hio, rfl⟩),
          bind_run_of_ok (run_try.mpr ⟨hgen, rfl⟩), bind_run_of_ok (run_try.mpr ⟨hseal, rfl⟩)]
        exact run_pure.mpr ⟨rfl, rfl⟩
    | keygen_dsa hlevel hpass hgen hseal =>
        obtain ⟨hnew, hconfirm, hne⟩ := hpass
        rw [prepare_keygen, bind_run_of_ok (run_lift.mpr ⟨hlevel, rfl⟩),
          bind_run_of_ok (run_prompt_new_passphrase.mpr ⟨hnew, hconfirm, hne, rfl⟩),
          bind_run_of_ok (run_ask.mpr ⟨rfl, rfl⟩)]
        simp only [level_num_parse_level hlevel]
        rw [eprint, bind_run_of_ok ((run_print (u := ())).mpr ⟨hio, rfl⟩),
          bind_run_of_ok (run_try.mpr ⟨hgen, rfl⟩), bind_run_of_ok (run_try.mpr ⟨hseal, rfl⟩)]
        exact run_pure.mpr ⟨rfl, rfl⟩

theorem prepare_encapsulate_eq_ok {key ct_out secret_out : PathBuf} :
    prepare_encapsulate P key ct_out secret_out env w = (ok job, w')
      ↔ Decides P env w.files (.Encapsulate key ct_out secret_out) job ∧ env.Serves w.calls 1
        ∧ w' = w.ready (.Encapsulate key ct_out secret_out) := by
  rw [World.ready_of_silent rfl, Env.serves_succ]
  constructor
  · intro h
    rw [prepare_encapsulate, bind_run_eq_ok] at h
    obtain ⟨pem, w₁, hread, hrest⟩ := h
    obtain ⟨hio, hkey, rfl⟩ := run_read_to_string.mp hread
    split_ifs at hrest with hgate
    · simp only [bind_run_eq_ok, run_try, run_ask, run_pure] at hrest
      obtain ⟨k, _, ⟨hk, rfl⟩, _, _, ⟨rfl, rfl⟩, ⟨ct, secret⟩, _, ⟨henc, rfl⟩, rfl, rfl⟩ := hrest
      exact ⟨.encapsulate hkey hk henc, ⟨hio, Env.serves_zero _ _⟩, rfl⟩
    · exact absurd hrest run_fail
  · rintro ⟨hd, ⟨hio, -⟩, rfl⟩
    cases hd with
    | encapsulate hkey hk henc =>
        rw [prepare_encapsulate, bind_run_of_ok (run_read_to_string.mpr ⟨hio, hkey, rfl⟩),
          if_pos (contains_of_kem_from_pem hk), bind_run_of_ok (run_try.mpr ⟨hk, rfl⟩),
          bind_run_of_ok (run_ask.mpr ⟨rfl, rfl⟩), bind_run_of_ok (run_try.mpr ⟨henc, rfl⟩)]
        exact run_pure.mpr ⟨rfl, rfl⟩

theorem prepare_decapsulate_eq_ok {key ct_path secret_out : PathBuf} :
    prepare_decapsulate P key ct_path secret_out env w = (ok job, w')
      ↔ Decides P env w.files (.Decapsulate key ct_path secret_out) job ∧ env.Serves w.calls 2
        ∧ w' = w.ready (.Decapsulate key ct_path secret_out) := by
  rw [World.ready_of_silent rfl, Env.serves_succ, Env.serves_succ]
  constructor
  · intro h
    simp only [prepare_decapsulate, bind_run_eq_ok, run_read_to_string, run_prompt_passphrase,
      run_try, run_unseal, run_hex_decode_trimmed, run_pure] at h
    obtain ⟨json, _, ⟨hio, hkey, rfl⟩, pass, _, ⟨htyped, hne, rfl⟩, bundle, _, ⟨hjson, rfl⟩, kp, _,
      ⟨hunseal, rfl⟩, text, _, ⟨hio', hct, rfl⟩, ct, _, ⟨hhex, rfl⟩, secret, _, ⟨hdec, rfl⟩, rfl,
      rfl⟩ := h
    exact ⟨.decapsulate hkey ⟨htyped, hne⟩ hjson hunseal hct hhex hdec,
      ⟨hio, hio', Env.serves_zero _ _⟩, rfl⟩
  · rintro ⟨hd, ⟨hio, hio', -⟩, rfl⟩
    cases hd with
    | decapsulate hkey hpass hjson hunseal hct hhex hdec =>
        rw [prepare_decapsulate, bind_run_of_ok (run_read_to_string.mpr ⟨hio, hkey, rfl⟩),
          bind_run_of_ok (run_prompt_passphrase.mpr ⟨hpass.1, hpass.2, rfl⟩),
          bind_run_of_ok (run_try.mpr ⟨hjson, rfl⟩),
          bind_run_of_ok (run_unseal.mpr ⟨hunseal, rfl⟩),
          bind_run_of_ok ((run_read_to_string (w := w.tick)).mpr ⟨hio', hct, rfl⟩),
          bind_run_of_ok (run_hex_decode_trimmed.mpr ⟨hhex, rfl⟩),
          bind_run_of_ok (run_try.mpr ⟨hdec, rfl⟩)]
        exact run_pure.mpr ⟨rfl, rfl⟩

theorem prepare_sign_eq_ok {key file sig_out : PathBuf} :
    prepare_sign P key file sig_out env w = (ok job, w')
      ↔ Decides P env w.files (.Sign key file sig_out) job ∧ env.Serves w.calls 2
        ∧ w' = w.ready (.Sign key file sig_out) := by
  rw [World.ready_of_silent rfl, Env.serves_succ, Env.serves_succ]
  constructor
  · intro h
    simp only [prepare_sign, bind_run_eq_ok, run_read_to_string, run_prompt_passphrase, run_try,
      run_unseal, run_read, run_ask, run_pure] at h
    obtain ⟨json, _, ⟨hio, hkey, rfl⟩, pass, _, ⟨htyped, hne, rfl⟩, bundle, _, ⟨hjson, rfl⟩, kp, _,
      ⟨hunseal, rfl⟩, message, _, ⟨hio', hfile, rfl⟩, _, _, ⟨rfl, rfl⟩, signature, _, ⟨hsign, rfl⟩,
      rfl, rfl⟩ := h
    exact ⟨.sign hkey ⟨htyped, hne⟩ hjson hunseal hfile hsign,
      ⟨hio, hio', Env.serves_zero _ _⟩, rfl⟩
  · rintro ⟨hd, ⟨hio, hio', -⟩, rfl⟩
    cases hd with
    | sign hkey hpass hjson hunseal hfile hsign =>
        rw [prepare_sign, bind_run_of_ok (run_read_to_string.mpr ⟨hio, hkey, rfl⟩),
          bind_run_of_ok (run_prompt_passphrase.mpr ⟨hpass.1, hpass.2, rfl⟩),
          bind_run_of_ok (run_try.mpr ⟨hjson, rfl⟩),
          bind_run_of_ok (run_unseal.mpr ⟨hunseal, rfl⟩),
          bind_run_of_ok ((run_read (w := w.tick)).mpr ⟨hio', hfile, rfl⟩),
          bind_run_of_ok (run_ask.mpr ⟨rfl, rfl⟩), bind_run_of_ok (run_try.mpr ⟨hsign, rfl⟩)]
        exact run_pure.mpr ⟨rfl, rfl⟩

theorem prepare_verify_eq_ok {key file sig : PathBuf} :
    prepare_verify P key file sig env w = (ok job, w')
      ↔ Decides P env w.files (.Verify key file sig) job ∧ env.Serves w.calls 3
        ∧ w' = w.ready (.Verify key file sig) := by
  rw [World.ready_of_silent rfl, Env.serves_succ, Env.serves_succ, Env.serves_succ]
  constructor
  · intro h
    rw [prepare_verify, bind_run_eq_ok] at h
    obtain ⟨pem, w₁, hread, hrest⟩ := h
    obtain ⟨hio, hkey, rfl⟩ := run_read_to_string.mp hread
    split_ifs at hrest with hgate
    · simp only [bind_run_eq_ok, run_try, run_read, run_read_to_string,
        run_hex_decode_trimmed] at hrest
      obtain ⟨k, _, ⟨hk, rfl⟩, message, _, ⟨hio', hfile, rfl⟩, text, _, ⟨hio'', hsig, rfl⟩,
        signature, _, ⟨hhex, rfl⟩, hend⟩ := hrest
      cases hverify : DsaKeyPair.verify_with_typed_key P k message signature with
      | ok u =>
          rw [hverify] at hend
          obtain ⟨rfl, rfl⟩ := run_pure.mp hend
          exact ⟨.valid hkey hk hfile hsig hhex hverify, ⟨hio, hio', hio'', Env.serves_zero _ _⟩,
            rfl⟩
      | err e =>
          rw [hverify] at hend
          obtain ⟨rfl, rfl⟩ := run_pure.mp hend
          exact ⟨.invalid hkey hk hfile hsig hhex ⟨e, hverify⟩,
            ⟨hio, hio', hio'', Env.serves_zero _ _⟩, rfl⟩
      | panic =>
          rw [hverify] at hend
          exact absurd (run_lift.mp hend).1 (by simp)
    · exact absurd hrest run_fail
  · rintro ⟨hd, ⟨hio, hio', hio'', -⟩, rfl⟩
    cases hd with
    | valid hkey hk hfile hsig hhex hverify =>
        rw [prepare_verify, bind_run_of_ok (run_read_to_string.mpr ⟨hio, hkey, rfl⟩),
          if_pos (contains_of_dsa_from_pem hk), bind_run_of_ok (run_try.mpr ⟨hk, rfl⟩),
          bind_run_of_ok ((run_read (w := w.tick)).mpr ⟨hio', hfile, rfl⟩),
          bind_run_of_ok ((run_read_to_string (w := w.tick.tick)).mpr ⟨hio'', hsig, rfl⟩),
          bind_run_of_ok (run_hex_decode_trimmed.mpr ⟨hhex, rfl⟩), hverify]
        exact run_pure.mpr ⟨rfl, rfl⟩
    | invalid hkey hk hfile hsig hhex hverify =>
        obtain ⟨e, hverify⟩ := hverify
        rw [prepare_verify, bind_run_of_ok (run_read_to_string.mpr ⟨hio, hkey, rfl⟩),
          if_pos (contains_of_dsa_from_pem hk), bind_run_of_ok (run_try.mpr ⟨hk, rfl⟩),
          bind_run_of_ok ((run_read (w := w.tick)).mpr ⟨hio', hfile, rfl⟩),
          bind_run_of_ok ((run_read_to_string (w := w.tick.tick)).mpr ⟨hio'', hsig, rfl⟩),
          bind_run_of_ok (run_hex_decode_trimmed.mpr ⟨hhex, rfl⟩), hverify]
        exact run_pure.mpr ⟨rfl, rfl⟩

theorem prepare_inspect_eq_ok {key : PathBuf} :
    prepare_inspect P key env w = (ok job, w')
      ↔ Decides P env w.files (.Inspect key) job ∧ env.Serves w.calls 1
        ∧ w' = w.ready (.Inspect key) := by
  rw [World.ready_of_silent rfl, Env.serves_succ]
  constructor
  · intro h
    simp only [prepare_inspect, bind_run_eq_ok, run_read_to_string, run_lift, okOr_eq_ok,
      run_pure] at h
    obtain ⟨text, _, ⟨hio, hkey, rfl⟩, json, _, ⟨hjson, rfl⟩, rfl, rfl⟩ := h
    exact ⟨.inspect hkey hjson, ⟨hio, Env.serves_zero _ _⟩, rfl⟩
  · rintro ⟨hd, ⟨hio, -⟩, rfl⟩
    cases hd with
    | inspect hkey hjson =>
        rw [prepare_inspect, bind_run_of_ok (run_read_to_string.mpr ⟨hio, hkey, rfl⟩),
          bind_run_of_ok (run_lift.mpr ⟨okOr_eq_ok.mpr hjson, rfl⟩)]
        exact run_pure.mpr ⟨rfl, rfl⟩

/-- **What a command decides**: it comes to a job exactly when the job is the meaning of
the command on the files it starts with and every call so far succeeds. -/
theorem prepare_eq_ok {c : Command} :
    prepare P c env w = (ok job, w')
      ↔ Decides P env w.files c job ∧ env.Serves w.calls c.prelude ∧ w' = w.ready c := by
  cases c with
  | Keygen algo n out pub_key =>
      have hprelude : (Command.Keygen algo n out pub_key).prelude = 1 := by
        cases algo with
        | Kem => rfl
        | Dsa => rfl
      rw [hprelude]
      exact prepare_keygen_eq_ok
  | Encapsulate key ct_out secret_out => exact prepare_encapsulate_eq_ok
  | Decapsulate key ct secret_out => exact prepare_decapsulate_eq_ok
  | Sign key file sig_out => exact prepare_sign_eq_ok
  | Verify key file sig => exact prepare_verify_eq_ok
  | Inspect key => exact prepare_inspect_eq_ok

end Meaning

/-! ## Up to the decision -/

/-- Up to its decision a command changes no file, prints at most these lines, and does
not end the process. -/
structure Tentative {α : Type} (lines : List (Stream × String)) (m : Cmd α) : Prop where
  files : ∀ env w, (m env w).2.files = w.files
  console : ∀ env w, ∃ said, said <+: lines ∧ (m env w).2.console = w.console ++ said
  noExit : ∀ env w code, (m env w).1 ≠ err (.exit code)

section Tentative

variable {α β : Type} {lines : List (Stream × String)} {m : Cmd α} {f : α → Cmd β}

theorem tentative_lift {x : Outcome CliError α} (h : ∀ code, x ≠ err (.exit code)) :
    Tentative lines (lift x) where
  files _ _ := rfl
  console _ w := ⟨[], List.nil_prefix, (List.append_nil w.console).symm⟩
  noExit _ _ code := h code

theorem tentative_pure (a : α) : Tentative lines (pure a : Cmd α) :=
  tentative_lift (x := ok a) fun code => by simp

theorem tentative_fail {e : CliError} (h : e.IsReturned) : Tentative lines (fail e : Cmd α) :=
  tentative_lift fun code heq => h code (Outcome.err.inj heq)

theorem tentative_ask : Tentative lines (ask : Cmd Env) where
  files _ _ := rfl
  console _ w := ⟨[], List.nil_prefix, (List.append_nil w.console).symm⟩
  noExit _ _ code := by simp [ask]

theorem tentative_try (x : Result α) : Tentative lines (try_ x) := by
  apply tentative_lift
  intro code
  cases x <;> simp [mapErr]

theorem tentative_unseal (x : Result α) :
    Tentative lines (lift (mapErr (fun _ => unsealFailed) x) : Cmd α) := by
  apply tentative_lift
  intro code
  cases x <;> simp [mapErr, unsealFailed]

theorem tentative_read (p : PathBuf) : Tentative lines (fs.read p) where
  files env w := quiet_read p env w
  console env w := by
    refine ⟨[], List.nil_prefix, ?_⟩
    rw [List.append_nil]
    unfold fs.read
    split <;> rfl
  noExit env w code := by
    unfold fs.read
    split <;> simp

/-- Steps that print nothing, in front of steps that print these lines. -/
theorem Tentative.bind (hm : Tentative [] m)
    (hf : ∀ a, (∃ env w, (m env w).1 = ok a) → Tentative lines (f a)) :
    Tentative lines (m >>= f) := by
  have hrun : ∀ env w, (∃ a, (∃ env w, (m env w).1 = ok a)
        ∧ (m >>= f) env w = f a env (m env w).2)
      ∨ ((m >>= f) env w).2 = (m env w).2
        ∧ ∀ code, ((m >>= f) env w).1 ≠ err (.exit code) := by
    intro env w
    have hexit := hm.noExit env w
    change (∃ a, _ ∧ Program.bind m f env w = _)
      ∨ (Program.bind m f env w).2 = _ ∧ ∀ code, (Program.bind m f env w).1 ≠ _
    unfold Program.bind
    rcases hmw : m env w with ⟨o, w'⟩
    rw [hmw] at hexit
    cases o with
    | ok a => exact .inl ⟨a, ⟨env, w, congrArg Prod.fst hmw⟩, rfl⟩
    | err e => exact .inr ⟨rfl, fun code heq => hexit code (congrArg err (Outcome.err.inj heq))⟩
    | panic => exact .inr ⟨rfl, fun code => by simp⟩
  have hsilent : ∀ env w, (m env w).2.console = w.console := by
    intro env w
    obtain ⟨said, hsaid, hconsole⟩ := hm.console env w
    rw [hconsole, List.prefix_nil.mp hsaid, List.append_nil]
  constructor
  · intro env w
    rcases hrun env w with ⟨a, ha, hgo⟩ | ⟨hstop, -⟩
    · rw [hgo, (hf a ha).files, hm.files]
    · rw [hstop, hm.files]
  · intro env w
    rcases hrun env w with ⟨a, ha, hgo⟩ | ⟨hstop, -⟩
    · obtain ⟨said, hsaid, hconsole⟩ := (hf a ha).console env (m env w).2
      exact ⟨said, hsaid, by rw [hgo, hconsole, hsilent]⟩
    · exact ⟨[], List.nil_prefix, by rw [hstop, hsilent, List.append_nil]⟩
  · intro env w code
    rcases hrun env w with ⟨a, ha, hgo⟩ | ⟨-, hexit⟩
    · rw [hgo]
      exact (hf a ha).noExit env _ code
    · exact hexit code

/-- A line, and then no more. -/
theorem Tentative.print_bind {stream : Stream} {text : String} {f : Unit → Cmd β}
    (hf : Tentative [] (f ())) : Tentative [(stream, text)] (print stream text >>= f) := by
  -- A print that fails is the end, with nothing printed.
  have hrun : ∀ env w, (print stream text >>= f) env w
      = if env.io w.calls then f () env (w.say stream text) else (panic, w.tick) := by
    intro env w
    change Program.bind (print stream text) f env w = _
    unfold Program.bind print
    by_cases hio : env.io w.calls = true
    · rw [if_pos hio, if_pos hio]
    · rw [if_neg hio, if_neg hio]
  constructor
  · intro env w
    rw [hrun]
    split_ifs
    · exact hf.files env (w.say stream text)
    · rfl
  · intro env w
    rw [hrun]
    split_ifs
    · obtain ⟨said, hsaid, hconsole⟩ := hf.console env (w.say stream text)
      refine ⟨[(stream, text)], List.prefix_rfl, ?_⟩
      rw [List.prefix_nil.mp hsaid, List.append_nil] at hconsole
      exact hconsole
    · exact ⟨[], List.nil_prefix, (List.append_nil w.console).symm⟩
  · intro env w code
    rw [hrun]
    split_ifs
    · exact hf.noExit env (w.say stream text) code
    · simp

theorem tentative_read_to_string (p : PathBuf) : Tentative lines (fs.read_to_string p) := by
  refine (tentative_read p).bind fun c _ => ?_
  cases fromUtf8 c with
  | none => exact tentative_fail isReturned_io
  | some s => exact tentative_pure s

theorem tentative_prompt_password (text : String) : Tentative lines (prompt_password text) := by
  refine tentative_ask.bind fun env _ => ?_
  cases env.answer text with
  | none => exact tentative_fail isReturned_io
  | some s => exact tentative_pure s

theorem tentative_prompt_passphrase : Tentative lines prompt_passphrase := by
  refine (tentative_prompt_password _).bind fun pass _ => ?_
  split_ifs
  · exact tentative_fail (isReturned_msg _)
  · exact tentative_pure _

theorem tentative_prompt_new_passphrase : Tentative lines prompt_new_passphrase := by
  refine (tentative_prompt_password _).bind fun pass _ => ?_
  refine (tentative_prompt_password _).bind fun confirm _ => ?_
  split_ifs
  · exact tentative_fail (isReturned_msg _)
  · exact tentative_fail (isReturned_msg _)
  · exact tentative_pure _

theorem tentative_hex_decode_trimmed (text : String) :
    Tentative lines (hex_decode_trimmed text) := by
  unfold hex_decode_trimmed
  split
  · exact tentative_pure _
  · exact tentative_fail fun code => by simp

theorem tentative_parse_level (n : UInt8) :
    Tentative lines (lift (parse_level n) : Cmd SecurityLevel) := by
  apply tentative_lift
  intro code
  unfold parse_level
  split_ifs <;> simp

end Tentative

section Prepare

variable {P : Platform}

theorem tentative_prepare_keygen (algo : Algo) (n : UInt8) (out : PathBuf) (write_pub : Bool) :
    Tentative (Command.Keygen algo n out write_pub).announces
      (prepare_keygen P algo n out write_pub) := by
  refine (tentative_parse_level n).bind fun level hlevel => ?_
  obtain ⟨env, w, hlevel⟩ := hlevel
  have hnum : level_num level = n := level_num_parse_level hlevel
  refine tentative_prompt_new_passphrase.bind fun pass _ => ?_
  refine tentative_ask.bind fun env _ => ?_
  rw [hnum]
  cases algo with
  | Kem =>
      refine Tentative.print_bind ?_
      refine (tentative_try _).bind fun kp _ => (tentative_try _).bind fun bundle _ => ?_
      exact tentative_pure _
  | Dsa =>
      refine Tentative.print_bind ?_
      refine (tentative_try _).bind fun kp _ => (tentative_try _).bind fun bundle _ => ?_
      exact tentative_pure _

theorem tentative_prepare_encapsulate (key ct_out secret_out : PathBuf) :
    Tentative [] (prepare_encapsulate P key ct_out secret_out) := by
  refine (tentative_read_to_string _).bind fun pem _ => ?_
  split_ifs
  · refine (tentative_try _).bind fun k _ => tentative_ask.bind fun env _ => ?_
    refine (tentative_try _).bind fun x _ => ?_
    exact tentative_pure _
  · exact tentative_fail (isReturned_msg _)

theorem tentative_prepare_decapsulate (key ct_path secret_out : PathBuf) :
    Tentative [] (prepare_decapsulate P key ct_path secret_out) := by
  refine (tentative_read_to_string _).bind fun json _ => ?_
  refine tentative_prompt_passphrase.bind fun pass _ => (tentative_try _).bind fun bundle _ => ?_
  refine (tentative_unseal _).bind fun kp _ => (tentative_read_to_string _).bind fun text _ => ?_
  refine (tentative_hex_decode_trimmed _).bind fun ct _ => (tentative_try _).bind fun secret _ => ?_
  exact tentative_pure _

theorem tentative_prepare_sign (key file sig_out : PathBuf) :
    Tentative [] (prepare_sign P key file sig_out) := by
  refine (tentative_read_to_string _).bind fun json _ => ?_
  refine tentative_prompt_passphrase.bind fun pass _ => (tentative_try _).bind fun bundle _ => ?_
  refine (tentative_unseal _).bind fun kp _ => (tentative_read _).bind fun message _ => ?_
  refine tentative_ask.bind fun env _ => (tentative_try _).bind fun signature _ => ?_
  exact tentative_pure _

theorem tentative_prepare_verify (key file sig : PathBuf) :
    Tentative [] (prepare_verify P key file sig) := by
  refine (tentative_read_to_string _).bind fun pem _ => ?_
  split_ifs
  · refine (tentative_try _).bind fun k _ => (tentative_read _).bind fun message _ => ?_
    refine (tentative_read_to_string _).bind fun text _ => ?_
    refine (tentative_hex_decode_trimmed _).bind fun signature _ => ?_
    split
    · exact tentative_pure _
    · exact tentative_pure _
    · exact tentative_lift fun code => by simp
  · exact tentative_fail (isReturned_msg _)

theorem tentative_prepare_inspect (key : PathBuf) : Tentative [] (prepare_inspect P key) := by
  refine (tentative_read_to_string _).bind fun text _ => ?_
  refine Tentative.bind (tentative_lift fun code => ?_) fun json _ => tentative_pure _
  cases P.serdeJson.valueFromStr text <;> simp

theorem tentative_prepare (c : Command) : Tentative c.announces (prepare P c) := by
  cases c with
  | Keygen algo n out pub_key => exact tentative_prepare_keygen algo n out pub_key
  | Encapsulate key ct_out secret_out => exact tentative_prepare_encapsulate key ct_out secret_out
  | Decapsulate key ct secret_out => exact tentative_prepare_decapsulate key ct secret_out
  | Sign key file sig_out => exact tentative_prepare_sign key file sig_out
  | Verify key file sig => exact tentative_prepare_verify key file sig
  | Inspect key => exact tentative_prepare_inspect key

end Prepare

/-! ## What can come of a run -/

section Runs

variable {P : Platform} {env : Env} {w w' : World} {c : Command}

/-- A run that stops before it has decided. -/
structure StopsEarly (c : Command) (w : World) (o : Outcome CliError Unit) (w' : World) : Prop where
  ends : o = panic ∨ ∃ e, o = err e ∧ e.IsReturned
  files : w'.files = w.files
  console : ∃ said, said <+: c.announces ∧ w'.console = w.console ++ said

/-- A command stops early, or it comes to its job and carries it out. -/
theorem run_split (c : Command) (env : Env) (w : World) :
    StopsEarly c w (run P c env w).1 (run P c env w).2
      ∨ ∃ job, Decides P env w.files c job ∧ env.Serves w.calls c.prelude
          ∧ run P c env w = job.carryOut env (w.ready c) := by
  have htentative := tentative_prepare (P := P) c
  have hfiles := htentative.files env w
  have hexit := htentative.noExit env w
  have hconsole := htentative.console env w
  rw [run_eq]
  change StopsEarly c w (Program.bind (prepare P c) Job.carryOut env w).1
      (Program.bind (prepare P c) Job.carryOut env w).2
    ∨ ∃ job, _ ∧ _ ∧ Program.bind (prepare P c) Job.carryOut env w = _
  unfold Program.bind
  rcases hp : prepare P c env w with ⟨o, w₁⟩
  rw [hp] at hfiles hexit hconsole
  -- Without a job there is nothing to carry out, and the run is the preparation.
  cases o with
  | panic => exact .inl ⟨.inl rfl, hfiles, hconsole⟩
  | err e =>
      have hreturned : e.IsReturned := fun code he => hexit code (congrArg err he)
      exact .inl ⟨.inr ⟨e, rfl, hreturned⟩, hfiles, hconsole⟩
  | ok job =>
      obtain ⟨hd, hserves, rfl⟩ := prepare_eq_ok.mp hp
      exact .inr ⟨job, hd, hserves, rfl⟩

/-- **What can come of a run**: it stops before its first write, or at an act that fails,
or it does all it decided. -/
inductive RunsTo (P : Platform) (env : Env) (c : Command) (w : World) :
    Outcome CliError Unit → World → Prop
  | stopped {o : Outcome CliError Unit} {w' : World} (h : StopsEarly c w o w') :
      RunsTo P env c w o w'
  | cut {job : Job} {done : List Act} {a : Act} {rest : List Act}
      (hd : Decides P env w.files c job) (hacts : job.acts = done ++ a :: rest) :
      RunsTo P env c w a.failure ((w.ready c).enactAll done).tick
  | finished {job : Job} (hd : Decides P env w.files c job) :
      RunsTo P env c w job.ending ((w.ready c).enactAll job.acts)

theorem run_cases (c : Command) (env : Env) (w : World) :
    RunsTo P env c w (run P c env w).1 (run P c env w).2 := by
  rcases run_split (P := P) c env w with h | ⟨job, hd, -, hrun⟩
  · exact .stopped h
  · rw [hrun]
    rcases carryOut_cases job env (w.ready c) with
      ⟨hdone, -⟩ | ⟨done, a, rest, hacts, -, -, hcut⟩
    · rw [hdone]
      exact .finished hd
    · rw [hcut]
      exact .cut hd hacts

/-- A job carried out from start to end. -/
theorem run_of_decides {job : Job} (hd : Decides P env w.files c job)
    (hserves : env.Serves w.calls (c.prelude + job.acts.length)) :
    run P c env w = (job.ending, (w.ready c).enactAll job.acts) := by
  -- The first calls are the preparation's, the others those of the job.
  obtain ⟨hreads, hacts⟩ := Env.serves_add.mp hserves
  rw [run_eq, bind_run_of_ok (prepare_eq_ok.mpr ⟨hd, hreads, rfl⟩)]
  exact carryOut_of_serves hacts

/-- A job is carried out to its end, or to an act that fails. -/
theorem run_of_decides_cases {job : Job} (hd : Decides P env w.files c job)
    (hreads : env.Serves w.calls c.prelude) :
    (run P c env w = (job.ending, (w.ready c).enactAll job.acts)
        ∧ env.Serves w.calls (c.prelude + job.acts.length))
      ∨ ∃ done a rest, job.acts = done ++ a :: rest
        ∧ env.Serves w.calls (c.prelude + done.length)
        ∧ env.io (w.calls + c.prelude + done.length) = false
        ∧ run P c env w = (a.failure, ((w.ready c).enactAll done).tick) := by
  rw [run_eq, bind_run_of_ok (prepare_eq_ok.mpr ⟨hd, hreads, rfl⟩)]
  rcases carryOut_cases job env (w.ready c) with
    ⟨hdone, hacts⟩ | ⟨done, a, rest, hacts, hserves, hio, hcut⟩
  · exact .inl ⟨hdone, Env.serves_add.mpr ⟨hreads, hacts⟩⟩
  · exact .inr ⟨done, a, rest, hacts, Env.serves_add.mpr ⟨hreads, hserves⟩, hio, hcut⟩

/-- A job ends well, or the way `verify` refuses a signature. -/
theorem Decides.ending {f : Files PathBuf Bytes} {job : Job} (hd : Decides P env f c job) :
    job.ending = ok () ∨ job.ending = err (.exit 2) := by
  cases hd with
  | invalid _ _ _ _ _ _ => exact .inr rfl
  | _ => exact .inl rfl

/-- The endings a command only reaches with its job done. -/
theorem run_eq_iff_of_final {o : Outcome CliError Unit} (hpanic : o ≠ panic)
    (herr : ∀ e : CliError, e.IsReturned → o ≠ err e) :
    run P c env w = (o, w')
      ↔ ∃ job, Decides P env w.files c job ∧ job.ending = o
          ∧ env.Serves w.calls (c.prelude + job.acts.length)
          ∧ w' = (w.ready c).enactAll job.acts := by
  constructor
  · intro h
    rcases run_split (P := P) c env w with ⟨hends, -, -⟩ | ⟨job, hd, hreads, hrun⟩
    · rw [h] at hends
      rcases hends with hends | ⟨e, hends, he⟩
      · exact absurd hends hpanic
      · exact absurd hends (herr e he)
    · rw [hrun] at h
      rcases carryOut_cases job env (w.ready c) with
        ⟨hdone, hacts⟩ | ⟨_, a, _, _, -, -, hcut⟩
      · rw [hdone] at h
        obtain ⟨hend, rfl⟩ := Prod.mk.inj h
        exact ⟨job, hd, hend, Env.serves_add.mpr ⟨hreads, hacts⟩, rfl⟩
      · -- An act that fails ends in an error that is returned, or in a panic.
        rw [hcut] at h
        have hend : a.failure = o := congrArg Prod.fst h
        cases a with
        | write p text => exact absurd hend.symm (herr .io isReturned_io)
        | print stream text => exact absurd hend.symm hpanic
  · rintro ⟨job, hd, rfl, hserves, rfl⟩
    exact run_of_decides hd hserves

/-- **What a command means**: it ends well, or with an exit code of its own, exactly when
the files, the answers and the randomness decide so and every call succeeds; and then it
has done what was decided, and nothing else. -/
theorem run_final_iff (P : Platform) (c : Command) (env : Env) (w w' : World) :
    (run P c env w = (ok (), w')
        ↔ ∃ job, Decides P env w.files c job ∧ job.ending = ok ()
            ∧ env.Serves w.calls (c.prelude + job.acts.length)
            ∧ w' = (w.ready c).enactAll job.acts)
      ∧ ∀ code, run P c env w = (err (.exit code), w')
        ↔ ∃ job, Decides P env w.files c job ∧ job.ending = err (.exit code)
            ∧ env.Serves w.calls (c.prelude + job.acts.length)
            ∧ w' = (w.ready c).enactAll job.acts := by
  constructor
  · exact run_eq_iff_of_final (by simp) (by simp)
  · intro code
    refine run_eq_iff_of_final (by simp) fun e he heq => ?_
    exact he code (Outcome.err.inj heq).symm

end Runs

end PqcVault
