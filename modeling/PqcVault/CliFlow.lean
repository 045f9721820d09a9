/-
`CliFlow.lean` -- commands that feed one another.

What one command writes, another reads: `keygen` writes the PEM that `encapsulate`
and `verify` read and the bundle that `decapsulate` and `sign` open, and these
write the hex the others decode. Each command gets one lemma that says what it
does when it is handed files of the right format, and the two workflows are these
lemmas one after the other: the files a command leaves are the files the next one
starts on.

A key of the wrong kind goes through none of the doors. It is refused by the text
search in front of the PEM decoders, by the decoders themselves, by the JSON
parser, or by the kind a bundle carries, whichever comes first.
-/
import PqcVault.CliSpec
import PqcVault.Sample

set_option autoImplicit false

namespace PqcVault

open Rust Outcome Program Utf8

/-! ## Calls that succeed -/

/-- No call fails. -/
def Env.NoIoError (env : Env) : Prop := ∀ n, env.io n = true

/-- Every call but one succeeds. -/
def Env.ServesBut (env : Env) (n : ℕ) : Prop := ∀ k, k ≠ n → env.io k = true

/-- These calls, `n` of them from the `a`-th on, succeed. -/
def Env.Serves (env : Env) (a n : ℕ) : Prop := ∀ k, a ≤ k → k < a + n → env.io k = true

namespace Env

variable {env : Env} {a m n : ℕ}

theorem serves_zero (env : Env) (a : ℕ) : env.Serves a 0 := fun k h₁ h₂ => by omega

theorem serves_succ : env.Serves a (n + 1) ↔ env.io a = true ∧ env.Serves (a + 1) n := by
  constructor
  · intro h
    exact ⟨h a le_rfl (by omega), fun k h₁ h₂ => h k (by omega) (by omega)⟩
  · rintro ⟨ha, h⟩ k h₁ h₂
    by_cases hk : k = a
    · exact hk ▸ ha
    · exact h k (by omega) (by omega)

theorem serves_add : env.Serves a (m + n) ↔ env.Serves a m ∧ env.Serves (a + m) n := by
  constructor
  · intro h
    exact ⟨fun k h₁ h₂ => h k h₁ (by omega), fun k h₁ h₂ => h k (by omega) (by omega)⟩
  · rintro ⟨hm, hn⟩ k h₁ h₂
    by_cases hk : k < a + m
    · exact hm k h₁ hk
    · exact hn k (by omega) (by omega)

theorem Serves.of_le (h : env.Serves a n) (hle : m ≤ n) : env.Serves a m :=
  fun k h₁ h₂ => h k h₁ (by omega)

/-- One of the calls. -/
theorem Serves.at (h : env.Serves a n) {k : ℕ} (hk : k < n) : env.io (a + k) = true :=
  h (a + k) (by omega) (by omega)

/-- All of them succeed, or there is a first that fails. -/
theorem serves_or_fails (env : Env) (a n : ℕ) :
    env.Serves a n ∨ ∃ k < n, env.Serves a k ∧ env.io (a + k) = false := by
  induction n with
  | zero => exact .inl (serves_zero env a)
  | succ n ih =>
      rcases ih with h | ⟨k, hk, hserves, hio⟩
      · by_cases hn : env.io (a + n) = true
        · refine .inl (serves_add.mpr ⟨h, ?_⟩)
          exact serves_succ.mpr ⟨hn, serves_zero env _⟩
        · exact .inr ⟨n, by omega, h, Bool.eq_false_iff.mpr hn⟩
      · exact .inr ⟨k, by omega, hserves, hio⟩

theorem NoIoError.serves (h : env.NoIoError) (a n : ℕ) : env.Serves a n := fun k _ _ => h k

end Env

/-! ## What a command does when all is well -/

/-- The same passphrase at every prompt, and not an empty one. -/
structure Env.Enters (env : Env) (pass : String) : Prop where
  new : env.answer "New passphrase: " = some pass
  confirm : env.answer "Confirm passphrase: " = some pass
  again : env.answer "Passphrase: " = some pass
  ne : pass ≠ ""

section Success

variable {P : Platform} {env : Env} {w : World} {pass : String}

theorem wp_try {α : Type} {x : Result α} {a : α} (hx : x = ok a)
    {Q : Outcome CliError α → World → Prop} : wp (try_ x) Q env w ↔ Q (ok a) w := by
  rw [try_, wp_lift, hx, mapErr_ok]

theorem wp_eprintln (hio : env.io w.calls = true) {text : String}
    {Q : Outcome CliError Unit → World → Prop} :
    wp (eprintln text) Q env w ↔ Q (ok ()) (w.say .stderr (text ++ "\n")) := wp_print_eq hio

theorem wp_println (hio : env.io w.calls = true) {text : String}
    {Q : Outcome CliError Unit → World → Prop} :
    wp (println text) Q env w ↔ Q (ok ()) (w.say .stdout (text ++ "\n")) := wp_print_eq hio

/-- Two files in order. The command is past its first write; what becomes of it
hangs on the second. -/
def SecondWrite (second : Bool) (a : PathBuf) (x : String) (b : PathBuf) (y : String)
    (f : Files PathBuf Bytes) (o : Outcome CliError Unit) (f' : Files PathBuf Bytes) : Prop :=
  if second then o = ok () ∧ f' = (f.write a (utf8 x)).write b (utf8 y)
  else o = err .io ∧ f' = f.write a (utf8 x)

/-- The files such a command leaves. -/
theorem files_of_secondWrite {m : Cmd Unit} {second : Bool} {a b : PathBuf} {x y : String}
    {f : Files PathBuf Bytes}
    (h : wp m (fun o w' => SecondWrite second a x b y f o w'.files) env w) :
    (m env w).2.files
      = if second then (f.write a (utf8 x)).write b (utf8 y) else f.write a (utf8 x) := by
  unfold wp SecondWrite at h
  cases second with
  | true => exact h.2
  | false => exact h.2

theorem wp_write_key_files (hio : env.ServesBut (w.calls + 3)) (out : PathBuf)
    (json pem : String) :
    wp (write_key_files out json pem true)
      (fun o w' => SecondWrite (env.io (w.calls + 3)) out json (pub_path out) pem w.files o w'.files)
      env w := by
  have hserves : ∀ n, n ≠ 3 → env.io (w.calls + n) = true := fun n hn => hio _ (by omega)
  have h₀ : env.io w.calls = true := hserves 0 (by omega)
  have h₁ : env.io (w.calls + 1) = true := hserves 1 (by omega)
  have h₂ : env.io (w.calls + 2) = true := hserves 2 (by omega)
  rw [write_key_files, wp_bind, fs.wp_write_eq h₀, andThen_ok, wp_bind, wp_eprintln h₁, andThen_ok,
    wp_bind, wp_eprintln h₂, andThen_ok, if_pos rfl, wp_bind]
  -- The private key is on disk; the public key is what is left.
  cases h₃ : env.io (w.calls + 3) with
  | true =>
      have h₄ : env.io (w.calls + 4) = true := hserves 4 (by omega)
      rw [fs.wp_write_eq h₃, andThen_ok, wp_eprintln h₄]
      exact ⟨rfl, rfl⟩
  | false =>
      rw [fs.wp_write_failed h₃, andThen_err]
      exact ⟨rfl, rfl⟩

/-- `keygen` for KEM keys, up to its writes. -/
theorem wp_cmd_keygen_kem {n : UInt8} {level : SecurityLevel} {kp : KemKeyPair}
    {bundle : EncryptedKeyBundle} (hio : env.io w.calls = true)
    (hlevel : parse_level n = ok level) (hpass : env.Enters pass)
    (hgen : KemKeyPair.generate P level env.entropy = ok kp)
    (hseal : EncryptedKeyBundle.seal_kem P kp (utf8 pass) env.salt env.nonce = ok bundle)
    (out : PathBuf) (write_pub : Bool) {Q : Outcome CliError Unit → World → Prop} :
    wp (cmd_keygen P .Kem n out write_pub) Q env w
      ↔ wp (write_key_files out (bundle.to_json P) (kem_public_key_to_pem kp.public_key) write_pub)
          Q env (w.say .stderr
            ("Generating ML-KEM key pair (level " ++ toString (level_num level).toNat ++ ")... ")) := by
  rw [cmd_keygen, wp_bind, wp_lift, hlevel, andThen_ok, wp_bind,
    wp_prompt_new_passphrase_eq hpass.new hpass.confirm hpass.ne, andThen_ok, wp_bind, wp_ask,
    andThen_ok, wp_bind, eprint, wp_print_eq hio, andThen_ok, wp_bind, wp_try hgen, andThen_ok,
    wp_bind, wp_try hseal, andThen_ok]

/-- `keygen` for DSA keys, up to its writes. -/
theorem wp_cmd_keygen_dsa {n : UInt8} {level : SecurityLevel} {kp : DsaKeyPair}
    {bundle : EncryptedKeyBundle} (hio : env.io w.calls = true)
    (hlevel : parse_level n = ok level) (hpass : env.Enters pass)
    (hgen : DsaKeyPair.generate P level env.entropy = ok kp)
    (hseal : EncryptedKeyBundle.seal_dsa P kp (utf8 pass) env.salt env.nonce = ok bundle)
    (out : PathBuf) (write_pub : Bool) {Q : Outcome CliError Unit → World → Prop} :
    wp (cmd_keygen P .Dsa n out write_pub) Q env w
      ↔ wp (write_key_files out (bundle.to_json P) (dsa_public_key_to_pem kp.public_key) write_pub)
          Q env (w.say .stderr
            ("Generating ML-DSA key pair (level " ++ toString (level_num level).toNat ++ ")... ")) := by
  rw [cmd_keygen, wp_bind, wp_lift, hlevel, andThen_ok, wp_bind,
    wp_prompt_new_passphrase_eq hpass.new hpass.confirm hpass.ne, andThen_ok, wp_bind, wp_ask,
    andThen_ok, wp_bind, eprint, wp_print_eq hio, andThen_ok, wp_bind, wp_try hgen, andThen_ok,
    wp_bind, wp_try hseal, andThen_ok]

/-- `encapsulate` to a key that decodes. -/
theorem wp_cmd_encapsulate (hio : env.ServesBut (w.calls + 2)) {key_path : PathBuf} {pem : String}
    (hread : w.files.content key_path = some (utf8 pem))
    (hkem : Str.contains pem.toList "ML-KEM".toList = true) {k : KemPublicKey}
    (hk : kem_public_key_from_pem P pem = ok k) {ct : Bytes} {secret : SharedSecretKey}
    (henc : KemKeyPair.encapsulate P k env.entropy = ok (ct, secret)) (ct_out secret_out : PathBuf) :
    wp (cmd_encapsulate P key_path ct_out secret_out)
      (fun o w' => SecondWrite (env.io (w.calls + 2)) ct_out (hex_encode ct) secret_out
        (hex_encode secret.bytes) w.files o w'.files) env w := by
  have hserves : ∀ n, n ≠ 2 → env.io (w.calls + n) = true := fun n hn => hio _ (by omega)
  have h₀ : env.io w.calls = true := hserves 0 (by omega)
  have h₁ : env.io (w.calls + 1) = true := hserves 1 (by omega)
  rw [cmd_encapsulate, wp_bind, fs.wp_read_to_string_eq h₀ hread, andThen_ok, if_pos hkem, wp_bind,
    wp_try hk, andThen_ok, wp_bind, wp_ask, andThen_ok, wp_bind, wp_try henc, andThen_ok, wp_bind,
    fs.wp_write_eq h₁, andThen_ok, wp_bind]
  cases h₂ : env.io (w.calls + 2) with
  | true =>
      have h₃ : env.io (w.calls + 3) = true := hserves 3 (by omega)
      have h₄ : env.io (w.calls + 4) = true := hserves 4 (by omega)
      have h₅ : env.io (w.calls + 5) = true := hserves 5 (by omega)
      rw [fs.wp_write_eq h₂, andThen_ok, wp_bind, wp_eprintln h₃, andThen_ok, wp_bind,
        wp_eprintln h₄, andThen_ok, wp_eprintln h₅]
      exact ⟨rfl, rfl⟩
  | false =>
      rw [fs.wp_write_failed h₂, andThen_err]
      exact ⟨rfl, rfl⟩

theorem hex_decode_trimmed_encode (bytes : Bytes) :
    hex_decode_trimmed (hex_encode bytes) = pure bytes := by
  have hdec : Hex.decode (Str.trim (Hex.encode bytes)) = .ok bytes := by
    have h := @Hex.decode_trim_padded [] (Hex.encode bytes) [] bytes (by simp) (by simp)
      (Hex.map_toLower_encode bytes)
    rwa [List.nil_append, List.append_nil] at h
  rw [hex_decode_trimmed, hex_encode, String.toList_ofList, hdec]

/-- How `decapsulate` and `sign` start: they read a bundle, ask for the passphrase
and open the bundle with it. -/
theorem wp_open_key {α : Type} {unsealAs : EncryptedKeyBundle → Bytes → Result α}
    (hio : env.io w.calls = true) (hpass : env.Enters pass) {key_path : PathBuf} {json : String}
    (hread : w.files.content key_path = some (utf8 json)) {bundle : EncryptedKeyBundle}
    (hjson : EncryptedKeyBundle.from_json P json = ok bundle) {kp : α}
    (hunseal : unsealAs bundle (utf8 pass) = ok kp) (g : α → Cmd Unit)
    {Q : Outcome CliError Unit → World → Prop} :
    wp (do
        let json ← fs.read_to_string key_path
        let passphrase ← prompt_passphrase
        let bundle ← try_ (EncryptedKeyBundle.from_json P json)
        let kp ← lift (mapErr (fun _ => unsealFailed) (unsealAs bundle (utf8 passphrase)))
        g kp) Q env w ↔ wp (g kp) Q env w.tick := by
  rw [wp_bind, fs.wp_read_to_string_eq hio hread, andThen_ok, wp_bind,
    wp_prompt_passphrase_eq hpass.again hpass.ne, andThen_ok, wp_bind, wp_try hjson, andThen_ok,
    wp_bind, wp_lift, hunseal, mapErr_ok, andThen_ok]

/-- `decapsulate` with a bundle that opens. -/
theorem wp_cmd_decapsulate (hio : env.NoIoError) (hpass : env.Enters pass) {key_path : PathBuf}
    {bundle : EncryptedKeyBundle} {json : String} (hread : w.files.content key_path = some (utf8 json))
    (hjson : EncryptedKeyBundle.from_json P json = ok bundle) {kp : KemKeyPair}
    (hunseal : bundle.unseal_kem P (utf8 pass) = ok kp) {ct_path : PathBuf} {ct : Bytes}
    (hct : w.files.content ct_path = some (utf8 (hex_encode ct))) {secret : SharedSecretKey}
    (hdec : kp.decapsulate P ct = ok secret) (secret_out : PathBuf) :
    wp (cmd_decapsulate P key_path ct_path secret_out)
      (fun o w' => o = ok () ∧ w'.files = w.files.write secret_out (utf8 (hex_encode secret.bytes)))
      env w := by
  refine (wp_open_key (hio _) hpass hread hjson hunseal _).mpr ?_
  rw [wp_bind, fs.wp_read_to_string_eq (w := w.tick) (hio _) hct, andThen_ok, wp_bind,
    hex_decode_trimmed_encode, wp_pure, andThen_ok, wp_bind, wp_try hdec, andThen_ok, wp_bind, fs.wp_write_eq (hio _),
    andThen_ok, wp_bind, wp_eprintln (hio _), andThen_ok, wp_eprintln (hio _)]
  exact ⟨rfl, rfl⟩

/-- `sign` with a bundle that opens. -/
theorem wp_cmd_sign (hio : env.NoIoError) (hpass : env.Enters pass) {key_path : PathBuf}
    {bundle : EncryptedKeyBundle} {json : String} (hread : w.files.content key_path = some (utf8 json))
    (hjson : EncryptedKeyBundle.from_json P json = ok bundle) {kp : DsaKeyPair}
    (hunseal : bundle.unseal_dsa P (utf8 pass) = ok kp) {file_path : PathBuf} {message : Bytes}
    (hfile : w.files.content file_path = some message) {signature : Bytes}
    (hsign : kp.sign P message env.entropy = ok signature) (sig_out : PathBuf) :
    wp (cmd_sign P key_path file_path sig_out)
      (fun o w' => o = ok () ∧ w'.files = w.files.write sig_out (utf8 (hex_encode signature)))
      env w := by
  refine (wp_open_key (hio _) hpass hread hjson hunseal _).mpr ?_
  rw [wp_bind, fs.wp_read_eq (w := w.tick) (hio _) hfile, andThen_ok, wp_bind, wp_ask, andThen_ok, wp_bind,
    wp_try hsign, andThen_ok, wp_bind, fs.wp_write_eq (hio _), andThen_ok, wp_bind,
    wp_eprintln (hio _), andThen_ok, wp_eprintln (hio _)]
  exact ⟨rfl, rfl⟩

/-- `verify` of a signature that is one. -/
theorem wp_cmd_verify (hio : env.NoIoError) {key_path : PathBuf} {pem : String}
    (hread : w.files.content key_path = some (utf8 pem))
    (hdsa : Str.contains pem.toList "ML-DSA".toList = true) {k : DsaPublicKey}
    (hk : dsa_public_key_from_pem P pem = ok k) {file_path sig_path : PathBuf} {message : Bytes}
    (hfile : w.files.content file_path = some message) {signature : Bytes}
    (hsig : w.files.content sig_path = some (utf8 (hex_encode signature)))
    (hverify : DsaKeyPair.verify_with_typed_key P k message signature = ok ()) :
    wp (cmd_verify P key_path file_path sig_path)
      (fun o w' => o = ok () ∧ (Stream.stdout, "Signature valid.\n") ∈ w'.console) env w := by
  rw [cmd_verify, wp_bind, fs.wp_read_to_string_eq (hio _) hread, andThen_ok, if_pos hdsa, wp_bind,
    wp_try hk, andThen_ok, wp_bind, fs.wp_read_eq (w := w.tick) (hio _) hfile, andThen_ok, wp_bind,
    fs.wp_read_to_string_eq (w := w.tick.tick) (hio _) hsig, andThen_ok, wp_bind, hex_decode_trimmed_encode, wp_pure,
    andThen_ok, hverify, wp_bind, wp_println (hio _), andThen_ok, wp_bind, wp_println (hio _),
    andThen_ok, wp_println (hio _)]
  refine ⟨rfl, ?_⟩
  simp [World.say, World.tick]

end Success

/-! ## Workflows -/

/-- What three commands in a row are run with: a level there is, a path with a name
and the path of its public key, one passphrase that Argon2 takes, and no I/O
failure. -/
structure Session (P : Platform) (n : UInt8) (out pub : PathBuf) (pass : String)
    (env₁ env₂ env₃ : Env) : Prop where
  level : ∃ level, parse_level n = ok level
  name : ∃ name, name ≠ "" ∧ out.name = some (utf8 name)
    ∧ pub = { out with name := some (utf8 (name ++ ".pub")) }
  enters : ∀ env ∈ [env₁, env₂, env₃], env.Enters pass
  io : ∀ env ∈ [env₁, env₂, env₃], env.NoIoError
  argon2 : (derive_key P (utf8 pass) env₁.salt.val).IsOk

/-- `keygen`, `encapsulate` and `decapsulate` in a row: all three succeed, and the
two secrets are the same bytes. -/
def KemWorkflow (P : Platform) : Prop :=
  ∀ (f : Files PathBuf Bytes) (n : UInt8) (out pub ct s1 s2 : PathBuf) (pass : String)
    (env₁ env₂ env₃ : Env), Session P n out pub pass env₁ env₂ env₃ →
    [out, pub, ct, s1, s2].Nodup →
    ∃ w₁ w₂ w₃ secret,
      run P (.Keygen .Kem n out true) env₁ (World.start f) = (ok (), w₁)
        ∧ run P (.Encapsulate pub ct s1) env₂ (World.start w₁.files) = (ok (), w₂)
        ∧ run P (.Decapsulate out ct s2) env₃ (World.start w₂.files) = (ok (), w₃)
        ∧ w₃.files.content s1 = some secret ∧ w₃.files.content s2 = some secret

/-- `keygen`, `sign` and `verify` in a row: all three succeed, and `verify` says so,
whatever the file holds. -/
def DsaWorkflow (P : Platform) : Prop :=
  ∀ (f : Files PathBuf Bytes) (n : UInt8) (out pub file sig : PathBuf) (message : Bytes)
    (pass : String) (env₁ env₂ env₃ : Env), Session P n out pub pass env₁ env₂ env₃ →
    [out, pub, file, sig].Nodup → f.content file = some message →
    ∃ w₁ w₂ w₃,
      run P (.Keygen .Dsa n out true) env₁ (World.start f) = (ok (), w₁)
        ∧ run P (.Sign out file sig) env₂ (World.start w₁.files) = (ok (), w₂)
        ∧ run P (.Verify pub file sig) env₃ (World.start w₂.files) = (ok (), w₃)
        ∧ (Stream.stdout, "Signature valid.\n") ∈ w₃.console

theorem pub_path_eq {out : PathBuf} {name : String} (h : out.name = some (utf8 name)) :
    pub_path out = { out with name := some (utf8 (name ++ ".pub")) } := by
  rw [pub_path_of_name h, fromUtf8Lossy_utf8, utf8_append]

/-- The text of a KEM key passes the search in front of its decoder. -/
theorem contains_kem_pem (k : KemPublicKey) :
    Str.contains (kem_public_key_to_pem k).toList "ML-KEM".toList = true := by
  have hmarker : Str.contains (pemBegin KEM_LABEL).toList "ML-KEM".toList = true := by decide
  rw [Str.contains_iff] at hmarker ⊢
  exact hmarker.trans (pemBegin_prefix_to_pem (.kem k)).isInfix

theorem contains_dsa_pem (k : DsaPublicKey) :
    Str.contains (dsa_public_key_to_pem k).toList "ML-DSA".toList = true := by
  have hmarker : Str.contains (pemBegin DSA_LABEL).toList "ML-DSA".toList = true := by decide
  rw [Str.contains_iff] at hmarker ⊢
  exact hmarker.trans (pemBegin_prefix_to_pem (.dsa k)).isInfix

/-- A command that ends well ends somewhere. -/
theorem exists_of_wp {m : Cmd Unit} {env : Env} {w : World} {R : World → Prop}
    (h : wp m (fun o w' => o = ok () ∧ R w') env w) : ∃ w', m env w = (ok (), w') ∧ R w' :=
  ⟨(m env w).2, Prod.ext h.1 rfl, h.2⟩

/-- Without an I/O failure both files are written, and the others are what they were. -/
theorem exists_of_secondWrite {m : Cmd Unit} {env : Env} {w : World} (hio : env.NoIoError) {n : ℕ}
    {a b : PathBuf} (hab : a ≠ b) {x y : String} {f : Files PathBuf Bytes}
    (h : wp m (fun o w' => SecondWrite (env.io n) a x b y f o w'.files) env w) :
    ∃ w', m env w = (ok (), w') ∧ w'.files.content a = some (utf8 x)
      ∧ w'.files.content b = some (utf8 y)
      ∧ ∀ p, p ≠ a → p ≠ b → w'.files.content p = f.content p := by
  unfold SecondWrite at h
  rw [hio n] at h
  obtain ⟨w', hw', hf⟩ := exists_of_wp h
  refine ⟨w', hw', ?_, ?_, ?_⟩
  · rw [hf, Files.content_write_write_left _ hab]
  · rw [hf, Files.content_write_self]
  · intro p ha hb
    rw [hf, Files.content_write_write_of_ne _ ha hb]

section Workflows

variable {P : Platform}

theorem kem_workflow (hword : P.WordSize) (hK : P.KyberSizes) (hKC : P.KyberCorrect)
    (hA : P.AeadRoundTrip) (hE : P.AeadEncrypts) (hS : P.SerdeRoundTrip) : KemWorkflow P := by
  intro f n out pub ct s1 s2 pass env₁ env₂ env₃ hsession hpaths
  obtain ⟨level, hlevel⟩ := hsession.level
  obtain ⟨name, -, hname, rfl⟩ := hsession.name
  rw [← pub_path_eq hname] at hpaths ⊢
  simp only [List.nodup_cons, List.mem_cons, List.not_mem_nil, or_false, not_or] at hpaths
  obtain ⟨⟨houtpub, houtct, houts1, -⟩, ⟨-, -, -⟩, ⟨hcts1, -⟩, hs1s2, -⟩ := hpaths
  have hio₁ : env₁.NoIoError := hsession.io _ (by simp)
  have hio₂ : env₂.NoIoError := hsession.io _ (by simp)
  have hio₃ : env₃.NoIoError := hsession.io _ (by simp)
  -- The pair, what it is sealed as, and a secret encapsulated to it.
  obtain ⟨kp, hgen⟩ : ∃ kp, KemKeyPair.generate P level env₁.entropy = ok kp :=
    ⟨_, KemKeyPair.generate_eq _ _⟩
  have hkp := KemKeyPair.generate_fits hK hgen
  obtain ⟨bundle, hseal⟩ := EncryptedKeyBundle.seal_kem_isOk hE hkp env₁.nonce hsession.argon2
  obtain ⟨ctBytes, secret, henc, -⟩ := KemPublicKey.Fits.encapsulate hK hkp.public_key env₂.entropy
  have hunseal := unseal_kem_of_seal hword hK hA hkp hseal
  have hdec := (KemKeyPair.generate_matched hgen).decapsulate hKC henc
  obtain ⟨w₁, hw₁, hout₁, hpub₁, -⟩ := exists_of_secondWrite hio₁ houtpub
    ((wp_cmd_keygen_kem (w := World.start f) (hio₁ _) hlevel (hsession.enters _ (by simp)) hgen
      hseal out true).mpr (wp_write_key_files (fun _ _ => hio₁ _) _ _ _))
  -- `encapsulate` reads the public key and leaves the bundle alone.
  obtain ⟨w₂, hw₂, hct₂, hs1₂, hkept₂⟩ := exists_of_secondWrite hio₂ hcts1
    (wp_cmd_encapsulate (w := World.start w₁.files) (fun _ _ => hio₂ _) hpub₁ (contains_kem_pem _)
      (kem_public_key_from_pem_to_pem (hkp.valid hK)) henc ct s1)
  have hout₂ : w₂.files.content out = some (utf8 (bundle.to_json P)) := by
    rw [hkept₂ out houtct houts1]
    exact hout₁
  -- `decapsulate` opens the bundle and recovers the secret.
  obtain ⟨w₃, hw₃, hf₃⟩ := exists_of_wp
    (wp_cmd_decapsulate (w := World.start w₂.files) hio₃ (hsession.enters _ (by simp)) hout₂
      (EncryptedKeyBundle.from_json_to_json hS _) hunseal hct₂ hdec s2)
  have hs1₃ : w₃.files.content s1 = some (utf8 (hex_encode secret.bytes)) := by
    rw [hf₃, Files.content_write_of_ne _ hs1s2]
    exact hs1₂
  have hs2₃ : w₃.files.content s2 = some (utf8 (hex_encode secret.bytes)) := by
    rw [hf₃, Files.content_write_self]
  exact ⟨w₁, w₂, w₃, _, hw₁, hw₂, hw₃, hs1₃, hs2₃⟩

theorem dsa_workflow (hword : P.WordSize) (hD : P.DilithiumSizes) (hDC : P.DilithiumCorrect)
    (hA : P.AeadRoundTrip) (hE : P.AeadEncrypts) (hS : P.SerdeRoundTrip) : DsaWorkflow P := by
  intro f n out pub file sig message pass env₁ env₂ env₃ hsession hpaths hfile
  obtain ⟨level, hlevel⟩ := hsession.level
  obtain ⟨name, -, hname, rfl⟩ := hsession.name
  rw [← pub_path_eq hname] at hpaths ⊢
  simp only [List.nodup_cons, List.mem_cons, List.not_mem_nil, or_false, not_or] at hpaths
  obtain ⟨⟨houtpub, houtfile, -⟩, ⟨hpubfile, hpubsig⟩, hfilesig, -⟩ := hpaths
  have hio₁ : env₁.NoIoError := hsession.io _ (by simp)
  have hio₂ : env₂.NoIoError := hsession.io _ (by simp)
  have hio₃ : env₃.NoIoError := hsession.io _ (by simp)
  obtain ⟨kp, hgen⟩ : ∃ kp, DsaKeyPair.generate P level env₁.entropy = ok kp :=
    ⟨_, DsaKeyPair.generate_eq _ _⟩
  have hkp := DsaKeyPair.generate_fits hD hgen
  obtain ⟨bundle, hseal⟩ := EncryptedKeyBundle.seal_dsa_isOk hE hkp env₁.nonce hsession.argon2
  have hunseal := unseal_dsa_of_seal hword hD hA hkp hseal
  obtain ⟨signature, hsign⟩ := hkp.sign hD message env₂.entropy
  have hverify := (DsaKeyPair.generate_matched hgen).verify hDC hsign
  obtain ⟨w₁, hw₁, hout₁, hpub₁, hkept₁⟩ := exists_of_secondWrite hio₁ houtpub
    ((wp_cmd_keygen_dsa (w := World.start f) (hio₁ _) hlevel (hsession.enters _ (by simp)) hgen
      hseal out true).mpr (wp_write_key_files (fun _ _ => hio₁ _) _ _ _))
  have hfile₁ : w₁.files.content file = some message := by
    rw [hkept₁ file (Ne.symm houtfile) (Ne.symm hpubfile)]
    exact hfile
  -- `sign` opens the bundle, and leaves the public key and the file alone: only then
  -- does `verify` check the key and the message the signature is for.
  obtain ⟨w₂, hw₂, hf₂⟩ := exists_of_wp
    (wp_cmd_sign (w := World.start w₁.files) hio₂ (hsession.enters _ (by simp)) hout₁
      (EncryptedKeyBundle.from_json_to_json hS _) hunseal hfile₁ hsign sig)
  have hsig₂ : w₂.files.content sig = some (utf8 (hex_encode signature)) := by
    rw [hf₂, Files.content_write_self]
  have hpub₂ : w₂.files.content (pub_path out)
      = some (utf8 (dsa_public_key_to_pem kp.public_key)) := by
    rw [hf₂, Files.content_write_of_ne _ hpubsig]
    exact hpub₁
  have hfile₂ : w₂.files.content file = some message := by
    rw [hf₂, Files.content_write_of_ne _ hfilesig]
    exact hfile₁
  obtain ⟨w₃, hw₃, hvalid⟩ := exists_of_wp
    (wp_cmd_verify (w := World.start w₂.files) hio₃ hpub₂ (contains_dsa_pem _)
      (dsa_public_key_from_pem_to_pem (hkp.valid hD)) hfile₂ hsig₂ hverify)
  exact ⟨w₁, w₂, w₃, hw₁, hw₂, hw₃, hvalid⟩

end Workflows

/-! ## Keys of the wrong kind -/

/-- An error came back, and the files are what they were. -/
def Refused (w : World) (o : Outcome CliError Unit) (w' : World) : Prop :=
  (∃ e, o = err e ∧ e.IsReturned) ∧ w'.files = w.files

/-- The command returns an error and writes nothing. -/
def Rejects (P : Platform) (c : Command) (env : Env) (w : World) : Prop :=
  wp (run P c) (Refused w) env w

/-- The text of a KEM public key or of a sealed KEM pair. -/
def IsKemText (P : Platform) (s : String) : Prop :=
  (∃ k, s = kem_public_key_to_pem k)
    ∨ ∃ kp passphrase salt nonce bundle,
        EncryptedKeyBundle.seal_kem P kp passphrase salt nonce = ok bundle ∧ s = bundle.to_json P

/-- The text of a DSA public key or of a sealed DSA pair. -/
def IsDsaText (P : Platform) (s : String) : Prop :=
  (∃ k, s = dsa_public_key_to_pem k)
    ∨ ∃ kp passphrase salt nonce bundle,
        EncryptedKeyBundle.seal_dsa P kp passphrase salt nonce = ok bundle ∧ s = bundle.to_json P

/-- A DSA key handed to the KEM commands, or a KEM key to the DSA commands, is an
error and nothing is written, whatever the environment does. -/
def WrongKindRejected (P : Platform) : Prop :=
  ∀ (env : Env) (w : World) (key : PathBuf) (s : String), w.files.content key = some (utf8 s) →
    (IsDsaText P s → ∀ a b,
        Rejects P (.Encapsulate key a b) env w ∧ Rejects P (.Decapsulate key a b) env w)
      ∧ (IsKemText P s → ∀ a b,
        Rejects P (.Sign key a b) env w ∧ Rejects P (.Verify key a b) env w)

section Wrong

variable {P : Platform} {env : Env} {w w' : World} {key : PathBuf} {s : String}

theorem refused_err {e : CliError} (he : e.IsReturned) (hw : w'.files = w.files) :
    Refused w (err e) w' := ⟨⟨e, rfl, he⟩, hw⟩

theorem isReturned_io : CliError.io.IsReturned := fun _ => by simp

theorem isReturned_pqc (e : PqcError) : (CliError.pqc e).IsReturned := fun _ => by simp

theorem isReturned_msg (m : String) : (CliError.msg m).IsReturned := fun _ => by simp

/-- A command that starts with the text of its key file. -/
theorem wp_read_key (hread : w.files.content key = some (utf8 s)) {g : String → Cmd Unit}
    (hgo : wp (g s) (Refused w) env w.tick) :
    wp (fs.read_to_string key >>= g) (Refused w) env w := by
  rw [wp_bind]
  apply fs.wp_read_to_string
  · intro s' hs'
    -- The file holds one text only.
    obtain rfl := utf8_injective (Option.some.inj (hread.symm.trans hs'))
    exact hgo
  · exact refused_err isReturned_io rfl

theorem wp_try_isErr {α : Type} {x : Result α} (hx : x.IsErr) (hw : w'.files = w.files)
    (g : α → Cmd Unit) : wp (try_ x >>= g) (Refused w) env w' := by
  obtain ⟨e, rfl⟩ := hx
  rw [wp_bind, try_, wp_lift, mapErr_err, andThen_err]
  exact refused_err (isReturned_pqc e) hw

/-- The text search in front of a decoder that fails: whichever way it goes, there is
an error. -/
theorem wp_gate_isErr {α : Type} {x : Result α} (hx : x.IsErr) (hw : w'.files = w.files)
    (gate : Bool) (g : α → Cmd Unit) (m : String) :
    wp (if gate = true then try_ x >>= g else fail (.msg m)) (Refused w) env w' := by
  by_cases hgate : gate = true
  · rw [if_pos hgate]
    exact wp_try_isErr hx hw g
  · rw [if_neg hgate]
    exact refused_err (isReturned_msg m) hw

/-- `encapsulate` where the KEM decoder fails. -/
theorem rejects_encapsulate (hread : w.files.content key = some (utf8 s))
    (herr : (kem_public_key_from_pem P s).IsErr) (ct_out secret_out : PathBuf) :
    Rejects P (.Encapsulate key ct_out secret_out) env w := by
  apply wp_read_key hread
  exact wp_gate_isErr herr rfl _ _ _

/-- `verify` where the DSA decoder fails. -/
theorem rejects_verify (hread : w.files.content key = some (utf8 s))
    (herr : (dsa_public_key_from_pem P s).IsErr) (file sig : PathBuf) :
    Rejects P (.Verify key file sig) env w := by
  apply wp_read_key hread
  exact wp_gate_isErr herr rfl _ _ _

/-- The text is no bundle, or it is one that does not open this way. -/
def DoesNotOpen {α : Type} (P : Platform) (unsealAs : EncryptedKeyBundle → Bytes → Result α)
    (s : String) : Prop :=
  (EncryptedKeyBundle.from_json P s).IsErr
    ∨ ∃ bundle, EncryptedKeyBundle.from_json P s = ok bundle ∧ ∀ pass, (unsealAs bundle pass).IsErr

/-- `decapsulate` and `sign` get no further than the bundle. -/
theorem wp_open_key_isErr {α : Type} {unsealAs : EncryptedKeyBundle → Bytes → Result α}
    (hread : w.files.content key = some (utf8 s)) (herr : DoesNotOpen P unsealAs s)
    (g : α → Cmd Unit) :
    wp (do
        let json ← fs.read_to_string key
        let passphrase ← prompt_passphrase
        let bundle ← try_ (EncryptedKeyBundle.from_json P json)
        let kp ← lift (mapErr (fun _ => unsealFailed) (unsealAs bundle (utf8 passphrase)))
        g kp)
      (Refused w) env w := by
  apply wp_read_key hread
  rw [wp_bind]
  apply wp_prompt_passphrase
  · intro pass
    rw [andThen_ok]
    rcases herr with herr | ⟨bundle, hjson, herr⟩
    · exact wp_try_isErr herr rfl _
    · obtain ⟨e, he⟩ := herr (utf8 pass)
      rw [wp_bind, wp_try hjson, andThen_ok, wp_bind, wp_lift, he, mapErr_err, andThen_err]
      exact refused_err (isReturned_msg _) rfl
  · intro e he
    exact refused_err he rfl

theorem rejects_decapsulate (hread : w.files.content key = some (utf8 s))
    (herr : DoesNotOpen P (EncryptedKeyBundle.unseal_kem P) s) (ct secret_out : PathBuf) :
    Rejects P (.Decapsulate key ct secret_out) env w := wp_open_key_isErr hread herr _

theorem rejects_sign (hread : w.files.content key = some (utf8 s))
    (herr : DoesNotOpen P (EncryptedKeyBundle.unseal_dsa P) s) (file sig_out : PathBuf) :
    Rejects P (.Sign key file sig_out) env w := wp_open_key_isErr hread herr _

/-- The JSON parser does not take a PEM. -/
theorem from_json_pem_isErr (hSR : P.SerdeRejectsDashes) (k : PublicKey) :
    (EncryptedKeyBundle.from_json P k.to_pem).IsErr := by
  have hdashes : ['-', '-'] <+: k.to_pem.toList := by
    refine List.IsPrefix.trans ?_ (pemBegin_prefix_to_pem k)
    rw [pemBegin, String.toList_append, String.toList_append, List.append_assoc]
    exact (show ['-', '-'] <+: "-----BEGIN ".toList by decide).trans (List.prefix_append _ _)
  rw [EncryptedKeyBundle.from_json, hSR _ hdashes, Option.bind_none]
  exact isErr_err _

theorem wrong_kind_rejected (hS : P.SerdeRoundTrip) (hSP : P.SerdePlain)
    (hSR : P.SerdeRejectsDashes) : WrongKindRejected P := by
  intro env w key s hread
  constructor
  · intro hs a b
    rcases hs with ⟨k, rfl⟩ | ⟨kp, passphrase, salt, nonce, bundle, hseal, rfl⟩
    · -- A PEM: its label is another, and it is not JSON.
      have hpem := kem_public_key_from_pem_dsa (P := P) k
      have hopen : DoesNotOpen P (EncryptedKeyBundle.unseal_kem P) (dsa_public_key_to_pem k) :=
        .inl (from_json_pem_isErr hSR (.dsa k))
      exact ⟨rejects_encapsulate hread hpem a b, rejects_decapsulate hread hopen a b⟩
    · -- A bundle: it has no marker, and its kind is another.
      have hdash := dash_not_mem_to_json hSP hseal (by decide)
      have hopen : DoesNotOpen P (EncryptedKeyBundle.unseal_kem P) (bundle.to_json P) :=
        .inr ⟨bundle, EncryptedKeyBundle.from_json_to_json hS _, unseal_kem_isErr_of_seal_dsa hseal⟩
      exact ⟨rejects_encapsulate hread (kem_public_key_from_pem_of_dash hdash) a b,
        rejects_decapsulate hread hopen a b⟩
  · intro hs a b
    rcases hs with ⟨k, rfl⟩ | ⟨kp, passphrase, salt, nonce, bundle, hseal, rfl⟩
    · have hpem := dsa_public_key_from_pem_kem (P := P) k
      have hopen : DoesNotOpen P (EncryptedKeyBundle.unseal_dsa P) (kem_public_key_to_pem k) :=
        .inl (from_json_pem_isErr hSR (.kem k))
      exact ⟨rejects_sign hread hopen a b, rejects_verify hread hpem a b⟩
    · have hdash := dash_not_mem_to_json hSP hseal (by decide)
      have hopen : DoesNotOpen P (EncryptedKeyBundle.unseal_dsa P) (bundle.to_json P) :=
        .inr ⟨bundle, EncryptedKeyBundle.from_json_to_json hS _, unseal_dsa_isErr_of_seal_kem hseal⟩
      exact ⟨rejects_sign hread hopen a b,
        rejects_verify hread (dsa_public_key_from_pem_of_dash hdash) a b⟩

end Wrong

/-! ## All together -/

/-- A command leaves every file alone that is not one of its outputs. -/
def OutputsOnly (P : Platform) : Prop :=
  ∀ (c : Command) (env : Env) (w : World) (p : PathBuf), p ∉ c.outputs →
    (run P c env w).2.files.content p = w.files.content p

/-- **The commands compose.** -/
theorem cli_workflows {P : Platform} (hword : P.WordSize) (hK : P.KyberSizes)
    (hD : P.DilithiumSizes) (hKC : P.KyberCorrect) (hDC : P.DilithiumCorrect)
    (hA : P.AeadRoundTrip) (hE : P.AeadEncrypts) (hS : P.SerdeRoundTrip) (hSP : P.SerdePlain)
    (hSR : P.SerdeRejectsDashes) :
    KemWorkflow P ∧ DsaWorkflow P ∧ WrongKindRejected P ∧ OutputsOnly P :=
  ⟨kem_workflow hword hK hKC hA hE hS, dsa_workflow hword hD hDC hA hE hS,
    wrong_kind_rejected hS hSP hSR, fun c env w _ hp => run_content_eq c env w hp⟩

/-- A process that draws this byte over and over, with these calls failing. -/
def sampleEnv (b : UInt8) (io : ℕ → Bool) : Env where
  answer _ := some "passphrase"
  entropy _ := b
  salt := Sample.fill 16 b
  nonce := Sample.fill 12 b
  io := io

def samplePath (name : String) : PathBuf := { dir := [], name := some (utf8 name) }

theorem samplePath_inj {a b : String} : samplePath a = samplePath b ↔ a = b := by
  simp [samplePath, utf8_injective.eq_iff]

theorem sampleEnv_enters (b : UInt8) (io : ℕ → Bool) : (sampleEnv b io).Enters "passphrase" :=
  ⟨rfl, rfl, rfl, by decide⟩

theorem sample_session (n : UInt8) (hn : ∃ level, parse_level n = ok level) (b : UInt8) :
    Session samplePlatform n (samplePath "key") (samplePath "key.pub") "passphrase"
      (sampleEnv b fun _ => true) (sampleEnv b fun _ => true) (sampleEnv b fun _ => true) where
  level := hn
  name := ⟨"key", by decide, rfl, rfl⟩
  enters env henv := by
    simp only [List.mem_cons, List.not_mem_nil, or_false, or_self] at henv
    exact henv ▸ sampleEnv_enters b _
  io env henv := by
    simp only [List.mem_cons, List.not_mem_nil, or_false, or_self] at henv
    rw [henv]
    exact fun _ => rfl
  argon2 := Sample.derive_key_isOk (by decide +kernel) _

/-- Both workflows, at two levels, on an empty disk and over a file. -/
theorem cli_workflows_sample :
    (∃ w₁ w₂ w₃ secret,
        run samplePlatform (.Keygen .Kem 3 (samplePath "key") true) (sampleEnv 7 fun _ => true)
            (World.start .empty) = (ok (), w₁)
          ∧ run samplePlatform (.Encapsulate (samplePath "key.pub") (samplePath "ct")
              (samplePath "s1")) (sampleEnv 7 fun _ => true) (World.start w₁.files) = (ok (), w₂)
          ∧ run samplePlatform (.Decapsulate (samplePath "key") (samplePath "ct")
              (samplePath "s2")) (sampleEnv 7 fun _ => true) (World.start w₂.files) = (ok (), w₃)
          ∧ w₃.files.content (samplePath "s1") = some secret
          ∧ w₃.files.content (samplePath "s2") = some secret)
      ∧ ∃ w₁ w₂ w₃,
        run samplePlatform (.Keygen .Dsa 5 (samplePath "key") true) (sampleEnv 7 fun _ => true)
            (World.start (Files.empty.write (samplePath "file") [1, 2, 3])) = (ok (), w₁)
          ∧ run samplePlatform (.Sign (samplePath "key") (samplePath "file") (samplePath "sig"))
              (sampleEnv 7 fun _ => true) (World.start w₁.files) = (ok (), w₂)
          ∧ run samplePlatform (.Verify (samplePath "key.pub") (samplePath "file")
              (samplePath "sig")) (sampleEnv 7 fun _ => true) (World.start w₂.files) = (ok (), w₃)
          ∧ (Stream.stdout, "Signature valid.\n") ∈ w₃.console := by
  obtain ⟨hkem, hdsa, -⟩ := cli_workflows Sample.wordSize Sample.kyberSizes Sample.dilithiumSizes
    Sample.kyberCorrect Sample.dilithiumCorrect Sample.aeadRoundTrip Sample.aeadEncrypts
    Sample.serdeRoundTrip Sample.serdePlain Sample.serdeRejectsDashes
  constructor
  · apply hkem _ _ _ _ _ _ _ "passphrase" _ _ _ (sample_session 3 ⟨_, rfl⟩ 7)
    simp [samplePath_inj]
  · apply hdsa _ _ _ _ _ _ [1, 2, 3] "passphrase" _ _ _ (sample_session 5 ⟨_, rfl⟩ 7)
    · simp [samplePath_inj]
    · exact Files.content_write_self _ _ _

end PqcVault
