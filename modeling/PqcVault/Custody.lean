/-
`Custody.lean` -- files on their way from run to run.

A signature is made in one run and checked in another, and any number of runs may come
between them, some of which fail. It does not matter which, as long as the files that are
handed on are still the ones that were written: the two of the key pair, and the signature
or the ciphertext. Then `verify` does not refuse the signature, and `decapsulate` writes
the secret that `encapsulate` wrote. If a read or a write fails on the way, both say so; if
a line cannot be printed at the end, both panic, and the secret is on the disk by then.

For the two files of a key pair to be two files there is one thing to know of paths, that
no path is its own public key path (`pub_path_ne`).
-/
import PqcVault.CliFaults
import PqcVault.Provenance

set_option autoImplicit false

namespace PqcVault

open Rust Outcome Program Utf8

/-! ## Two files of one key pair -/

/-- No path is its own public key path. -/
theorem pub_path_ne (out : PathBuf) : pub_path out ≠ out := by
  intro heq
  cases hname : out.name with
  | none =>
      -- A path without a name gets one.
      have hsome : (pub_path out).name.isSome := by
        unfold pub_path PathBuf.set_file_name
        rw [hname]
        rfl
      rw [heq, hname] at hsome
      exact absurd hsome (by simp)
  | some n =>
      rw [pub_path_of_name hname] at heq
      have hn : utf8 (fromUtf8Lossy n ++ ".pub") = n := by
        have hsame := congrArg PathBuf.name heq
        rw [hname, ← utf8_append] at hsame
        exact Option.some.inj hsame
      -- A name that is its own text with more behind it.
      have htext : fromUtf8Lossy n = fromUtf8Lossy n ++ ".pub" := by
        conv_lhs => rw [← hn]
        exact fromUtf8Lossy_utf8 _
      have hlen := congrArg String.length htext
      rw [String.length_append] at hlen
      have hpub : ".pub".length = 4 := rfl
      omega

section Custody

variable {P : Platform} {env : Env} {w w' : World} {c : Command} {job : Job}
  {f₀ : Files PathBuf Bytes}

/-- What is decided does not depend on which calls succeed. -/
theorem Decides.faultless {f : Files PathBuf Bytes} (hd : Decides P env f c job) :
    Decides P env.faultless f c job := by
  cases hd with
  | keygen_kem hlevel hpass hgen hseal => exact .keygen_kem hlevel hpass hgen hseal
  | keygen_dsa hlevel hpass hgen hseal => exact .keygen_dsa hlevel hpass hgen hseal
  | encapsulate hkey hk henc => exact .encapsulate hkey hk henc
  | decapsulate hkey hpass hjson hunseal hct hhex hdec =>
      exact .decapsulate hkey hpass hjson hunseal hct hhex hdec
  | sign hkey hpass hjson hunseal hfile hsign => exact .sign hkey hpass hjson hunseal hfile hsign
  | valid hkey hk hfile hsig hhex hverify => exact .valid hkey hk hfile hsig hhex hverify
  | invalid hkey hk hfile hsig hhex hverify => exact .invalid hkey hk hfile hsig hhex hverify
  | inspect hkey hjson => exact .inspect hkey hjson

/-- A command that announces nothing comes back with the error if it cannot read a file. -/
theorem Decides.run_err_io (hd : Decides P env w.files c job) (hsilent : c.announces = [])
    (hno : ¬ env.Serves w.calls c.prelude) : (run P c env w).1 = err .io := by
  have hgood : prepare P c env.faultless w = (ok job, w.ready c) :=
    prepare_eq_ok.mpr ⟨hd.faultless, fun _ _ _ => rfl, rfl⟩
  have hready : (w.ready c).console = w.console := by
    change w.console ++ c.announces = w.console
    rw [hsilent, List.append_nil]
  have hfault : ¬ ioCalls.Served env (ioCalls.count w)
      (ioCalls.count (prepare P c env.faultless w).2) := by
    rw [hgood]
    exact hno
  obtain ⟨k, hk⟩ := Calls.exists_firstFault hfault
  obtain ⟨e, hend, -, hstops⟩ := (stops_prepare c).fault w k hk
  have hstops : World.StopsBefore e (prepare P c env w).2 (prepare P c env.faultless w).2 := hstops
  rw [hgood] at hstops
  rw [run_eq]
  change (Program.bind (prepare P c) Job.carryOut env w).1 = err .io
  unfold Program.bind
  rcases hp : prepare P c env w with ⟨o, w₁⟩
  rw [hp] at hend hstops
  obtain rfl : o = .stop e := hend
  cases hstops with
  | io _ => rfl
  | print line h =>
      -- There is no line that it could have come to.
      obtain ⟨said, hsaid, hconsole⟩ := (tentative_prepare (P := P) c).console env w
      rw [hsilent, List.prefix_nil] at hsaid
      rw [hp, hsaid, List.append_nil] at hconsole
      have hlen := h.console.length_le
      rw [hready, List.length_append, hconsole, List.length_singleton] at hlen
      omega

/-- `verify` with a signature that is valid: three reads and three prints. -/
theorem run_of_decides_valid {key file sig key' file' : PathBuf}
    (hd : Decides P env w.files (.Verify key file sig) (validJob key' file')) :
    (env.Serves w.calls 6 → (run P (.Verify key file sig) env w).1 = ok ())
      ∧ (env.Serves w.calls 3 → ¬ env.Serves w.calls 6 →
        (run P (.Verify key file sig) env w).1 = .panic)
      ∧ (¬ env.Serves w.calls 3 → (run P (.Verify key file sig) env w).1 = err .io) := by
  refine ⟨fun hserves => ?_, fun hreads hno => ?_, hd.run_err_io rfl⟩
  · rw [run_of_decides hd hserves]
    rfl
  · rcases run_of_decides_cases hd hreads with ⟨-, hserves⟩ | ⟨done, a, rest, hacts, -, -, hcut⟩
    · exact absurd hserves hno
    · -- All that is left to do is to print.
      rw [hcut]
      have ha : a ∈ (validJob key' file').acts :=
        hacts ▸ List.mem_append_right _ List.mem_cons_self
      simp only [validJob, List.mem_cons, List.not_mem_nil, or_false] at ha
      rcases ha with rfl | rfl | rfl <;> rfl

/-- `decapsulate` with a secret to write: two reads, the write and two prints. -/
theorem run_of_decides_decapsulate {key ct secret_out : PathBuf} {secret : SharedSecretKey}
    (hd : Decides P env w.files (.Decapsulate key ct secret_out)
      (decapsulateJob secret_out secret)) :
    (env.Serves w.calls 3 → (run P (.Decapsulate key ct secret_out) env w).2.files
          = w.files.write secret_out (utf8 (hex_encode secret.bytes)))
      ∧ (env.Serves w.calls 5 → (run P (.Decapsulate key ct secret_out) env w).1 = ok ())
      ∧ (env.Serves w.calls 3 → ¬ env.Serves w.calls 5 →
        (run P (.Decapsulate key ct secret_out) env w).1 = .panic)
      ∧ (¬ env.Serves w.calls 3 → (run P (.Decapsulate key ct secret_out) env w).1 = err .io) := by
  by_cases hreads : env.Serves w.calls 2
  · rcases run_of_decides_cases hd hreads with
      ⟨hdone, hserves⟩ | ⟨done, a, rest, hacts, hserves, hio, hcut⟩
    · have hserves : env.Serves w.calls 5 := hserves
      rw [hdone]
      exact ⟨fun _ => World.files_enactAll _ _, fun _ => rfl, fun _ hno => absurd hserves hno,
        fun hno => absurd (hserves.of_le (by omega)) hno⟩
    · rw [hcut]
      cases done with
      | nil =>
          -- The write fails.
          obtain rfl := (List.cons.inj hacts).1
          have hno : ¬ env.Serves w.calls 3 := fun h =>
            Bool.false_ne_true (hio.symm.trans (h.at (k := 2) (by omega)))
          exact ⟨fun h => absurd h hno, fun h => absurd (h.of_le (by omega)) hno,
            fun h => absurd h hno, fun _ => rfl⟩
      | cons b done =>
          -- The write is done, and one of the prints fails.
          obtain ⟨rfl, hprints⟩ := List.cons.inj hacts
          rw [List.append_eq] at hprints
          have hprint : ∀ b ∈ done ++ a :: rest, b.file = none
              ∧ (b.failure : Outcome CliError Unit) = .panic := by
            rw [← hprints]
            simp [Act.file, Act.failure]
          have hnone : done.filterMap Act.file = [] := List.filterMap_eq_nil_iff.mpr fun b hb =>
            (hprint b (List.mem_append_left _ hb)).1
          have hlen : 2 = done.length + (rest.length + 1) := by
            have hlen := congrArg List.length hprints
            rw [List.length_append, List.length_cons] at hlen
            exact hlen
          have hwritten : env.Serves w.calls 3 := hserves.of_le (by
            change 3 ≤ 2 + (done.length + 1)
            omega)
          have hno : ¬ env.Serves w.calls 5 := by
            intro h
            have hat := h.at (k := 2 + (done.length + 1)) (by omega)
            rw [← Nat.add_assoc] at hat
            exact Bool.false_ne_true (hio.symm.trans hat)
          refine ⟨fun _ => ?_, fun h => absurd h hno,
            fun _ _ => (hprint a (List.mem_append_right _ List.mem_cons_self)).2,
            fun h => absurd hwritten h⟩
          have hwrites : (Act.write secret_out (hex_encode secret.bytes) :: done).filterMap Act.file
              = [(secret_out, utf8 (hex_encode secret.bytes))] := by
            rw [List.filterMap_cons, hnone]
            rfl
          rw [World.files_tick, World.files_enactAll, hwrites]
          rfl
  · have hno : ¬ env.Serves w.calls 3 := fun h => hreads (h.of_le (by omega))
    exact ⟨fun h => absurd h hno, fun h => absurd (h.of_le (by omega)) hno, fun h => absurd h hno,
      fun _ => hd.run_err_io rfl hreads⟩

/-- The two files a `keygen` had to write, told apart by their paths. -/
theorem writes_keygenJob_out {out : PathBuf} {json pem : String} {write_pub : Bool} {x : Bytes}
    (h : (out, x) ∈ (keygenJob out json pem write_pub).writes) : x = utf8 json := by
  rcases mem_writes_keygenJob h with ⟨-, hx⟩ | ⟨-, hp, -⟩
  · exact hx
  · exact absurd hp.symm (pub_path_ne out)

theorem writes_keygenJob_pub {out : PathBuf} {json pem : String} {write_pub : Bool} {y : Bytes}
    (h : (pub_path out, y) ∈ (keygenJob out json pem write_pub).writes) : y = utf8 pem := by
  rcases mem_writes_keygenJob h with ⟨hp, -⟩ | ⟨-, -, hy⟩
  · exact absurd hp (pub_path_ne out)
  · exact hy

/-- What one run of `keygen` gives its two files is of one pair and one passphrase, whatever
else was on the disk. -/
theorem kem_files {kg : Command × Env} {n : UInt8} {out : PathBuf} {pub_key : Bool} {pass : String}
    {f f' : Files PathBuf Bytes} {job' : Job} {x y : Bytes}
    (hkg : kg.1 = .Keygen .Kem n out pub_key) (hpass : kg.2.Chooses pass)
    (hd : Decides P kg.2 f kg.1 job) (hx : (out, x) ∈ job.writes)
    (hd' : Decides P kg.2 f' kg.1 job') (hy : (pub_path out, y) ∈ job'.writes) :
    ∃ level kp bundle, KemKeyPair.generate P level kg.2.entropy = ok kp
      ∧ EncryptedKeyBundle.seal_kem P kp (utf8 pass) kg.2.salt kg.2.nonce = ok bundle
      ∧ x = utf8 (bundle.to_json P) ∧ y = utf8 (kem_public_key_to_pem kp.public_key) := by
  rw [hkg] at hd hd'
  cases hd with
  | @keygen_kem _ _ _ level pass₁ kp bundle hlevel hpass₁ hgen hseal =>
      cases hd' with
      | @keygen_kem _ _ _ level' pass₂ kp' bundle' hlevel' _ hgen' _ =>
          obtain rfl := Outcome.ok.inj (hlevel.symm.trans hlevel')
          obtain rfl := Outcome.ok.inj (hgen.symm.trans hgen')
          obtain rfl := Option.some.inj (hpass₁.1.symm.trans hpass.1)
          exact ⟨level, kp, bundle, hgen, hseal, writes_keygenJob_out hx, writes_keygenJob_pub hy⟩

theorem dsa_files {kg : Command × Env} {n : UInt8} {out : PathBuf} {pub_key : Bool} {pass : String}
    {f f' : Files PathBuf Bytes} {job' : Job} {x y : Bytes}
    (hkg : kg.1 = .Keygen .Dsa n out pub_key) (hpass : kg.2.Chooses pass)
    (hd : Decides P kg.2 f kg.1 job) (hx : (out, x) ∈ job.writes)
    (hd' : Decides P kg.2 f' kg.1 job') (hy : (pub_path out, y) ∈ job'.writes) :
    ∃ level kp bundle, DsaKeyPair.generate P level kg.2.entropy = ok kp
      ∧ EncryptedKeyBundle.seal_dsa P kp (utf8 pass) kg.2.salt kg.2.nonce = ok bundle
      ∧ x = utf8 (bundle.to_json P) ∧ y = utf8 (dsa_public_key_to_pem kp.public_key) := by
  rw [hkg] at hd hd'
  cases hd with
  | @keygen_dsa _ _ _ level pass₁ kp bundle hlevel hpass₁ hgen hseal =>
      cases hd' with
      | @keygen_dsa _ _ _ level' pass₂ kp' bundle' hlevel' _ hgen' _ =>
          obtain rfl := Outcome.ok.inj (hlevel.symm.trans hlevel')
          obtain rfl := Outcome.ok.inj (hgen.symm.trans hgen')
          obtain rfl := Option.some.inj (hpass₁.1.symm.trans hpass.1)
          exact ⟨level, kp, bundle, hgen, hseal, writes_keygenJob_out hx, writes_keygenJob_pub hy⟩

theorem hexText_encode (bytes : Bytes) : HexText (hex_encode bytes) bytes := by
  have h := @Hex.decode_trim_padded [] (Hex.encode bytes) [] bytes (by simp) (by simp)
    (Hex.map_toLower_encode bytes)
  rw [List.nil_append, List.append_nil] at h
  rw [HexText, hex_encode, String.toList_ofList, h]

/-! ## From run to run -/

/-- **A genuine signature is not refused**, whatever runs there were: the two key files are
as one `keygen` wrote them, when the file was signed and when the signature is checked, the
signature is as `sign` wrote it, and the file has the contents that were signed. The three
files that `verify` reads are its first calls, the three lines that it prints the others. -/
theorem genuine_signature (hword : P.WordSize) (hD : P.DilithiumSizes) (hDC : P.DilithiumCorrect)
    (hA : P.AeadRoundTrip) (hS : P.SerdeRoundTrip) {runs pres prek : List (Command × Env)}
    {kg sg : Command × Env} {jobk jobp jobs : Job} {n : UInt8} {pub_key : Bool} {pass : String}
    {out file sig file' : PathBuf} {x y z : Bytes} (hkg : kg.1 = .Keygen .Dsa n out pub_key)
    (hsg : sg.1 = .Sign out file sig) (hpass : kg.2.Chooses pass) (htyped : sg.2.Types pass)
    (hkey : WroteLast P f₀ pres prek kg jobk out x)
    (hpub : WroteLast P f₀ runs prek kg jobp (pub_path out) y)
    (hsig : WroteLast P f₀ runs pres sg jobs sig z)
    (hfile : (runAll P runs f₀).content file' = (runAll P pres f₀).content file) (env : Env) :
    (env.Serves 0 6 →
        (run P (.Verify (pub_path out) file' sig) env (World.start (runAll P runs f₀))).1 = ok ())
      ∧ (env.Serves 0 3 → ¬ env.Serves 0 6 →
        (run P (.Verify (pub_path out) file' sig) env (World.start (runAll P runs f₀))).1 = .panic)
      ∧ (¬ env.Serves 0 3 →
        (run P (.Verify (pub_path out) file' sig) env (World.start (runAll P runs f₀))).1
          = err .io) := by
  obtain ⟨level, kp, bundle, hgen, hseal, rfl, rfl⟩ :=
    dsa_files hkg hpass hkey.decides hkey.writes hpub.decides hpub.writes
  have hkp := DsaKeyPair.generate_fits hD hgen
  obtain ⟨message, signature, hmessage, hsign, rfl⟩ : ∃ message signature,
      (runAll P pres f₀).content file = some message
        ∧ kp.sign P message sg.2.entropy = ok signature ∧ z = utf8 (hex_encode signature) := by
    have hd := hsig.decides
    rw [hsg] at hd
    have hz := hsig.writes
    cases hd with
    | @sign _ _ _ json pass' bundle' kp' message signature hread hpass' hjson hunseal hmessage
        hsign =>
        -- The bundle that was opened is the one `keygen` sealed, so this is its pair.
        obtain rfl := Option.some.inj (htyped.1.symm.trans hpass'.1)
        obtain rfl := utf8_injective (Option.some.inj (hkey.content.symm.trans hread))
        rw [EncryptedKeyBundle.from_json_to_json hS] at hjson
        obtain rfl := Outcome.ok.inj hjson
        rw [unseal_dsa_of_seal hword hD hA hkp hseal] at hunseal
        obtain rfl := Outcome.ok.inj hunseal
        exact ⟨message, signature, hmessage, hsign, (Prod.mk.inj (List.mem_singleton.mp hz)).2⟩
  have hd : Decides P env (runAll P runs f₀) (.Verify (pub_path out) file' sig)
      (validJob (pub_path out) file') :=
    .valid hpub.content (dsa_public_key_from_pem_to_pem (hkp.valid hD)) (hfile.trans hmessage)
      hsig.content (hexText_encode signature)
      ((DsaKeyPair.generate_matched hgen).verify hDC hsign)
  exact run_of_decides_valid (w := World.start (runAll P runs f₀)) hd

/-- **A secret arrives**, whatever runs there were: the public key was as `keygen` wrote it
when it was encapsulated to, the bundle is as the same run wrote it, and the ciphertext and
the secret are as `encapsulate` wrote them. What `decapsulate` then writes is that secret. It
reads two files and writes the third, and the two lines that it prints are behind that. -/
theorem secret_arrives (hword : P.WordSize) (hK : P.KyberSizes) (hKC : P.KyberCorrect)
    (hA : P.AeadRoundTrip) (hS : P.SerdeRoundTrip) {runs pree prek : List (Command × Env)}
    {kg en : Command × Env} {jobk jobp jobc jobs : Job} {n : UInt8} {pub_key : Bool} {pass : String}
    {out ct secret : PathBuf} {x y z u : Bytes} (hkg : kg.1 = .Keygen .Kem n out pub_key)
    (hen : en.1 = .Encapsulate (pub_path out) ct secret) (hpaths : ct ≠ secret)
    (hpass : kg.2.Chooses pass) (hpub : WroteLast P f₀ pree prek kg jobp (pub_path out) y)
    (hkey : WroteLast P f₀ runs prek kg jobk out x) (hct : WroteLast P f₀ runs pree en jobc ct z)
    (hsecret : WroteLast P f₀ runs pree en jobs secret u) (secret' : PathBuf) (env : Env)
    (htyped : env.Types pass) :
    (env.Serves 0 3 →
        (run P (.Decapsulate out ct secret') env (World.start (runAll P runs f₀))).2.files.content
          secret' = (runAll P runs f₀).content secret)
      ∧ (env.Serves 0 5 →
        (run P (.Decapsulate out ct secret') env (World.start (runAll P runs f₀))).1 = ok ())
      ∧ (env.Serves 0 3 → ¬ env.Serves 0 5 →
        (run P (.Decapsulate out ct secret') env (World.start (runAll P runs f₀))).1 = .panic)
      ∧ (¬ env.Serves 0 3 →
        (run P (.Decapsulate out ct secret') env (World.start (runAll P runs f₀))).1 = err .io) := by
  obtain ⟨level, kp, bundle, hgen, hseal, rfl, rfl⟩ :=
    kem_files hkg hpass hkey.decides hkey.writes hpub.decides hpub.writes
  have hkp := KemKeyPair.generate_fits hK hgen
  -- What the run of `encapsulate` read is the key of the pair.
  have hencaps : ∀ {job}, Decides P en.2 (runAll P pree f₀) en.1 job → ∃ c s,
      KemKeyPair.encapsulate P kp.public_key en.2.entropy = ok (c, s)
        ∧ job = encapsulateJob ct secret c s := by
    intro job hd
    rw [hen] at hd
    cases hd with
    | @encapsulate _ _ _ pem k c s hread hk henc =>
        obtain rfl := utf8_injective (Option.some.inj (hpub.content.symm.trans hread))
        rw [kem_public_key_from_pem_to_pem (hkp.valid hK)] at hk
        obtain rfl := Outcome.ok.inj hk
        exact ⟨c, s, henc, rfl⟩
  obtain ⟨c, s, henc, rfl⟩ := hencaps hct.decides
  obtain ⟨c', s', henc', rfl⟩ := hencaps hsecret.decides
  obtain ⟨rfl, rfl⟩ := Prod.mk.inj (Outcome.ok.inj (henc.symm.trans henc'))
  obtain ⟨hz, hu⟩ : z = utf8 (hex_encode c) ∧ u = utf8 (hex_encode s.bytes) := by
    have hzmem : (ct, z) ∈ [(ct, utf8 (hex_encode c)), (secret, utf8 (hex_encode s.bytes))] :=
      hct.writes
    have humem : (secret, u) ∈ [(ct, utf8 (hex_encode c)), (secret, utf8 (hex_encode s.bytes))] :=
      hsecret.writes
    simp only [List.mem_cons, Prod.mk.injEq, hpaths, hpaths.symm, true_and, false_and,
      List.not_mem_nil, or_false, false_or] at hzmem humem
    exact ⟨hzmem, humem⟩
  subst hz hu
  have hd : Decides P env (runAll P runs f₀) (.Decapsulate out ct secret')
      (decapsulateJob secret' s) :=
    .decapsulate hkey.content htyped (EncryptedKeyBundle.from_json_to_json hS _)
      (unseal_kem_of_seal hword hK hA hkp hseal) hct.content (hexText_encode c)
      ((KemKeyPair.generate_matched hgen).decapsulate hKC henc)
  obtain ⟨hfiles, hends⟩ := run_of_decides_decapsulate (w := World.start (runAll P runs f₀)) hd
  refine ⟨fun hserves => ?_, hends⟩
  rw [hfiles hserves, hsecret.content]
  exact Files.content_write_self _ _ _

/-- **A key pair is a pair of files**: at any path, whatever is on the disk, a `keygen` that ends
well has left a bundle and a public key that belong together, at two different paths. -/
theorem keygen_leaves_pair (hword : P.WordSize) (hK : P.KyberSizes) (hD : P.DilithiumSizes)
    (hA : P.AeadRoundTrip) (hS : P.SerdeRoundTrip) (algo : Algo) (n : UInt8) (out : PathBuf)
    (env : Env) (w w' : World) (hrun : run P (.Keygen algo n out true) env w = (ok (), w')) :
    pub_path out ≠ out ∧ ∃ x y, w'.files.content out = some x
      ∧ w'.files.content (pub_path out) = some y ∧ PubMatches P x y := by
  refine ⟨pub_path_ne out, ?_⟩
  obtain ⟨job, hd, -, -, rfl⟩ := (run_eq_iff_of_final (by simp) (by simp)).mp hrun
  have hfiles : ∀ json pem, KeyFiles P json pem → job = keygenJob out json pem true →
      ∃ x y, ((w.ready (.Keygen algo n out true)).enactAll job.acts).files.content out = some x
        ∧ ((w.ready (.Keygen algo n out true)).enactAll job.acts).files.content (pub_path out)
          = some y
        ∧ PubMatches P x y := by
    rintro json pem hkeys rfl
    refine ⟨utf8 json, utf8 pem, ?_, ?_, hkeys.pubMatches hword hK hD hA hS⟩
    · rw [World.files_enactAll]
      exact Files.content_write_write_left _ (pub_path_ne out).symm _ _
    · rw [World.files_enactAll]
      exact Files.content_write_self _ _ _
  cases hd with
  | keygen_kem hlevel hpass hgen hseal => exact hfiles _ _ (.kem hgen hseal) rfl
  | keygen_dsa hlevel hpass hgen hseal => exact hfiles _ _ (.dsa hgen hseal) rfl

end Custody

/-! ## Samples -/

namespace Sample

/-- A disk with one file to sign. -/
def withFile : Files PathBuf Bytes := Files.empty.write (samplePath "file") [1, 2, 3]

def keygenDsa : Command × Env := (.Keygen .Dsa 5 (samplePath "key") true, sampleEnv 7 fun _ => true)

def sign : Command × Env :=
  (.Sign (samplePath "key") (samplePath "file") (samplePath "sig"), sampleEnv 8 fun _ => true)

theorem serves (b : UInt8) (n : ℕ) : (sampleEnv b fun _ => true).Serves 0 n := fun _ _ _ => rfl

theorem sampleEnv_chooses (b : UInt8) (io : ℕ → Bool) : (sampleEnv b io).Chooses "passphrase" :=
  ⟨rfl, rfl, by decide⟩

theorem sampleEnv_types (b : UInt8) (io : ℕ → Bool) : (sampleEnv b io).Types "passphrase" :=
  ⟨rfl, by decide⟩

end Sample

/-- A signature that is checked after a run that writes elsewhere. -/
theorem genuine_signature_sample :
    (run samplePlatform
        (.Verify (pub_path (samplePath "key")) (samplePath "file") (samplePath "sig"))
        (sampleEnv 0 fun _ => true) (World.start (runAll samplePlatform
          [Sample.keygenDsa, Sample.sign, Sample.encapsulate 0 fun _ => true] Sample.withFile))).1
      = ok () := by
  have hlen : (utf8 "passphrase").length ≤ 2 ^ 32 - 1 := by decide +kernel
  obtain ⟨bundle, hseal⟩ := Sample.seal_dsaPair_isOk .Level5 7 hlen (Sample.fill 16 7)
    (Sample.fill 12 7)
  have hkp := Sample.dsaPair_fits .Level5 7
  obtain ⟨signature, hsign⟩ := hkp.sign Sample.dilithiumSizes [1, 2, 3] fun _ => 8
  have hunseal := unseal_dsa_of_seal Sample.wordSize Sample.dilithiumSizes Sample.aeadRoundTrip hkp
    hseal
  have hd : Decides samplePlatform Sample.keygenDsa.2 Sample.withFile Sample.keygenDsa.1
      (keygenJob (samplePath "key") (bundle.to_json samplePlatform)
        (dsa_public_key_to_pem (Sample.dsaPair .Level5 7).public_key) true) :=
    .keygen_dsa rfl (Sample.sampleEnv_chooses 7 _) (Sample.generate_dsaPair .Level5 7) hseal
  have hkey : WroteLast samplePlatform Sample.withFile [Sample.keygenDsa] [] Sample.keygenDsa _
      (samplePath "key") (utf8 (bundle.to_json samplePlatform)) :=
    @wroteLast_of_served _ _ [] _ _ _ _ [] hd (Sample.serves 7 _)
      (Files.content_write_write_left _ (pub_path_ne _).symm _ _) (by simp)
  have hread : Reads (runAll samplePlatform [Sample.keygenDsa] Sample.withFile) (samplePath "key")
      (bundle.to_json samplePlatform) := hkey.content
  have hpub := @wroteLast_of_served samplePlatform Sample.withFile [] Sample.keygenDsa _
    (pub_path (samplePath "key")) _ [Sample.sign, Sample.encapsulate 0 fun _ => true] hd
    (Sample.serves 7 _) (Files.content_write_self _ _ _) (by decide +kernel)
  have hkept : ∀ runs, (∀ q ∈ runs, samplePath "file" ∉ q.1.outputs) →
      (runAll samplePlatform runs Sample.withFile).content (samplePath "file") = some [1, 2, 3] :=
    fun runs hruns => (content_runAll_of_notMem hruns _).trans (Files.content_write_self _ _ _)
  have hsigned : Decides samplePlatform Sample.sign.2
      (runAll samplePlatform [Sample.keygenDsa] Sample.withFile) Sample.sign.1
      (signJob (samplePath "file") (samplePath "sig") [1, 2, 3] signature) :=
    .sign hread (Sample.sampleEnv_types 8 _)
      (EncryptedKeyBundle.from_json_to_json Sample.serdeRoundTrip _) hunseal
      (hkept _ (by decide +kernel)) hsign
  have hsig := @wroteLast_of_served samplePlatform Sample.withFile [Sample.keygenDsa] Sample.sign _
    (samplePath "sig") _ [Sample.encapsulate 0 fun _ => true] hsigned (Sample.serves 8 _)
    (Files.content_write_self _ _ _) (by decide +kernel)
  refine (genuine_signature Sample.wordSize Sample.dilithiumSizes Sample.dilithiumCorrect
    Sample.aeadRoundTrip Sample.serdeRoundTrip rfl rfl (Sample.sampleEnv_chooses 7 _)
    (Sample.sampleEnv_types 8 _) hkey hpub hsig ?_ _).1 (Sample.serves 0 6)
  rw [hkept _ (by decide +kernel)]
  exact (hkept _ (by decide +kernel)).symm

/-- A secret that is recovered from a ciphertext made in another run. -/
theorem secret_arrives_sample :
    (run samplePlatform (.Decapsulate (samplePath "key") (samplePath "ct") (samplePath "mine"))
          (sampleEnv 5 fun _ => true) (World.start (runAll samplePlatform
            [Sample.keygen 0 fun _ => true, Sample.encapsulate 0 fun _ => true] .empty))).1 = ok ()
      ∧ (run samplePlatform (.Decapsulate (samplePath "key") (samplePath "ct") (samplePath "mine"))
          (sampleEnv 5 fun _ => true) (World.start (runAll samplePlatform
            [Sample.keygen 0 fun _ => true, Sample.encapsulate 0 fun _ => true]
            .empty))).2.files.content (samplePath "mine")
        = (runAll samplePlatform [Sample.keygen 0 fun _ => true, Sample.encapsulate 0 fun _ => true]
            .empty).content (samplePath "secret") := by
  have hlen : (utf8 "passphrase").length ≤ 2 ^ 32 - 1 := by decide +kernel
  obtain ⟨bundle, hseal⟩ := Sample.seal_kemPair_isOk .Level1 0 hlen (Sample.fill 16 0)
    (Sample.fill 12 0)
  have hd : ∀ f, Decides samplePlatform (Sample.keygen 0 fun _ => true).2 f
      (Sample.keygen 0 fun _ => true).1 (keygenJob (samplePath "key")
        (bundle.to_json samplePlatform) (Sample.pem 0) true) := fun f =>
    .keygen_kem rfl (Sample.sampleEnv_chooses 0 _) (Sample.generate_kemPair .Level1 0) hseal
  have hne {a b : String} (h : a ≠ b) := Sample.samplePath_ne h
  have hkey : WroteLast samplePlatform .empty
      [Sample.keygen 0 fun _ => true, Sample.encapsulate 0 fun _ => true] []
      (Sample.keygen 0 fun _ => true) _ (samplePath "key") (utf8 (bundle.to_json samplePlatform)) :=
    @wroteLast_of_served _ _ [] _ _ _ _ [Sample.encapsulate 0 fun _ => true] (hd _)
      (Sample.serves 0 _) (Files.content_write_write_left _ (pub_path_ne _).symm _ _)
      (by decide +kernel)
  have hpub : WroteLast samplePlatform .empty [Sample.keygen 0 fun _ => true] []
      (Sample.keygen 0 fun _ => true) _ (pub_path (samplePath "key")) (utf8 (Sample.pem 0)) :=
    @wroteLast_of_served _ _ [] _ _ _ _ [] (hd _) (Sample.serves 0 _)
      (Files.content_write_self _ _ _) (by simp)
  have hread : Reads (runAll samplePlatform [Sample.keygen 0 fun _ => true] .empty)
      (samplePath "key.pub") (Sample.pem 0) := by
    rw [← Sample.pub_path_key]
    exact hpub.content
  have henc : Decides samplePlatform (Sample.encapsulate 0 fun _ => true).2
      (runAll samplePlatform [Sample.keygen 0 fun _ => true] .empty)
      (Sample.encapsulate 0 fun _ => true).1 (encapsulateJob (samplePath "ct") (samplePath "secret")
        (List.replicate 768 0) ⟨List.replicate 32 0⟩) :=
    .encapsulate hread (Sample.from_pem 0) Sample.encapsulate_zero
  have hct := @wroteLast_of_served samplePlatform .empty [Sample.keygen 0 fun _ => true]
    (Sample.encapsulate 0 fun _ => true) _ (samplePath "ct") _ [] henc (Sample.serves 0 _)
    (Files.content_write_write_left _ (hne (by decide)) _ _) (by simp)
  have hsecret := @wroteLast_of_served samplePlatform .empty [Sample.keygen 0 fun _ => true]
    (Sample.encapsulate 0 fun _ => true) _ (samplePath "secret") _ [] henc (Sample.serves 0 _)
    (Files.content_write_self _ _ _) (by simp)
  have hen : (Sample.encapsulate 0 fun _ => true).1
      = .Encapsulate (pub_path (samplePath "key")) (samplePath "ct") (samplePath "secret") := by
    rw [Sample.pub_path_key]
    rfl
  have hall := secret_arrives Sample.wordSize Sample.kyberSizes Sample.kyberCorrect
    Sample.aeadRoundTrip Sample.serdeRoundTrip rfl hen (hne (by decide))
    (Sample.sampleEnv_chooses 0 _) hpub hkey hct hsecret (samplePath "mine")
    (sampleEnv 5 fun _ => true) (Sample.sampleEnv_types 5 _)
  exact ⟨hall.2.1 (Sample.serves 5 5), hall.1 (Sample.serves 5 3)⟩

/-- A key pair whose private key file has an extension. -/
theorem keygen_leaves_pair_sample :
    ∃ w', run samplePlatform (.Keygen .Dsa 5 (samplePath "id.key") true) (sampleEnv 7 fun _ => true)
        (World.start .empty) = (ok (), w')
      ∧ pub_path (samplePath "id.key") ≠ samplePath "id.key"
      ∧ ∃ x y, w'.files.content (samplePath "id.key") = some x
        ∧ w'.files.content (pub_path (samplePath "id.key")) = some y
        ∧ PubMatches samplePlatform x y := by
  have hlen : (utf8 "passphrase").length ≤ 2 ^ 32 - 1 := by decide +kernel
  obtain ⟨bundle, hseal⟩ := Sample.seal_dsaPair_isOk .Level5 7 hlen (Sample.fill 16 7)
    (Sample.fill 12 7)
  have hrun := run_of_decides (w := World.start .empty)
    (@Decides.keygen_dsa samplePlatform (sampleEnv 7 fun _ => true) .empty 5 (samplePath "id.key")
      true _ _ _ _ rfl (Sample.sampleEnv_chooses 7 _) (Sample.generate_dsaPair .Level5 7) hseal)
    (Sample.serves 7 _)
  exact ⟨_, hrun, keygen_leaves_pair Sample.wordSize Sample.kyberSizes Sample.dilithiumSizes
    Sample.aeadRoundTrip Sample.serdeRoundTrip _ _ _ _ _ _ hrun⟩

end PqcVault
