/-
`CliFiles.lean` -- the pairs of files `keygen` and `encapsulate` write.

Both commands write two files that belong together, one after the other, over
whatever was there. A second write that fails, or that `keygen` is told to leave
out, puts a new first file beside an old second one. What does hold after any
number of runs, whichever of their writes failed, is that two files agree as soon
as the second of them is the one that was written last.

For the second pair this takes an invariant of all the files there are: any of
them that reads as a KEM public key is the key of a generated pair, since bundles
and hex hold no dash.
-/
import PqcVault.CliFlow

set_option autoImplicit false

namespace PqcVault

open Rust Outcome Program Utf8
open Rust.Files (Writes PairAgrees)

/-! ## Runs -/

section Runs

variable (P : Platform)

/-- The files after these runs, each a process of its own. -/
def runAll (runs : List (Command × Env)) (f : Files PathBuf Bytes) : Files PathBuf Bytes :=
  runs.foldl (fun f r => (run P r.1 r.2 (World.start f)).2.files) f

@[simp] theorem runAll_nil (f : Files PathBuf Bytes) : runAll P [] f = f := rfl

theorem runAll_concat (runs : List (Command × Env)) (r : Command × Env)
    (f : Files PathBuf Bytes) :
    runAll P (runs ++ [r]) f = (run P r.1 r.2 (World.start (runAll P runs f))).2.files := by
  rw [runAll, List.foldl_append]
  rfl

end Runs

/-- The files the runs use, and what for. -/
def usesOf (runs : List (Command × Env)) : List (PathBuf × Role) := runs.flatMap fun r => r.1.uses

/-- Runs that share an output path use it for the same role. -/
def OneRole (runs : List (Command × Env)) : Prop :=
  ∀ u ∈ usesOf runs, ∀ u' ∈ usesOf runs, u.1 = u'.1 → u.2 = u'.2

/-- The ciphertext and the secret of one run, and of no other. -/
def UsedTogether (runs : List (Command × Env)) (ct_out secret_out : PathBuf) : Prop :=
  (∃ key env, (Command.Encapsulate key ct_out secret_out, env) ∈ runs)
    ∧ ∀ key ct secret env, (Command.Encapsulate key ct secret, env) ∈ runs →
        (ct = ct_out ↔ secret = secret_out)

theorem mem_usesOf {runs : List (Command × Env)} {r : Command × Env} (hr : r ∈ runs)
    {u : PathBuf × Role} (hu : u ∈ r.1.uses) : u ∈ usesOf runs :=
  List.mem_flatMap.mpr ⟨r, hr, hu⟩

section Roles

variable {P : Platform} {runs : List (Command × Env)} {r : Command × Env}

/-- A run that does not use a file for what it is used for does not write it. -/
theorem OneRole.not_written (h : OneRole runs) (hr : r ∈ runs) {p : PathBuf} {role : Role}
    (hp : (p, role) ∈ usesOf runs) (hnot : (p, role) ∉ r.1.uses) {f : Files PathBuf Bytes}
    {plan : List (PathBuf × Bytes)} (hplan : Intends P r.2 f r.1 plan) : ∀ q ∈ plan, q.1 ≠ p := by
  intro q hq heq
  have hmem : q.1 ∈ r.1.outputs := hplan.paths ▸ List.mem_map_of_mem hq
  obtain ⟨u, hu, hup⟩ := List.mem_map.mp hmem
  have hpath : u.1 = p := hup.trans heq
  have hrole : u.2 = role := h u (mem_usesOf hr hu) _ hp hpath
  rw [← hpath, ← hrole] at hnot
  exact hnot hu

/-- So a run that uses neither of two files for what they are used for leaves the pair
as it is. -/
theorem OneRole.agrees_of_unused (h : OneRole runs) (hr : r ∈ runs) {good : Bytes → Bytes → Prop}
    {a b : PathBuf} {roleA roleB : Role} (ha : (a, roleA) ∈ usesOf runs)
    (hb : (b, roleB) ∈ usesOf runs) {f f' : Files PathBuf Bytes} {plan : List (PathBuf × Bytes)}
    (hplan : Intends P r.2 f r.1 plan) (hw : Writes plan f f') (hf : f.PairAgrees good a b)
    (hna : (a, roleA) ∉ r.1.uses) (hnb : (b, roleB) ∉ r.1.uses) : f'.PairAgrees good a b :=
  hw.agrees_of_disjoint (h.not_written hr ha hna hplan) (h.not_written hr hb hnb hplan) hf

theorem OneRole.ne (h : OneRole runs) {p q : PathBuf} {role role' : Role}
    (hp : (p, role) ∈ usesOf runs) (hq : (q, role') ∈ usesOf runs) (hne : role ≠ role') : p ≠ q :=
  fun heq => hne (h _ hp _ hq heq)

end Roles

/-! ## A private key and its public key -/

/-- The PEM decodes to the public key of the pair that is sealed in the bundle. -/
inductive PubMatches (P : Platform) : Bytes → Bytes → Prop
  | kem {json pem : String} {bundle : EncryptedKeyBundle} {passphrase : Bytes} {kp : KemKeyPair}
      (hjson : EncryptedKeyBundle.from_json P json = ok bundle)
      (hunseal : bundle.unseal_kem P passphrase = ok kp)
      (hpem : kem_public_key_from_pem P pem = ok kp.public_key) :
      PubMatches P (utf8 json) (utf8 pem)
  | dsa {json pem : String} {bundle : EncryptedKeyBundle} {passphrase : Bytes} {kp : DsaKeyPair}
      (hjson : EncryptedKeyBundle.from_json P json = ok bundle)
      (hunseal : bundle.unseal_dsa P passphrase = ok kp)
      (hpem : dsa_public_key_from_pem P pem = ok kp.public_key) :
      PubMatches P (utf8 json) (utf8 pem)

section KeyPairs

variable {P : Platform} {runs : List (Command × Env)} {r : Command × Env}

/-- The two texts of one `keygen` match. -/
theorem KeyFiles.pubMatches (hword : P.WordSize) (hK : P.KyberSizes) (hD : P.DilithiumSizes)
    (hA : P.AeadRoundTrip) (hS : P.SerdeRoundTrip) {json pem : String} (h : KeyFiles P json pem) :
    PubMatches P (utf8 json) (utf8 pem) := by
  cases h with
  | kem hgen hseal =>
      have hkp := KemKeyPair.generate_fits hK hgen
      exact .kem (EncryptedKeyBundle.from_json_to_json hS _)
        (unseal_kem_of_seal hword hK hA hkp hseal)
        (kem_public_key_from_pem_to_pem (hkp.valid hK))
  | dsa hgen hseal =>
      have hkp := DsaKeyPair.generate_fits hD hgen
      exact .dsa (EncryptedKeyBundle.from_json_to_json hS _)
        (unseal_dsa_of_seal hword hD hA hkp hseal)
        (dsa_public_key_from_pem_to_pem (hkp.valid hD))

/-- Whoever asks for the public key of a path keeps the private key there. -/
theorem mem_usesOf_out {out : PathBuf} (h : (pub_path out, Role.publicKeyOf out) ∈ usesOf runs) :
    (out, Role.privateKey) ∈ usesOf runs := by
  obtain ⟨⟨c, env⟩, hr, hu⟩ := List.mem_flatMap.mp h
  apply mem_usesOf hr
  cases c with
  | Keygen algo level out' pub_key =>
      cases pub_key with
      | true =>
          have heq : pub_path out = pub_path out' ∧ out = out' := by simpa [Command.uses] using hu
          rw [heq.2]
          exact List.mem_cons_self
      | false => simp [Command.uses] at hu
  | _ =>
      -- No other command writes a public key.
      simp [Command.uses] at hu

/-- One run keeps a key pair in step. -/
theorem run_pubMatches (hword : P.WordSize) (hK : P.KyberSizes) (hD : P.DilithiumSizes)
    (hA : P.AeadRoundTrip) (hS : P.SerdeRoundTrip) (hroles : OneRole runs) {out : PathBuf}
    (hpub : (pub_path out, Role.publicKeyOf out) ∈ usesOf runs) (hr : r ∈ runs)
    {f f' : Files PathBuf Bytes} (h : Outcomes P r.2 r.1 f f')
    (hf : f.PairAgrees (PubMatches P) out (pub_path out)) :
    f'.PairAgrees (PubMatches P) out (pub_path out) := by
  have hout := mem_usesOf_out hpub
  have hne : out ≠ pub_path out := hroles.ne hout hpub (by simp)
  rcases h with rfl | ⟨plan, hplan, hw⟩
  · exact hf
  have hother := hroles.agrees_of_unused hr hout hpub hplan hw hf
  obtain ⟨c, env⟩ := r
  cases hplan with
  | @keygen algo level out' pub_key json pem hfiles =>
      by_cases heq : out' = out
      · subst heq
        cases pub_key with
        | true => exact hw.agrees_both hne (hfiles.pubMatches hword hK hD hA hS) hf
        | false => exact hw.agrees_first hne hf
      · -- The key pair of another path.
        apply hother
        · cases pub_key <;> simp [Command.uses, Ne.symm heq]
        · cases pub_key <;> simp [Command.uses, Ne.symm heq]
  | encapsulate _ _ _ => exact hother (by simp [Command.uses]) (by simp [Command.uses])
  | decapsulate _ => exact hother (by simp [Command.uses]) (by simp [Command.uses])
  | sign _ => exact hother (by simp [Command.uses]) (by simp [Command.uses])

end KeyPairs

/-! ## A ciphertext and its secret -/

/-- If a file with these contents reads as a KEM public key, it is the key of a
generated pair. -/
def ReadsAsGenerated (P : Platform) (x : Bytes) : Prop :=
  ∀ pem k, x = utf8 pem → kem_public_key_from_pem P pem = ok k →
    ∃ level e kp, KemKeyPair.generate P level e = ok kp ∧ kp.public_key = k

/-- One of the runs encapsulated to the public key of a generated pair, had these
two contents to write, and the pair recovers the second from the first. -/
inductive EncapsulatedBy (P : Platform) (runs : List (Command × Env))
    (ct_out secret_out : PathBuf) : Bytes → Bytes → Prop
  | intro {pre post : List (Command × Env)} {key : PathBuf} {env : Env} {pem : String}
      {level : SecurityLevel} {e : Entropy} {kp : KemKeyPair} {ct : Bytes}
      {secret : SharedSecretKey}
      (hruns : runs = pre ++ (.Encapsulate key ct_out secret_out, env) :: post)
      (hkey : (runAll P pre .empty).content key = some (utf8 pem))
      (hpem : kem_public_key_from_pem P pem = ok kp.public_key)
      (hgen : KemKeyPair.generate P level e = ok kp)
      (henc : KemKeyPair.encapsulate P kp.public_key env.entropy = ok (ct, secret))
      (hdec : kp.decapsulate P ct = ok secret) :
      EncapsulatedBy P runs ct_out secret_out (utf8 (hex_encode ct)) (utf8 (hex_encode secret.bytes))

section Encapsulations

variable {P : Platform} {runs : List (Command × Env)} {r : Command × Env}
  {ct_out secret_out : PathBuf}

theorem EncapsulatedBy.concat {x y : Bytes} (h : EncapsulatedBy P runs ct_out secret_out x y)
    (r : Command × Env) : EncapsulatedBy P (runs ++ [r]) ct_out secret_out x y := by
  cases h with
  | @intro pre post key env pem level e kp ct secret hruns hkey hpem hgen henc hdec =>
      -- The run it came from is where it was, with one more behind it.
      have hruns' : runs ++ [r]
          = pre ++ (.Encapsulate key ct_out secret_out, env) :: (post ++ [r]) := by
        rw [hruns, List.append_assoc, List.cons_append]
      exact .intro hruns' hkey hpem hgen henc hdec

theorem readsAsGenerated_of_dash {s : String} (h : '-' ∉ s.toList) :
    ReadsAsGenerated P (utf8 s) := by
  intro pem k hx hk
  rw [← utf8_injective hx] at hk
  exact absurd hk ((kem_public_key_from_pem_of_dash h).ne_ok k)

theorem readsAsGenerated_hex (bs : Bytes) : ReadsAsGenerated P (utf8 (hex_encode bs)) := by
  apply readsAsGenerated_of_dash
  rw [hex_encode, String.toList_ofList]
  exact Hex.dash_not_mem_encode bs

/-- Both texts of a `keygen`: a bundle is not a PEM at all, and the PEM is of the
generated pair or of the other kind. -/
theorem KeyFiles.readsAsGenerated (hK : P.KyberSizes) (hSP : P.SerdePlain) {json pem : String}
    (h : KeyFiles P json pem) :
    ReadsAsGenerated P (utf8 json) ∧ ReadsAsGenerated P (utf8 pem) := by
  cases h with
  | @kem level e kp passphrase salt nonce bundle hgen hseal =>
      refine ⟨readsAsGenerated_of_dash (dash_not_mem_to_json hSP hseal (by decide)), ?_⟩
      intro pem k hx hk
      rw [← utf8_injective hx,
        kem_public_key_from_pem_to_pem ((KemKeyPair.generate_fits hK hgen).valid hK)] at hk
      exact ⟨level, e, kp, hgen, Outcome.ok.inj hk⟩
  | @dsa level e kp passphrase salt nonce bundle hgen hseal =>
      refine ⟨readsAsGenerated_of_dash (dash_not_mem_to_json hSP hseal (by decide)), ?_⟩
      intro pem k hx hk
      rw [← utf8_injective hx] at hk
      exact absurd hk ((kem_public_key_from_pem_dsa _).ne_ok k)

/-- So no command sets out to write a KEM key that is not of a generated pair. -/
theorem Intends.readsAsGenerated (hK : P.KyberSizes) (hSP : P.SerdePlain) {env : Env}
    {f : Files PathBuf Bytes} {c : Command} {plan : List (PathBuf × Bytes)}
    (h : Intends P env f c plan) : ∀ q ∈ plan, ReadsAsGenerated P q.2 := by
  cases h with
  | @keygen algo level out pub_key json pem hfiles =>
      obtain ⟨hjson, hpem⟩ := hfiles.readsAsGenerated hK hSP
      refine List.forall_mem_cons.mpr ⟨hjson, ?_⟩
      cases pub_key with
      | true => exact List.forall_mem_singleton.mpr hpem
      | false => exact List.forall_mem_nil _
  | encapsulate _ _ _ =>
      refine List.forall_mem_cons.mpr ⟨readsAsGenerated_hex _, ?_⟩
      exact List.forall_mem_singleton.mpr (readsAsGenerated_hex _)
  | decapsulate _ => exact List.forall_mem_singleton.mpr (readsAsGenerated_hex _)
  | sign _ => exact List.forall_mem_singleton.mpr (readsAsGenerated_hex _)

/-- One run keeps every file a generated key or no KEM key at all. -/
theorem run_readsAsGenerated (hK : P.KyberSizes) (hSP : P.SerdePlain) {f f' : Files PathBuf Bytes}
    (h : Outcomes P r.2 r.1 f f') (hf : ∀ p x, f.content p = some x → ReadsAsGenerated P x) :
    ∀ p x, f'.content p = some x → ReadsAsGenerated P x := by
  rcases h with rfl | ⟨plan, hplan, hw⟩
  · exact hf
  · exact hw.content_of (hplan.readsAsGenerated hK hSP) hf

theorem mem_usesOf_of_usedTogether (h : UsedTogether runs ct_out secret_out) :
    (ct_out, Role.ciphertext) ∈ usesOf runs ∧ (secret_out, Role.secret) ∈ usesOf runs := by
  obtain ⟨⟨key, env, hmem⟩, -⟩ := h
  constructor
  · exact mem_usesOf hmem List.mem_cons_self
  · exact mem_usesOf hmem (List.mem_cons_of_mem _ List.mem_cons_self)

/-- One run keeps a ciphertext and its secret in step. -/
theorem run_encapsulatedBy (hKC : P.KyberCorrect) (hroles : OneRole runs)
    (htogether : UsedTogether runs ct_out secret_out) (hr : r ∈ runs)
    {done : List (Command × Env)}
    (hreads : ∀ p x, (runAll P done .empty).content p = some x → ReadsAsGenerated P x)
    (hf : (runAll P done .empty).PairAgrees (EncapsulatedBy P done ct_out secret_out)
      ct_out secret_out) :
    (runAll P (done ++ [r]) .empty).PairAgrees (EncapsulatedBy P (done ++ [r]) ct_out secret_out)
      ct_out secret_out := by
  obtain ⟨hct, hsecret⟩ := mem_usesOf_of_usedTogether htogether
  have hne : ct_out ≠ secret_out := hroles.ne hct hsecret (by simp)
  have hf' := hf.mono fun x y h => h.concat r
  rw [runAll_concat]
  rcases run_outcomes r.1 r.2 (World.start (runAll P done .empty)) with h | ⟨plan, hplan, hw⟩
  · rw [h]
    exact hf'
  have hother := hroles.agrees_of_unused hr hct hsecret hplan hw hf'
  obtain ⟨c, env⟩ := r
  cases hplan with
  | @keygen algo level out pub_key json pem _ =>
      apply hother
      · cases pub_key <;> simp [Command.uses]
      · cases pub_key <;> simp [Command.uses]
  | @encapsulate key ct_out' secret_out' pem k ct secret hkey hk henc =>
      have hboth := htogether.2 key ct_out' secret_out' env hr
      by_cases heq : ct_out' = ct_out
      · obtain rfl := hboth.mp heq
        subst heq
        -- The key that was read is that of a generated pair, which opens what was encapsulated.
        obtain ⟨level, e, kp, hgen, rfl⟩ := hreads _ _ hkey pem k rfl hk
        have hdec := (KemKeyPair.generate_matched hgen).decapsulate hKC henc
        exact hw.agrees_both hne (.intro rfl hkey hk hgen henc hdec) hf'
      · -- The two are always used together, so this run uses neither.
        have hneq : secret_out' ≠ secret_out := fun h => heq (hboth.mpr h)
        apply hother
        · simp [Command.uses, Ne.symm heq]
        · simp [Command.uses, Ne.symm hneq]
  | decapsulate _ => exact hother (by simp [Command.uses]) (by simp [Command.uses])
  | sign _ => exact hother (by simp [Command.uses]) (by simp [Command.uses])

end Encapsulations

/-! ## Any number of runs -/

section AllRuns

variable {P : Platform} {runs : List (Command × Env)}

/-- What one run keeps, the runs keep. -/
theorem runAll_induction {I : List (Command × Env) → Prop} (hnil : I [])
    (hstep : ∀ done, ∀ r ∈ runs, I done → I (done ++ [r])) {done : List (Command × Env)}
    (hdone : done <+: runs) : I done := by
  have hsub : ∀ done : List (Command × Env), (∀ r ∈ done, r ∈ runs) → I done := by
    intro done
    induction done using List.reverseRecOn with
    | nil => exact fun _ => hnil
    | append_singleton done r ih =>
        intro hmem
        have hlast : r ∈ runs := hmem r (List.mem_append_right _ List.mem_cons_self)
        exact hstep done r hlast (ih fun r' hr' => hmem r' (List.mem_append_left _ hr'))
  exact hsub done fun r hr => hdone.subset hr

/-- **Files that belong together.** After any of the runs, a key pair and an
encapsulation are in step if their second file is the one that was written last. -/
theorem runs_keep_pairs (hword : P.WordSize) (hK : P.KyberSizes) (hD : P.DilithiumSizes)
    (hKC : P.KyberCorrect) (hA : P.AeadRoundTrip) (hS : P.SerdeRoundTrip) (hSP : P.SerdePlain)
    (hroles : OneRole runs) {done : List (Command × Env)} (hdone : done <+: runs) :
    (∀ out, (pub_path out, Role.publicKeyOf out) ∈ usesOf runs →
        (runAll P done .empty).PairAgrees (PubMatches P) out (pub_path out))
      ∧ ∀ ct_out secret_out, UsedTogether runs ct_out secret_out →
        (runAll P done .empty).PairAgrees (EncapsulatedBy P done ct_out secret_out)
          ct_out secret_out := by
  constructor
  · intro out hpub
    refine runAll_induction
      (I := fun done => (runAll P done .empty).PairAgrees (PubMatches P) out (pub_path out))
      Files.pairAgrees_empty (fun done r hr hf => ?_) hdone
    rw [runAll_concat]
    exact run_pubMatches hword hK hD hA hS hroles hpub hr
      (run_outcomes r.1 r.2 (World.start (runAll P done .empty))) hf
  · intro ct_out secret_out htogether
    -- The invariant is about all files, since a run may read its key from any of them.
    refine (runAll_induction
      (I := fun done =>
        (∀ p x, (runAll P done .empty).content p = some x → ReadsAsGenerated P x)
          ∧ (runAll P done .empty).PairAgrees (EncapsulatedBy P done ct_out secret_out)
            ct_out secret_out)
      ⟨fun p x hx => absurd hx (by simp [Files.empty]), Files.pairAgrees_empty⟩
      (fun done r hr hf => ⟨?_, run_encapsulatedBy hKC hroles htogether hr hf.1 hf.2⟩) hdone).2
    rw [runAll_concat]
    exact run_readsAsGenerated hK hSP
      (run_outcomes r.1 r.2 (World.start (runAll P done .empty))) hf.1

end AllRuns

/-! ## A second write that fails -/

namespace Sample

/-- `keygen` on the sample paths: the pair of this byte. -/
def keygen (b : UInt8) (io : ℕ → Bool) : Command × Env :=
  (.Keygen .Kem 1 (samplePath "key") true, sampleEnv b io)

/-- `encapsulate` on the sample paths, with this byte as the coins. -/
def encapsulate (b : UInt8) (io : ℕ → Bool) : Command × Env :=
  (.Encapsulate (samplePath "key.pub") (samplePath "ct") (samplePath "secret"), sampleEnv b io)

/-- The files after one of these runs. -/
def after (r : Command × Env) (f : Files PathBuf Bytes) : Files PathBuf Bytes :=
  (run samplePlatform r.1 r.2 (World.start f)).2.files

theorem runAll_cons (r : Command × Env) (runs : List (Command × Env)) (f : Files PathBuf Bytes) :
    runAll samplePlatform (r :: runs) f = runAll samplePlatform runs (after r f) := rfl

theorem pub_path_key : pub_path (samplePath "key") = samplePath "key.pub" :=
  @pub_path_eq (samplePath "key") "key" rfl

/-- The PEM of the pair of this byte. -/
def pem (b : UInt8) : String := kem_public_key_to_pem (kemPair .Level1 b).public_key

theorem from_pem (b : UInt8) :
    kem_public_key_from_pem samplePlatform (pem b) = ok (kemPair .Level1 b).public_key :=
  kem_public_key_from_pem_to_pem ((kemPair_fits .Level1 b).valid kyberSizes)

/-- What `keygen` leaves of its two files. -/
theorem after_keygen (b : UInt8) {io : ℕ → Bool} (hio : (sampleEnv b io).ServesBut 4)
    (f : Files PathBuf Bytes) :
    ∃ bundle, EncryptedKeyBundle.seal_kem samplePlatform (kemPair .Level1 b) (utf8 "passphrase")
        (fill 16 b) (fill 12 b) = ok bundle
      ∧ after (keygen b io) f
        = if io 4 then (f.write (samplePath "key") (utf8 (bundle.to_json samplePlatform))).write
            (samplePath "key.pub") (utf8 (pem b))
          else f.write (samplePath "key") (utf8 (bundle.to_json samplePlatform)) := by
  have hlen : (utf8 "passphrase").length ≤ 2 ^ 32 - 1 := by decide +kernel
  obtain ⟨bundle, hseal⟩ := seal_kemPair_isOk .Level1 b hlen (fill 16 b) (fill 12 b)
  refine ⟨bundle, hseal, ?_⟩
  have hgen : KemKeyPair.generate samplePlatform .Level1 (sampleEnv b io).entropy
      = ok (kemPair .Level1 b) := generate_kemPair .Level1 b
  have hlevel : parse_level 1 = ok .Level1 := rfl
  have hseal' : EncryptedKeyBundle.seal_kem samplePlatform (kemPair .Level1 b) (utf8 "passphrase")
      (sampleEnv b io).salt (sampleEnv b io).nonce = ok bundle := hseal
  have h₀ : (sampleEnv b io).io 0 = true := hio 0 (by omega)
  -- The second write comes behind the announcement, the first write and two lines about it.
  have h := (wp_cmd_keygen_kem (w := World.start f) h₀ hlevel (sampleEnv_enters b io) hgen hseal'
    (samplePath "key") true).mpr (wp_write_key_files hio _ _ _)
  rw [pub_path_key] at h
  exact files_of_secondWrite h

/-- What `encapsulate` leaves of its two files, for the key of the byte 0. -/
theorem after_encapsulate (b : UInt8) {io : ℕ → Bool} (hio : (sampleEnv b io).ServesBut 2)
    {f : Files PathBuf Bytes} (hkey : f.content (samplePath "key.pub") = some (utf8 (pem 0)))
    {ct : Bytes} {secret : SharedSecretKey}
    (henc : KemKeyPair.encapsulate samplePlatform (kemPair .Level1 0).public_key (fun _ => b)
      = ok (ct, secret)) :
    after (encapsulate b io) f
      = if io 2 then (f.write (samplePath "ct") (utf8 (hex_encode ct))).write
          (samplePath "secret") (utf8 (hex_encode secret.bytes))
        else f.write (samplePath "ct") (utf8 (hex_encode ct)) :=
  files_of_secondWrite (@wp_cmd_encapsulate samplePlatform (sampleEnv b io) (World.start f) hio
    _ _ hkey (contains_kem_pem _) _ (from_pem 0) _ _ henc (samplePath "ct") (samplePath "secret"))

/-- The bundle of one pair and the PEM of another do not match, under any
passphrase. -/
theorem not_pubMatches {b c : UInt8} (hne : b ≠ c) {passphrase : Bytes}
    {salt : FixedArray UInt8 16} {nonce : FixedArray UInt8 12} {bundle : EncryptedKeyBundle}
    (hseal : EncryptedKeyBundle.seal_kem samplePlatform (kemPair .Level1 b) passphrase salt nonce
      = ok bundle) :
    ¬ PubMatches samplePlatform (utf8 (bundle.to_json samplePlatform)) (utf8 (pem c)) := by
  generalize hx : utf8 (bundle.to_json samplePlatform) = x
  generalize hy : utf8 (pem c) = y
  intro h
  cases h with
  | @kem json pem' bundle' passphrase' kp hjson hunseal hpem =>
      rw [← utf8_injective hx, EncryptedKeyBundle.from_json_to_json serdeRoundTrip] at hjson
      obtain rfl := Outcome.ok.inj hjson
      rw [← utf8_injective hy, from_pem] at hpem
      -- The plaintext is the one that was sealed, so what came out is the pair of `b`.
      have hsealed := decrypt_sealed aeadRoundTrip hseal (SameSecret.refl bundle)
      obtain ⟨⟨level, pt⟩, hopen, -⟩ := bind_eq_ok.mp hunseal
      have hdec := (open_bundle_eq_ok.mp hopen).2.2.2
      rw [← decrypt_unique hsealed hdec] at hdec
      obtain ⟨-, -, level', -, hfrom⟩ := ((EncryptedKeyBundle.unseal_kem_encoded wordSize
        (kemPair_fits .Level1 b).pk_le hdec).2 kp).mp hunseal
      obtain ⟨-, rfl⟩ := KemKeyPair.from_bytes_eq_ok.mp hfrom
      have hbytes : List.replicate 800 c = List.replicate 800 b :=
        congrArg KemPublicKey.bytes (Outcome.ok.inj hpem)
      exact hne ((List.replicate_right_inj (by decide)).mp hbytes).symm
  | @dsa json pem' bundle' passphrase' kp hjson hunseal hpem =>
      rw [← utf8_injective hx, EncryptedKeyBundle.from_json_to_json serdeRoundTrip] at hjson
      obtain rfl := Outcome.ok.inj hjson
      exact (unseal_dsa_isErr_of_seal_kem hseal passphrase').ne_ok kp hunseal

/-- Two runs of `keygen`, the second of which fails at its public key. -/
def staleKeys : List (Command × Env) := [keygen 0 fun _ => true, keygen 1 fun n => n ≠ 4]

/-- Two runs of `encapsulate`, the second of which fails at its secret. -/
def staleSecrets : List (Command × Env) :=
  [keygen 0 fun _ => true, encapsulate 0 fun _ => true, encapsulate 1 fun n => n ≠ 2]

theorem samplePath_ne {a b : String} (h : a ≠ b) : samplePath a ≠ samplePath b :=
  fun heq => h (samplePath_inj.mp heq)

/-- Encapsulation to the pair of the byte 0. -/
theorem encapsulate_zero : KemKeyPair.encapsulate samplePlatform (kemPair .Level1 0).public_key
    (fun _ => 0) = ok (List.replicate 768 0, ⟨List.replicate 32 0⟩) := by
  decide +kernel

theorem encapsulate_one : KemKeyPair.encapsulate samplePlatform (kemPair .Level1 0).public_key
    (fun _ => 1) = ok (List.replicate 768 1, ⟨List.replicate 32 1⟩) := by
  decide +kernel

theorem key_after_keygen (f : Files PathBuf Bytes) :
    (after (keygen 0 fun _ => true) f).content (samplePath "key.pub") = some (utf8 (pem 0)) := by
  obtain ⟨bundle, -, hafter⟩ := @after_keygen 0 (fun _ => true) (fun _ _ => rfl) f
  rw [hafter, if_pos rfl, Files.content_write_self]

/-- The files after both runs of `keygen`. -/
theorem files_staleKeys :
    ∃ bundle, EncryptedKeyBundle.seal_kem samplePlatform (kemPair .Level1 1) (utf8 "passphrase")
        (fill 16 1) (fill 12 1) = ok bundle
      ∧ (runAll samplePlatform staleKeys .empty).content (samplePath "key")
        = some (utf8 (bundle.to_json samplePlatform))
      ∧ (runAll samplePlatform staleKeys .empty).content (samplePath "key.pub")
        = some (utf8 (pem 0)) := by
  have hruns : runAll samplePlatform staleKeys .empty
      = after (keygen 1 fun n => n ≠ 4) (after (keygen 0 fun _ => true) .empty) := by
    rw [staleKeys, runAll_cons, runAll_cons, runAll_nil]
  obtain ⟨bundle, hseal, hafter⟩ := @after_keygen 1 (fun n => n ≠ 4) (fun n hn => decide_eq_true hn)
    (after (keygen 0 fun _ => true) .empty)
  rw [if_neg (by decide)] at hafter
  refine ⟨bundle, hseal, ?_, ?_⟩
  · rw [hruns, hafter, Files.content_write_self]
  · rw [hruns, hafter, Files.content_write_of_ne _ (samplePath_ne (by decide)), key_after_keygen]

/-- The files after the first run of `encapsulate`. -/
theorem after_first_encapsulate :
    after (encapsulate 0 fun _ => true) (after (keygen 0 fun _ => true) .empty)
      = ((after (keygen 0 fun _ => true) .empty).write (samplePath "ct")
          (utf8 (hex_encode (List.replicate 768 0)))).write (samplePath "secret")
            (utf8 (hex_encode (List.replicate 32 0))) := by
  have h := @after_encapsulate 0 (fun _ => true) (fun _ _ => rfl) _ (key_after_keygen .empty) _ _
    encapsulate_zero
  rwa [if_pos rfl] at h

theorem key_after_encapsulate :
    (after (encapsulate 0 fun _ => true) (after (keygen 0 fun _ => true) .empty)).content
      (samplePath "key.pub") = some (utf8 (pem 0)) := by
  rw [after_first_encapsulate, Files.content_write_write_of_ne _ (samplePath_ne (by decide))
    (samplePath_ne (by decide)), key_after_keygen]

/-- The files after both runs of `encapsulate`. -/
theorem files_staleSecrets :
    (runAll samplePlatform staleSecrets .empty).content (samplePath "ct")
        = some (utf8 (hex_encode (List.replicate 768 1)))
      ∧ (runAll samplePlatform staleSecrets .empty).content (samplePath "secret")
        = some (utf8 (hex_encode (List.replicate 32 0))) := by
  have h := @after_encapsulate 1 (fun n => n ≠ 2) (fun n hn => decide_eq_true hn) _
    key_after_encapsulate _ _
    encapsulate_one
  rw [if_neg (by decide)] at h
  rw [staleSecrets, runAll_cons, runAll_cons, runAll_cons, runAll_nil, h]
  constructor
  · rw [Files.content_write_self]
  · rw [Files.content_write_of_ne _ (samplePath_ne (by decide)), after_first_encapsulate,
      Files.content_write_self]

/-- What a file of the sample key decodes to, and what is encapsulated to it. -/
theorem encapsulate_of_pem {pem' : String} {kp : KemKeyPair} {c : UInt8} {ct : Bytes}
    {secret : SharedSecretKey} {f : Files PathBuf Bytes}
    (hf : f.content (samplePath "key.pub") = some (utf8 (pem 0)))
    (hkey : f.content (samplePath "key.pub") = some (utf8 pem'))
    (hpem : kem_public_key_from_pem samplePlatform pem' = ok kp.public_key)
    (henc : KemKeyPair.encapsulate samplePlatform kp.public_key (fun _ => c) = ok (ct, secret)) :
    KemKeyPair.encapsulate samplePlatform (kemPair .Level1 0).public_key (fun _ => c)
      = ok (ct, secret) := by
  obtain rfl := utf8_injective (Option.some.inj (hf.symm.trans hkey))
  rw [from_pem] at hpem
  rw [Outcome.ok.inj hpem, henc]

theorem hex_encode_replicate_ne (n : ℕ) (hn : n ≠ 0) :
    utf8 (hex_encode (List.replicate n 1)) ≠ utf8 (hex_encode (List.replicate n 0)) := by
  intro h
  have hlist := Hex.encode_injective (String.ofList_injective (utf8_injective h))
  exact absurd ((List.replicate_right_inj hn).mp hlist) (by decide)

/-- The ciphertext of the second run and the secret of the first are of no run. -/
theorem not_encapsulatedBy :
    ¬ EncapsulatedBy samplePlatform staleSecrets (samplePath "ct") (samplePath "secret")
        (utf8 (hex_encode (List.replicate 768 1))) (utf8 (hex_encode (List.replicate 32 0))) := by
  generalize hx : utf8 (hex_encode (List.replicate 768 1)) = x
  generalize hy : utf8 (hex_encode (List.replicate 32 0)) = y
  intro h
  cases h with
  | @intro pre post key env pem' level e kp ct secret hruns hkey hpem hgen henc hdec =>
      -- The run is one of the two, so it stands after one run or after two.
      match pre, hruns, hkey with
      | [], hruns, _ => simp [staleSecrets, keygen] at hruns
      | [r], hruns, hkey =>
          simp only [staleSecrets, List.cons_append, List.nil_append, List.cons.injEq] at hruns
          obtain ⟨rfl, hrun, -⟩ := hruns
          rw [encapsulate, Prod.mk.injEq, Command.Encapsulate.injEq] at hrun
          obtain ⟨⟨rfl, -, -⟩, rfl⟩ := hrun
          rw [runAll_cons, runAll_nil] at hkey
          have hct := (encapsulate_of_pem (key_after_keygen .empty) hkey hpem henc).symm.trans
            encapsulate_zero
          obtain ⟨rfl, -⟩ := Prod.mk.inj (Outcome.ok.inj hct)
          exact hex_encode_replicate_ne 768 (by decide) hx
      | [r, r'], hruns, hkey =>
          simp only [staleSecrets, List.cons_append, List.nil_append, List.cons.injEq] at hruns
          obtain ⟨rfl, rfl, hrun, -⟩ := hruns
          rw [encapsulate, Prod.mk.injEq, Command.Encapsulate.injEq] at hrun
          obtain ⟨⟨rfl, -, -⟩, rfl⟩ := hrun
          rw [runAll_cons, runAll_cons, runAll_nil] at hkey
          have hsecret := (encapsulate_of_pem key_after_encapsulate hkey hpem henc).symm.trans
            encapsulate_one
          obtain ⟨-, rfl⟩ := Prod.mk.inj (Outcome.ok.inj hsecret)
          exact hex_encode_replicate_ne 32 (by decide) hy.symm
      | r :: r' :: r'' :: rest, hruns, _ =>
          have hlen := congrArg List.length hruns
          simp [staleSecrets] at hlen

theorem oneRole_staleKeys : OneRole staleKeys := by
  unfold OneRole
  decide +kernel

theorem oneRole_staleSecrets : OneRole staleSecrets := by
  unfold OneRole
  decide +kernel

theorem usedTogether_staleSecrets :
    UsedTogether staleSecrets (samplePath "ct") (samplePath "secret") := by
  refine ⟨⟨samplePath "key.pub", _, List.mem_cons_of_mem _ List.mem_cons_self⟩, ?_⟩
  intro key ct secret env hmem
  simp only [staleSecrets, keygen, encapsulate, List.mem_cons, Prod.mk.injEq,
    Command.Encapsulate.injEq, reduceCtorEq, false_and, false_or, List.not_mem_nil, or_false] at hmem
  rcases hmem with ⟨⟨-, rfl, rfl⟩, -⟩ | ⟨⟨-, rfl, rfl⟩, -⟩
  · exact iff_of_true rfl rfl
  · exact iff_of_true rfl rfl

end Sample

/-- Both pairs of files exist after runs that share paths only in the same roles,
and neither pair belongs together. -/
theorem failed_second_write_leaves_stale_pair :
    (OneRole Sample.staleKeys
        ∧ ∃ x y, (runAll samplePlatform Sample.staleKeys .empty).content (samplePath "key") = some x
          ∧ (runAll samplePlatform Sample.staleKeys .empty).content (pub_path (samplePath "key"))
            = some y
          ∧ ¬ PubMatches samplePlatform x y)
      ∧ OneRole Sample.staleSecrets
        ∧ UsedTogether Sample.staleSecrets (samplePath "ct") (samplePath "secret")
        ∧ ∃ x y, (runAll samplePlatform Sample.staleSecrets .empty).content (samplePath "ct") = some x
          ∧ (runAll samplePlatform Sample.staleSecrets .empty).content (samplePath "secret") = some y
          ∧ ¬ EncapsulatedBy samplePlatform Sample.staleSecrets (samplePath "ct")
              (samplePath "secret") x y := by
  refine ⟨⟨Sample.oneRole_staleKeys, ?_⟩, Sample.oneRole_staleSecrets,
    Sample.usedTogether_staleSecrets, ?_⟩
  · obtain ⟨bundle, hseal, hkey, hpub⟩ := Sample.files_staleKeys
    rw [Sample.pub_path_key]
    exact ⟨_, _, hkey, hpub, Sample.not_pubMatches (by decide) hseal⟩
  · obtain ⟨hct, hsecret⟩ := Sample.files_staleSecrets
    exact ⟨_, _, hct, hsecret, Sample.not_encapsulatedBy⟩

/-- Before the failing run, both pairs are in step. -/
theorem runs_keep_pairs_sample :
    (∃ x y, (runAll samplePlatform (Sample.staleSecrets.take 2) .empty).content (samplePath "key")
          = some x
        ∧ (runAll samplePlatform (Sample.staleSecrets.take 2) .empty).content
          (pub_path (samplePath "key")) = some y
        ∧ PubMatches samplePlatform x y)
      ∧ ∃ x y, (runAll samplePlatform (Sample.staleSecrets.take 2) .empty).content (samplePath "ct")
          = some x
        ∧ (runAll samplePlatform (Sample.staleSecrets.take 2) .empty).content (samplePath "secret")
          = some y
        ∧ EncapsulatedBy samplePlatform (Sample.staleSecrets.take 2) (samplePath "ct")
            (samplePath "secret") x y := by
  have hruns : runAll samplePlatform (Sample.staleSecrets.take 2) .empty
      = Sample.after (Sample.encapsulate 0 fun _ => true)
          (Sample.after (Sample.keygen 0 fun _ => true) .empty) := by
    rw [Sample.staleSecrets, List.take_succ_cons, List.take_succ_cons, List.take_zero,
      Sample.runAll_cons, Sample.runAll_cons, runAll_nil]
  have hne {a b : String} (h : a ≠ b) := Sample.samplePath_ne h
  obtain ⟨hkeys, hsecrets⟩ := runs_keep_pairs Sample.wordSize Sample.kyberSizes
    Sample.dilithiumSizes Sample.kyberCorrect Sample.aeadRoundTrip Sample.serdeRoundTrip
    Sample.serdePlain Sample.oneRole_staleSecrets (List.take_prefix 2 Sample.staleSecrets)
  constructor
  · apply hkeys (samplePath "key") (by decide +kernel)
    obtain ⟨bundle, -, hafter⟩ := @Sample.after_keygen 0 (fun _ => true) (fun _ _ => rfl) .empty
    rw [hruns, Sample.after_first_encapsulate, Sample.pub_path_key,
      Files.latest_write_of_ne _ (hne (by decide)) (hne (by decide)),
      Files.latest_write_of_ne _ (hne (by decide)) (hne (by decide)), hafter, if_pos rfl,
      Files.latest_write_right]
  · apply hsecrets (samplePath "ct") (samplePath "secret") Sample.usedTogether_staleSecrets
    rw [hruns, Sample.after_first_encapsulate, Files.latest_write_right]

end PqcVault
