/-
`CliPanics.lean` -- the commands that do not return.

The library panics in two places on text from outside, and every command but two
reaches one of them with the first file it reads. Here is which file makes which
command panic, whatever else there is on the disk: `PanicsOn`. Such a run has read one
file. It has written nothing and printed nothing. The other panics are the commands'
own: a line that cannot be printed, `PrintFails`, with everything done that comes before
it. `run_panic_iff` is that there is no third way.
-/
import PqcVault.CliMeaning
import PqcVault.Panics

set_option autoImplicit false

namespace PqcVault

open Rust Outcome Program Utf8

/-- The clear fields of a bundle are those of a key of this kind, and it is one that
unsealing panics on: its nonce has not 12 bytes, or its plaintext wraps the word. -/
def OpensBadly (P : Platform) (kind : String) (b : EncryptedKeyBundle) (passphrase : Bytes) : Prop :=
  b.inner.kind = kind ∧ b.inner.version = BUNDLE_VERSION
    ∧ (∃ level, b.inner.level = level_to_u8 level)
    ∧ ¬ (NonceFits b.inner passphrase ∧ PrefixSafe P b.inner passphrase)

/-- **What a command panics on**, all of it in the key file: markers that are not in order,
or a bundle that opens badly under the passphrase that is typed. -/
inductive PanicsOn (P : Platform) (env : Env) (f : Files PathBuf Bytes) : Command → Prop
  | encapsulate {key ct_out secret_out : PathBuf} {pem : String} (hkey : Reads f key pem)
      (hmarkers : ¬ MarkersInOrder KEM_LABEL pem) :
      PanicsOn P env f (.Encapsulate key ct_out secret_out)
  | decapsulate {key ct secret_out : PathBuf} {json pass : String} {bundle : EncryptedKeyBundle}
      (hkey : Reads f key json) (hpass : env.Types pass)
      (hjson : EncryptedKeyBundle.from_json P json = ok bundle)
      (hbad : OpensBadly P "kem" bundle (utf8 pass)) :
      PanicsOn P env f (.Decapsulate key ct secret_out)
  | sign {key file sig_out : PathBuf} {json pass : String} {bundle : EncryptedKeyBundle}
      (hkey : Reads f key json) (hpass : env.Types pass)
      (hjson : EncryptedKeyBundle.from_json P json = ok bundle)
      (hbad : OpensBadly P "dsa" bundle (utf8 pass)) :
      PanicsOn P env f (.Sign key file sig_out)
  | verify {key file sig : PathBuf} {pem : String} (hkey : Reads f key pem)
      (hmarkers : ¬ MarkersInOrder DSA_LABEL pem) : PanicsOn P env f (.Verify key file sig)

/-- **A line that cannot be printed**, and the world it leaves: what `keygen` announces, or a
line of the job, behind acts that were all done. -/
inductive PrintFails (P : Platform) (env : Env) (w : World) : Command → World → Prop
  | announce {algo : Algo} {n : UInt8} {out : PathBuf} {pub_key : Bool} {level : SecurityLevel}
      {pass : String} (hlevel : parse_level n = ok level) (hpass : env.Chooses pass)
      (hio : env.io w.calls = false) : PrintFails P env w (.Keygen algo n out pub_key) w.tick
  | line {c : Command} {job : Job} {done rest : List Act} {stream : Stream} {text : String}
      (hd : Decides P env w.files c job) (hacts : job.acts = done ++ .print stream text :: rest)
      (hserves : env.Serves w.calls (c.prelude + done.length))
      (hio : env.io (w.calls + (c.prelude + done.length)) = false) :
      PrintFails P env w c ((w.ready c).enactAll done).tick

/-! ## The calls that return -/

section Calls

theorem panicFree_read (p : PathBuf) : PanicFree (fs.read p) := by
  intro env w
  unfold fs.read
  split <;> simp

theorem panicFree_read_to_string (p : PathBuf) : PanicFree (fs.read_to_string p) := by
  refine (panicFree_read p).bind fun c => ?_
  cases fromUtf8 c with
  | none => exact PanicFree.fail _
  | some s => exact PanicFree.pure s

theorem panicFree_prompt_password (text : String) : PanicFree (prompt_password text) := by
  refine PanicFree.ask.bind fun env => ?_
  cases env.answer text with
  | none => exact PanicFree.fail _
  | some s => exact PanicFree.pure s

theorem panicFree_prompt_passphrase : PanicFree prompt_passphrase := by
  refine (panicFree_prompt_password _).bind fun pass => ?_
  split_ifs
  · exact PanicFree.fail _
  · exact PanicFree.pure _

theorem panicFree_prompt_new_passphrase : PanicFree prompt_new_passphrase := by
  refine (panicFree_prompt_password _).bind fun pass => (panicFree_prompt_password _).bind fun conf => ?_
  split_ifs
  · exact PanicFree.fail _
  · exact PanicFree.fail _
  · exact PanicFree.pure _

theorem panicFree_hex_decode_trimmed (text : String) : PanicFree (hex_decode_trimmed text) := by
  unfold hex_decode_trimmed
  split
  · exact PanicFree.pure _
  · exact PanicFree.fail _

theorem panicFree_try {α : Type} {x : Result α} (h : x.NoPanic) : PanicFree (try_ x) := by
  apply PanicFree.lift
  rw [NoPanic, Ne, mapErr_eq_panic]
  exact h

theorem try_eq_panic {α : Type} {x : Result α} {env : Env} {w : World} :
    (try_ x env w).1 = panic ↔ ¬ x.NoPanic := by
  change mapErr _ x = panic ↔ _
  rw [mapErr_eq_panic, NoPanic, not_not]

theorem unseal_eq_panic {α : Type} {x : Result α} {env : Env} {w : World} :
    ((lift (mapErr (fun _ => unsealFailed) x) : Cmd α) env w).1 = panic ↔ ¬ x.NoPanic := by
  change mapErr _ x = panic ↔ _
  rw [mapErr_eq_panic, NoPanic, not_not]

/-- In front of a rest that returns, the print is what may panic. -/
theorem print_bind_eq_panic {α : Type} {f : Unit → Cmd α} (hf : ∀ u, PanicFree (f u)) {env : Env}
    {w : World} {stream : Stream} {text : String} :
    ((print stream text >>= f) env w).1 = panic ↔ env.io w.calls = false := by
  rw [PanicFree.eq_panic_bind hf]
  unfold print
  by_cases hio : env.io w.calls = true
  · rw [if_pos hio, hio]
    simp
  · rw [if_neg hio]
    simp [hio]

end Calls

/-! ## The commands -/

section Commands

variable {P : Platform} {env : Env} {w : World}

theorem unseal_kem_panics_iff (hword : P.WordSize) (hP : P.Argon2Limits) {b : EncryptedKeyBundle}
    {passphrase : Bytes} :
    ¬ (b.unseal_kem P passphrase).NoPanic ↔ OpensBadly P "kem" b passphrase := by
  rw [unseal_kem_noPanic hword hP, OpensBadly]
  simp only [Classical.not_imp]

theorem unseal_dsa_panics_iff (hword : P.WordSize) (hP : P.Argon2Limits) {b : EncryptedKeyBundle}
    {passphrase : Bytes} :
    ¬ (b.unseal_dsa P passphrase).NoPanic ↔ OpensBadly P "dsa" b passphrase := by
  rw [unseal_dsa_noPanic hword hP, OpensBadly]
  simp only [Classical.not_imp]

/-- A command that starts with a level and a new passphrase and then says what it is about to
do: it cannot say so, or nothing panics. -/
theorem announce_panic_iff {n : UInt8} {text : SecurityLevel → String}
    {rest : SecurityLevel → String → Env → Cmd Job}
    (hrest : ∀ level pass env, PanicFree (rest level pass env)) :
    ((do
        let level ← lift (parse_level n)
        let passphrase ← prompt_new_passphrase
        let env ← ask
        eprint (text level)
        rest level passphrase env) env w).1 = panic
      ↔ (∃ level, parse_level n = ok level) ∧ (∃ pass, env.Chooses pass)
        ∧ env.io w.calls = false := by
  have hlevel : (parse_level n).NoPanic := by
    unfold parse_level
    split_ifs <;> simp
  rw [(PanicFree.lift hlevel).bind_eq_panic]
  constructor
  · rintro ⟨level, w₁, hlift, h⟩
    obtain ⟨hl, rfl⟩ := run_lift.mp hlift
    rw [panicFree_prompt_new_passphrase.bind_eq_panic] at h
    obtain ⟨pass, w₂, hprompt, h⟩ := h
    obtain ⟨hnew, hconfirm, hne, rfl⟩ := run_prompt_new_passphrase.mp hprompt
    rw [bind_run_of_ok (run_ask.mpr ⟨rfl, rfl⟩), eprint,
      print_bind_eq_panic fun _ => hrest level pass env] at h
    exact ⟨⟨level, hl⟩, ⟨pass, hnew, hconfirm, hne⟩, h⟩
  · rintro ⟨⟨level, hl⟩, ⟨pass, hnew, hconfirm, hne⟩, hio⟩
    refine ⟨level, w, run_lift.mpr ⟨hl, rfl⟩, ?_⟩
    rw [bind_run_of_ok (run_prompt_new_passphrase.mpr ⟨hnew, hconfirm, hne, rfl⟩),
      bind_run_of_ok (run_ask.mpr ⟨rfl, rfl⟩), eprint,
      print_bind_eq_panic fun _ => hrest level pass env]
    exact hio

theorem prepare_keygen_panic_iff {algo : Algo} {n : UInt8} {out : PathBuf} {write_pub : Bool} :
    (prepare_keygen P algo n out write_pub env w).1 = panic
      ↔ (∃ level, parse_level n = ok level) ∧ (∃ pass, env.Chooses pass)
        ∧ env.io w.calls = false := by
  cases algo with
  | Kem =>
      refine announce_panic_iff fun level pass env => (panicFree_try ?_).bind fun kp => ?_
      · rw [KemKeyPair.generate_eq]
        exact noPanic_ok _
      · exact (panicFree_try (seal_plaintext_noPanic _ _ _ _ _ _)).bind fun _ => PanicFree.pure _
  | Dsa =>
      refine announce_panic_iff fun level pass env => (panicFree_try ?_).bind fun kp => ?_
      · rw [DsaKeyPair.generate_eq]
        exact noPanic_ok _
      · exact (panicFree_try (seal_plaintext_noPanic _ _ _ _ _ _)).bind fun _ => PanicFree.pure _

theorem panicFree_prepare_inspect (key : PathBuf) : PanicFree (prepare_inspect P key) := by
  refine (panicFree_read_to_string _).bind fun text => ?_
  exact (PanicFree.lift (noPanic_okOr _ _)).bind fun _ => PanicFree.pure _

/-- A command that starts with a public key: the decoder panics, or nothing does. -/
theorem decode_key_panic_iff {α : Type} {decode : String → Result α} {label m : String}
    {needle : List Char} {rest : α → Cmd Job} (hrest : ∀ a, PanicFree (rest a))
    (hdecode : ∀ pem, (decode pem).NoPanic ↔ MarkersInOrder label pem)
    (hmarker : Str.contains (pemBegin label).toList needle = true) {key : PathBuf} :
    ((do
        let pem ← fs.read_to_string key
        if Str.contains pem.toList needle then try_ (decode pem) >>= rest
        else fail (.msg m)) env w).1 = panic
      ↔ env.io w.calls = true ∧ ∃ pem, Reads w.files key pem ∧ ¬ MarkersInOrder label pem := by
  rw [(panicFree_read_to_string _).bind_eq_panic]
  constructor
  · rintro ⟨pem, w', hread, hpanic⟩
    obtain ⟨hio, hkey, rfl⟩ := run_read_to_string.mp hread
    split_ifs at hpanic with hgate
    · rw [PanicFree.eq_panic_bind hrest, try_eq_panic, hdecode] at hpanic
      exact ⟨hio, pem, hkey, hpanic⟩
    · exact absurd hpanic (by simp [fail, lift])
  · rintro ⟨hio, pem, hkey, hmarkers⟩
    refine ⟨pem, w.tick, run_read_to_string.mpr ⟨hio, hkey, rfl⟩, ?_⟩
    -- Markers out of order are markers, so the search in front finds its word.
    have hdec : decode_pem pem label = panic := by
      rw [← decode_pem_noPanic, NoPanic, not_not] at hmarkers
      exact hmarkers
    have hgate : Str.contains pem.toList needle = true := by
      apply contains_of_decode_pem hmarker
      rw [hdec]
      simp [IsErr]
    rw [if_pos hgate, PanicFree.eq_panic_bind hrest, try_eq_panic, hdecode]
    exact hmarkers

/-- A command that starts with a bundle: unsealing it panics, or nothing does. -/
theorem open_key_panic_iff {α : Type} {unsealAs : EncryptedKeyBundle → Bytes → Result α}
    {rest : α → Cmd Job} (hrest : ∀ a, PanicFree (rest a)) {key : PathBuf} :
    ((do
        let json ← fs.read_to_string key
        let passphrase ← prompt_passphrase
        let bundle ← try_ (EncryptedKeyBundle.from_json P json)
        let kp ← lift (mapErr (fun _ => unsealFailed) (unsealAs bundle (utf8 passphrase)))
        rest kp) env w).1 = panic
      ↔ env.io w.calls = true ∧ ∃ json pass bundle, Reads w.files key json ∧ env.Types pass
          ∧ EncryptedKeyBundle.from_json P json = ok bundle
          ∧ ¬ (unsealAs bundle (utf8 pass)).NoPanic := by
  rw [(panicFree_read_to_string _).bind_eq_panic]
  constructor
  · rintro ⟨json, w', hread, hpanic⟩
    obtain ⟨hio, hkey, rfl⟩ := run_read_to_string.mp hread
    rw [panicFree_prompt_passphrase.bind_eq_panic] at hpanic
    obtain ⟨pass, w', hprompt, hpanic⟩ := hpanic
    obtain ⟨hans, hne, rfl⟩ := run_prompt_passphrase.mp hprompt
    rw [(panicFree_try (EncryptedKeyBundle.from_json_noPanic _)).bind_eq_panic] at hpanic
    obtain ⟨bundle, w', htry, hpanic⟩ := hpanic
    obtain ⟨hjson, rfl⟩ := run_try.mp htry
    rw [PanicFree.eq_panic_bind hrest, unseal_eq_panic] at hpanic
    exact ⟨hio, json, pass, bundle, hkey, ⟨hans, hne⟩, hjson, hpanic⟩
  · rintro ⟨hio, json, pass, bundle, hkey, ⟨hans, hne⟩, hjson, hpanic⟩
    refine ⟨json, w.tick, run_read_to_string.mpr ⟨hio, hkey, rfl⟩, ?_⟩
    rw [bind_run_of_ok (run_prompt_passphrase.mpr ⟨hans, hne, rfl⟩),
      bind_run_of_ok (run_try.mpr ⟨hjson, rfl⟩), PanicFree.eq_panic_bind hrest, unseal_eq_panic]
    exact hpanic

theorem prepare_encapsulate_panic_iff {key ct_out secret_out : PathBuf} :
    (prepare_encapsulate P key ct_out secret_out env w).1 = panic
      ↔ env.io w.calls = true ∧ PanicsOn P env w.files (.Encapsulate key ct_out secret_out) := by
  refine (decode_key_panic_iff (fun k => ?_) (fun pem => (public_key_from_pem_noPanic P pem).1)
    (by decide)).trans (and_congr_right fun _ => ?_)
  · refine PanicFree.ask.bind fun env => ?_
    exact (panicFree_try (KemKeyPair.encapsulate_noPanic _ _)).bind fun _ => PanicFree.pure _
  · constructor
    · rintro ⟨pem, hkey, hmarkers⟩
      exact .encapsulate hkey hmarkers
    · intro hpanics
      cases hpanics with
      | encapsulate hkey hmarkers => exact ⟨_, hkey, hmarkers⟩

theorem prepare_verify_panic_iff {key file sig : PathBuf} :
    (prepare_verify P key file sig env w).1 = panic
      ↔ env.io w.calls = true ∧ PanicsOn P env w.files (.Verify key file sig) := by
  refine (decode_key_panic_iff (fun k => ?_) (fun pem => (public_key_from_pem_noPanic P pem).2)
    (by decide)).trans (and_congr_right fun _ => ?_)
  · refine (panicFree_read _).bind fun message => (panicFree_read_to_string _).bind fun text => ?_
    refine (panicFree_hex_decode_trimmed _).bind fun signature => ?_
    have hverify := DsaKeyPair.verify_with_typed_key_noPanic (P := P) k message signature
    split
    · exact PanicFree.pure _
    · exact PanicFree.pure _
    · next heq => exact absurd heq hverify
  · constructor
    · rintro ⟨pem, hkey, hmarkers⟩
      exact .verify hkey hmarkers
    · intro hpanics
      cases hpanics with
      | verify hkey hmarkers => exact ⟨_, hkey, hmarkers⟩

theorem prepare_decapsulate_panic_iff (hword : P.WordSize) (hP : P.Argon2Limits)
    {key ct secret_out : PathBuf} :
    (prepare_decapsulate P key ct secret_out env w).1 = panic
      ↔ env.io w.calls = true ∧ PanicsOn P env w.files (.Decapsulate key ct secret_out) := by
  refine (open_key_panic_iff fun kp => ?_).trans (and_congr_right fun _ => ?_)
  · refine (panicFree_read_to_string _).bind fun text => ?_
    refine (panicFree_hex_decode_trimmed _).bind fun ct => ?_
    exact (panicFree_try (KemKeyPair.decapsulate_noPanic _ _)).bind fun _ => PanicFree.pure _
  · constructor
    · rintro ⟨json, pass, bundle, hkey, hpass, hjson, hpanic⟩
      exact .decapsulate hkey hpass hjson ((unseal_kem_panics_iff hword hP).mp hpanic)
    · intro hpanics
      cases hpanics with
      | decapsulate hkey hpass hjson hbad =>
          exact ⟨_, _, _, hkey, hpass, hjson, (unseal_kem_panics_iff hword hP).mpr hbad⟩

theorem prepare_sign_panic_iff (hword : P.WordSize) (hP : P.Argon2Limits)
    {key file sig_out : PathBuf} :
    (prepare_sign P key file sig_out env w).1 = panic
      ↔ env.io w.calls = true ∧ PanicsOn P env w.files (.Sign key file sig_out) := by
  refine (open_key_panic_iff fun kp => ?_).trans (and_congr_right fun _ => ?_)
  · refine (panicFree_read _).bind fun message => PanicFree.ask.bind fun env => ?_
    exact (panicFree_try (DsaKeyPair.sign_noPanic _ _ _)).bind fun _ => PanicFree.pure _
  · constructor
    · rintro ⟨json, pass, bundle, hkey, hpass, hjson, hpanic⟩
      exact .sign hkey hpass hjson ((unseal_dsa_panics_iff hword hP).mp hpanic)
    · intro hpanics
      cases hpanics with
      | sign hkey hpass hjson hbad =>
          exact ⟨_, _, _, hkey, hpass, hjson, (unseal_dsa_panics_iff hword hP).mpr hbad⟩

/-- A command panics before it has decided: on its key file, or at its announcement. -/
theorem prepare_panic_iff (hword : P.WordSize) (hP : P.Argon2Limits) (c : Command) :
    (prepare P c env w).1 = panic
      ↔ (env.io w.calls = true ∧ PanicsOn P env w.files c)
        ∨ ∃ algo n out pub_key, c = .Keygen algo n out pub_key
          ∧ (∃ level, parse_level n = ok level) ∧ (∃ pass, env.Chooses pass)
          ∧ env.io w.calls = false := by
  -- Only `keygen` has something to announce.
  have hsilent {c : Command} {p : Algo → UInt8 → PathBuf → Bool → Prop}
      (hc : ∀ algo n out pub_key, c ≠ .Keygen algo n out pub_key) :
      ¬ ∃ algo n out pub_key, c = .Keygen algo n out pub_key ∧ p algo n out pub_key := by
    rintro ⟨algo, n, out, pub_key, heq, -⟩
    exact hc algo n out pub_key heq
  cases c with
  | Keygen algo n out pub_key =>
      refine prepare_keygen_panic_iff.trans ⟨fun h => .inr ⟨algo, n, out, pub_key, rfl, h⟩, ?_⟩
      rintro (⟨-, ⟨⟩⟩ | ⟨_, _, _, _, heq, h⟩)
      cases heq
      exact h
  | Encapsulate key ct_out secret_out =>
      exact prepare_encapsulate_panic_iff.trans (or_iff_left (hsilent (by simp))).symm
  | Decapsulate key ct secret_out =>
      exact (prepare_decapsulate_panic_iff hword hP).trans (or_iff_left (hsilent (by simp))).symm
  | Sign key file sig_out =>
      exact (prepare_sign_panic_iff hword hP).trans (or_iff_left (hsilent (by simp))).symm
  | Verify key file sig =>
      exact prepare_verify_panic_iff.trans (or_iff_left (hsilent (by simp))).symm
  | Inspect key =>
      refine iff_of_false (panicFree_prepare_inspect key env w) ?_
      rintro (⟨-, ⟨⟩⟩ | h)
      exact hsilent (by simp) h

/-- A run that cannot print a line ends there. -/
theorem PrintFails.run_eq {c : Command} {w' : World} (h : PrintFails P env w c w') :
    run P c env w = (panic, w') := by
  cases h with
  | @announce algo n out pub_key level pass hlevel hpass hio =>
      obtain ⟨hnew, hconfirm, hne⟩ := hpass
      have hprint : ∀ text, eprint text env w = (panic, w.tick) := fun text => by
        rw [eprint, print, hio, if_neg Bool.false_ne_true]
      change cmd_keygen P algo n out pub_key env w = _
      rw [cmd_keygen, bind_run_of_ok (run_lift.mpr ⟨hlevel, rfl⟩),
        bind_run_of_ok (run_prompt_new_passphrase.mpr ⟨hnew, hconfirm, hne, rfl⟩),
        bind_run_of_ok (run_ask.mpr ⟨rfl, rfl⟩)]
      cases algo with
      | Kem => exact bind_run_of_panic (hprint _)
      | Dsa => exact bind_run_of_panic (hprint _)
  | @line c job done rest stream text hd hacts hserves hio =>
      obtain ⟨hprelude, hdone⟩ := Env.serves_add.mp hserves
      rw [PqcVault.run_eq, bind_run_of_ok (prepare_eq_ok.mpr ⟨hd, hprelude, rfl⟩)]
      refine carryOut_of_fails hacts hdone ?_
      rw [← Nat.add_assoc] at hio
      exact hio

/-- A run panics on the file it reads first, or at a line it cannot print. -/
theorem run_panics_iff (hword : P.WordSize) (hP : P.Argon2Limits) (c : Command) (env : Env)
    (w : World) :
    (run P c env w).1 = panic
      ↔ (env.io w.calls = true ∧ PanicsOn P env w.files c) ∨ ∃ w', PrintFails P env w c w' := by
  constructor
  · intro hpanic
    -- In the preparation, or in carrying out its job.
    rw [run_eq, bind_run_eq_panic] at hpanic
    rcases hpanic with hpanic | ⟨job, w₁, hprepare, hpanic⟩
    · rcases (prepare_panic_iff hword hP c).mp hpanic with
        h | ⟨algo, n, out, pub_key, rfl, ⟨level, hlevel⟩, ⟨pass, hpass⟩, hio⟩
      · exact .inl h
      · exact .inr ⟨_, .announce hlevel hpass hio⟩
    · obtain ⟨hd, hprelude, rfl⟩ := prepare_eq_ok.mp hprepare
      rcases carryOut_cases job env (w.ready c) with
        ⟨hdone, -⟩ | ⟨done, a, rest, hacts, hserves, hio, hcut⟩
      · -- A job does not end in a panic.
        rw [hdone] at hpanic
        rcases hd.ending with h | h
        · exact absurd (h.symm.trans hpanic) (by simp)
        · exact absurd (h.symm.trans hpanic) (by simp)
      · rw [hcut] at hpanic
        cases a with
        | write p text => exact absurd hpanic (by simp [Act.failure])
        | print stream text =>
            refine .inr ⟨_, .line hd hacts (Env.serves_add.mpr ⟨hprelude, hserves⟩) ?_⟩
            rw [← Nat.add_assoc]
            exact hio
  · rintro (h | ⟨w', h⟩)
    · rw [run_eq, bind_run_eq_panic]
      exact .inl ((prepare_panic_iff hword hP c).mpr (.inl h))
    · rw [h.run_eq]

/-- **When a command does not return**: it reads its key file, and that is a file it panics
on, or it comes to a line that it cannot print. In the first case nothing was written and
nothing was printed, in the second everything was done that comes before the line. -/
theorem run_panic_iff (hword : P.WordSize) (hP : P.Argon2Limits) (c : Command) (env : Env)
    (w : World) :
    ((run P c env w).1 = panic
        ↔ (env.io w.calls = true ∧ PanicsOn P env w.files c) ∨ ∃ w', PrintFails P env w c w')
      ∧ (env.io w.calls = true → PanicsOn P env w.files c →
          (run P c env w).2.files = w.files ∧ (run P c env w).2.console = w.console)
      ∧ ∀ w', PrintFails P env w c w' → run P c env w = (panic, w') := by
  refine ⟨run_panics_iff hword hP c env w, fun hio hpanics => ?_, fun w' h => h.run_eq⟩
  have hprepare : (prepare P c env w).1 = panic :=
    (prepare_panic_iff hword hP c).mpr (.inl ⟨hio, hpanics⟩)
  have hsilent : c.announces = [] := by cases hpanics <;> rfl
  have htentative := tentative_prepare (P := P) c
  obtain ⟨said, hsaid, hconsole⟩ := htentative.console env w
  rw [hsilent, List.prefix_nil] at hsaid
  rw [hsaid, List.append_nil] at hconsole
  have hrun : run P c env w = (panic, (prepare P c env w).2) := by
    rw [run_eq]
    exact bind_run_of_panic (Prod.ext hprepare rfl)
  rw [hrun]
  exact ⟨htentative.files env w, hconsole⟩

end Commands

/-- The bundle with an empty nonce, handed to `decapsulate`. -/
theorem run_panic_iff_sample :
    (run samplePlatform (.Decapsulate (samplePath "key") (samplePath "ct") (samplePath "secret"))
        (sampleEnv 0 fun _ => true) (oneFile shortNonceJson)).1 = panic := by
  refine (run_panic_iff Sample.wordSize Sample.argon2Limits _ _ _).1.mpr (.inl ⟨rfl, ?_⟩)
  have hjson : EncryptedKeyBundle.from_json samplePlatform shortNonceJson = ok shortNonceBundle := by
    decide +kernel
  have hpanic : shortNonceBundle.unseal_kem samplePlatform (utf8 "passphrase") = panic := by
    decide +kernel
  refine .decapsulate (content_oneFile _) ⟨rfl, by decide⟩ hjson
    ((unseal_kem_panics_iff Sample.wordSize Sample.argon2Limits).mp ?_)
  rw [hpanic]
  exact not_noPanic_panic

end PqcVault
