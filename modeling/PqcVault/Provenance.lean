/-
`Provenance.lean` -- where a file comes from.

Take any disk and any runs on it, in any order, with any of their calls failing. Each
file is then what it was, or it is what one of the runs had decided to write there: the
last one that wrote it, and no later one touched it (`provenance`). A run decides to
write two kinds of text besides hex, the two of a key pair, so what is known of these is
known of every file that has changed.

Two consequences. A bundle that any run has left anywhere opens under the passphrase that
was typed when it was made (`bundles_open`). And no file a run has written makes a command
panic: unless a line cannot be printed, a panic is the doing of a key file that was there
from the start (`panics_are_foreign`).
-/
import PqcVault.CliOrder
import PqcVault.CliPanics

set_option autoImplicit false

namespace PqcVault

open Rust Outcome Program Utf8

/-! ## The run that wrote a file -/

section Provenance

variable (P : Platform) (f₀ : Files PathBuf Bytes)

/-- No run has changed the file. -/
def Untouched (runs : List (Command × Env)) (p : PathBuf) : Prop :=
  ∀ mid, mid <+: runs → (runAll P mid f₀).content p = f₀.content p

/-- The run behind `pre` had decided to write this, and from then on it is what the file
holds. -/
structure WroteLast (runs pre : List (Command × Env)) (r : Command × Env) (job : Job) (p : PathBuf)
    (x : Bytes) : Prop where
  decides : Decides P r.2 (runAll P pre f₀) r.1 job
  writes : (p, x) ∈ job.writes
  splits : ∃ post, runs = pre ++ r :: post
  holds : ∀ mid, pre ++ [r] <+: mid → mid <+: runs → (runAll P mid f₀).content p = some x

variable {P f₀} {runs pre : List (Command × Env)} {r : Command × Env} {job : Job} {p : PathBuf}
  {x : Bytes}

theorem WroteLast.content (h : WroteLast P f₀ runs pre r job p x) :
    (runAll P runs f₀).content p = some x := by
  obtain ⟨post, rfl⟩ := h.splits
  refine h.holds _ ⟨post, ?_⟩ List.prefix_rfl
  rw [List.append_assoc, List.singleton_append]

/-- What one run does to one file. -/
theorem run_content_cases (c : Command) (env : Env) (w : World) (p : PathBuf) :
    (run P c env w).2.files.content p = w.files.content p
      ∨ ∃ job x, Decides P env w.files c job ∧ (p, x) ∈ job.writes
          ∧ (run P c env w).2.files.content p = some x := by
  have hcases := run_cases (P := P) c env w
  generalize (run P c env w).1 = o at hcases
  generalize (run P c env w).2 = w' at hcases ⊢
  cases hcases with
  | stopped h =>
      rw [h.files]
      exact .inl rfl
  | @cut job done a rest hd hacts =>
      have hfiles : ((w.ready c).enactAll done).tick.files
          = w.files.writeAll (done.filterMap Act.file) := World.files_enactAll _ _
      rw [hfiles]
      rcases Files.content_writeAll_cases w.files (done.filterMap Act.file) p with h | ⟨x, hx, h⟩
      · exact .inl h
      · refine .inr ⟨job, x, hd, ?_, h⟩
        rw [Job.writes, hacts, List.filterMap_append]
        exact List.mem_append_left _ hx
  | @finished job hd =>
      rw [World.files_enactAll]
      rcases Files.content_writeAll_cases w.files job.writes p with h | ⟨x, hx, h⟩
      · exact .inl h
      · exact .inr ⟨job, x, hd, hx, h⟩

/-- **Where a file comes from.** -/
theorem provenance (P : Platform) (f₀ : Files PathBuf Bytes) (runs : List (Command × Env))
    (p : PathBuf) :
    Untouched P f₀ runs p ∨ ∃ pre r job x, WroteLast P f₀ runs pre r job p x := by
  have hone : ∀ (f : Files PathBuf Bytes) (r : Command × Env),
      (run P r.1 r.2 (World.start f)).2.files.content p = f.content p
        ∨ ∃ job x, Decides P r.2 f r.1 job ∧ (p, x) ∈ job.writes
          ∧ (run P r.1 r.2 (World.start f)).2.files.content p = some x := fun f r =>
    run_content_cases r.1 r.2 (World.start f) p
  rcases last_change (fun f r => (run P r.1 r.2 (World.start f)).2.files) (fun f => f.content p)
      (fun f r y => ∃ job x, Decides P r.2 f r.1 job ∧ (p, x) ∈ job.writes ∧ y = some x) hone f₀ runs
    with h | ⟨pre, r, _, ⟨job, x, hd, hx, rfl⟩, hsplits, hholds⟩
  · exact .inl h
  · exact .inr ⟨pre, r, job, x, hd, hx, hsplits, hholds⟩

/-- A run whose calls all succeed has written its files, and wrote them last if those behind
it have other outputs. -/
theorem wroteLast_of_served {post : List (Command × Env)}
    (hd : Decides P r.2 (runAll P pre f₀) r.1 job)
    (hserves : r.2.Serves 0 (r.1.prelude + job.acts.length))
    (hx : (Files.empty.writeAll job.writes).content p = some x)
    (hpost : ∀ q ∈ post, p ∉ q.1.outputs) : WroteLast P f₀ (pre ++ r :: post) pre r job p x := by
  have hmem : (p, x) ∈ job.writes := by
    rcases Files.content_writeAll_cases Files.empty job.writes p with h | ⟨c, hc, h⟩
    · exact absurd (h.symm.trans hx) (by simp [Files.empty])
    · obtain rfl := Option.some.inj (h.symm.trans hx)
      exact hc
  have hnow : (runAll P (pre ++ [r]) f₀).content p = some x := by
    rw [runAll_concat, run_of_decides (w := World.start (runAll P pre f₀)) hd hserves,
      World.files_enactAll, Files.content_writeAll]
    change ((Files.empty.writeAll job.writes).content p).or _ = some x
    rw [hx, Option.some_or]
  refine ⟨hd, hmem, ⟨post, rfl⟩, fun mid hpre hmid => ?_⟩
  obtain ⟨later, rfl⟩ := hpre
  have hcons : pre ++ r :: post = pre ++ [r] ++ post := by
    rw [List.append_assoc, List.singleton_append]
  rw [hcons, List.prefix_append_right_inj] at hmid
  have hsplit : runAll P (pre ++ [r] ++ later) f₀ = runAll P later (runAll P (pre ++ [r]) f₀) :=
    List.foldl_append
  rw [hsplit, content_runAll_of_notMem (fun q hq => hpost q (hmid.subset hq)), hnow]

end Provenance

/-! ## What there is to write -/

/-- The contents a command can have to write, in this environment, and where. -/
inductive Written (P : Platform) (env : Env) : Command → PathBuf → Bytes → Prop
  | kem_bundle {n : UInt8} {out : PathBuf} {pub_key : Bool} {level : SecurityLevel} {pass : String}
      {kp : KemKeyPair} {bundle : EncryptedKeyBundle} (hlevel : parse_level n = ok level)
      (hpass : env.Chooses pass) (hgen : KemKeyPair.generate P level env.entropy = ok kp)
      (hseal : EncryptedKeyBundle.seal_kem P kp (utf8 pass) env.salt env.nonce = ok bundle) :
      Written P env (.Keygen .Kem n out pub_key) out (utf8 (bundle.to_json P))
  | kem_pem {n : UInt8} {out : PathBuf} {pub_key : Bool} {level : SecurityLevel} {kp : KemKeyPair}
      (hgen : KemKeyPair.generate P level env.entropy = ok kp) :
      Written P env (.Keygen .Kem n out pub_key) (pub_path out)
        (utf8 (kem_public_key_to_pem kp.public_key))
  | dsa_bundle {n : UInt8} {out : PathBuf} {pub_key : Bool} {level : SecurityLevel} {pass : String}
      {kp : DsaKeyPair} {bundle : EncryptedKeyBundle} (hlevel : parse_level n = ok level)
      (hpass : env.Chooses pass) (hgen : DsaKeyPair.generate P level env.entropy = ok kp)
      (hseal : EncryptedKeyBundle.seal_dsa P kp (utf8 pass) env.salt env.nonce = ok bundle) :
      Written P env (.Keygen .Dsa n out pub_key) out (utf8 (bundle.to_json P))
  | dsa_pem {n : UInt8} {out : PathBuf} {pub_key : Bool} {level : SecurityLevel} {kp : DsaKeyPair}
      (hgen : DsaKeyPair.generate P level env.entropy = ok kp) :
      Written P env (.Keygen .Dsa n out pub_key) (pub_path out)
        (utf8 (dsa_public_key_to_pem kp.public_key))
  | hex {c : Command} {p : PathBuf} (bytes : Bytes) : Written P env c p (utf8 (hex_encode bytes))

/-- The text of an object or of an array holds its bracket. -/
def Platform.SerdeBrackets (P : Platform) : Prop := ∀ s,
  (∀ members, P.serdeJson.fromStr s = some (.obj members) → '{' ∈ s.toList)
    ∧ ∀ xs, P.serdeJson.fromStr s = some (.arr xs) → '[' ∈ s.toList

section Written

variable {P : Platform} {env : Env} {f : Files PathBuf Bytes} {c : Command} {job : Job}
  {p : PathBuf} {x : Bytes}

theorem mem_writes_keygenJob {out : PathBuf} {json pem : String} {write_pub : Bool}
    (h : (p, x) ∈ (keygenJob out json pem write_pub).writes) :
    (p = out ∧ x = utf8 json) ∨ (write_pub = true ∧ p = pub_path out ∧ x = utf8 pem) := by
  cases write_pub with
  | true =>
      have hmem : (p, x) ∈ [(out, utf8 json), (pub_path out, utf8 pem)] := h
      simp only [List.mem_cons, Prod.mk.injEq, List.not_mem_nil, or_false] at hmem
      rcases hmem with hmem | hmem
      · exact .inl hmem
      · exact .inr ⟨rfl, hmem⟩
  | false =>
      have hmem : (p, x) ∈ [(out, utf8 json)] := h
      exact .inl (Prod.mk.inj (List.mem_singleton.mp hmem))

theorem Decides.written (hd : Decides P env f c job) (hx : (p, x) ∈ job.writes) :
    Written P env c p x := by
  cases hd with
  | keygen_kem hlevel hpass hgen hseal =>
      rcases mem_writes_keygenJob hx with ⟨rfl, rfl⟩ | ⟨-, rfl, rfl⟩
      · exact .kem_bundle hlevel hpass hgen hseal
      · exact .kem_pem hgen
  | keygen_dsa hlevel hpass hgen hseal =>
      rcases mem_writes_keygenJob hx with ⟨rfl, rfl⟩ | ⟨-, rfl, rfl⟩
      · exact .dsa_bundle hlevel hpass hgen hseal
      · exact .dsa_pem hgen
  | @encapsulate key ct_out secret_out pem k ct secret _ _ _ =>
      have hmem : (p, x) ∈ [(ct_out, utf8 (hex_encode ct)),
        (secret_out, utf8 (hex_encode secret.bytes))] := hx
      simp only [List.mem_cons, Prod.mk.injEq, List.not_mem_nil, or_false] at hmem
      rcases hmem with ⟨-, rfl⟩ | ⟨-, rfl⟩
      · exact .hex _
      · exact .hex _
  | @decapsulate key ct_path secret_out json pass text bundle kp ct secret _ _ _ _ _ _ _ =>
      have hmem : (p, x) ∈ [(secret_out, utf8 (hex_encode secret.bytes))] := hx
      obtain ⟨-, rfl⟩ := Prod.mk.inj (List.mem_singleton.mp hmem)
      exact .hex _
  | @sign key file sig_out json pass bundle kp message signature _ _ _ _ _ _ =>
      have hmem : (p, x) ∈ [(sig_out, utf8 (hex_encode signature))] := hx
      obtain ⟨-, rfl⟩ := Prod.mk.inj (List.mem_singleton.mp hmem)
      exact .hex _
  | valid _ _ _ _ _ _ => exact absurd hx List.not_mem_nil
  | invalid _ _ _ _ _ _ => exact absurd hx List.not_mem_nil
  | @inspect key text json _ _ =>
      have hnone : (inspectJob key json).writes = [] := rfl
      rw [hnone] at hx
      exact absurd hx List.not_mem_nil

/-- A document that is a bundle is an object or an array. -/
theorem from_json_isErr_of_brackets (hB : P.SerdeBrackets) {s : String} (hobj : '{' ∉ s.toList)
    (harr : '[' ∉ s.toList) : (EncryptedKeyBundle.from_json P s).IsErr := by
  apply (EncryptedKeyBundle.from_json_noPanic s).isErr
  intro b hb
  have hread := from_json_eq_ok hb
  rw [Option.bind_eq_some_iff] at hread
  obtain ⟨j, hj, hdeserialize⟩ := hread
  cases j with
  | obj members => exact hobj ((hB s).1 members hj)
  | arr xs => exact harr ((hB s).2 xs hj)
  | null | bool | int | float | str => simp [BundleJson.deserialize] at hdeserialize

theorem from_json_hex_isErr (hB : P.SerdeBrackets) (bytes : Bytes) :
    (EncryptedKeyBundle.from_json P (hex_encode bytes)).IsErr := by
  have hdigits : ∀ n < 16, Hex.digit n ≠ '{' ∧ Hex.digit n ≠ '[' := by decide
  have hnot : ∀ c ∈ (hex_encode bytes).toList, c ≠ '{' ∧ c ≠ '[' := by
    intro c hc
    rw [hex_encode, String.toList_ofList] at hc
    obtain ⟨n, hn, rfl⟩ := Hex.mem_encode hc
    exact hdigits n hn
  exact from_json_isErr_of_brackets hB (fun h => (hnot _ h).1 rfl) fun h => (hnot _ h).2 rfl

/-! ## Bundles that open -/

/-- A bundle is one of this `keygen`: it opens, under the passphrase that was chosen, as the
pair of the algorithm and the level that were asked for. -/
inductive OpensAsMade (P : Platform) (b : EncryptedKeyBundle) (p : PathBuf) : Command × Env → Prop
  | kem {n : UInt8} {pub_key : Bool} {env : Env} {level : SecurityLevel} {pass : String}
      {kp : KemKeyPair} (hlevel : parse_level n = ok level) (hpass : env.Chooses pass)
      (hgen : KemKeyPair.generate P level env.entropy = ok kp)
      (hopen : b.unseal_kem P (utf8 pass) = ok kp) :
      OpensAsMade P b p (.Keygen .Kem n p pub_key, env)
  | dsa {n : UInt8} {pub_key : Bool} {env : Env} {level : SecurityLevel} {pass : String}
      {kp : DsaKeyPair} (hlevel : parse_level n = ok level) (hpass : env.Chooses pass)
      (hgen : DsaKeyPair.generate P level env.entropy = ok kp)
      (hopen : b.unseal_dsa P (utf8 pass) = ok kp) :
      OpensAsMade P b p (.Keygen .Dsa n p pub_key, env)

/-- The bundle a `keygen` has to write opens under the passphrase it asked for. -/
theorem Written.bundle_opens (hword : P.WordSize) (hK : P.KyberSizes) (hD : P.DilithiumSizes)
    (hA : P.AeadRoundTrip) (hS : P.SerdeRoundTrip) (hSR : P.SerdeRejectsDashes)
    (hB : P.SerdeBrackets) {s : String} {b : EncryptedKeyBundle} (hx : Written P env c p (utf8 s))
    (hb : EncryptedKeyBundle.from_json P s = ok b) : OpensAsMade P b p (c, env) := by
  generalize hs : utf8 s = x at hx
  cases hx with
  | kem_bundle hlevel hpass hgen hseal =>
      rw [utf8_injective hs, EncryptedKeyBundle.from_json_to_json hS] at hb
      obtain rfl := Outcome.ok.inj hb
      exact .kem hlevel hpass hgen
        (unseal_kem_of_seal hword hK hA (KemKeyPair.generate_fits hK hgen) hseal)
  | dsa_bundle hlevel hpass hgen hseal =>
      rw [utf8_injective hs, EncryptedKeyBundle.from_json_to_json hS] at hb
      obtain rfl := Outcome.ok.inj hb
      exact .dsa hlevel hpass hgen
        (unseal_dsa_of_seal hword hD hA (DsaKeyPair.generate_fits hD hgen) hseal)
  -- Neither a PEM nor a hex text parses as a bundle.
  | kem_pem hgen =>
      rw [utf8_injective hs] at hb
      exact absurd hb ((from_json_pem_isErr hSR (.kem _)).ne_ok b)
  | dsa_pem hgen =>
      rw [utf8_injective hs] at hb
      exact absurd hb ((from_json_pem_isErr hSR (.dsa _)).ne_ok b)
  | hex bytes =>
      rw [utf8_injective hs] at hb
      exact absurd hb ((from_json_hex_isErr hB bytes).ne_ok b)

/-- **No run leaves a bundle that cannot be opened**: whatever runs there were, a file that
parses as a bundle is one that none of them changed, or it opens, as the pair that was
generated for this file, under the passphrase that was chosen when it was made. -/
theorem bundles_open (hword : P.WordSize) (hK : P.KyberSizes) (hD : P.DilithiumSizes)
    (hA : P.AeadRoundTrip) (hS : P.SerdeRoundTrip) (hSR : P.SerdeRejectsDashes)
    (hB : P.SerdeBrackets) (f₀ : Files PathBuf Bytes) (runs : List (Command × Env)) (p : PathBuf)
    {s : String} {b : EncryptedKeyBundle} (hp : Reads (runAll P runs f₀) p s)
    (hb : EncryptedKeyBundle.from_json P s = ok b) :
    Untouched P f₀ runs p ∨ ∃ r ∈ runs, OpensAsMade P b p r := by
  rcases provenance P f₀ runs p with h | ⟨pre, r, job, x, h⟩
  · exact .inl h
  · obtain ⟨post, hpost⟩ := h.splits
    have hr : r ∈ runs := hpost ▸ List.mem_append_right _ List.mem_cons_self
    have hx : x = utf8 s := Option.some.inj (h.content.symm.trans hp)
    exact .inr ⟨r, hr, (hx ▸ h.decides.written h.writes).bundle_opens hword hK hD hA hS hSR hB hb⟩

/-! ## Files that do no harm -/

/-- A sealed bundle has a nonce of the length it takes. -/
theorem nonceFits_of_seal {kind : String} {level : SecurityLevel} {plaintext passphrase : Bytes}
    {salt : FixedArray UInt8 16} {nonce : FixedArray UInt8 12} {b : EncryptedKeyBundle}
    (hseal : seal_plaintext P kind level plaintext passphrase salt nonce = ok b)
    (passphrase' : Bytes) : NonceFits b.inner passphrase' := by
  obtain ⟨henc, -⟩ := seal_plaintext_eq_ok.mp hseal
  simp only [encrypt, bind_eq_ok, pure_eq, Outcome.ok.injEq, Prod.mk.injEq] at henc
  obtain ⟨_, -, _, -, _, -, ct, -, -, hn, -⟩ := henc
  intro _ nonce' _ _ hnonce' _ _
  rw [← hn, String.toList_ofList, Hex.decode_encode] at hnonce'
  rw [← Except.ok.inj hnonce']
  exact nonce.length_val

/-- Neither decoder panics on what a run writes. -/
theorem Written.markersInOrder (hK : P.KyberSizes) (hD : P.DilithiumSizes) (hSP : P.SerdePlain)
    {s : String} (hx : Written P env c p (utf8 s)) :
    MarkersInOrder KEM_LABEL s ∧ MarkersInOrder DSA_LABEL s := by
  rw [← (public_key_from_pem_noPanic P s).1, ← (public_key_from_pem_noPanic P s).2]
  have hdash : '-' ∉ s.toList →
      (kem_public_key_from_pem P s).NoPanic ∧ (dsa_public_key_from_pem P s).NoPanic := fun h =>
    ⟨noPanic_iff.mpr (.inr (kem_public_key_from_pem_of_dash h)),
      noPanic_iff.mpr (.inr (dsa_public_key_from_pem_of_dash h))⟩
  generalize hs : utf8 s = x at hx
  cases hx with
  | kem_bundle hlevel hpass hgen hseal =>
      rw [utf8_injective hs] at hdash ⊢
      exact hdash (dash_not_mem_to_json hSP hseal (by decide))
  | dsa_bundle hlevel hpass hgen hseal =>
      rw [utf8_injective hs] at hdash ⊢
      exact hdash (dash_not_mem_to_json hSP hseal (by decide))
  | kem_pem hgen =>
      rw [utf8_injective hs]
      refine ⟨?_, noPanic_iff.mpr (.inr (dsa_public_key_from_pem_kem _))⟩
      rw [kem_public_key_from_pem_to_pem ((KemKeyPair.generate_fits hK hgen).valid hK)]
      exact noPanic_ok _
  | dsa_pem hgen =>
      rw [utf8_injective hs]
      refine ⟨noPanic_iff.mpr (.inr (kem_public_key_from_pem_dsa _)), ?_⟩
      rw [dsa_public_key_from_pem_to_pem ((DsaKeyPair.generate_fits hD hgen).valid hD)]
      exact noPanic_ok _
  | hex bytes =>
      rw [utf8_injective hs] at hdash ⊢
      apply hdash
      rw [hex_encode, String.toList_ofList]
      exact Hex.dash_not_mem_encode bytes

/-- Nor does unsealing it, under any passphrase. -/
theorem Written.not_opensBadly (h64 : P.usizeBits = 64) (hS : P.SerdeRoundTrip)
    (hSR : P.SerdeRejectsDashes) (hB : P.SerdeBrackets) {s : String} {b : EncryptedKeyBundle}
    (hx : Written P env c p (utf8 s)) (hb : EncryptedKeyBundle.from_json P s = ok b) (kind : String)
    (passphrase : Bytes) : ¬ OpensBadly P kind b passphrase := by
  rintro ⟨-, -, -, hbad⟩
  apply hbad
  refine ⟨?_, prefixSafe_of_64 h64 _ _⟩
  generalize hs : utf8 s = x at hx
  cases hx with
  | kem_bundle hlevel hpass hgen hseal =>
      rw [utf8_injective hs, EncryptedKeyBundle.from_json_to_json hS] at hb
      obtain rfl := Outcome.ok.inj hb
      exact nonceFits_of_seal hseal passphrase
  | dsa_bundle hlevel hpass hgen hseal =>
      rw [utf8_injective hs, EncryptedKeyBundle.from_json_to_json hS] at hb
      obtain rfl := Outcome.ok.inj hb
      exact nonceFits_of_seal hseal passphrase
  | kem_pem hgen =>
      rw [utf8_injective hs] at hb
      exact absurd hb ((from_json_pem_isErr hSR (.kem _)).ne_ok b)
  | dsa_pem hgen =>
      rw [utf8_injective hs] at hb
      exact absurd hb ((from_json_pem_isErr hSR (.dsa _)).ne_ok b)
  | hex bytes =>
      rw [utf8_injective hs] at hb
      exact absurd hb ((from_json_hex_isErr hB bytes).ne_ok b)

/-- A command that panics reads a key file that no run could have written. -/
theorem PanicsOn.foreign (h64 : P.usizeBits = 64) (hK : P.KyberSizes) (hD : P.DilithiumSizes)
    (hS : P.SerdeRoundTrip) (hSP : P.SerdePlain) (hSR : P.SerdeRejectsDashes)
    (hB : P.SerdeBrackets) (h : PanicsOn P env f c) :
    ∃ key s, c.inputs.head? = some key ∧ Reads f key s
      ∧ ∀ env' c' p', ¬ Written P env' c' p' (utf8 s) := by
  cases h with
  | encapsulate hkey hmarkers =>
      exact ⟨_, _, rfl, hkey, fun _ _ _ hx => hmarkers (hx.markersInOrder hK hD hSP).1⟩
  | decapsulate hkey hpass hjson hbad =>
      exact ⟨_, _, rfl, hkey, fun _ _ _ hx => hx.not_opensBadly h64 hS hSR hB hjson _ _ hbad⟩
  | sign hkey hpass hjson hbad =>
      exact ⟨_, _, rfl, hkey, fun _ _ _ hx => hx.not_opensBadly h64 hS hSR hB hjson _ _ hbad⟩
  | verify hkey hmarkers =>
      exact ⟨_, _, rfl, hkey, fun _ _ _ hx => hmarkers (hx.markersInOrder hK hD hSP).2⟩

/-- **A panic comes from outside**: whatever runs there were before, a run that panics reads
a key file that none of them has changed, and that was there from the start, or it comes to
a line that it cannot print. -/
theorem panics_are_foreign (h64 : P.usizeBits = 64) (hP : P.Argon2Limits) (hK : P.KyberSizes)
    (hD : P.DilithiumSizes) (hS : P.SerdeRoundTrip) (hSP : P.SerdePlain)
    (hSR : P.SerdeRejectsDashes) (hB : P.SerdeBrackets) (f₀ : Files PathBuf Bytes)
    (runs : List (Command × Env)) (c : Command) (env : Env)
    (hpanic : (run P c env (World.start (runAll P runs f₀))).1 = panic) :
    (∃ key s, c.inputs.head? = some key ∧ Untouched P f₀ runs key ∧ Reads f₀ key s)
      ∨ ∃ w', PrintFails P env (World.start (runAll P runs f₀)) c w' := by
  refine ((run_panics_iff (.inr h64) hP c env _).mp hpanic).imp_left ?_
  rintro ⟨-, hpanics⟩
  obtain ⟨key, s, hhead, hreads, hforeign⟩ := hpanics.foreign h64 hK hD hS hSP hSR hB
  rcases provenance P f₀ runs key with h | ⟨pre, r, job, x, h⟩
  · exact ⟨key, s, hhead, h, (h runs List.prefix_rfl).symm.trans hreads⟩
  · have hx : x = utf8 s := Option.some.inj (h.content.symm.trans hreads)
    exact absurd (hx ▸ h.decides.written h.writes) (hforeign r.2 r.1 key)

end Written

namespace Sample

theorem serdeBrackets : samplePlatform.SerdeBrackets := by
  intro s
  constructor
  · intro members h
    exact (Json.read_eq_some h).1
  · intro xs h
    obtain ⟨-, members, hobj⟩ := Json.read_eq_some h
    exact absurd hobj (by simp)

end Sample

/-- The bundle of a run that failed at its second write, over that of one that did not. -/
theorem bundles_open_sample :
    ∃ s b, Reads (runAll samplePlatform Sample.staleKeys .empty) (samplePath "key") s
      ∧ EncryptedKeyBundle.from_json samplePlatform s = ok b
      ∧ (Untouched samplePlatform .empty Sample.staleKeys (samplePath "key")
        ∨ ∃ r ∈ Sample.staleKeys, OpensAsMade samplePlatform b (samplePath "key") r) := by
  obtain ⟨bundle, -, hkey, -⟩ := Sample.files_staleKeys
  have hjson := EncryptedKeyBundle.from_json_to_json Sample.serdeRoundTrip bundle
  exact ⟨_, _, hkey, hjson, bundles_open Sample.wordSize Sample.kyberSizes Sample.dilithiumSizes
    Sample.aeadRoundTrip Sample.serdeRoundTrip Sample.serdeRejectsDashes Sample.serdeBrackets _ _ _
    hkey hjson⟩

/-- A bundle with an empty nonce that was there before a `keygen` beside it. -/
theorem panics_are_foreign_sample :
    (∃ key s, (Command.Decapsulate (samplePath "old") (samplePath "ct") (samplePath "s")).inputs.head?
          = some key
        ∧ Untouched samplePlatform (Files.empty.write (samplePath "old") (utf8 shortNonceJson))
          [Sample.keygen 0 fun _ => true] key
        ∧ Reads (Files.empty.write (samplePath "old") (utf8 shortNonceJson)) key s)
      ∨ ∃ w', PrintFails samplePlatform (sampleEnv 0 fun _ => true)
          (World.start (runAll samplePlatform [Sample.keygen 0 fun _ => true]
            (Files.empty.write (samplePath "old") (utf8 shortNonceJson))))
          (.Decapsulate (samplePath "old") (samplePath "ct") (samplePath "s")) w' := by
  have hjson : EncryptedKeyBundle.from_json samplePlatform shortNonceJson = ok shortNonceBundle := by
    decide +kernel
  have hpanic : shortNonceBundle.unseal_kem samplePlatform (utf8 "passphrase") = panic := by
    decide +kernel
  have hbad : OpensBadly samplePlatform "kem" shortNonceBundle (utf8 "passphrase") := by
    rw [← unseal_kem_panics_iff Sample.wordSize Sample.argon2Limits, hpanic]
    exact not_noPanic_panic
  have hne {a b : String} (h : a ≠ b) := Sample.samplePath_ne h
  obtain ⟨bundle, -, hafter⟩ := @Sample.after_keygen 0 (fun _ => true) (fun _ _ => rfl)
    (Files.empty.write (samplePath "old") (utf8 shortNonceJson))
  have hkey : Reads (runAll samplePlatform [Sample.keygen 0 fun _ => true]
      (Files.empty.write (samplePath "old") (utf8 shortNonceJson))) (samplePath "old")
      shortNonceJson := by
    rw [Reads, Sample.runAll_cons, runAll_nil, hafter, if_pos rfl,
      Files.content_write_write_of_ne _ (hne (by decide)) (hne (by decide)), Files.content_write_self]
  have hend : ∀ f, Reads f (samplePath "old") shortNonceJson →
      (run samplePlatform (.Decapsulate (samplePath "old") (samplePath "ct") (samplePath "s"))
        (sampleEnv 0 fun _ => true) (World.start f)).1 = .panic := fun f hf =>
    (run_panics_iff Sample.wordSize Sample.argon2Limits _ _ _).mpr
      (.inl ⟨rfl, .decapsulate hf ⟨rfl, by decide⟩ hjson hbad⟩)
  exact panics_are_foreign rfl Sample.argon2Limits Sample.kyberSizes Sample.dilithiumSizes
    Sample.serdeRoundTrip Sample.serdePlain Sample.serdeRejectsDashes Sample.serdeBrackets _ _ _ _
    (hend _ hkey)

end PqcVault
