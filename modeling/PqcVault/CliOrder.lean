/-
`CliOrder.lean` -- runs in another order.

A command looks at the files it is given and at no others. So from two worlds that
agree on these it ends alike, prints the same and makes the same writes, whatever
else is on the two disks (`run_local`). Two runs where neither writes what the other
reads or writes can therefore be swapped, and any number of runs that are pairwise
like that can be made in any order: the disk is the same in the end, and each run has
ended and printed as it would have on its own.
-/
import PqcVault.CliFiles
import PqcVault.CliMeaning
import PqcVault.Lib.Footprint
import PqcVault.Lib.TwoRuns

set_option autoImplicit false

namespace PqcVault

open Rust Outcome Program Utf8

/-! ## Two disks -/

/-- The same has happened in both worlds since their starts: the same calls, lines and
writes, these to some of the given files. -/
def Alike (outs : List PathBuf) (w₀ t₀ w t : World) : Prop :=
  ∃ plan lines n, (∀ q ∈ plan, q.1 ∈ outs)
    ∧ (w.files = w₀.files.writeAll plan ∧ w.console = w₀.console ++ lines ∧ w.calls = w₀.calls + n)
    ∧ t.files = t₀.files.writeAll plan ∧ t.console = t₀.console ++ lines ∧ t.calls = t₀.calls + n

section Alike

variable {outs : List PathBuf} {w₀ t₀ w t : World}

theorem alike_start (outs : List PathBuf) (w₀ t₀ : World) : Alike outs w₀ t₀ w₀ t₀ := by
  refine ⟨[], [], 0, List.forall_mem_nil _, ?_, ?_⟩
  · simp
  · simp

theorem Alike.tick (h : Alike outs w₀ t₀ w t) : Alike outs w₀ t₀ w.tick t.tick := by
  obtain ⟨plan, lines, n, hplan, ⟨hf, hc, hn⟩, hf', hc', hn'⟩ := h
  refine ⟨plan, lines, n + 1, hplan, ⟨hf, hc, ?_⟩, hf', hc', ?_⟩
  · rw [World.tick, hn, Nat.add_assoc]
  · rw [World.tick, hn', Nat.add_assoc]

theorem Alike.say (h : Alike outs w₀ t₀ w t) (stream : Stream) (text : String) :
    Alike outs w₀ t₀ (w.say stream text) (t.say stream text) := by
  obtain ⟨plan, lines, n, hplan, ⟨hf, hc, hn⟩, hf', hc', hn'⟩ := h.tick
  have hw : w.console = w₀.console ++ lines := hc
  have ht : t.console = t₀.console ++ lines := hc'
  refine ⟨plan, lines ++ [(stream, text)], n, hplan, ⟨hf, ?_, hn⟩, hf', ?_, hn'⟩
  · rw [World.say, hw, List.append_assoc]
  · rw [World.say, ht, List.append_assoc]

theorem Alike.write (h : Alike outs w₀ t₀ w t) {p : PathBuf} (hp : p ∈ outs) (c : Bytes) :
    Alike outs w₀ t₀ { w.tick with files := w.files.write p c }
      { t.tick with files := t.files.write p c } := by
  obtain ⟨plan, lines, n, hplan, ⟨hf, hc, hn⟩, hf', hc', hn'⟩ := h.tick
  have hw : w.files = w₀.files.writeAll plan := hf
  have ht : t.files = t₀.files.writeAll plan := hf'
  refine ⟨plan ++ [(p, c)], lines, n, ?_, ⟨?_, hc, hn⟩, ?_, hc', hn'⟩
  · intro q hq
    rcases List.mem_append.mp hq with hq | hq
    · exact hplan q hq
    · rw [List.mem_singleton.mp hq]
      exact hp
  · rw [hw, Files.writeAll_append]
    rfl
  · rw [ht, Files.writeAll_append]
    rfl

/-- The next call is served in both or in neither. -/
theorem Alike.calls_eq (h : Alike outs w₀ t₀ w t) (hstart : w₀.calls = t₀.calls) :
    w.calls = t.calls := by
  obtain ⟨plan, lines, n, -, ⟨-, -, hn⟩, -, -, hn'⟩ := h
  rw [hn, hn', hstart]

/-- A file that was the same on both disks still is. -/
theorem Alike.content_eq (h : Alike outs w₀ t₀ w t) {p : PathBuf}
    (hp : w₀.files.content p = t₀.files.content p) : w.files.content p = t.files.content p := by
  obtain ⟨plan, lines, n, -, ⟨hf, -, -⟩, hf', -, -⟩ := h
  rw [hf, hf', Files.content_writeAll, Files.content_writeAll t₀.files, hp]

end Alike

/-! ## What a command looks at -/

section Lockstep

variable {outs : List PathBuf} {w₀ t₀ : World}

theorem lockstep_read (hstart : w₀.calls = t₀.calls) {p : PathBuf}
    (hp : w₀.files.content p = t₀.files.content p) :
    Lockstep (Alike outs w₀ t₀) (fs.read p) := by
  intro env w t h
  have hcalls := h.calls_eq hstart
  have hcontent := h.content_eq hp
  unfold fs.read
  rw [hcalls, hcontent]
  cases env.io t.calls with
  | true =>
      cases t.files.content p with
      | some c => exact ⟨rfl, h.tick⟩
      | none => exact ⟨rfl, h.tick⟩
  | false => exact ⟨rfl, h.tick⟩

theorem lockstep_write (hstart : w₀.calls = t₀.calls) {p : PathBuf} (hp : p ∈ outs)
    (text : String) : Lockstep (Alike outs w₀ t₀) (fs.write p text) := by
  intro env w t h
  have hcalls := h.calls_eq hstart
  unfold fs.write
  rw [hcalls]
  by_cases hio : env.io t.calls = true
  · rw [if_pos hio, if_pos hio]
    exact ⟨rfl, h.write hp (utf8 text)⟩
  · rw [if_neg hio, if_neg hio]
    exact ⟨rfl, h.tick⟩

theorem lockstep_print (hstart : w₀.calls = t₀.calls) (stream : Stream) (text : String) :
    Lockstep (Alike outs w₀ t₀) (print stream text) := by
  intro env w t h
  have hcalls := h.calls_eq hstart
  unfold print
  rw [hcalls]
  by_cases hio : env.io t.calls = true
  · rw [if_pos hio, if_pos hio]
    exact ⟨rfl, h.say stream text⟩
  · rw [if_neg hio, if_neg hio]
    exact ⟨rfl, h.tick⟩

theorem lockstep_try {α : Type} (x : Result α) : Lockstep (Alike outs w₀ t₀) (try_ x) :=
  Lockstep.lift _

theorem lockstep_fail {α : Type} (e : CliError) :
    Lockstep (Alike outs w₀ t₀) (fail e : Cmd α) := Lockstep.lift _

theorem lockstep_read_to_string (hstart : w₀.calls = t₀.calls) {p : PathBuf}
    (hp : w₀.files.content p = t₀.files.content p) :
    Lockstep (Alike outs w₀ t₀) (fs.read_to_string p) := by
  refine (lockstep_read hstart hp).bind fun c => ?_
  cases fromUtf8 c with
  | none => exact lockstep_fail _
  | some s => exact Lockstep.pure s

theorem lockstep_prompt_password (text : String) :
    Lockstep (Alike outs w₀ t₀) (prompt_password text) := by
  refine Lockstep.ask.bind fun env => ?_
  cases env.answer text with
  | none => exact lockstep_fail _
  | some s => exact Lockstep.pure s

theorem lockstep_prompt_passphrase : Lockstep (Alike outs w₀ t₀) prompt_passphrase := by
  refine (lockstep_prompt_password _).bind fun pass => ?_
  split_ifs
  · exact lockstep_fail _
  · exact Lockstep.pure _

theorem lockstep_prompt_new_passphrase : Lockstep (Alike outs w₀ t₀) prompt_new_passphrase := by
  refine (lockstep_prompt_password _).bind fun pass => ?_
  refine (lockstep_prompt_password _).bind fun confirm => ?_
  split_ifs
  · exact lockstep_fail _
  · exact lockstep_fail _
  · exact Lockstep.pure _

theorem lockstep_hex_decode_trimmed (text : String) :
    Lockstep (Alike outs w₀ t₀) (hex_decode_trimmed text) := by
  unfold hex_decode_trimmed
  split
  · exact Lockstep.pure _
  · exact lockstep_fail _

end Lockstep

section Commands

variable {P : Platform} {w₀ t₀ : World}

theorem lockstep_write_key_files (hstart : w₀.calls = t₀.calls) {outs : List PathBuf}
    {out : PathBuf} {write_pub : Bool} (hout : out ∈ outs)
    (hpub : write_pub = true → pub_path out ∈ outs) (json pem : String) :
    Lockstep (Alike outs w₀ t₀) (write_key_files out json pem write_pub) := by
  refine (lockstep_write hstart hout _).bind fun _ => (lockstep_print hstart _ _).bind fun _ => ?_
  refine (lockstep_print hstart _ _).bind fun _ => ?_
  split_ifs with hwrite
  · exact (lockstep_write hstart (hpub hwrite) _).bind fun _ => lockstep_print hstart _ _
  · exact Lockstep.pure ()

/-- A command looks at its inputs only. -/
theorem lockstep_run (c : Command) (hstart : w₀.calls = t₀.calls)
    (hin : ∀ p ∈ c.inputs, w₀.files.content p = t₀.files.content p) :
    Lockstep (Alike c.outputs w₀ t₀) (run P c) := by
  cases c with
  | Keygen algo n out write_pub =>
      have hout : out ∈ (Command.Keygen algo n out write_pub).outputs := List.mem_cons_self
      have hpub : write_pub = true →
          pub_path out ∈ (Command.Keygen algo n out write_pub).outputs := by
        rintro rfl
        exact List.mem_cons_of_mem _ List.mem_cons_self
      refine (Lockstep.lift _).bind fun level => lockstep_prompt_new_passphrase.bind fun pass => ?_
      refine Lockstep.ask.bind fun env => ?_
      cases algo with
      | Kem =>
          refine (lockstep_print hstart _ _).bind fun _ => (lockstep_try _).bind fun kp => ?_
          exact (lockstep_try _).bind fun bundle => lockstep_write_key_files hstart hout hpub _ _
      | Dsa =>
          refine (lockstep_print hstart _ _).bind fun _ => (lockstep_try _).bind fun kp => ?_
          exact (lockstep_try _).bind fun bundle => lockstep_write_key_files hstart hout hpub _ _
  | Encapsulate key ct_out secret_out =>
      have hct : ct_out ∈ (Command.Encapsulate key ct_out secret_out).outputs := List.mem_cons_self
      have hsecret : secret_out ∈ (Command.Encapsulate key ct_out secret_out).outputs :=
        List.mem_cons_of_mem _ List.mem_cons_self
      refine (lockstep_read_to_string hstart (hin key List.mem_cons_self)).bind fun pem => ?_
      split_ifs
      · refine (lockstep_try _).bind fun k => Lockstep.ask.bind fun env => ?_
        refine (lockstep_try _).bind fun x => (lockstep_write hstart hct _).bind fun _ => ?_
        refine (lockstep_write hstart hsecret _).bind fun _ => ?_
        refine (lockstep_print hstart _ _).bind fun _ => ?_
        exact (lockstep_print hstart _ _).bind fun _ => lockstep_print hstart _ _
      · exact lockstep_fail _
  | Decapsulate key ct secret_out =>
      have hout : secret_out ∈ (Command.Decapsulate key ct secret_out).outputs := List.mem_cons_self
      refine (lockstep_read_to_string hstart (hin key List.mem_cons_self)).bind fun json => ?_
      refine lockstep_prompt_passphrase.bind fun pass => (lockstep_try _).bind fun bundle => ?_
      refine (Lockstep.lift _).bind fun kp => ?_
      refine (lockstep_read_to_string hstart
        (hin ct (List.mem_cons_of_mem _ List.mem_cons_self))).bind fun text => ?_
      refine (lockstep_hex_decode_trimmed _).bind fun ct => (lockstep_try _).bind fun secret => ?_
      refine (lockstep_write hstart hout _).bind fun _ => ?_
      exact (lockstep_print hstart _ _).bind fun _ => lockstep_print hstart _ _
  | Sign key file sig_out =>
      have hout : sig_out ∈ (Command.Sign key file sig_out).outputs := List.mem_cons_self
      refine (lockstep_read_to_string hstart (hin key List.mem_cons_self)).bind fun json => ?_
      refine lockstep_prompt_passphrase.bind fun pass => (lockstep_try _).bind fun bundle => ?_
      refine (Lockstep.lift _).bind fun kp => ?_
      refine (lockstep_read hstart
        (hin file (List.mem_cons_of_mem _ List.mem_cons_self))).bind fun message => ?_
      refine Lockstep.ask.bind fun env => (lockstep_try _).bind fun signature => ?_
      refine (lockstep_write hstart hout _).bind fun _ => ?_
      exact (lockstep_print hstart _ _).bind fun _ => lockstep_print hstart _ _
  | Verify key file sig =>
      have hfile : file ∈ (Command.Verify key file sig).inputs :=
        List.mem_cons_of_mem _ List.mem_cons_self
      have hsig : sig ∈ (Command.Verify key file sig).inputs :=
        List.mem_cons_of_mem _ (List.mem_cons_of_mem _ List.mem_cons_self)
      refine (lockstep_read_to_string hstart (hin key List.mem_cons_self)).bind fun pem => ?_
      split_ifs
      · refine (lockstep_try _).bind fun k => (lockstep_read hstart (hin file hfile)).bind fun m => ?_
        refine (lockstep_read_to_string hstart (hin sig hsig)).bind fun text => ?_
        refine (lockstep_hex_decode_trimmed _).bind fun signature => ?_
        split
        · refine (lockstep_print hstart _ _).bind fun _ => ?_
          exact (lockstep_print hstart _ _).bind fun _ => lockstep_print hstart _ _
        · refine (lockstep_print hstart _ _).bind fun _ => ?_
          exact (lockstep_print hstart _ _).bind fun _ => lockstep_fail _
        · exact Lockstep.lift _
      · exact lockstep_fail _
  | Inspect key =>
      refine (lockstep_read_to_string hstart (hin key List.mem_cons_self)).bind fun text => ?_
      refine (Lockstep.lift _).bind fun json => (lockstep_print hstart _ _).bind fun _ => ?_
      refine (lockstep_print hstart _ _).bind fun _ => (lockstep_print hstart _ _).bind fun _ => ?_
      refine (lockstep_print hstart _ _).bind fun _ => (lockstep_print hstart _ _).bind fun _ => ?_
      exact (lockstep_print hstart _ _).bind fun _ => lockstep_print hstart _ _

/-- **What a run depends on**: the files it reads, and nothing else on the disk. -/
theorem run_local {w t : World} (c : Command) (env : Env) (hstart : w.calls = t.calls)
    (hin : ∀ p ∈ c.inputs, w.files.content p = t.files.content p) :
    (run P c env w).1 = (run P c env t).1
      ∧ Alike c.outputs w t (run P c env w).2 (run P c env t).2 :=
  lockstep_run c hstart hin env w t (alike_start c.outputs w t)

end Commands

/-! ## Runs in another order -/

/-- A run, as a step on the contents of the files. -/
def effect (P : Platform) (r : Command × Env) (s : PathBuf → Option Bytes) :
    PathBuf → Option Bytes :=
  (run P r.1 r.2 (World.start { content := s, written := [] })).2.files.content

/-- Neither of two runs writes a file that the other reads or writes. -/
def RunsApart (r r' : Command × Env) : Prop :=
  Apart r.1.inputs r.1.outputs r'.1.inputs r'.1.outputs

section Order

variable {P : Platform}

theorem footprint_effect (r : Command × Env) :
    Footprint (effect P r) r.1.inputs r.1.outputs := by
  intro s t hst
  obtain ⟨-, plan, _, _, hplan, ⟨hf, -, -⟩, hf', -, -⟩ :=
    run_local (P := P) (w := World.start { content := s, written := [] })
      (t := World.start { content := t, written := [] }) r.1 r.2 rfl hst
  refine ⟨(Files.empty.writeAll plan).content, fun p hp => ?_, fun p => ⟨?_, ?_⟩⟩
  · exact Files.content_writeAll_of_notMem _ fun q hq heq => hp (heq ▸ hplan q hq)
  · rw [effect, hf]
    exact Files.content_writeAll _ _ _
  · rw [effect, hf']
    exact Files.content_writeAll _ _ _

/-- What a run leaves in the files depends on what was in them only. -/
theorem content_run (r : Command × Env) (f : Files PathBuf Bytes) :
    (run P r.1 r.2 (World.start f)).2.files.content = effect P r f.content := by
  obtain ⟨-, h⟩ := run_local (P := P) (w := World.start f)
    (t := World.start { content := f.content, written := [] }) r.1 r.2 rfl fun _ _ => rfl
  funext p
  exact h.content_eq rfl

theorem content_runAll (runs : List (Command × Env)) (f : Files PathBuf Bytes) :
    (runAll P runs f).content = runs.foldl (fun s r => effect P r s) f.content := by
  induction runs generalizing f with
  | nil => rfl
  | cons r runs ih =>
      rw [List.foldl_cons, ← content_run]
      exact ih _

/-- What none of the runs writes stays. -/
theorem content_runAll_of_notMem {runs : List (Command × Env)} {p : PathBuf}
    (h : ∀ r ∈ runs, p ∉ r.1.outputs) (f : Files PathBuf Bytes) :
    (runAll P runs f).content p = f.content p := by
  induction runs generalizing f with
  | nil => rfl
  | cons r runs ih =>
      rw [List.forall_mem_cons] at h
      exact (ih h.2 _).trans (run_content_eq r.1 r.2 (World.start f) h.1)

/-- A run behind others that are apart from it does what it would have done before them. -/
theorem run_behind {pre : List (Command × Env)} {r : Command × Env}
    (h : ∀ q ∈ pre, RunsApart q r) (f : Files PathBuf Bytes) :
    (run P r.1 r.2 (World.start (runAll P pre f))).1 = (run P r.1 r.2 (World.start f)).1
      ∧ (run P r.1 r.2 (World.start (runAll P pre f))).2.console
          = (run P r.1 r.2 (World.start f)).2.console
      ∧ ∀ p ∈ r.1.outputs, (run P r.1 r.2 (World.start (runAll P pre f))).2.files.content p
          = (run P r.1 r.2 (World.start f)).2.files.content p := by
  have hin : ∀ p ∈ r.1.inputs, (runAll P pre f).content p = f.content p := fun p hp =>
    content_runAll_of_notMem (fun q hq hout => (h q hq).left hout hp) f
  have hout : ∀ p ∈ r.1.outputs, (runAll P pre f).content p = f.content p := fun p hp =>
    content_runAll_of_notMem (fun q hq hout => (h q hq).both hout hp) f
  obtain ⟨hend, halike⟩ := run_local (P := P) (w := World.start (runAll P pre f))
    (t := World.start f) r.1 r.2 rfl hin
  refine ⟨hend, ?_, fun p hp => halike.content_eq (hout p hp)⟩
  obtain ⟨_, lines, _, -, ⟨-, hc, -⟩, -, hc', -⟩ := halike
  rw [hc, hc']
  rfl

/-- **Runs that are apart can be made in any order.** In each order every one of them ends,
prints and leaves in its files what it would have done on its own, and the files are the
same in the end. -/
theorem independent_runs (P : Platform) {runs runs' : List (Command × Env)}
    (hapart : runs.Pairwise RunsApart) (hperm : runs.Perm runs') (f : Files PathBuf Bytes) :
    (runAll P runs' f).content = (runAll P runs f).content
      ∧ ∀ pre r post, runs' = pre ++ r :: post →
        (run P r.1 r.2 (World.start (runAll P pre f))).1 = (run P r.1 r.2 (World.start f)).1
          ∧ (run P r.1 r.2 (World.start (runAll P pre f))).2.console
              = (run P r.1 r.2 (World.start f)).2.console
          ∧ ∀ p ∈ r.1.outputs, (runAll P runs' f).content p
              = (run P r.1 r.2 (World.start f)).2.files.content p := by
  constructor
  · rw [content_runAll, content_runAll]
    exact (foldl_perm (fun r _ => footprint_effect r) hapart hperm _).symm
  · rintro pre r post rfl
    have hapart' : (pre ++ r :: post).Pairwise RunsApart :=
      (hperm.pairwise_iff fun h => Apart.symm h).mp hapart
    obtain ⟨-, hrest, hpre⟩ := List.pairwise_append.mp hapart'
    obtain ⟨hpost, -⟩ := List.pairwise_cons.mp hrest
    obtain ⟨hend, hconsole, hfiles⟩ :=
      run_behind (P := P) (fun q hq => hpre q hq r List.mem_cons_self) f
    refine ⟨hend, hconsole, fun p hp => ?_⟩
    rw [← hfiles p hp]
    -- What comes behind the run does not write its files.
    have hsplit : runAll P (pre ++ r :: post) f
        = runAll P post (run P r.1 r.2 (World.start (runAll P pre f))).2.files := by
      rw [runAll, List.foldl_append]
      rfl
    rw [hsplit]
    exact content_runAll_of_notMem (fun q hq hout => (hpost q hq).both hp hout) _

/-- Two key pairs at two paths, made in either order. -/
theorem independent_runs_sample :
    (runAll samplePlatform
        [(.Keygen .Dsa 5 (samplePath "b") true, sampleEnv 9 fun _ => true),
          (.Keygen .Kem 3 (samplePath "a") true, sampleEnv 7 fun _ => true)] .empty).content
      = (runAll samplePlatform
        [(.Keygen .Kem 3 (samplePath "a") true, sampleEnv 7 fun _ => true),
          (.Keygen .Dsa 5 (samplePath "b") true, sampleEnv 9 fun _ => true)] .empty).content := by
  refine (independent_runs samplePlatform ?_ (List.Perm.swap _ _ _) .empty).1
  refine List.pairwise_pair.mpr ⟨?_, fun p _ hp => absurd hp List.not_mem_nil,
    fun p _ hp => absurd hp List.not_mem_nil⟩
  have hpaths : ∀ p ∈ [samplePath "a", pub_path (samplePath "a")],
      p ∉ [samplePath "b", pub_path (samplePath "b")] := by decide +kernel
  exact fun p hp => hpaths p hp

end Order

end PqcVault
