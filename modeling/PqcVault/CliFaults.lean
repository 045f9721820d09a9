/-
`CliFaults.lean` -- what an I/O failure can do to a command.

Which reads, writes and prints fail is up to the environment. Here a run in any
environment is compared with the run that would have been without failures, on the
same files, with the same answers and the same randomness. They are the same run up
to the first call that fails, and there the first one ends, with an error at a read or
a write and with a panic at a print. What it leaves is a point the other run passes
through. So a failure never turns one verdict into another, and never makes a command
write something it would not have written.
-/
import PqcVault.CliMeaning
import PqcVault.Lib.TwoRuns

set_option autoImplicit false

namespace PqcVault

open Rust Outcome Program Utf8

/-! ## Calls that fail -/

/-- A world that a run in another can still come to: more calls, more text, more writes. -/
structure World.Later (w w' : World) : Prop where
  calls : w.calls ≤ w'.calls
  console : w.console <+: w'.console
  files : ∃ plan, w'.files = w.files.writeAll plan

theorem World.later_refl (w : World) : w.Later w := ⟨le_rfl, List.prefix_rfl, [], rfl⟩

theorem World.Later.trans {w w' w'' : World} (h : w.Later w') (h' : w'.Later w'') : w.Later w'' := by
  refine ⟨h.calls.trans h'.calls, h.console.trans h'.console, ?_⟩
  obtain ⟨plan, hplan⟩ := h.files
  obtain ⟨plan', hplan'⟩ := h'.files
  exact ⟨plan ++ plan', by rw [hplan', hplan, Files.writeAll_append]⟩

/-- How a command stops at a call that fails: with an I/O error, or with a panic in
front of a line that the other run has printed. -/
inductive World.StopsBefore : Option CliError → World → World → Prop
  | io {w t : World} (h : w.Later t) : StopsBefore (some .io) w t
  | print {w t : World} (line : Stream × String)
      (h : World.Later { w with console := w.console ++ [line] } t) : StopsBefore none w t

theorem World.StopsBefore.later {e : Option CliError} {w t u : World} (h : StopsBefore e w t)
    (h' : t.Later u) : StopsBefore e w u := by
  cases h with
  | io h => exact .io (h.trans h')
  | print line h => exact .print line (h.trans h')

/-- The calls of a command: the reads, the writes and the prints. -/
def ioCalls : Calls Env World CliError where
  count := World.calls
  serves := Env.io
  later := World.Later
  later_refl := World.later_refl
  later_trans := World.Later.trans
  count_le h := h.calls
  stops := World.StopsBefore
  stops_later := World.StopsBefore.later

/-- The environment in which no call fails. -/
def Env.faultless (env : Env) : Env := { env with io := fun _ => true }

theorem World.later_tick (w : World) : w.Later w.tick := ⟨Nat.le_succ _, List.prefix_rfl, [], rfl⟩

theorem World.later_say (w : World) (stream : Stream) (text : String) :
    w.Later (w.say stream text) := ⟨Nat.le_succ _, List.prefix_append _ _, [], rfl⟩

/-- What a failing call leaves can still become what a successful one leaves. -/
theorem World.later_write (w : World) (p : PathBuf) (c : Bytes) :
    w.tick.Later { w.tick with files := w.files.write p c } :=
  ⟨le_rfl, List.prefix_rfl, [(p, c)], rfl⟩

/-! ## Each call -/

section Calls

variable {env : Env}

/-- A failure stops the program, whatever it is. -/
abbrev StopsAtFault {α : Type} (env : Env) (m : Cmd α) : Prop :=
  FailStop ioCalls env env.faultless m

theorem stops_read (p : PathBuf) : StopsAtFault env (fs.read p) := by
  have hgood : ∀ w, (fs.read p env.faultless w).2 = w.tick := by
    intro w
    unfold fs.read
    split <;> rfl
  refine FailStop.call (fun w hio => ?_) (fun w => ?_) (fun w => ?_) (fun w hio => ?_)
  · have hio' : env.io w.calls = true := hio
    unfold fs.read
    rw [hio']
    rfl
  · rw [hgood]
    exact w.later_tick
  · rw [hgood]
    rfl
  · have hio' : env.io w.calls = false := hio
    have hbad : fs.read p env w = (err .io, w.tick) := by
      unfold fs.read
      rw [hio']
    rw [hbad, hgood]
    exact ⟨some .io, rfl, rfl, .io w.tick.later_refl⟩

theorem stops_write (p : PathBuf) (text : String) : StopsAtFault env (fs.write p text) := by
  have hgood : ∀ w, fs.write p text env.faultless w
      = (ok (), { w.tick with files := w.files.write p (utf8 text) }) := fun w => if_pos rfl
  refine FailStop.call (fun w hio => ?_) (fun w => ?_) (fun w => ?_) (fun w hio => ?_)
  · rw [hgood]
    exact if_pos hio
  · rw [hgood]
    exact w.later_tick.trans (w.later_write p (utf8 text))
  · rw [hgood]
    rfl
  · have hio' : env.io w.calls = false := hio
    have hbad : fs.write p text env w = (err .io, w.tick) := by
      unfold fs.write
      rw [hio', if_neg Bool.false_ne_true]
    rw [hbad, hgood]
    exact ⟨some .io, rfl, rfl, .io (w.later_write p (utf8 text))⟩

theorem stops_print (stream : Stream) (text : String) : StopsAtFault env (print stream text) := by
  have hgood : ∀ w, print stream text env.faultless w = (ok (), w.say stream text) :=
    fun w => if_pos rfl
  refine FailStop.call (fun w hio => ?_) (fun w => ?_) (fun w => ?_) (fun w hio => ?_)
  · rw [hgood]
    exact if_pos hio
  · rw [hgood]
    exact w.later_say stream text
  · rw [hgood]
    rfl
  · have hio' : env.io w.calls = false := hio
    have hbad : print stream text env w = (panic, w.tick) := by
      unfold print
      rw [hio', if_neg Bool.false_ne_true]
    -- The line this run does not print is the next one of the other.
    rw [hbad, hgood]
    exact ⟨none, rfl, rfl, .print (stream, text) (World.later_refl _)⟩

theorem stops_try {α : Type} (x : Result α) : StopsAtFault env (try_ x) := FailStop.lift _

theorem stops_fail {α : Type} (e : CliError) : StopsAtFault env (fail e : Cmd α) := FailStop.lift _

theorem stops_read_to_string (p : PathBuf) : StopsAtFault env (fs.read_to_string p) := by
  refine (stops_read p).bind fun c => ?_
  cases fromUtf8 c with
  | none => exact stops_fail _
  | some s => exact FailStop.pure s

theorem stops_prompt_password (text : String) : StopsAtFault env (prompt_password text) := by
  refine FailStop.ask_bind rfl ?_
  cases env.faultless.answer text with
  | none => exact stops_fail _
  | some s => exact FailStop.pure s

theorem stops_prompt_passphrase : StopsAtFault env prompt_passphrase := by
  refine (stops_prompt_password _).bind fun pass => ?_
  split_ifs
  · exact stops_fail _
  · exact FailStop.pure _

theorem stops_prompt_new_passphrase : StopsAtFault env prompt_new_passphrase := by
  refine (stops_prompt_password _).bind fun pass => (stops_prompt_password _).bind fun confirm => ?_
  split_ifs
  · exact stops_fail _
  · exact stops_fail _
  · exact FailStop.pure _

theorem stops_hex_decode_trimmed (text : String) : StopsAtFault env (hex_decode_trimmed text) := by
  unfold hex_decode_trimmed
  split
  · exact FailStop.pure _
  · exact stops_fail _

theorem stops_performAll (acts : List Act) : StopsAtFault env (performAll acts) := by
  induction acts with
  | nil => exact FailStop.pure ()
  | cons a as ih =>
      cases a with
      | write p text => exact (stops_write p text).bind fun _ => ih
      | print stream text => exact (stops_print stream text).bind fun _ => ih

theorem stops_carryOut (job : Job) : StopsAtFault env job.carryOut :=
  (stops_performAll job.acts).bind fun _ => FailStop.lift _

end Calls

/-! ## Each command -/

section Commands

variable {P : Platform} {env : Env}

theorem stops_prepare_keygen (algo : Algo) (n : UInt8) (out : PathBuf) (write_pub : Bool) :
    StopsAtFault env (prepare_keygen P algo n out write_pub) := by
  refine (FailStop.lift _).bind fun level => stops_prompt_new_passphrase.bind fun pass => ?_
  refine FailStop.ask_bind rfl ?_
  cases algo with
  | Kem =>
      refine (stops_print _ _).bind fun _ => (stops_try _).bind fun kp => ?_
      exact (stops_try _).bind fun bundle => FailStop.pure _
  | Dsa =>
      refine (stops_print _ _).bind fun _ => (stops_try _).bind fun kp => ?_
      exact (stops_try _).bind fun bundle => FailStop.pure _

theorem stops_prepare_encapsulate (key ct_out secret_out : PathBuf) :
    StopsAtFault env (prepare_encapsulate P key ct_out secret_out) := by
  refine (stops_read_to_string _).bind fun pem => ?_
  split_ifs
  · refine (stops_try _).bind fun k => FailStop.ask_bind rfl ?_
    exact (stops_try _).bind fun x => FailStop.pure _
  · exact stops_fail _

theorem stops_prepare_decapsulate (key ct_path secret_out : PathBuf) :
    StopsAtFault env (prepare_decapsulate P key ct_path secret_out) := by
  refine (stops_read_to_string _).bind fun json => stops_prompt_passphrase.bind fun pass => ?_
  refine (stops_try _).bind fun bundle => (FailStop.lift _).bind fun kp => ?_
  refine (stops_read_to_string _).bind fun text => (stops_hex_decode_trimmed _).bind fun ct => ?_
  exact (stops_try _).bind fun secret => FailStop.pure _

theorem stops_prepare_sign (key file sig_out : PathBuf) :
    StopsAtFault env (prepare_sign P key file sig_out) := by
  refine (stops_read_to_string _).bind fun json => stops_prompt_passphrase.bind fun pass => ?_
  refine (stops_try _).bind fun bundle => (FailStop.lift _).bind fun kp => ?_
  refine (stops_read _).bind fun message => FailStop.ask_bind rfl ?_
  exact (stops_try _).bind fun signature => FailStop.pure _

theorem stops_prepare_verify (key file sig : PathBuf) :
    StopsAtFault env (prepare_verify P key file sig) := by
  refine (stops_read_to_string _).bind fun pem => ?_
  split_ifs
  · refine (stops_try _).bind fun k => (stops_read _).bind fun message => ?_
    refine (stops_read_to_string _).bind fun text => ?_
    refine (stops_hex_decode_trimmed _).bind fun signature => ?_
    split
    · exact FailStop.pure _
    · exact FailStop.pure _
    · exact FailStop.lift _
  · exact stops_fail _

theorem stops_prepare_inspect (key : PathBuf) : StopsAtFault env (prepare_inspect P key) := by
  refine (stops_read_to_string _).bind fun text => (FailStop.lift _).bind fun json => ?_
  exact FailStop.pure _

theorem stops_prepare (c : Command) : StopsAtFault env (prepare P c) := by
  cases c with
  | Keygen algo n out pub_key => exact stops_prepare_keygen algo n out pub_key
  | Encapsulate key ct_out secret_out => exact stops_prepare_encapsulate key ct_out secret_out
  | Decapsulate key ct secret_out => exact stops_prepare_decapsulate key ct secret_out
  | Sign key file sig_out => exact stops_prepare_sign key file sig_out
  | Verify key file sig => exact stops_prepare_verify key file sig
  | Inspect key => exact stops_prepare_inspect key

/-- No command goes on past a failure, or hides one. -/
theorem stops_run (c : Command) : StopsAtFault env (run P c) := by
  rw [run_eq]
  exact (stops_prepare c).bind stops_carryOut

/-- **A failing call only cuts a run short.** If the calls a run without failures makes all
succeed, the run is that one. Otherwise it makes the calls up to the first that fails and
ends there, and leaves a terminal and files that the run without failures leaves too on its
way: with an I/O error, or with a panic and a line still to be printed. -/
theorem run_with_faults (P : Platform) (c : Command) (env : Env) (w : World) :
    ((∀ k, w.calls ≤ k → k < (run P c env.faultless w).2.calls → env.io k = true) →
        run P c env w = run P c env.faultless w)
      ∧ ∀ k, w.calls ≤ k → k < (run P c env.faultless w).2.calls → env.io k = false →
        (∀ j, w.calls ≤ j → j < k → env.io j = true) →
          (run P c env w).2.calls = k + 1
            ∧ ((run P c env w).1 = err .io
                  ∧ (run P c env w).2.console <+: (run P c env.faultless w).2.console
              ∨ (run P c env w).1 = panic
                  ∧ ∃ line, (run P c env w).2.console ++ [line]
                    <+: (run P c env.faultless w).2.console)
            ∧ ∃ plan, (run P c env.faultless w).2.files
                = (run P c env w).2.files.writeAll plan := by
  have hstops : StopsAtFault env (run P c) := stops_run c
  constructor
  · exact hstops.served w
  · intro k h₁ h₂ hio hbefore
    obtain ⟨e, hend, hcalls, hbehind⟩ := hstops.fault w k ⟨h₁, h₂, hio, hbefore⟩
    have hbehind : World.StopsBefore e (run P c env w).2 (run P c env.faultless w).2 := hbehind
    refine ⟨hcalls, ?_⟩
    -- A read or a write that fails is an error, a print a panic.
    cases hbehind with
    | io h => exact ⟨.inl ⟨hend, h.console⟩, h.files⟩
    | print line h => exact ⟨.inr ⟨hend, line, h.console⟩, h.files⟩

end Commands

end PqcVault
