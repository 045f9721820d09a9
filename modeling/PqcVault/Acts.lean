/-
`Acts.lean` -- the end of a command.

Once a command knows what it will write and print, all that is left is a list of
calls, and each of them succeeds or fails. A `Job` is such a list and how the
command ends behind it. `carryOut_cases` is what can become of one: it is done to
the end, or up to the first call that fails, and then the command ends in an
error if that was a write, and in a panic if it was a print.
-/
import PqcVault.CliFlow

set_option autoImplicit false

namespace PqcVault

open Rust Outcome Program Utf8

/-! ## Jobs -/

/-- One thing a command does to the world once it knows what to do. -/
inductive Act where
  | write (p : PathBuf) (text : String)
  | print (stream : Stream) (text : String)

/-- What a command has decided to do, and how it will end. -/
structure Job where
  acts : List Act
  ending : Outcome CliError Unit

namespace Act

def perform : Act → Cmd Unit
  | .write p text => fs.write p text
  | .print stream text => PqcVault.print stream text

/-- How a command ends at an act that fails. -/
def failure {α : Type} : Act → Outcome CliError α
  | .write _ _ => err .io
  | .print _ _ => panic

/-- The file and the contents of a write. -/
def file : Act → Option (PathBuf × Bytes)
  | .write p text => some (p, utf8 text)
  | .print _ _ => none

/-- What an act puts on the terminal. -/
def line : Act → Option (Stream × String)
  | .write _ _ => none
  | .print stream text => some (stream, text)

end Act

def performAll : List Act → Cmd Unit
  | [] => pure ()
  | a :: as => do
      a.perform
      performAll as

namespace Job

/-- What the job writes, in order. -/
def writes (j : Job) : List (PathBuf × Bytes) := j.acts.filterMap Act.file

/-- What the job prints, in order. -/
def lines (j : Job) : List (Stream × String) := j.acts.filterMap Act.line

def carryOut (j : Job) : Cmd Unit := do
  performAll j.acts
  lift j.ending

end Job

namespace World

/-- An act that succeeds. -/
def enact (w : World) : Act → World
  | .write p text => { w.tick with files := w.files.write p (utf8 text) }
  | .print stream text => w.say stream text

def enactAll (w : World) (acts : List Act) : World := acts.foldl enact w

@[simp] theorem enactAll_nil (w : World) : w.enactAll [] = w := rfl

@[simp] theorem enactAll_cons (w : World) (a : Act) (as : List Act) :
    w.enactAll (a :: as) = (w.enact a).enactAll as := rfl

/-- What a list of acts has written. -/
theorem files_enactAll (w : World) (acts : List Act) :
    (w.enactAll acts).files = w.files.writeAll (acts.filterMap Act.file) := by
  induction acts generalizing w with
  | nil => rfl
  | cons a as ih =>
      rw [enactAll_cons, ih]
      cases a with
      | write p text => rfl
      | print stream text => rfl

/-- What a list of acts has printed. -/
theorem console_enactAll (w : World) (acts : List Act) :
    (w.enactAll acts).console = w.console ++ acts.filterMap Act.line := by
  induction acts generalizing w with
  | nil => simp
  | cons a as ih =>
      rw [enactAll_cons, ih]
      cases a with
      | write p text => rfl
      | print stream text => simp [enact, say, tick, Act.line]

/-- An act is one call. -/
theorem calls_enact (w : World) (a : Act) : (w.enact a).calls = w.calls + 1 := by
  cases a with
  | write p text => rfl
  | print stream text => rfl

end World

/-! ## Carrying it out -/

section CarryOut

variable {env : Env} {w : World}

/-- One act: it succeeds or it fails, and which is up to the environment. -/
theorem perform_eq (a : Act) : a.perform env w
    = if env.io w.calls then (ok (), w.enact a) else (a.failure, w.tick) := by
  cases a with
  | write p text => rfl
  | print stream text => rfl

theorem performAll_of_serves {acts : List Act} (h : env.Serves w.calls acts.length) :
    performAll acts env w = (ok (), w.enactAll acts) := by
  induction acts generalizing w with
  | nil => rfl
  | cons a as ih =>
      rw [List.length_cons, Env.serves_succ] at h
      have hact : a.perform env w = (ok (), w.enact a) := by rw [perform_eq, if_pos h.1]
      have hgo : performAll (a :: as) env w = performAll as env (w.enact a) := bind_run_of_ok hact
      rw [hgo, World.enactAll_cons]
      exact ih (by rw [w.calls_enact]; exact h.2)

/-- Nothing is done from the first act on that fails. -/
theorem performAll_of_fails {done : List Act} {a : Act} {rest : List Act}
    (h : env.Serves w.calls done.length) (hio : env.io (w.calls + done.length) = false) :
    performAll (done ++ a :: rest) env w = (a.failure, (w.enactAll done).tick) := by
  induction done generalizing w with
  | nil =>
      -- This is the act that fails, and what is behind it is not reached.
      have hact : a.perform env w = (a.failure, w.tick) := by
        rw [perform_eq, if_neg]
        exact Bool.eq_false_iff.mp hio
      change Program.bind a.perform (fun _ => performAll rest) env w = _
      rw [Program.bind, hact]
      cases a with
      | write p text => rfl
      | print stream text => rfl
  | cons b done ih =>
      rw [List.length_cons, Env.serves_succ] at h
      have hact : b.perform env w = (ok (), w.enact b) := by rw [perform_eq, if_pos h.1]
      have hgo : performAll (b :: (done ++ a :: rest)) env w
          = performAll (done ++ a :: rest) env (w.enact b) := bind_run_of_ok hact
      rw [List.cons_append, hgo, World.enactAll_cons]
      apply ih
      · rw [w.calls_enact]
        exact h.2
      · rw [w.calls_enact, Nat.add_assoc, Nat.add_comm 1]
        exact hio

/-- A job that ends well ends with its acts. -/
theorem carryOut_ok (acts : List Act) :
    Job.carryOut { acts, ending := ok () } = performAll acts := by
  change (performAll acts >>= fun _ => pure ()) = performAll acts
  exact bind_pure_unit

/-- A job whose acts all succeed is carried out to its end. -/
theorem carryOut_of_serves {job : Job} (h : env.Serves w.calls job.acts.length) :
    job.carryOut env w = (job.ending, w.enactAll job.acts) :=
  bind_run_of_ok (performAll_of_serves h)

/-- Otherwise it is carried out to the first act that fails. -/
theorem carryOut_of_fails {job : Job} {done : List Act} {a : Act} {rest : List Act}
    (hacts : job.acts = done ++ a :: rest) (h : env.Serves w.calls done.length)
    (hio : env.io (w.calls + done.length) = false) :
    job.carryOut env w = (a.failure, (w.enactAll done).tick) := by
  change Program.bind (performAll job.acts) (fun _ => lift job.ending) env w = _
  rw [Program.bind, hacts, performAll_of_fails h hio]
  cases a with
  | write p text => rfl
  | print stream text => rfl

theorem carryOut_cases (job : Job) (env : Env) (w : World) :
    (job.carryOut env w = (job.ending, w.enactAll job.acts)
        ∧ env.Serves w.calls job.acts.length)
      ∨ ∃ done a rest, job.acts = done ++ a :: rest ∧ env.Serves w.calls done.length
        ∧ env.io (w.calls + done.length) = false
        ∧ job.carryOut env w = (a.failure, (w.enactAll done).tick) := by
  rcases env.serves_or_fails w.calls job.acts.length with h | ⟨k, hk, hserves, hio⟩
  · exact .inl ⟨carryOut_of_serves h, h⟩
  · have hsplit : job.acts = job.acts.take k ++ job.acts[k] :: job.acts.drop (k + 1) := by
      rw [List.cons_getElem_drop_succ, List.take_append_drop]
    have hlen : (job.acts.take k).length = k := by
      rw [List.length_take]
      omega
    -- The acts fall apart at the first call that fails.
    rw [← hlen] at hserves hio
    exact .inr ⟨_, _, _, hsplit, hserves, hio, carryOut_of_fails hsplit hserves hio⟩

end CarryOut

end PqcVault
