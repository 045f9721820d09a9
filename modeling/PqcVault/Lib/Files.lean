/-
`Files.lean` -- paths, files, and pairs of files that are written one after the
other.

A program that keeps two files in step by writing first the one and then the
other has no way back when the second write fails: the first file is new and the
second is what it was. What such a program does guarantee is said here once, for
any paths and any contents. `Writes` is everything one run can do that has a list
of contents to write, `PairAgrees` is the invariant that survives every run: **if
the second file is the one that was written last**, the two agree.
-/
import Mathlib.Logic.Function.Basic
import PqcVault.Lib.Utf8

set_option autoImplicit false

namespace Rust

/-! ## Paths -/

/-- `PathBuf`: the bytes up to the last component, and that component when it is
a name. It is not one for a path that ends in `..` or at the root.

A path is meant to be spelled plainly, with no `/` or `/.` too many in front of the
name and none behind it. `set_file_name` drops those in Rust and keeps them here. -/
structure PathBuf where
  dir : List UInt8
  name : Option (List UInt8)
  deriving DecidableEq

namespace PathBuf

/-- `Path::file_name`. -/
def file_name (p : PathBuf) : Option (List UInt8) := p.name

/-- `PathBuf::set_file_name`: replaces the last component, or appends one. -/
def set_file_name (p : PathBuf) (name : List UInt8) : PathBuf :=
  match p.name with
  | some _ => { p with name := some name }
  | none =>
      { dir := if p.dir = [] ∨ p.dir.getLast? = some 0x2F then p.dir else p.dir ++ [0x2F]
        name := some name }

/-- `Path::display`. -/
def display (p : PathBuf) : String := Utf8.fromUtf8Lossy (p.dir ++ p.name.getD [])

end PathBuf

/-! ## Files -/

/-- The files there are, and the writes that succeeded, the latest first.

Every path is a file of its own: nothing is a link, a directory or a device, and no file
has two spellings, such as `a` and `./a`. Where a file can be is not looked at either, so a
write to a path without a name is one that may succeed. -/
structure Files (π β : Type) where
  content : π → Option β
  written : List π

namespace Files

variable {π β : Type} [DecidableEq π]

/-- No file at all. -/
def empty : Files π β := { content := fun _ => none, written := [] }

/-- `fs::write`, when it succeeds: the file is created or replaced. -/
def write (f : Files π β) (p : π) (c : β) : Files π β :=
  { content := Function.update f.content p (some c), written := p :: f.written }

@[simp] theorem content_write_self (f : Files π β) (p : π) (c : β) :
    (f.write p c).content p = some c := Function.update_self _ _ _

theorem content_write_of_ne (f : Files π β) {p q : π} (h : q ≠ p) (c : β) :
    (f.write p c).content q = f.content q := Function.update_of_ne h _ _

/-- Writing a second file keeps the first. -/
theorem content_write_write_left (f : Files π β) {a b : π} (hab : a ≠ b) (x y : β) :
    ((f.write a x).write b y).content a = some x := by
  rw [content_write_of_ne _ hab, content_write_self]

theorem content_write_write_of_ne (f : Files π β) {a b p : π} (ha : p ≠ a) (hb : p ≠ b) (x y : β) :
    ((f.write a x).write b y).content p = f.content p := by
  rw [content_write_of_ne _ hb, content_write_of_ne _ ha]

/-- Several writes that succeed, in order. -/
def writeAll (f : Files π β) (plan : List (π × β)) : Files π β :=
  plan.foldl (fun f q => f.write q.1 q.2) f

@[simp] theorem writeAll_nil (f : Files π β) : f.writeAll [] = f := rfl

@[simp] theorem writeAll_cons (f : Files π β) (q : π × β) (plan : List (π × β)) :
    f.writeAll (q :: plan) = (f.write q.1 q.2).writeAll plan := rfl

theorem writeAll_append (f : Files π β) (plan plan' : List (π × β)) :
    f.writeAll (plan ++ plan') = (f.writeAll plan).writeAll plan' := List.foldl_append

/-- A file holds what was last written to it, or what it held. -/
theorem content_writeAll (f : Files π β) (plan : List (π × β)) (p : π) :
    (f.writeAll plan).content p = ((empty.writeAll plan).content p).or (f.content p) := by
  induction plan generalizing f with
  | nil => rfl
  | cons q plan ih =>
      rw [writeAll_cons, writeAll_cons, ih (f.write _ _), ih (empty.write _ _), Option.or_assoc]
      by_cases hp : p = q.1
      · rw [hp, content_write_self, content_write_self, Option.some_or]
      · rw [content_write_of_ne _ hp, content_write_of_ne _ hp]
        rfl

/-- What is in a file after several writes is from one of them, or was there. -/
theorem content_writeAll_cases (f : Files π β) (plan : List (π × β)) (p : π) :
    (f.writeAll plan).content p = f.content p
      ∨ ∃ c, (p, c) ∈ plan ∧ (f.writeAll plan).content p = some c := by
  induction plan generalizing f with
  | nil => exact .inl rfl
  | cons q plan ih =>
      rcases ih (f.write q.1 q.2) with h | ⟨c, hc, h⟩
      · rw [writeAll_cons, h]
        by_cases hp : p = q.1
        · rw [hp, content_write_self]
          exact .inr ⟨q.2, List.mem_cons_self, rfl⟩
        · exact .inl (content_write_of_ne _ hp _)
      · exact .inr ⟨c, List.mem_cons_of_mem _ hc, h⟩

/-- A file that is written does not depend on what was there. -/
theorem content_writeAll_congr {plan : List (π × β)} {p : π} {x : β} (hp : (p, x) ∈ plan)
    (f g : Files π β) : (f.writeAll plan).content p = (g.writeAll plan).content p := by
  induction plan generalizing f g with
  | nil => exact absurd hp List.not_mem_nil
  | cons q plan ih =>
      rcases List.mem_cons.mp hp with rfl | hp
      · rw [writeAll_cons, writeAll_cons, content_writeAll, content_writeAll (g.write p x),
          content_write_self, content_write_self]
      · exact ih hp _ _

theorem content_writeAll_of_notMem (f : Files π β) {plan : List (π × β)} {p : π}
    (hp : ∀ q ∈ plan, q.1 ≠ p) : (f.writeAll plan).content p = f.content p := by
  induction plan generalizing f with
  | nil => rfl
  | cons q plan ih =>
      rw [List.forall_mem_cons] at hp
      rw [writeAll_cons, ih _ hp.2, content_write_of_ne _ hp.1.symm]

/-- Which of two files was written last. -/
def latest (f : Files π β) (a b : π) : Option π := f.written.find? (fun p => p = a ∨ p = b)

@[simp] theorem latest_write_left (f : Files π β) (a b : π) (c : β) :
    (f.write a c).latest a b = some a := by simp [latest, write]

@[simp] theorem latest_write_right (f : Files π β) (a b : π) (c : β) :
    (f.write b c).latest a b = some b := by simp [latest, write]

theorem latest_write_of_ne (f : Files π β) {a b p : π} (ha : p ≠ a) (hb : p ≠ b) (c : β) :
    (f.write p c).latest a b = f.latest a b := by simp [latest, write, ha, hb]

/-! ## Writing one file after the other -/

/-- What a run can do that has these contents to write, in this order: it stops at
any point, and what was written by then stays written. -/
inductive Writes : List (π × β) → Files π β → Files π β → Prop
  | stop (plan : List (π × β)) (f : Files π β) : Writes plan f f
  | next {p : π} {c : β} {plan : List (π × β)} {f f' : Files π β} (h : Writes plan (f.write p c) f') :
      Writes ((p, c) :: plan) f f'

section Writes

variable {plan : List (π × β)} {f f' : Files π β}

/-- A run changes the files it has contents for, and no others. -/
theorem Writes.content_eq (h : Writes plan f f') {p : π} (hp : ∀ q ∈ plan, q.1 ≠ p) :
    f'.content p = f.content p := by
  induction h with
  | stop plan f => rfl
  | @next q c plan f f' _ ih =>
      rw [List.forall_mem_cons] at hp
      rw [ih hp.2, content_write_of_ne _ hp.1.symm]

/-- Which of two files is the later one is changed by a run on one of them only. -/
theorem Writes.latest_eq (h : Writes plan f f') {a b : π} (ha : ∀ q ∈ plan, q.1 ≠ a)
    (hb : ∀ q ∈ plan, q.1 ≠ b) : f'.latest a b = f.latest a b := by
  induction h with
  | stop plan f => rfl
  | @next q c plan f f' _ ih =>
      rw [List.forall_mem_cons] at ha hb
      rw [ih ha.2 hb.2, latest_write_of_ne _ ha.1 hb.1]

/-- What holds of every file, and of everything the run has to write, holds of
every file after the run. -/
theorem Writes.content_of {Q : β → Prop} (h : Writes plan f f') (hplan : ∀ q ∈ plan, Q q.2)
    (hf : ∀ p x, f.content p = some x → Q x) : ∀ p x, f'.content p = some x → Q x := by
  induction h with
  | stop plan f => exact hf
  | @next q c plan f f' _ ih =>
      rw [List.forall_mem_cons] at hplan
      refine ih hplan.2 fun p x hx => ?_
      by_cases hp : p = q
      · rw [hp, content_write_self] at hx
        exact Option.some.inj hx ▸ hplan.1
      · rw [content_write_of_ne _ hp] at hx
        exact hf p x hx

end Writes

/-! ## A pair of files -/

section Pair

variable {good : β → β → Prop} {a b : π} {x y : β} {f f' : Files π β}

/-- If the second file is the one that was written last, both are there and they
agree. -/
def PairAgrees (good : β → β → Prop) (a b : π) (f : Files π β) : Prop :=
  f.latest a b = some b → ∃ x y, f.content a = some x ∧ f.content b = some y ∧ good x y

theorem pairAgrees_empty : PairAgrees good a b empty := by simp [PairAgrees, latest, empty]

theorem PairAgrees.mono {good' : β → β → Prop} (h : f.PairAgrees good a b)
    (himp : ∀ x y, good x y → good' x y) : f.PairAgrees good' a b := by
  intro hlast
  obtain ⟨x, y, hx, hy, hgood⟩ := h hlast
  exact ⟨x, y, hx, hy, himp x y hgood⟩

/-- Nothing is promised while the first file is the later one. -/
theorem PairAgrees.of_latest_left (hab : a ≠ b) (h : f.latest a b = some a) :
    f.PairAgrees good a b := by
  intro hlast
  exact absurd (Option.some.inj (h.symm.trans hlast)) hab

/-- A run that writes the first file only. -/
theorem Writes.agrees_first (hab : a ≠ b) (h : Writes [(a, x)] f f') (hf : f.PairAgrees good a b) :
    f'.PairAgrees good a b := by
  cases h with
  | stop => exact hf
  | next h =>
      cases h with
      | stop => exact .of_latest_left hab (latest_write_left _ _ _ _)

/-- A run that has a good pair to write. -/
theorem Writes.agrees_both (hab : a ≠ b) (hgood : good x y) (h : Writes [(a, x), (b, y)] f f')
    (hf : f.PairAgrees good a b) : f'.PairAgrees good a b := by
  cases h with
  | stop => exact hf
  | next h =>
      cases h with
      | stop => exact .of_latest_left hab (latest_write_left _ _ _ _)
      | next h =>
          cases h with
          | stop =>
              intro _
              exact ⟨x, y, content_write_write_left _ hab _ _, content_write_self _ _ _, hgood⟩

/-- A run on other files. -/
theorem Writes.agrees_of_disjoint {plan : List (π × β)} (h : Writes plan f f')
    (ha : ∀ q ∈ plan, q.1 ≠ a) (hb : ∀ q ∈ plan, q.1 ≠ b) (hf : f.PairAgrees good a b) :
    f'.PairAgrees good a b := by
  intro hlast
  rw [h.latest_eq ha hb] at hlast
  rw [h.content_eq ha, h.content_eq hb]
  exact hf hlast

end Pair

end Files

end Rust
