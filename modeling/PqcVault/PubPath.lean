/-
`PubPath.lean` -- where `keygen` writes the public key.

The help text says `<out>.pub`. A file name is any bytes the operating system
allows, and `pub_path` takes it through `to_string_lossy` before it adds the
suffix, so what it says holds of the names that are text. Two names that are not
may become the same one, and then the second key overwrites the public file of
the first.
-/
import PqcVault.CliSpec
import PqcVault.Sample

set_option autoImplicit false

namespace PqcVault

open Rust Outcome Utf8

/-! ## The path -/

/-- The path keygen writes the public key to is `<out>.pub` exactly when the name is a
text. -/
theorem pub_path_exact_iff {out : PathBuf} {n : Bytes} (h : out.name = some n) :
    pub_path out = { out with name := some (n ++ utf8 ".pub") } ↔ ∃ s, n = utf8 s := by
  rw [← utf8_fromUtf8Lossy, pub_path_of_name h]
  constructor
  · intro heq
    have hname := congrArg PathBuf.name heq
    exact List.append_cancel_right (Option.some.inj hname)
  · intro heq
    rw [heq]

/-- Two key paths of a directory share a public-key file exactly when their names
read the same after lossy decoding. -/
theorem pub_path_eq_iff {a b : PathBuf} {m n : Bytes} (hdir : a.dir = b.dir)
    (ha : a.name = some m) (hb : b.name = some n) :
    pub_path a = pub_path b ↔ fromUtf8Lossy m = fromUtf8Lossy n := by
  rw [pub_path_of_name ha, pub_path_of_name hb]
  constructor
  · intro heq
    have hname := congrArg PathBuf.name heq
    exact utf8_injective (List.append_cancel_right (Option.some.inj hname))
  · intro heq
    rw [heq, hdir]

/-! ## What is documented -/

/-- What the option promises for these key paths: each public key goes to the key
path with the suffix, so keys of a directory with different names go to different
files, and making one of them leaves the public key of another alone. -/
structure PubFilesDocumented (P : Platform) (outs : Set PathBuf) : Prop where
  exact : ∀ out ∈ outs, ∀ n, out.name = some n →
    pub_path out = { out with name := some (n ++ utf8 ".pub") }
  apart : ∀ a ∈ outs, ∀ b ∈ outs, ∀ m n, a.name = some m → b.name = some n → a.dir = b.dir →
    m ≠ n → pub_path a ≠ pub_path b
  kept : ∀ a ∈ outs, ∀ b ∈ outs, ∀ m n, a.name = some m → b.name = some n → a.dir = b.dir →
    m ≠ n → b ≠ pub_path a → ∀ algo level pub_key env w,
      (run P (.Keygen algo level b pub_key) env w).2.files.content (pub_path a)
        = w.files.content (pub_path a)

/-- A run of `keygen` changes its key path and its public-key path only. -/
theorem run_keygen_content_eq {P : Platform} {b p : PathBuf} (hb : b ≠ p) (hpub : pub_path b ≠ p)
    (algo : Algo) (level : UInt8) (pub_key : Bool) (env : Env) (w : World) :
    (run P (.Keygen algo level b pub_key) env w).2.files.content p = w.files.content p := by
  apply run_content_eq
  intro hp
  cases pub_key with
  | true =>
      simp only [Command.outputs, Command.uses, if_true, List.map_cons, List.map_nil,
        List.mem_cons, List.not_mem_nil, or_false] at hp
      rcases hp with rfl | rfl
      · exact hb rfl
      · exact hpub rfl
  | false =>
      have hmem : p = b := by simpa [Command.outputs, Command.uses] using hp
      exact hb hmem.symm

/-- **Public-key files**: for any key paths, what is documented holds exactly when
all their names are text. -/
theorem pubFilesDocumented_iff (P : Platform) (outs : Set PathBuf) :
    PubFilesDocumented P outs
      ↔ ∀ out ∈ outs, ∀ n, out.name = some n → ∃ s, n = utf8 s := by
  constructor
  · intro h out hout n hn
    exact (pub_path_exact_iff hn).mp (h.exact out hout n hn)
  · intro htext
    have hapart : ∀ a ∈ outs, ∀ b ∈ outs, ∀ m n, a.name = some m → b.name = some n →
        a.dir = b.dir → m ≠ n → pub_path a ≠ pub_path b := by
      intro a ha b hb m n hm hn hdir hne heq
      obtain ⟨s, rfl⟩ := htext a ha m hm
      obtain ⟨t, rfl⟩ := htext b hb n hn
      have hst := (pub_path_eq_iff hdir hm hn).mp heq
      rw [fromUtf8Lossy_utf8, fromUtf8Lossy_utf8] at hst
      exact hne (congrArg utf8 hst)
    refine ⟨?_, hapart, ?_⟩
    · intro out hout n hn
      exact (pub_path_exact_iff hn).mpr (htext out hout n hn)
    · intro a ha b hb m n hm hn hdir hne hpub algo level pub_key env w
      have hba : pub_path b ≠ pub_path a := by
        intro heq
        exact hapart a ha b hb m n hm hn hdir hne heq.symm
      exact run_keygen_content_eq hpub hba algo level pub_key env w

/-- Two names of one byte that no text has: both become U+FFFD, so the two keys
share a public-key file, and for neither is it the documented one. -/
theorem pub_path_collides :
    pub_path { dir := [], name := some [0xFF] } = { dir := [], name := some (utf8 "\uFFFD.pub") }
      ∧ pub_path { dir := [], name := some [0xFE] } = pub_path { dir := [], name := some [0xFF] }
      ∧ ¬ PubFilesDocumented samplePlatform
          {{ dir := [], name := some [0xFF] }, { dir := [], name := some [0xFE] }} := by
  have hff : pub_path { dir := [], name := some [0xFF] }
      = { dir := [], name := some (utf8 "\uFFFD.pub") } := by decide +kernel
  have hfe : pub_path { dir := [], name := some [0xFE] }
      = pub_path { dir := [], name := some [0xFF] } := by decide +kernel
  refine ⟨hff, hfe, ?_⟩
  intro h
  have hne := h.apart { dir := [], name := some [0xFE] } (by simp)
    { dir := [], name := some [0xFF] } (by simp) [0xFE] [0xFF] rfl rfl rfl (by decide)
  exact hne hfe

end PqcVault
