/-
`Recovery.lean` -- a command that is run again.

A write replaces the whole file, and a command that ends well has written every file it may
write. So it covers what earlier attempts at the same files left there, however these went:
cut short by a failed call, refused, or done with other answers and other randomness. Once
one attempt succeeds the disk is as if there had been no other. The proviso is that no
attempt writes a file that the command reads.
-/
import PqcVault.CliOrder

set_option autoImplicit false

namespace PqcVault

open Rust Outcome Program Utf8

section Again

variable {P : Platform} {env : Env} {f f' : Files PathBuf Bytes} {c : Command} {job : Job}

/-- What is decided depends on the files that are read only. -/
theorem Decides.of_inputs (hd : Decides P env f c job)
    (hin : ∀ p ∈ c.inputs, f'.content p = f.content p) : Decides P env f' c job := by
  have hread {p : PathBuf} {x : Bytes} (hp : p ∈ c.inputs) (h : f.content p = some x) :
      f'.content p = some x := (hin p hp).trans h
  cases hd with
  | keygen_kem hlevel hpass hgen hseal => exact .keygen_kem hlevel hpass hgen hseal
  | keygen_dsa hlevel hpass hgen hseal => exact .keygen_dsa hlevel hpass hgen hseal
  | encapsulate hkey hk henc =>
      exact .encapsulate (hread (by simp [Command.inputs]) hkey) hk henc
  | decapsulate hkey hpass hjson hunseal hct hhex hdec =>
      exact .decapsulate (hread (by simp [Command.inputs]) hkey) hpass hjson hunseal
        (hread (by simp [Command.inputs]) hct) hhex hdec
  | sign hkey hpass hjson hunseal hfile hsign =>
      exact .sign (hread (by simp [Command.inputs]) hkey) hpass hjson hunseal
        (hread (by simp [Command.inputs]) hfile) hsign
  | valid hkey hk hfile hsig hhex hverify =>
      exact .valid (hread (by simp [Command.inputs]) hkey) hk
        (hread (by simp [Command.inputs]) hfile) (hread (by simp [Command.inputs]) hsig) hhex hverify
  | invalid hkey hk hfile hsig hhex hverify =>
      exact .invalid (hread (by simp [Command.inputs]) hkey) hk
        (hread (by simp [Command.inputs]) hfile) (hread (by simp [Command.inputs]) hsig) hhex hverify
  | inspect hkey hjson => exact .inspect (hread (by simp [Command.inputs]) hkey) hjson

/-- A job writes every file the command may write. -/
theorem Decides.exists_write (hd : Decides P env f c job) {p : PathBuf} (hp : p ∈ c.outputs) :
    ∃ x, (p, x) ∈ job.writes := by
  have hkeygen {algo : Algo} {n : UInt8} {out : PathBuf} (json pem : String) {pub_key : Bool}
      (hp : p ∈ (Command.Keygen algo n out pub_key).outputs) :
      ∃ x, (p, x) ∈ (keygenJob out json pem pub_key).writes := by
    rcases List.mem_cons.mp hp with rfl | hp
    · exact ⟨_, List.mem_cons_self⟩
    · cases pub_key with
      | false => exact absurd hp List.not_mem_nil
      | true =>
          obtain rfl := List.mem_singleton.mp hp
          exact ⟨_, List.mem_cons_of_mem _ List.mem_cons_self⟩
  cases hd with
  | keygen_kem hlevel hpass hgen hseal => exact hkeygen _ _ hp
  | keygen_dsa hlevel hpass hgen hseal => exact hkeygen _ _ hp
  | encapsulate hkey hk henc =>
      rcases List.mem_cons.mp hp with rfl | hp
      · exact ⟨_, List.mem_cons_self⟩
      · obtain rfl := List.mem_singleton.mp hp
        exact ⟨_, List.mem_cons_of_mem _ List.mem_cons_self⟩
  | decapsulate hkey hpass hjson hunseal hct hhex hdec =>
      obtain rfl := List.mem_singleton.mp hp
      exact ⟨_, List.mem_cons_self⟩
  | sign hkey hpass hjson hunseal hfile hsign =>
      obtain rfl := List.mem_singleton.mp hp
      exact ⟨_, List.mem_cons_self⟩
  | valid | invalid | inspect => exact absurd hp List.not_mem_nil

/-- **Running a command again**: if no attempt so far writes a file the command reads, or one
it does not write, then a run that ends well ends and prints as it would have without them,
and leaves the same files. -/
theorem run_again (P : Platform) {c : Command} {env : Env} {runs : List (Command × Env)}
    (hapart : ∀ r ∈ runs, r.1.outputs.Disjoint c.inputs)
    (houts : ∀ r ∈ runs, r.1.outputs ⊆ c.outputs)
    (f : Files PathBuf Bytes) (hok : (run P c env (World.start f)).1 = ok ()) :
    (run P c env (World.start (runAll P runs f))).1 = ok ()
      ∧ (run P c env (World.start (runAll P runs f))).2.console
        = (run P c env (World.start f)).2.console
      ∧ (run P c env (World.start (runAll P runs f))).2.files.content
        = (run P c env (World.start f)).2.files.content := by
  have hin : ∀ p ∈ c.inputs, (runAll P runs f).content p = f.content p := fun p hp =>
    content_runAll_of_notMem (fun r hr hout => hapart r hr hout hp) f
  obtain ⟨job, hd, hend, hserves, hleft⟩ :=
    (run_eq_iff_of_final (by simp) (by simp)).mp (Prod.ext hok rfl)
  have hagain := run_of_decides (w := World.start (runAll P runs f)) (hd.of_inputs hin) hserves
  obtain ⟨hsame, halike⟩ := run_local (P := P) (w := World.start (runAll P runs f))
    (t := World.start f) c env rfl hin
  refine ⟨hsame.trans hok, ?_, ?_⟩
  · obtain ⟨_, lines, _, -, ⟨-, hc, -⟩, -, hc', -⟩ := halike
    rw [hc, hc']
    rfl
  · have hfirst : (run P c env (World.start f)).2.files = f.writeAll job.writes :=
      (congrArg World.files hleft).trans (World.files_enactAll _ _)
    have hsecond : (run P c env (World.start (runAll P runs f))).2.files
        = (runAll P runs f).writeAll job.writes :=
      (congrArg (fun x => x.2.files) hagain).trans (World.files_enactAll _ _)
    funext p
    -- A file the command writes is covered, another one was never touched.
    by_cases hp : p ∈ c.outputs
    · obtain ⟨x, hx⟩ := hd.exists_write hp
      rw [hfirst, hsecond]
      exact Files.content_writeAll_congr hx _ _
    · calc
        _ = (runAll P runs f).content p := run_content_eq c env (World.start (runAll P runs f)) hp
        _ = f.content p := content_runAll_of_notMem (fun r hr hout => hp (houts r hr hout)) f
        _ = _ := (run_content_eq c env (World.start f) hp).symm

end Again

/-- A `keygen` that failed at its second write, and the same again. -/
theorem run_again_sample :
    (run samplePlatform (Sample.keygen 0 fun _ => true).1 (Sample.keygen 0 fun _ => true).2
        (World.start (runAll samplePlatform [Sample.keygen 1 fun n => n ≠ 4] .empty))).2.files.content
      = (run samplePlatform (Sample.keygen 0 fun _ => true).1 (Sample.keygen 0 fun _ => true).2
        (World.start .empty)).2.files.content := by
  have hlen : (utf8 "passphrase").length ≤ 2 ^ 32 - 1 := by decide +kernel
  obtain ⟨bundle, hseal⟩ := Sample.seal_kemPair_isOk .Level1 0 hlen (Sample.fill 16 0)
    (Sample.fill 12 0)
  have hd : Decides samplePlatform (Sample.keygen 0 fun _ => true).2 .empty
      (Sample.keygen 0 fun _ => true).1 (keygenJob (samplePath "key")
        (bundle.to_json samplePlatform) (Sample.pem 0) true) :=
    .keygen_kem rfl ⟨rfl, rfl, by decide⟩ (Sample.generate_kemPair .Level1 0) hseal
  have hrun := run_of_decides (w := World.start .empty) hd fun _ _ _ => rfl
  refine (run_again samplePlatform (fun _ _ => List.disjoint_nil_right _) ?_ .empty
    (congrArg Prod.fst hrun)).2.2
  intro r hr
  rw [List.mem_singleton.mp hr]
  exact fun p hp => hp

end PqcVault
