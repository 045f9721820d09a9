/-
`Footprint.lean` -- steps on a store: which commute, and which was the last to write.

A step on a store reads some keys and writes some keys. What it writes depends on
what it reads and on nothing else, so two steps can be swapped when neither writes
what the other reads or writes, and any number of steps that are pairwise like that
can be run in any order. `Footprint` is what has to be shown of one step;
`foldl_perm` is the rest.

Whether they commute or not, what is in one place after a number of steps is what was
there before them, or what the last step to change it put there (`last_change`).
-/
import Mathlib.Data.List.Induction
import Mathlib.Data.List.Infix
import Mathlib.Data.List.Pairwise
import Mathlib.Data.List.Perm.Basic

set_option autoImplicit false

namespace Rust

section Store

variable {π β τ : Type}

/-- The step reads no more than `ins` and writes no more than `outs`: on two stores that
agree on the first, it makes the same changes, and they are to the second. -/
def Footprint (step : (π → Option β) → π → Option β) (ins outs : List π) : Prop :=
  ∀ s t, (∀ p ∈ ins, s p = t p) → ∃ change : π → Option β, (∀ p, p ∉ outs → change p = none)
    ∧ ∀ p, step s p = (change p).or (s p) ∧ step t p = (change p).or (t p)

/-- Neither step writes what the other reads or writes. -/
structure Apart (ins outs ins' outs' : List π) : Prop where
  both : outs.Disjoint outs'
  left : outs.Disjoint ins'
  right : outs'.Disjoint ins

theorem Apart.symm {ins outs ins' outs' : List π} (h : Apart ins outs ins' outs') :
    Apart ins' outs' ins outs :=
  ⟨fun _ hp hp' => h.both hp' hp, h.right, h.left⟩

namespace Footprint

variable {step step' : (π → Option β) → π → Option β} {ins outs ins' outs' : List π}

/-- What a step does not write stays. -/
theorem frame (h : Footprint step ins outs) (s : π → Option β) {p : π} (hp : p ∉ outs) :
    step s p = s p := by
  obtain ⟨change, hchange, hstep⟩ := h s s fun _ _ => rfl
  rw [(hstep p).1, hchange p hp, Option.none_or]

/-- **Two steps that are apart commute.** -/
theorem commute (h : Footprint step ins outs) (h' : Footprint step' ins' outs')
    (ha : Apart ins outs ins' outs') (s : π → Option β) : step' (step s) = step (step' s) := by
  -- Each step makes the changes it would have made first.
  obtain ⟨change, hout, hstep⟩ := h s (step' s) fun p hp =>
    (h'.frame s fun hp' => ha.right hp' hp).symm
  obtain ⟨change', hout', hstep'⟩ := h' s (step s) fun p hp =>
    (h.frame s fun hp' => ha.left hp' hp).symm
  funext p
  rw [(hstep' p).2, (hstep p).1, (hstep p).2, (hstep' p).1]
  by_cases hp : p ∈ outs
  · rw [hout' p fun hp' => ha.both hp hp', Option.none_or, Option.none_or]
  · rw [hout p hp, Option.none_or, Option.none_or]

end Footprint

/-- **Any order will do**: of steps that are pairwise apart, every order ends in the same
store. -/
theorem foldl_perm {step : τ → (π → Option β) → π → Option β} {ins outs : τ → List π}
    {runs runs' : List τ} (h : ∀ r ∈ runs, Footprint (step r) (ins r) (outs r))
    (hapart : runs.Pairwise fun r r' => Apart (ins r) (outs r) (ins r') (outs r'))
    (hperm : runs.Perm runs') (s : π → Option β) :
    runs.foldl (fun s r => step r s) s = runs'.foldl (fun s r => step r s) s := by
  apply hperm.foldl_eq'
  intro r hr r' hr' t
  by_cases heq : r = r'
  · rw [heq]
  · have hsymm : Std.Symm fun r r' => Apart (ins r) (outs r) (ins r') (outs r') :=
      ⟨fun _ _ ha => ha.symm⟩
    exact (h r hr).commute (h r' hr') (hapart.forall hr hr' heq) t

end Store

section LastChange

variable {σ τ β : Type} (step : σ → τ → σ) (look : σ → β)

/-- The step behind `pre` makes a change of its own, and no later one makes another. -/
structure LastChange (wrote : σ → τ → β → Prop) (s₀ : σ) (steps pre : List τ) (t : τ) (x : β) :
    Prop where
  wrote : wrote (pre.foldl step s₀) t x
  splits : ∃ post, steps = pre ++ t :: post
  holds : ∀ mid, pre ++ [t] <+: mid → mid <+: steps → look (mid.foldl step s₀) = x

/-- **What is in a place**: what was there, or what the last step to write it wrote. -/
theorem last_change (wrote : σ → τ → β → Prop)
    (hone : ∀ s t, look (step s t) = look s ∨ wrote s t (look (step s t))) (s₀ : σ)
    (steps : List τ) :
    (∀ mid, mid <+: steps → look (mid.foldl step s₀) = look s₀)
      ∨ ∃ pre t x, LastChange step look wrote s₀ steps pre t x := by
  induction steps using List.reverseRecOn with
  | nil =>
      refine .inl fun mid hmid => ?_
      rw [List.prefix_nil.mp hmid]
      rfl
  | append_singleton steps t ih =>
      have hstep := hone (steps.foldl step s₀) t
      have hlast : (steps ++ [t]).foldl step s₀ = step (steps.foldl step s₀) t := by
        rw [List.foldl_append]
        rfl
      rw [← hlast] at hstep
      rcases hstep with hsame | hnew
      · -- The step left the place as it found it.
        rcases ih with h | ⟨pre, t', x, h⟩
        · refine .inl fun mid hmid => ?_
          rcases List.prefix_concat_iff.mp hmid with rfl | hmid
          · exact hsame.trans (h steps List.prefix_rfl)
          · exact h mid hmid
        · obtain ⟨post, rfl⟩ := h.splits
          refine .inr ⟨pre, t', x, h.wrote, ⟨post ++ [t], ?_⟩, fun mid hpre hmid => ?_⟩
          · rw [List.append_assoc, List.cons_append]
          · rcases List.prefix_concat_iff.mp hmid with rfl | hmid
            · refine hsame.trans (h.holds _ ⟨post, ?_⟩ List.prefix_rfl)
              rw [List.append_assoc, List.singleton_append]
            · exact h.holds mid hpre hmid
      · refine .inr ⟨steps, t, _, hnew, ⟨[], rfl⟩, fun mid hpre hmid => ?_⟩
        rcases List.prefix_concat_iff.mp hmid with rfl | hmid
        · rfl
        · have hlen := (hpre.trans hmid).length_le
          rw [List.length_append, List.length_singleton] at hlen
          omega

end LastChange

end Rust
