/-
`Members.lean` -- a record read from named members.

A derived reader goes through the members of an object once and keeps a slot for every
field; a second member of a field's name is an error, a name it does not know is skipped.
What it accepts does not depend on the order: the members it knows are those of the record,
each once. `foldlM_slot` says so of one slot, `perm_iff` of a record of them.
-/
import Mathlib.Data.List.Perm.Basic

set_option autoImplicit false

namespace Members

variable {α J : Type*}

/-- A field, and the next member. -/
def slot (read : J → Option α) (k : String) (old : Option α) (m : String × J) :
    Option (Option α) :=
  if m.1 = k then
    match old with
    | some _ => none
    | none => (read m.2).map some
  else some old

/-- The members of a name. -/
def named (k : String) (ms : List (String × J)) : List (String × J) := ms.filter fun m => m.1 = k

/-- The members of some names. -/
def known (ks : List String) (ms : List (String × J)) : List (String × J) :=
  ms.filter fun m => m.1 ∈ ks

theorem named_cons_self (k : String) (j : J) (ms : List (String × J)) :
    named k ((k, j) :: ms) = (k, j) :: named k ms :=
  List.filter_cons_of_pos (by simp)

theorem named_cons_of_ne {k : String} {m : String × J} (h : m.1 ≠ k) (ms : List (String × J)) :
    named k (m :: ms) = named k ms :=
  List.filter_cons_of_neg (by simp [h])

section Slot

variable {read : J → Option α} {k : String} {ms : List (String × J)}

/-- A field that is set stays, and there is no other member of its name. -/
theorem foldlM_slot_some {v w : α} :
    ms.foldlM (slot read k) (some v) = some (some w) ↔ w = v ∧ named k ms = [] := by
  induction ms with
  | nil => simp [named, eq_comm]
  | cons m ms ih =>
      rw [List.foldlM_cons]
      by_cases hm : m.1 = k
      · obtain ⟨key, j⟩ := m
        obtain rfl : key = k := hm
        rw [named_cons_self]
        simp [slot]
      · rw [named_cons_of_ne hm, slot, if_neg hm]
        exact ih

/-- **One slot**: it ends up set exactly when there is one member of its name, and to what
that one holds. -/
theorem foldlM_slot (write : α → J) (hread : ∀ j v, read j = some v ↔ j = write v) {w : α} :
    ms.foldlM (slot read k) none = some (some w) ↔ named k ms = [(k, write w)] := by
  induction ms with
  | nil => simp [named]
  | cons m ms ih =>
      rw [List.foldlM_cons]
      by_cases hm : m.1 = k
      · obtain ⟨key, j⟩ := m
        obtain rfl : key = k := hm
        rw [named_cons_self, slot, if_pos rfl, List.cons.injEq, Prod.mk.injEq]
        cases hj : read j with
        | none =>
            have hne : j ≠ write w := fun h => by
              rw [(hread j w).mpr h] at hj
              exact absurd hj (by simp)
            simp [hne]
        | some v =>
            have hv : j = write w ↔ w = v := by
              rw [← hread, hj, Option.some.injEq]
              exact eq_comm
            rw [hv, Option.map_some]
            change ms.foldlM (slot read key) (some v) = some (some w) ↔ _
            rw [foldlM_slot_some]
            simp
      · rw [named_cons_of_ne hm, slot, if_neg hm]
        exact ih

end Slot

/-! ## Records -/

/-- Names told apart. -/
theorem known_cons {k : String} {ks : List String} (hk : k ∉ ks) (ms : List (String × J)) :
    (known (k :: ks) ms).Perm (named k ms ++ known ks ms) := by
  have hfst : (known (k :: ks) ms).filter (fun m => m.1 = k) = named k ms := by
    rw [known, List.filter_filter, named]
    apply List.filter_congr
    intro m _
    by_cases hm : m.1 = k <;> simp [hm]
  have hsnd : (known (k :: ks) ms).filter (fun m => !decide (m.1 = k)) = known ks ms := by
    rw [known, List.filter_filter, known]
    apply List.filter_congr
    intro m _
    by_cases hm : m.1 = k
    · simp [hm, hk]
    · simp [hm]
  have hsplit := List.filter_append_perm (fun m : String × J => m.1 = k) (known (k :: ks) ms)
  rw [hfst, hsnd] at hsplit
  exact hsplit.symm

/-- **One member for each field**, in any order and among others. -/
theorem perm_iff {fields : List (String × J)} (hnodup : (fields.map Prod.fst).Nodup)
    {ms : List (String × J)} :
    (known (fields.map Prod.fst) ms).Perm fields ↔ ∀ m ∈ fields, named m.1 ms = [m] := by
  induction fields with
  | nil => simp [known]
  | cons m fields ih =>
      obtain ⟨hm, hrest⟩ := List.nodup_cons.mp hnodup
      have hsplit := known_cons hm ms
      have hother : ∀ m' ∈ fields, m'.1 ≠ m.1 := fun m' hm' heq =>
        hm (heq ▸ List.mem_map_of_mem hm')
      have hnone : named m.1 fields = [] :=
        List.filter_eq_nil_iff.mpr fun m' hm' => by simp [hother m' hm']
      rw [List.map_cons, List.forall_mem_cons, ← ih hrest]
      constructor
      · intro h
        -- Of the fields themselves `m` is the one of its name.
        have hone : named m.1 ms = [m] := by
          have hname := h.filter fun x => x.1 = m.1
          have hknown : (known (m.1 :: fields.map Prod.fst) ms).filter (fun x => x.1 = m.1)
              = named m.1 ms := by
            rw [known, List.filter_filter, named]
            apply List.filter_congr
            intro x _
            by_cases hx : x.1 = m.1 <;> simp [hx]
          change List.Perm _ (named m.1 (m :: fields)) at hname
          rw [hknown, named_cons_self m.1 m.2, hnone] at hname
          exact List.perm_singleton.mp hname
        refine ⟨hone, ?_⟩
        have hperm := hsplit.symm.trans h
        rw [hone, List.singleton_append] at hperm
        exact (List.perm_cons m).mp hperm
      · rintro ⟨hone, hperm⟩
        rw [hone, List.singleton_append] at hsplit
        exact hsplit.trans (hperm.cons m)

end Members
