/-
`BundleText.lean` -- the documents that are a bundle.

The derived `Deserialize` of `BundleJson` is a loop over the members of an object with six
slots to fill. Of an object it accepts, the members with the names of fields are the six
that `serialize` writes, in some order and each once, whatever else the object holds; the
only other document it accepts is the array of the six values. So a bundle that was edited
by hand is still the same bundle as long as its fields are.
-/
import PqcVault.Lib.Members
import PqcVault.Inspect

set_option autoImplicit false

namespace PqcVault

open Rust Outcome Members

namespace BundleJson

/-- The members `serialize` writes. -/
def members (b : BundleJson) : List (String × Json) :=
  [("version", .int b.version.toNat), ("kind", .str b.kind), ("level", .int b.level.toNat),
    ("salt", .str b.salt), ("nonce", .str b.nonce), ("ciphertext", .str b.ciphertext)]

/-- The names of the fields, in declaration order. -/
def fieldNames : List String := ["version", "kind", "level", "salt", "nonce", "ciphertext"]

theorem serialize_eq (b : BundleJson) : b.serialize = .obj b.members := rfl

theorem map_fst_members (b : BundleJson) : b.members.map Prod.fst = fieldNames := rfl

theorem nodup_members (b : BundleJson) : (b.members.map Prod.fst).Nodup := by
  rw [map_fst_members]
  decide

/-! ## Values -/

theorem readU8_eq_some {j : Json} {n : UInt8} : readU8 j = some n ↔ j = .int n.toNat := by
  constructor
  · intro h
    cases j with
    | int i =>
        rw [readU8] at h
        split_ifs at h with hi
        obtain ⟨hlo, hhi⟩ := hi
        rw [← Option.some.inj h, UInt8.toNat_ofNat']
        congr 1
        omega
    | null | bool | str | float | arr | obj => exact absurd h (by simp [readU8])
  · rintro rfl
    exact readU8_int n

theorem readString_eq_some {j : Json} {s : String} : readString j = some s ↔ j = .str s := by
  constructor
  · intro h
    cases j with
    | str t => rw [← Option.some.inj h]
    | null | bool | int | float | arr | obj => exact absurd h (by simp [readString])
  · rintro rfl
    rfl

/-! ## The loop -/

/-- One member, slot by slot. -/
theorem visit_eq_some {f f' : Fields} {m : String × Json} :
    visit f m = some f'
      ↔ slot readU8 "version" f.version m = some f'.version
        ∧ slot readString "kind" f.kind m = some f'.kind
        ∧ slot readU8 "level" f.level m = some f'.level
        ∧ slot readString "salt" f.salt m = some f'.salt
        ∧ slot readString "nonce" f.nonce m = some f'.nonce
        ∧ slot readString "ciphertext" f.ciphertext m = some f'.ciphertext := by
  obtain ⟨key, j⟩ := m
  obtain ⟨v, k, l, s, n, c⟩ := f
  obtain ⟨v', k', l', s', n', c'⟩ := f'
  have hset {α : Type} (old : Option α) (read : Json → Option α) (name : String) :
      slot read name old (name, j) = setField old (read j) := by
    cases old <;> simp [slot, setField]
  have hskip {α : Type} (old : Option α) (read : Json → Option α) {name : String} (h : key ≠ name) :
      slot read name old (key, j) = some old := if_neg h
  by_cases hversion : key = "version"
  · subst hversion
    simp [visit, hset, hskip, Option.map_eq_some_iff]
  by_cases hkind : key = "kind"
  · subst hkind
    simp [visit, hset, hskip, Option.map_eq_some_iff, and_left_comm]
  by_cases hlevel : key = "level"
  · subst hlevel
    simp [visit, hset, hskip, Option.map_eq_some_iff, and_left_comm]
  by_cases hsalt : key = "salt"
  · subst hsalt
    simp [visit, hset, hskip, Option.map_eq_some_iff, and_left_comm]
  by_cases hnonce : key = "nonce"
  · subst hnonce
    simp [visit, hset, hskip, Option.map_eq_some_iff, and_left_comm]
  by_cases hciphertext : key = "ciphertext"
  · subst hciphertext
    simp [visit, hset, hskip, Option.map_eq_some_iff, and_left_comm]
  · simp [visit, hskip, hversion, hkind, hlevel, hsalt, hnonce, hciphertext]

/-- All members, slot by slot. -/
theorem foldlM_visit_eq_some {ms : List (String × Json)} {f f' : Fields} :
    ms.foldlM visit f = some f'
      ↔ ms.foldlM (slot readU8 "version") f.version = some f'.version
        ∧ ms.foldlM (slot readString "kind") f.kind = some f'.kind
        ∧ ms.foldlM (slot readU8 "level") f.level = some f'.level
        ∧ ms.foldlM (slot readString "salt") f.salt = some f'.salt
        ∧ ms.foldlM (slot readString "nonce") f.nonce = some f'.nonce
        ∧ ms.foldlM (slot readString "ciphertext") f.ciphertext = some f'.ciphertext := by
  induction ms generalizing f with
  | nil =>
      obtain ⟨v, k, l, s, n, c⟩ := f
      obtain ⟨v', k', l', s', n', c'⟩ := f'
      simp
  | cons m ms ih =>
      simp only [List.foldlM_cons, Option.bind_eq_bind, Option.bind_eq_some_iff, visit_eq_some, ih]
      constructor
      · rintro ⟨g, ⟨hv, hk, hl, hs, hn, hc⟩, hv', hk', hl', hs', hn', hc'⟩
        exact ⟨⟨_, hv, hv'⟩, ⟨_, hk, hk'⟩, ⟨_, hl, hl'⟩, ⟨_, hs, hs'⟩, ⟨_, hn, hn'⟩, ⟨_, hc, hc'⟩⟩
      · rintro ⟨⟨v, hv, hv'⟩, ⟨k, hk, hk'⟩, ⟨l, hl, hl'⟩, ⟨s, hs, hs'⟩, ⟨n, hn, hn'⟩, ⟨c, hc, hc'⟩⟩
        exact ⟨⟨v, k, l, s, n, c⟩, ⟨hv, hk, hl, hs, hn, hc⟩, hv', hk', hl', hs', hn', hc'⟩

/-- Six fields set. -/
theorem finish_eq_some_iff {f : Fields} {b : BundleJson} :
    f.finish = some b
      ↔ f.version = some b.version ∧ f.kind = some b.kind ∧ f.level = some b.level
        ∧ f.salt = some b.salt ∧ f.nonce = some b.nonce ∧ f.ciphertext = some b.ciphertext := by
  constructor
  · intro h
    simp only [Fields.finish, Option.bind_eq_bind, Option.bind_eq_some_iff, Option.pure_def,
      Option.some.injEq] at h
    obtain ⟨v, hv, k, hk, l, hl, s, hs, n, hn, c, hc, rfl⟩ := h
    exact ⟨hv, hk, hl, hs, hn, hc⟩
  · rintro ⟨hv, hk, hl, hs, hn, hc⟩
    simp only [Fields.finish, hv, hk, hl, hs, hn, hc]
    rfl

/-! ## The documents -/

/-- **An object**: of its members, those with the names of fields are the six. -/
theorem deserialize_obj {ms : List (String × Json)} {b : BundleJson} :
    deserialize (.obj ms) = some b ↔ (known fieldNames ms).Perm b.members := by
  have hslots : deserialize (.obj ms) = some b
      ↔ ms.foldlM (slot readU8 "version") none = some (some b.version)
        ∧ ms.foldlM (slot readString "kind") none = some (some b.kind)
        ∧ ms.foldlM (slot readU8 "level") none = some (some b.level)
        ∧ ms.foldlM (slot readString "salt") none = some (some b.salt)
        ∧ ms.foldlM (slot readString "nonce") none = some (some b.nonce)
        ∧ ms.foldlM (slot readString "ciphertext") none = some (some b.ciphertext) := by
    rw [deserialize, Option.bind_eq_some_iff]
    simp only [foldlM_visit_eq_some, finish_eq_some_iff]
    constructor
    · rintro ⟨f, ⟨hv, hk, hl, hs, hn, hc⟩, hv', hk', hl', hs', hn', hc'⟩
      rw [hv'] at hv
      rw [hk'] at hk
      rw [hl'] at hl
      rw [hs'] at hs
      rw [hn'] at hn
      rw [hc'] at hc
      exact ⟨hv, hk, hl, hs, hn, hc⟩
    · intro h
      exact ⟨⟨_, _, _, _, _, _⟩, h, rfl, rfl, rfl, rfl, rfl, rfl⟩
  have hnumber {k : String} {n : UInt8} : ms.foldlM (slot readU8 k) none = some (some n)
      ↔ named k ms = [(k, .int n.toNat)] :=
    foldlM_slot (fun n : UInt8 => Json.int n.toNat) fun _ _ => readU8_eq_some
  have hstring {k s : String} : ms.foldlM (slot readString k) none = some (some s)
      ↔ named k ms = [(k, .str s)] :=
    foldlM_slot Json.str fun _ _ => readString_eq_some
  rw [hslots, hnumber, hstring, hnumber, hstring, hstring, hstring, ← map_fst_members b,
    perm_iff (nodup_members b)]
  simp [members]

/-- An array of the six values. -/
theorem deserialize_arr {xs : List Json} {b : BundleJson} :
    deserialize (.arr xs) = some b ↔ xs = b.members.map Prod.snd := by
  constructor
  · intro h
    unfold deserialize at h
    split at h
    case h_1 heq => exact absurd heq (by simp)
    case h_2 v k l s n c heq =>
        obtain ⟨hv, hk, hl, hs, hn, hc⟩ := finish_eq_some_iff.mp h
        rw [readU8_eq_some] at hv hl
        rw [readString_eq_some] at hk hs hn hc
        rw [Json.arr.inj heq, hv, hk, hl, hs, hn, hc]
        rfl
    case h_3 => exact absurd h (by simp)
  · rintro rfl
    exact finish_eq_some_iff.mpr
      ⟨readU8_int _, rfl, readU8_int _, rfl, rfl, rfl⟩

/-- No other document is a bundle. -/
theorem deserialize_eq_some {j : Json} {b : BundleJson} :
    deserialize j = some b ↔ (∃ ms, j = .obj ms ∧ (known fieldNames ms).Perm b.members)
      ∨ j = .arr (b.members.map Prod.snd) := by
  cases j with
  | obj ms => simp [deserialize_obj]
  | arr xs => simp [deserialize_arr]
  | null | bool | int | float | str => simp [deserialize]

end BundleJson

/-- **What `from_json` accepts**: the texts of an object in which the members with the names
of fields are those of the bundle, in any order and each once, and the texts of the array of
its values. -/
theorem from_json_exact (P : Platform) (s : String) (b : EncryptedKeyBundle) :
    EncryptedKeyBundle.from_json P s = ok b
      ↔ (∃ ms, P.serdeJson.fromStr s = some (.obj ms)
          ∧ (known BundleJson.fieldNames ms).Perm b.inner.members)
        ∨ P.serdeJson.fromStr s = some (.arr (b.inner.members.map Prod.snd)) := by
  have hread : EncryptedKeyBundle.from_json P s = ok b
      ↔ (P.serdeJson.fromStr s).bind BundleJson.deserialize = some b.inner := by
    constructor
    · exact from_json_eq_ok
    · intro h
      rw [EncryptedKeyBundle.from_json, h]
  rw [hread, Option.bind_eq_some_iff]
  constructor
  · rintro ⟨j, hj, hb⟩
    rcases BundleJson.deserialize_eq_some.mp hb with ⟨ms, rfl, hperm⟩ | rfl
    · exact .inl ⟨ms, hj, hperm⟩
    · exact .inr hj
  · rintro (⟨ms, hj, hperm⟩ | hj)
    · exact ⟨_, hj, BundleJson.deserialize_obj.mpr hperm⟩
    · exact ⟨_, hj, BundleJson.deserialize_arr.mpr rfl⟩

end PqcVault
