/-
`Inspect.lean` -- two readers of one file.

`from_json` reads a bundle with the derived `Deserialize`, `cmd_inspect` looks two
fields up in whatever JSON the file holds. On an object the two agree: the derived
reader refuses a repeated field, so the last member of a name is the only one. On
the other shape the derived reader takes, an array, the lookup finds nothing and
the defaults are printed; and on a text that `serde_json` cannot hold as a value
the inspector stops with an error.
-/
import PqcVault.Acts

set_option autoImplicit false

namespace PqcVault

open Rust Outcome Program Utf8

/-! ## Fields of an object -/

namespace BundleJson

/-- A field that was set had not been, and now is what was read. -/
theorem setField_eq_some {α : Type} {old read : Option α} {v : Option α}
    (h : setField old read = some v) : v = read := by
  cases old with
  | some a => exact absurd h (by simp [setField])
  | none =>
      obtain ⟨a, ha, rfl⟩ := Option.map_eq_some_iff.mp h
      exact ha.symm

/-- An update that keeps a field keeps it. -/
theorem proj_of_map {α β γ : Type} (proj : β → γ) {x : Option α} {g : α → β} {b : β} {c : γ}
    (h : x.map g = some b) (hg : ∀ v, proj (g v) = c) : proj b = c := by
  obtain ⟨v, -, rfl⟩ := Option.map_eq_some_iff.mp h
  exact hg v

theorem visit_kind {f f' : Fields} {m : String × Json} (h : visit f m = some f') :
    f'.kind = if m.1 = "kind" then readString m.2 else f.kind := by
  by_cases hkind : m.1 = "kind"
  · rw [visit, hkind, if_neg (by decide), if_pos rfl] at h
    obtain ⟨v, hv, rfl⟩ := Option.map_eq_some_iff.mp h
    rw [if_pos hkind]
    exact setField_eq_some hv
  · rw [if_neg hkind]
    unfold visit at h
    rw [if_neg hkind] at h
    split_ifs at h
    case neg => rw [Option.some.inj h]
    all_goals exact proj_of_map Fields.kind h fun _ => rfl

theorem visit_level {f f' : Fields} {m : String × Json} (h : visit f m = some f') :
    f'.level = if m.1 = "level" then readU8 m.2 else f.level := by
  by_cases hlevel : m.1 = "level"
  · rw [visit, hlevel, if_neg (by decide), if_neg (by decide), if_pos rfl] at h
    obtain ⟨v, hv, rfl⟩ := Option.map_eq_some_iff.mp h
    rw [if_pos hlevel]
    exact setField_eq_some hv
  · rw [if_neg hlevel]
    unfold visit at h
    rw [if_neg hlevel] at h
    split_ifs at h
    case neg => rw [Option.some.inj h]
    all_goals exact proj_of_map Fields.level h fun _ => rfl

/-- What has been read of the two fields is what a lookup finds; the induction is
from the right, since a lookup takes the last member of a name. -/
theorem foldlM_visit {members : List (String × Json)} {f : Fields}
    (h : members.foldlM visit {} = some f) :
    f.kind = (members.reverse.lookup "kind").bind readString
      ∧ f.level = (members.reverse.lookup "level").bind readU8 := by
  induction members using List.reverseRecOn generalizing f with
  | nil =>
      obtain rfl := Option.some.inj h
      exact ⟨rfl, rfl⟩
  | append_singleton members m ih =>
      rw [List.foldlM_append, Option.bind_eq_bind, Option.bind_eq_some_iff] at h
      obtain ⟨g, hg, hm⟩ := h
      obtain ⟨hkind, hlevel⟩ := ih hg
      rw [List.foldlM_cons, Option.bind_eq_bind, Option.bind_eq_some_iff] at hm
      obtain ⟨f', hm, hf'⟩ := hm
      obtain rfl := Option.some.inj hf'
      rw [visit_kind hm, visit_level hm, hkind, hlevel, List.reverse_append]
      obtain ⟨key, v⟩ := m
      constructor
      · by_cases hk : key = "kind"
        · subst hk
          rfl
        · rw [if_neg hk, List.reverse_singleton, List.singleton_append, List.lookup_cons,
            beq_false_of_ne (Ne.symm hk)]
      · by_cases hk : key = "level"
        · subst hk
          rfl
        · rw [if_neg hk, List.reverse_singleton, List.singleton_append, List.lookup_cons,
            beq_false_of_ne (Ne.symm hk)]

theorem finish_eq_some {f : Fields} {b : BundleJson} (h : f.finish = some b) :
    f.kind = some b.kind ∧ f.level = some b.level := by
  simp only [Fields.finish, Option.bind_eq_bind, Option.bind_eq_some_iff, Option.pure_def,
    Option.some.injEq] at h
  obtain ⟨version, -, kind, hkind, level, hlevel, salt, -, nonce, -, ciphertext, -, rfl⟩ := h
  exact ⟨hkind, hlevel⟩

theorem as_str_of_readString {j : Json} {s : String} (h : readString j = some s) :
    j.as_str = some s := by
  cases j with
  | str t => exact h
  | null | bool | int | float | arr | obj => exact absurd h (by simp [readString])

theorem as_u64_of_readU8 {j : Json} {n : UInt8} (h : readU8 j = some n) :
    j.as_u64 = some n.toNat := by
  cases j with
  | int i =>
      rw [readU8] at h
      split_ifs at h with hi
      rw [← Option.some.inj h, Json.as_u64, if_pos ⟨hi.1, by omega⟩, UInt8.toNat_ofNat']
      congr 1
      omega
  | null | bool | str | float | arr | obj => exact absurd h (by simp [readU8])

/-- **The lookups agree with the derived reader** on an object it accepts. -/
theorem index_of_deserialize {members : List (String × Json)} {b : BundleJson}
    (h : deserialize (.obj members) = some b) :
    ((Json.obj members).index "kind").as_str = some b.kind
      ∧ ((Json.obj members).index "level").as_u64 = some b.level.toNat := by
  obtain ⟨f, hf, hb⟩ := Option.bind_eq_some_iff.mp h
  obtain ⟨hkind, hlevel⟩ := foldlM_visit hf
  obtain ⟨hk, hl⟩ := finish_eq_some hb
  rw [hk] at hkind
  rw [hl] at hlevel
  obtain ⟨v, hv, hread⟩ := Option.bind_eq_some_iff.mp hkind.symm
  obtain ⟨u, hu, hread'⟩ := Option.bind_eq_some_iff.mp hlevel.symm
  constructor
  · rw [Json.index, hv, Option.getD_some]
    exact as_str_of_readString hread
  · rw [Json.index, hu, Option.getD_some]
    exact as_u64_of_readU8 hread'

end BundleJson

/-! ## What is printed -/

/-- The lines `inspect` prints. -/
def inspectReport (key_path : PathBuf) (algo variant : String) (level : ℕ) : List String :=
  ["Key bundle: " ++ key_path.display, "  Algorithm:      " ++ algo,
    "  Variant:        " ++ variant, "  Security level: " ++ toString level,
    "  Encryption:     AES-256-GCM", "  KDF:            Argon2id (64MB, 3 iterations)",
    "  Format:         Encrypted JSON bundle"]

/-- A terminal on which these lines were printed, one call for each. -/
def World.sayLines (w : World) (lines : List String) : World :=
  { w with
    calls := w.calls + lines.length
    console := w.console ++ lines.map fun l => (.stdout, l ++ "\n") }

/-- One print for each line. -/
def linesActs (lines : List String) : List Act := lines.map fun l => .print .stdout (l ++ "\n")

theorem World.enactAll_linesActs (w : World) (lines : List String) :
    w.enactAll (linesActs lines) = w.sayLines lines := by
  induction lines generalizing w with
  | nil => simp [linesActs, sayLines]
  | cons l lines ih =>
      have hgo : w.enactAll (linesActs (l :: lines))
          = (w.say .stdout (l ++ "\n")).enactAll (linesActs lines) := rfl
      rw [hgo, ih]
      simp only [sayLines, say, tick, List.length_cons, List.map_cons, List.append_assoc,
        List.singleton_append, World.mk.injEq, true_and, and_true]
      omega

/-- The names are those of a bundle: of its kind and level where these are known,
and `"Unknown"` where they are not, and nowhere else. -/
structure Describes (algo variant : String) (b : EncryptedKeyBundle) : Prop where
  algo_kem : b.kind = "kem" → algo = "ML-KEM (Kyber)"
  algo_dsa : b.kind = "dsa" → algo = "ML-DSA (Dilithium)"
  algo_unknown : algo = "Unknown" ↔ b.kind ≠ "kem" ∧ b.kind ≠ "dsa"
  variant_kem : ∀ level, b.kind = "kem" → b.level = level_to_u8 level →
    (kem_variant level).toList <+: variant.toList
  variant_dsa : ∀ level, b.kind = "dsa" → b.level = level_to_u8 level →
    (dsa_variant level).toList <+: variant.toList
  variant_unknown : variant = "Unknown"
    ↔ ¬ ((b.kind = "kem" ∨ b.kind = "dsa") ∧ ∃ level, b.level = level_to_u8 level)

theorem inspectVariant_kem (level : SecurityLevel) :
    (kem_variant level).toList <+: (inspectVariant "kem" (level_to_u8 level).toNat).toList
      ∧ inspectVariant "kem" (level_to_u8 level).toNat ≠ "Unknown" := by
  cases level <;> decide

theorem inspectVariant_dsa (level : SecurityLevel) :
    (dsa_variant level).toList <+: (inspectVariant "dsa" (level_to_u8 level).toNat).toList
      ∧ inspectVariant "dsa" (level_to_u8 level).toNat ≠ "Unknown" := by
  cases level <;> decide

theorem inspectVariant_of_kind {kind : String} (hkem : kind ≠ "kem") (hdsa : kind ≠ "dsa")
    (level : ℕ) : inspectVariant kind level = "Unknown" := by
  simp [inspectVariant, hkem, hdsa]

theorem inspectVariant_of_level (kind : String) {n : UInt8} (hn : ∀ level, n ≠ level_to_u8 level) :
    inspectVariant kind n.toNat = "Unknown" := by
  have h1 : n.toNat ≠ 1 := fun h => hn .Level1 (UInt8.toNat_inj.mp h)
  have h3 : n.toNat ≠ 3 := fun h => hn .Level3 (UInt8.toNat_inj.mp h)
  have h5 : n.toNat ≠ 5 := fun h => hn .Level5 (UInt8.toNat_inj.mp h)
  simp [inspectVariant, h1, h3, h5]

/-- The names `inspect` chooses for the kind and the level of a bundle are its. -/
theorem describes_inspect (b : EncryptedKeyBundle) :
    Describes (inspectAlgo b.kind) (inspectVariant b.kind b.level.toNat) b where
  algo_kem h := by rw [h]; decide
  algo_dsa h := by rw [h]; decide
  algo_unknown := by
    by_cases hkem : b.kind = "kem"
    · rw [hkem]; decide
    by_cases hdsa : b.kind = "dsa"
    · rw [hdsa]; decide
    · simp [inspectAlgo, hkem, hdsa]
  variant_kem level hkind hlevel := by
    rw [hkind, hlevel]
    exact (inspectVariant_kem level).1
  variant_dsa level hkind hlevel := by
    rw [hkind, hlevel]
    exact (inspectVariant_dsa level).1
  variant_unknown := by
    by_cases hlevel : ∃ level, b.level = level_to_u8 level
    · obtain ⟨level, hlevel⟩ := hlevel
      by_cases hkem : b.kind = "kem"
      · rw [hkem, hlevel]
        exact iff_of_false (inspectVariant_kem level).2 (by simp)
      by_cases hdsa : b.kind = "dsa"
      · rw [hdsa, hlevel]
        exact iff_of_false (inspectVariant_dsa level).2 (by simp)
      · exact iff_of_true (inspectVariant_of_kind hkem hdsa _) (by simp [hkem, hdsa])
    · refine iff_of_true (inspectVariant_of_level _ ?_) fun h => hlevel h.2
      intro level h
      exact hlevel ⟨level, h⟩

/-- A text that `serde_json` holds as a value is the same document to a derived
`Deserialize`. -/
def Platform.SerdeValueAgrees (P : Platform) : Prop := ∀ s v,
  P.serdeJson.valueFromStr s = some v → P.serdeJson.fromStr s = some v

section Inspect

variable {P : Platform} {env : Env} {w : World} {key_path : PathBuf} {s : String}

/-- `inspect` prints these lines: all of them and ends well, or, if there is one that
cannot be printed, those in front of it and panics. -/
structure Reports (P : Platform) (env : Env) (w : World) (key_path : PathBuf)
    (lines : List String) : Prop where
  served : env.Serves (w.calls + 1) lines.length →
    cmd_inspect P key_path env w = (ok (), w.tick.sayLines lines)
  cut : ∀ k < lines.length, env.Serves (w.calls + 1) k → env.io (w.calls + 1 + k) = false →
    cmd_inspect P key_path env w = (panic, (w.tick.sayLines (lines.take k)).tick)

/-- `inspect` on a text that is read as a value. -/
theorem cmd_inspect_eq (hio : env.io w.calls = true)
    (hfile : w.files.content key_path = some (utf8 s)) {j : Json}
    (hj : P.serdeJson.valueFromStr s = some j) {kind : String} {level : ℕ}
    (hkind : ((j.index "kind").as_str).getD "unknown" = kind)
    (hlevel : ((j.index "level").as_u64).getD 0 = level) :
    Reports P env w key_path
      (inspectReport key_path (inspectAlgo kind) (inspectVariant kind level) level) := by
  have hrun : cmd_inspect P key_path env w = performAll (linesActs
      (inspectReport key_path (inspectAlgo kind) (inspectVariant kind level) level)) env w.tick := by
    -- The file is read and parsed, and the two fields are looked up: the report is left.
    rw [← wp_eq, cmd_inspect, wp_bind, fs.wp_read_to_string_eq hio hfile, andThen_ok, wp_bind,
      wp_lift, hj, okOr_some, andThen_ok, wp_eq]
    simp only [hkind, hlevel, inspectReport, linesActs, List.map_cons, List.map_nil, performAll,
      Act.perform, bind_pure_unit]
    rfl
  generalize inspectReport key_path (inspectAlgo kind) (inspectVariant kind level) level = lines
    at hrun
  have hlen : ∀ ls, (linesActs ls).length = ls.length := fun ls => List.length_map _
  constructor
  · intro hserves
    rw [← hlen] at hserves
    rw [hrun, performAll_of_serves (w := w.tick) hserves, World.enactAll_linesActs]
  · intro k hk hserves hfails
    have hlines : lines = lines.take k ++ lines[k] :: lines.drop (k + 1) := by
      rw [List.cons_getElem_drop_succ, List.take_append_drop]
    have hsplit : linesActs lines = linesActs (lines.take k)
        ++ .print .stdout (lines[k] ++ "\n") :: linesActs (lines.drop (k + 1)) :=
      (congrArg linesActs hlines).trans List.map_append
    have hk' : (linesActs (lines.take k)).length = k := by
      rw [hlen, List.length_take]
      omega
    rw [hrun, hsplit, performAll_of_fails (w := w.tick) (by rw [hk']; exact hserves)
      (by rw [hk']; exact hfails), World.enactAll_linesActs]
    rfl

/-- No index of an array is a field, so on one both defaults are used. -/
theorem cmd_inspect_eq_arr (hio : env.io w.calls = true)
    (hfile : w.files.content key_path = some (utf8 s)) {xs : List Json}
    (hj : P.serdeJson.valueFromStr s = some (.arr xs)) :
    Reports P env w key_path (inspectReport key_path "Unknown" "Unknown" 0) := by
  have hkind : (((Json.arr xs).index "kind").as_str).getD "unknown" = "unknown" := rfl
  have hlevel : (((Json.arr xs).index "level").as_u64).getD 0 = 0 := rfl
  have halgo : inspectAlgo "unknown" = "Unknown" := by decide
  have hvariant : inspectVariant "unknown" 0 = "Unknown" :=
    inspectVariant_of_kind (by decide) (by decide) 0
  have h := cmd_inspect_eq hio hfile hj hkind hlevel
  rwa [halgo, hvariant] at h

/-- `inspect` on a text that is not. -/
theorem cmd_inspect_eq_err (hio : env.io w.calls = true)
    (hfile : w.files.content key_path = some (utf8 s)) (hj : P.serdeJson.valueFromStr s = none) :
    cmd_inspect P key_path env w = (err (.json (P.serdeJson.valueErrorText s)), w.tick) := by
  rw [← wp_eq, cmd_inspect, wp_bind, fs.wp_read_to_string_eq hio hfile, andThen_ok, wp_bind,
    wp_lift, hj, okOr_none, andThen_err]

theorem from_json_eq_ok {b : EncryptedKeyBundle} (h : EncryptedKeyBundle.from_json P s = ok b) :
    (P.serdeJson.fromStr s).bind BundleJson.deserialize = some b.inner := by
  unfold EncryptedKeyBundle.from_json at h
  split at h
  next inner heq =>
    rw [heq, ← Outcome.ok.inj h]
  next => exact absurd h (by simp)

/-- **Two readers of one file**: of a text that is a bundle to `from_json`, `inspect`
reports the kind and the level if it is an object, nothing if it is an array, and
an error if `serde_json` cannot hold it as a value; and it is one of the three. -/
theorem inspect_of_from_json (hV : P.SerdeValueAgrees) {b : EncryptedKeyBundle}
    (hb : EncryptedKeyBundle.from_json P s = ok b) (hio : env.io w.calls = true)
    (hfile : w.files.content key_path = some (utf8 s)) :
    (∃ members algo variant, P.serdeJson.valueFromStr s = some (.obj members)
        ∧ Describes algo variant b
        ∧ Reports P env w key_path (inspectReport key_path algo variant b.level.toNat))
      ∨ (∃ xs, P.serdeJson.valueFromStr s = some (.arr xs)
        ∧ Reports P env w key_path (inspectReport key_path "Unknown" "Unknown" 0))
      ∨ (P.serdeJson.valueFromStr s = none
        ∧ cmd_inspect P key_path env w
          = (err (.json (P.serdeJson.valueErrorText s)), w.tick)) := by
  cases hval : P.serdeJson.valueFromStr s with
  | none => exact .inr (.inr ⟨rfl, cmd_inspect_eq_err hio hfile hval⟩)
  | some j =>
      have hread := from_json_eq_ok hb
      rw [hV s j hval, Option.bind_some] at hread
      cases j with
      | obj members =>
          obtain ⟨hkind, hlevel⟩ := BundleJson.index_of_deserialize hread
          refine .inl ⟨members, _, _, rfl, describes_inspect b, ?_⟩
          apply cmd_inspect_eq hio hfile hval
          · rw [hkind, Option.getD_some]
            rfl
          · rw [hlevel, Option.getD_some]
            rfl
      | arr xs => exact .inr (.inl ⟨xs, rfl, cmd_inspect_eq_arr hio hfile hval⟩)
      | null | bool | int | float | str => exact absurd hread (by simp [BundleJson.deserialize])

end Inspect

/-- A terminal before one file that holds a text. -/
def oneFile (s : String) : World := World.start (Files.empty.write (samplePath "key") (utf8 s))

theorem content_oneFile (s : String) :
    (oneFile s).files.content (samplePath "key") = some (utf8 s) := Files.content_write_self _ _ _

theorem io_oneFile (s : String) : (sampleEnv 0 fun _ => true).io (oneFile s).calls = true := rfl

/-- A bundle of no known kind, as `to_json` writes it. -/
theorem inspect_of_from_json_sample :
    ∃ algo variant b, EncryptedKeyBundle.kind b = "seed" ∧ EncryptedKeyBundle.level b = 5
      ∧ Describes algo variant b
      ∧ cmd_inspect samplePlatform (samplePath "key") (sampleEnv 0 fun _ => true)
          (oneFile (b.to_json samplePlatform))
        = (ok (), (oneFile (b.to_json samplePlatform)).tick.sayLines
            (inspectReport (samplePath "key") algo variant b.level.toNat)) := by
  obtain ⟨b, hkind, hlevel⟩ : ∃ b, EncryptedKeyBundle.kind b = "seed"
      ∧ EncryptedKeyBundle.level b = 5 :=
    ⟨{ inner := { version := 1, kind := "seed", level := 5, salt := "", nonce := "",
                  ciphertext := "" } }, rfl, rfl⟩
  have hval : samplePlatform.serdeJson.valueFromStr (b.to_json samplePlatform)
      = some b.inner.serialize := Sample.serdeRoundTrip b.inner
  have hfrom := EncryptedKeyBundle.from_json_to_json Sample.serdeRoundTrip b
  have hagrees : samplePlatform.SerdeValueAgrees := fun _ _ h => h
  generalize htext : b.to_json samplePlatform = text at hval hfrom
  have h := @inspect_of_from_json samplePlatform (sampleEnv 0 fun _ => true) (oneFile text)
    (samplePath "key") text hagrees b hfrom (io_oneFile text) (content_oneFile text)
  rw [hval] at h
  rcases h with ⟨members, algo, variant, -, hnames, hrun⟩ | ⟨xs, hxs, -⟩ | ⟨hnone, -⟩
  · refine ⟨algo, variant, b, hkind, hlevel, hnames, ?_⟩
    rw [htext]
    exact hrun.served fun _ _ _ => rfl
  · exact absurd hxs (by simp [BundleJson.serialize])
  · exact absurd hnone (by simp)

/-! ## Where they differ -/

/-- The six values of a bundle without their names. -/
def arrayText : String := "[1,\"kem\",3,\"\",\"\",\"\"]"

def arrayBundle : EncryptedKeyBundle where
  inner := { version := 1, kind := "kem", level := 3, salt := "", nonce := "", ciphertext := "" }

/-- A bundle with one more field, which holds a number no `f64` holds. -/
def hugeText : String :=
  "\x7b\"version\":1,\"kind\":\"kem\",\"level\":3,\"salt\":\"\",\"nonce\":\"\"," ++
    "\"ciphertext\":\"\",\"x\":1e999\x7d"

/-- What a derived `Deserialize` sees of the two texts: a field that is skipped may
hold any number. -/
def readTyped (s : String) : Option Json :=
  if s = arrayText then some (.arr [.int 1, .str "kem", .int 3, .str "", .str "", .str ""])
  else if s = hugeText then
    some (.obj [("version", .int 1), ("kind", .str "kem"), ("level", .int 3), ("salt", .str ""),
      ("nonce", .str ""), ("ciphertext", .str ""), ("x", .float "1e999")])
  else Json.read s

/-- What a value holds of them. -/
def readValue (s : String) : Option Json := if s = hugeText then none else readTyped s

/-- The sample platform with these two readers. -/
def inspectPlatform : Platform :=
  { samplePlatform with
    serdeJson := { Sample.serdeJson with fromStr := readTyped, valueFromStr := readValue } }

theorem inspectPlatform_agrees : inspectPlatform.SerdeValueAgrees := by
  intro s v h
  change readValue s = some v at h
  change readTyped s = some v
  rw [readValue] at h
  split_ifs at h with hs
  exact h

theorem arrayText_ne_hugeText : arrayText ≠ hugeText := by
  decide

theorem readTyped_arrayText : readTyped arrayText
    = some (.arr [.int 1, .str "kem", .int 3, .str "", .str "", .str ""]) := if_pos rfl

theorem readValue_arrayText : readValue arrayText
    = some (.arr [.int 1, .str "kem", .int 3, .str "", .str "", .str ""]) := by
  rw [readValue, if_neg arrayText_ne_hugeText, readTyped_arrayText]

theorem readTyped_hugeText : readTyped hugeText
    = some (.obj [("version", .int 1), ("kind", .str "kem"), ("level", .int 3), ("salt", .str ""),
        ("nonce", .str ""), ("ciphertext", .str ""), ("x", .float "1e999")]) := by
  rw [readTyped, if_neg arrayText_ne_hugeText.symm, if_pos rfl]

theorem readValue_hugeText : readValue hugeText = none := if_pos rfl

/-- A text is a bundle when what is read of it is. -/
theorem from_json_inspectPlatform {s : String} {j : Json} {b : EncryptedKeyBundle}
    (hs : readTyped s = some j) (hj : BundleJson.deserialize j = some b.inner) :
    EncryptedKeyBundle.from_json inspectPlatform s = ok b := by
  have hread : (inspectPlatform.serdeJson.fromStr s).bind BundleJson.deserialize
      = some b.inner := by
    change (readTyped s).bind _ = _
    rw [hs, Option.bind_some, hj]
  rw [EncryptedKeyBundle.from_json, hread]

/-- Of the array `inspect` reports nothing that is in it, and of the other text it
reports nothing; to `from_json` both are a KEM bundle of the third level. -/
theorem inspect_disagrees :
    inspectPlatform.SerdeValueAgrees
      ∧ arrayBundle.kind = "kem" ∧ arrayBundle.level = 3
      ∧ EncryptedKeyBundle.from_json inspectPlatform arrayText = ok arrayBundle
      ∧ EncryptedKeyBundle.from_json inspectPlatform hugeText = ok arrayBundle
      ∧ cmd_inspect inspectPlatform (samplePath "key") (sampleEnv 0 fun _ => true)
          (oneFile arrayText)
        = (ok (), (oneFile arrayText).tick.sayLines
            (inspectReport (samplePath "key") "Unknown" "Unknown" 0))
      ∧ (cmd_inspect inspectPlatform (samplePath "key") (sampleEnv 0 fun _ => true)
          (oneFile hugeText)).1.IsErr := by
  have harray : inspectPlatform.serdeJson.valueFromStr arrayText
      = some (.arr [.int 1, .str "kem", .int 3, .str "", .str "", .str ""]) := readValue_arrayText
  have hhuge : inspectPlatform.serdeJson.valueFromStr hugeText = none := readValue_hugeText
  refine ⟨inspectPlatform_agrees, rfl, rfl, ?_, ?_, ?_, ?_⟩
  · exact from_json_inspectPlatform readTyped_arrayText (by decide)
  · exact from_json_inspectPlatform readTyped_hugeText (by decide)
  · exact (cmd_inspect_eq_arr (io_oneFile arrayText) (content_oneFile arrayText) harray).served
      fun _ _ _ => rfl
  · rw [cmd_inspect_eq_err (io_oneFile hugeText) (content_oneFile hugeText) hhuge]
    exact isErr_err _

end PqcVault
