/-
`Json.lean` -- JSON documents, and the text of the flat ones.

The first part is what a program sees of a document: its members in the order
of the text, with repeated keys kept, and the accessors of `serde_json::Value`.

The second part is a codec for the documents a program with one flat record
writes: an object whose members are strings and small numbers, printed without
blanks and with `serde_json`'s escapes. `read_print` is its round trip.
-/
import Mathlib.Tactic.IntervalCases
import PqcVault.Lib.Hex

set_option autoImplicit false

namespace Rust

/-- A JSON document. -/
inductive Json where
  | null
  | bool (b : Bool)
  | int (i : ℤ)
  | float (text : String)
  | str (s : String)
  | arr (xs : List Json)
  | obj (members : List (String × Json))

namespace Json

/-! ## Access -/

/-- `value[key]`: the last member of that name, and `null` where there is none. -/
def index (j : Json) (key : String) : Json :=
  match j with
  | .obj members => (members.reverse.lookup key).getD .null
  | _ => .null

/-- `Value::as_str`. -/
def as_str : Json → Option String
  | .str s => some s
  | _ => none

/-- `Value::as_u64`. -/
def as_u64 : Json → Option ℕ
  | .int i => if 0 ≤ i ∧ i < 2 ^ 64 then some i.toNat else none
  | _ => none

/-! ## Printing -/

/-- A character inside a string. -/
def escapeChar (c : Char) : List Char :=
  if c = '"' then ['\\', '"']
  else if c = '\\' then ['\\', '\\']
  else if c.toNat = 0x08 then ['\\', 'b']
  else if c.toNat = 0x09 then ['\\', 't']
  else if c.toNat = 0x0A then ['\\', 'n']
  else if c.toNat = 0x0C then ['\\', 'f']
  else if c.toNat = 0x0D then ['\\', 'r']
  else if c.toNat < 0x20 then ['\\', 'u', '0', '0', Hex.digit (c.toNat / 16), Hex.digit (c.toNat % 16)]
  else [c]

/-- The inside of a string and its closing quote. -/
def printChars (cs : List Char) : List Char := cs.flatMap escapeChar ++ ['"']

def printString (s : String) : List Char := '"' :: printChars s.toList

/-- A member's value; a document that is not flat has none. -/
def printValue : Json → List Char
  | .str s => printString s
  | .int i => Nat.toDigits 10 i.toNat
  | _ => "null".toList

/-- The members of an object and its closing brace. -/
def printMembers : List (String × Json) → List Char
  | [] => ['}']
  | [m] => printString m.1 ++ ':' :: (printValue m.2 ++ ['}'])
  | m :: n :: ms => printString m.1 ++ ':' :: (printValue m.2 ++ ',' :: printMembers (n :: ms))

def print : Json → String
  | .obj members => String.ofList ('{' :: printMembers members)
  | j => String.ofList (printValue j)

/-! ## Reading -/

/-- The character a short escape stands for. -/
def unescape (c : Char) : Option Char :=
  if c = '"' ∨ c = '\\' ∨ c = '/' then some c
  else if c = 'b' then some (Char.ofNat 0x08)
  else if c = 't' then some (Char.ofNat 0x09)
  else if c = 'n' then some (Char.ofNat 0x0A)
  else if c = 'f' then some (Char.ofNat 0x0C)
  else if c = 'r' then some (Char.ofNat 0x0D)
  else none

/-- The number four hex digits stand for. -/
def hex4 (a b c d : Char) : Option ℕ := do
  let a ← Hex.nibble a
  let b ← Hex.nibble b
  let c ← Hex.nibble c
  let d ← Hex.nibble d
  pure (((a * 16 + b) * 16 + c) * 16 + d)

/-- A string up to its closing quote, and what follows. -/
def readChars : List Char → Option (List Char × List Char)
  | '\\' :: 'u' :: a :: b :: x :: d :: s =>
      (hex4 a b x d).bind fun n => (readChars s).map fun r => (Char.ofNat n :: r.1, r.2)
  | '\\' :: e :: s =>
      (unescape e).bind fun c => (readChars s).map fun r => (c :: r.1, r.2)
  | c :: s =>
      if c = '"' then some ([], s)
      else if c = '\\' ∨ c.toNat < 0x20 then none
      else (readChars s).map fun r => (c :: r.1, r.2)
  | [] => none
  termination_by structural s => s

/-- The number a string of digits stands for. -/
def digitsValue (ds : List Char) : ℕ := ds.foldl (fun n c => n * 10 + (c.toNat - 48)) 0

/-- A value, and what follows. -/
def readValue : List Char → Option (Json × List Char)
  | [] => none
  | c :: s =>
      if c = '"' then (readChars s).map fun r => (.str (String.ofList r.1), r.2)
      else if c.isDigit then
        some (.int (digitsValue ((c :: s).takeWhile Char.isDigit)),
          (c :: s).dropWhile Char.isDigit)
      else none

/-- The members of an object up to its closing brace, which ends the text. -/
def readMembers : ℕ → List Char → Option (List (String × Json))
  | 0, _ => none
  | n + 1, s => do
      let (k, s) ← readValue s
      let v ← match s with
        | ':' :: s => readValue s
        | _ => none
      match k, v.2 with
      | .str k, ['}'] => some [(k, v.1)]
      | .str k, ',' :: s => (readMembers n s).map fun ms => (k, v.1) :: ms
      | _, _ => none

def read (s : String) : Option Json :=
  match s.toList with
  | '{' :: s => (readMembers s.length s).map .obj
  | _ => none

/-! ## The round trip -/

/-- One character is read back, whatever follows. -/
theorem readChars_escapeChar (c : Char) (s : List Char) :
    readChars (escapeChar c ++ s) = (readChars s).map fun r => (c :: r.1, r.2) := by
  by_cases hctl : c.toNat < 0x20
  · -- The control characters, one by one.
    obtain ⟨n, hn⟩ : ∃ n, n = c.toNat := ⟨_, rfl⟩
    have hc : c = Char.ofNat n := by rw [hn, Char.ofNat_toNat]
    rw [← hn] at hctl
    subst hc
    clear hn
    interval_cases n <;> rfl
  by_cases hquote : c = '"'
  · subst hquote
    rfl
  by_cases hback : c = '\\'
  · subst hback
    rfl
  -- Every other character stands for itself.
  have hesc : escapeChar c = [c] := by
    unfold escapeChar
    rw [if_neg hquote, if_neg hback, if_neg (by omega), if_neg (by omega), if_neg (by omega),
      if_neg (by omega), if_neg (by omega), if_neg hctl]
  rw [hesc, List.singleton_append, readChars, if_neg hquote, if_neg (by simp [hback]; omega)]
  · intro a b x d t h
    exact absurd h hback
  · intro e t h
    exact absurd h hback

/-- So is a string. -/
theorem readChars_printChars (cs s : List Char) :
    readChars (printChars cs ++ s) = some (cs, s) := by
  induction cs with
  | nil => rfl
  | cons c cs ih =>
      have hcons : printChars (c :: cs) ++ s = escapeChar c ++ (printChars cs ++ s) := by
        simp only [printChars, List.flatMap_cons, List.append_assoc]
      rw [hcons, readChars_escapeChar, ih]
      rfl

/-- The values of a flat record: strings, and numbers of one byte. -/
def IsFlat : Json → Prop
  | .str _ => True
  | .int i => 0 ≤ i ∧ i ≤ 255
  | _ => False

theorem digits_of_byte : ∀ n < 256, Nat.toDigits 10 n ≠ []
    ∧ (∀ c ∈ Nat.toDigits 10 n, c.isDigit = true ∧ c ≠ '"') ∧ digitsValue (Nat.toDigits 10 n) = n := by
  have hall : ∀ n < 256, Nat.toDigits 10 n ≠ []
      ∧ (Nat.toDigits 10 n).all (fun c => c.isDigit = true ∧ c ≠ '"') = true
      ∧ digitsValue (Nat.toDigits 10 n) = n := by
    decide +kernel
  intro n hn
  obtain ⟨hne, hdigits, hval⟩ := hall n hn
  exact ⟨hne, fun c hc => of_decide_eq_true (List.all_eq_true.mp hdigits c hc), hval⟩

/-- A value is read back when what follows is not a digit. -/
theorem readValue_printValue {j : Json} (hj : j.IsFlat) {c : Char} (hc : c.isDigit = false)
    (s : List Char) : readValue (printValue j ++ c :: s) = some (j, c :: s) := by
  cases j with
  | str t =>
      rw [printValue, printString, List.cons_append, readValue, if_pos rfl, readChars_printChars,
        Option.map_some, String.ofList_toList]
  | int i =>
      obtain ⟨hlo, hhi⟩ := hj
      obtain ⟨n, rfl⟩ := Int.eq_ofNat_of_zero_le hlo
      obtain ⟨hne, hdig, hval⟩ := digits_of_byte n (by omega)
      rw [printValue, Int.toNat_natCast]
      obtain ⟨d, ds, hds⟩ := List.exists_cons_of_ne_nil hne
      -- The digits are taken up to the character that follows.
      have htake : (Nat.toDigits 10 n ++ c :: s).takeWhile Char.isDigit = Nat.toDigits 10 n := by
        rw [List.takeWhile_append_of_pos fun x hx => (hdig x hx).1,
          List.takeWhile_cons_of_neg (by simp [hc]), List.append_nil]
      have hdrop : (Nat.toDigits 10 n ++ c :: s).dropWhile Char.isDigit = c :: s := by
        rw [List.dropWhile_append_of_pos fun x hx => (hdig x hx).1,
          List.dropWhile_cons_of_neg (by simp [hc])]
      obtain ⟨hd, hquote⟩ := hdig d (by simp [hds])
      rw [hds, List.cons_append] at htake hdrop
      rw [hds, List.cons_append, readValue, if_neg hquote, if_pos hd, htake, hdrop, ← hds, hval]
  | null => exact hj.elim
  | bool => exact hj.elim
  | float => exact hj.elim
  | arr => exact hj.elim
  | obj => exact hj.elim

/-- A key is read back as the string it is. -/
theorem readValue_printString (k : String) (s : List Char) :
    readValue (printString k ++ ':' :: s) = some (.str k, ':' :: s) :=
  readValue_printValue (j := .str k) trivial (by decide) s

theorem readMembers_printMembers {ms : List (String × Json)} (hms : ∀ m ∈ ms, m.2.IsFlat)
    (hne : ms ≠ []) {n : ℕ} (hn : ms.length ≤ n) :
    readMembers n (printMembers ms) = some ms := by
  -- The fuel is at least the number of members, so it outlasts them.
  induction n generalizing ms with
  | zero => exact absurd (List.length_eq_zero_iff.mp (Nat.le_zero.mp hn)) hne
  | succ n ih =>
      obtain ⟨⟨k, v⟩, rest, rfl⟩ := List.exists_cons_of_ne_nil hne
      have hv : v.IsFlat := hms (k, v) (by simp)
      cases rest with
      | nil =>
          have hval := readValue_printValue hv (c := '}') (by decide) []
          simp only [readMembers, printMembers, readValue_printString, hval, Option.bind_eq_bind,
            Option.bind_some]
      | cons m rest =>
          have hval := readValue_printValue hv (c := ',') (by decide) (printMembers (m :: rest))
          have hrest := @ih (m :: rest) (fun x hx => hms x (List.mem_cons_of_mem _ hx))
            (by simp) (by simpa using hn)
          simp only [readMembers, printMembers, readValue_printString, hval, Option.bind_eq_bind,
            Option.bind_some, hrest, Option.map_some]

/-- The printed members are no shorter than the list of them. -/
theorem length_le_printMembers (ms : List (String × Json)) :
    ms.length ≤ (printMembers ms).length := by
  induction ms with
  | nil => simp
  | cons m ms ih =>
      cases ms with
      | nil => simp [printMembers, printString]
      | cons n ms =>
          simp only [printMembers, List.length_append, List.length_cons] at ih ⊢
          omega

/-- A flat record is read back as it was printed. -/
theorem read_print {ms : List (String × Json)} (hms : ∀ m ∈ ms, m.2.IsFlat) (hne : ms ≠ []) :
    read (print (.obj ms)) = some (.obj ms) := by
  simp only [read, print, String.toList_ofList]
  rw [readMembers_printMembers hms hne (length_le_printMembers ms), Option.map_some]

/-! ## Dashes

A dash in the text of a flat record comes from one of its strings. -/

theorem dash_of_mem_escapeChar {c : Char} (h : '-' ∈ escapeChar c) : c = '-' := by
  have hdigit : ∀ n < 16, Hex.digit n ≠ '-' := by decide
  by_cases hctl : c.toNat < 0x20
  · -- No escape sequence has a dash in it.
    exfalso
    unfold escapeChar at h
    split_ifs at h
    all_goals simp only [List.mem_cons, List.not_mem_nil, or_false] at h
    all_goals
      rcases h with h | h | h | h | h | h <;>
        first
          | exact absurd h (by decide)
          | exact absurd h.symm (hdigit _ (by omega))
  · unfold escapeChar at h
    rw [if_neg (by omega : ¬ c.toNat = 0x08), if_neg (by omega : ¬ c.toNat = 0x09),
      if_neg (by omega : ¬ c.toNat = 0x0A), if_neg (by omega : ¬ c.toNat = 0x0C),
      if_neg (by omega : ¬ c.toNat = 0x0D), if_neg hctl] at h
    split_ifs at h
    · exact absurd h (by decide)
    · exact absurd h (by decide)
    · exact (List.mem_singleton.mp h).symm

theorem dash_of_mem_printString {s : String} (h : '-' ∈ printString s) : '-' ∈ s.toList := by
  rw [printString, printChars, List.mem_cons, List.mem_append, List.mem_flatMap] at h
  rcases h with h | ⟨c, hc, h⟩ | h
  · exact absurd h (by decide)
  · rw [← dash_of_mem_escapeChar h]
    exact hc
  · exact absurd h (by decide)

/-- A key or a string value of the record holds a dash. -/
def HasDash (m : String × Json) : Prop := '-' ∈ m.1.toList ∨ ∃ s, m.2 = .str s ∧ '-' ∈ s.toList

theorem dash_of_mem_printValue {j : Json} (hj : j.IsFlat) (h : '-' ∈ printValue j) :
    ∃ s, j = .str s ∧ '-' ∈ s.toList := by
  cases j with
  | str s => exact ⟨s, rfl, dash_of_mem_printString h⟩
  | int i =>
      obtain ⟨hlo, hhi⟩ := hj
      obtain ⟨-, hdig, -⟩ := digits_of_byte i.toNat (by omega)
      exact absurd (hdig _ h).1 (by decide)
  | null => exact hj.elim
  | bool => exact hj.elim
  | float => exact hj.elim
  | arr => exact hj.elim
  | obj => exact hj.elim

theorem dash_of_mem_printMembers {ms : List (String × Json)} (hms : ∀ m ∈ ms, m.2.IsFlat)
    (h : '-' ∈ printMembers ms) : ∃ m ∈ ms, HasDash m := by
  induction ms with
  | nil => exact absurd h (by decide)
  | cons m ms ih =>
      have hflat := hms m (by simp)
      -- The printed member, and what the comma or the brace is followed by.
      have hcases : '-' ∈ printString m.1 ∨ '-' ∈ printValue m.2 ∨ '-' ∈ printMembers ms := by
        cases ms with
        | nil => simpa [printMembers] using h
        | cons n ms => simpa [printMembers] using h
      rcases hcases with h | h | h
      · exact ⟨m, by simp, .inl (dash_of_mem_printString h)⟩
      · exact ⟨m, by simp, .inr (dash_of_mem_printValue hflat h)⟩
      · obtain ⟨x, hx, hdash⟩ := ih (fun x hx => hms x (List.mem_cons_of_mem _ hx)) h
        exact ⟨x, List.mem_cons_of_mem _ hx, hdash⟩

theorem dash_of_mem_print {ms : List (String × Json)} (hms : ∀ m ∈ ms, m.2.IsFlat)
    (h : '-' ∈ (print (.obj ms)).toList) : ∃ m ∈ ms, HasDash m := by
  rw [print, String.toList_ofList, List.mem_cons] at h
  exact dash_of_mem_printMembers hms (h.resolve_left (by decide))

/-- A record starts with its brace. -/
theorem read_of_head {s : String} {c : Char} {t : List Char} (hs : s.toList = c :: t)
    (hc : c ≠ '{') : read s = none := by
  unfold read
  rw [hs]
  split
  case h_1 heq => exact absurd (List.cons.inj heq).1 hc
  case h_2 => rfl

/-- And it is the only document there is. -/
theorem read_eq_some {s : String} {j : Json} (h : read s = some j) :
    '{' ∈ s.toList ∧ ∃ members, j = .obj members := by
  unfold read at h
  split at h
  case h_1 t heq =>
      obtain ⟨members, -, rfl⟩ := Option.map_eq_some_iff.mp h
      rw [heq]
      exact ⟨List.mem_cons_self, members, rfl⟩
  case h_2 => exact absurd h (by simp)

end Json

end Rust
