/-
`Text.lean` -- the part of Rust's `str` that programs lean on when they take a
text apart: `find`, slicing by byte offsets, `trim` and `lines`.

A `str` is its list of characters. Offsets are **byte** offsets, as in Rust, so
`find` returns the UTF-8 size of what stands before the first match and a slice
panics when an offset falls outside the text or inside a character. The search
itself is over lists of anything with decidable equality: a character never
matters to it.

The lemma everything else is assembled from is `before_append_sep`: a pattern
without the separator occurs in `a ++ sep :: b` in `a` or in `b` and nowhere
across. A text made of lines can therefore be searched line by line.
-/
import Mathlib.Algebra.GroupWithZero.Nat
import Mathlib.Data.List.DropRight
import Mathlib.Data.List.Infix
import PqcVault.Lib.Outcome

set_option autoImplicit false

namespace Rust

namespace Str

/-! ## First occurrences -/

section Search

variable {α : Type*} [DecidableEq α]

/-- What stands before the first occurrence of `pat`, if it occurs. -/
def before (pat : List α) : List α → Option (List α)
  | [] => if pat <+: [] then some [] else none
  | c :: s => if pat <+: c :: s then some [] else (before pat s).map (c :: ·)

theorem before_head {pat s : List α} (h : pat <+: s) : before pat s = some [] := by
  cases s <;> exact if_pos h

theorem before_tail {pat s : List α} {c : α} (h : ¬ pat <+: c :: s) :
    before pat (c :: s) = (before pat s).map (c :: ·) := if_neg h

/-- What `before` returns is followed by the pattern. -/
theorem before_split {pat s p : List α} (h : before pat s = some p) :
    p ++ pat <+: s := by
  induction s generalizing p with
  | nil =>
      simp only [before] at h
      split_ifs at h with hp
      rw [← Option.some.inj h]
      exact hp
  | cons c s ih =>
      by_cases hp : pat <+: c :: s
      · rw [before_head hp] at h
        rw [← Option.some.inj h]
        exact hp
      · rw [before_tail hp, Option.map_eq_some_iff] at h
        obtain ⟨p', hp', rfl⟩ := h
        exact List.cons_prefix_cons.mpr ⟨rfl, ih hp'⟩

/-- `before` finds the first occurrence: no split of the text around the
pattern starts earlier. -/
theorem before_min {pat s p q : List α} (h : before pat s = some p) (hq : q ++ pat <+: s) :
    p <+: q := by
  induction s generalizing p q with
  | nil =>
      have hnil : q ++ pat = [] := List.prefix_nil.mp hq
      have hp : p ++ pat = [] := List.prefix_nil.mp (before_split h)
      simp only [List.append_eq_nil_iff] at hnil hp
      rw [hp.1]
      exact List.nil_prefix
  | cons c s ih =>
      by_cases hp : pat <+: c :: s
      · rw [before_head hp] at h
        rw [← Option.some.inj h]
        exact List.nil_prefix
      · rw [before_tail hp, Option.map_eq_some_iff] at h
        obtain ⟨p', hp', rfl⟩ := h
        cases q with
        | nil =>
            -- A match at the head would have been found there.
            exact absurd hq hp
        | cons d q =>
            obtain ⟨rfl, hq'⟩ := List.cons_prefix_cons.mp hq
            exact List.cons_prefix_cons.mpr ⟨rfl, ih hp' hq'⟩

theorem before_eq_none {pat s : List α} : before pat s = none ↔ ¬ pat <:+: s := by
  induction s with
  | nil =>
      simp only [before, List.infix_nil, List.prefix_nil]
      split_ifs with h <;> simp [h]
  | cons c s ih =>
      by_cases hp : pat <+: c :: s
      · simp [before_head hp, hp.isInfix]
      · rw [before_tail hp, Option.map_eq_none_iff, ih, List.infix_cons_iff]
        simp [hp]

/-- `p` stands before the first occurrence of `pat` in `s`. -/
def FirstAt (pat s p : List α) : Prop := p ++ pat <+: s ∧ ∀ q, q ++ pat <+: s → p <+: q

omit [DecidableEq α] in
theorem FirstAt.unique {pat s p q : List α} (hp : FirstAt pat s p) (hq : FirstAt pat s q) :
    p = q :=
  (hp.2 q hq.1).eq_of_length_le ((hq.2 p hp.1).length_le)

/-- `before` computes the first occurrence. -/
theorem before_eq_some {pat s p : List α} : before pat s = some p ↔ FirstAt pat s p := by
  constructor
  · intro h
    exact ⟨before_split h, fun q hq => before_min h hq⟩
  · intro h
    cases hb : before pat s with
    | none =>
        obtain ⟨t, ht⟩ := h.1
        exact absurd ⟨p, t, ht⟩ (before_eq_none.mp hb)
    | some q =>
        have hq : FirstAt pat s q := ⟨before_split hb, fun r hr => before_min hb hr⟩
        rw [h.unique hq]

theorem before_isSome {pat s : List α} : (before pat s).isSome ↔ pat <:+: s := by
  rw [← not_iff_not, Bool.not_eq_true, Option.isSome_eq_false_iff, Option.isNone_iff_eq_none,
    before_eq_none]

/-- `str::contains`. -/
def contains (s pat : List α) : Bool := (before pat s).isSome

@[simp] theorem contains_iff {s pat : List α} : contains s pat = true ↔ pat <:+: s := before_isSome

theorem contains_eq_false {s pat : List α} : contains s pat = false ↔ ¬ pat <:+: s := by
  rw [← contains_iff, Bool.not_eq_true]

/-! ### Searching across a separator

A pattern that does not hold the separator cannot straddle it. -/

omit [DecidableEq α] in
/-- A prefix of `a ++ sep :: b` without `sep` is a prefix of `a`. -/
theorem prefix_of_prefix_append_sep {pat a b : List α} {sep : α} (hsep : sep ∉ pat)
    (h : pat <+: a ++ sep :: b) : pat <+: a := by
  induction pat generalizing a with
  | nil => exact List.nil_prefix
  | cons x pat ih =>
      cases a with
      | nil =>
          -- The pattern would have to start with the separator.
          have hx : x = sep := (List.cons_prefix_cons.mp h).1
          exact absurd (by simp [hx]) hsep
      | cons y a =>
          obtain ⟨rfl, h'⟩ := List.cons_prefix_cons.mp h
          exact List.cons_prefix_cons.mpr ⟨rfl, ih (fun hm => hsep (List.mem_cons_of_mem _ hm)) h'⟩

/-- A pattern without the separator is found before the separator or after it. -/
theorem before_append_sep {pat : List α} {sep : α} (hsep : sep ∉ pat) (hne : pat ≠ [])
    (a b : List α) :
    before pat (a ++ sep :: b)
      = (before pat a).or ((before pat b).map (fun p => a ++ sep :: p)) := by
  induction a with
  | nil =>
      -- No match starts at the separator, so the search goes on behind it.
      have hno : ¬ pat <+: sep :: b := fun h => by
        have hnil := prefix_of_prefix_append_sep (a := []) hsep h
        exact hne (List.prefix_nil.mp hnil)
      have hnil : before pat ([] : List α) = none := by
        rw [before_eq_none, List.infix_nil]
        exact hne
      rw [List.nil_append, before_tail hno, hnil, Option.none_or]
      rfl
  | cons c a ih =>
      by_cases hp : pat <+: c :: a
      · rw [before_head hp, before_head (hp.trans (List.prefix_append _ _)),
          Option.some_or]
      · -- A match at the head of the whole text would end before the separator.
        have hp' : ¬ pat <+: c :: (a ++ sep :: b) := fun h =>
          hp (prefix_of_prefix_append_sep (a := c :: a) hsep h)
        rw [List.cons_append, before_tail hp', before_tail hp, ih]
        cases before pat a <;> simp [Option.map_map, Function.comp_def]

/-- The search for `pat` runs over the piece `t` without stopping, whatever
follows. -/
def Skips (pat t : List α) : Prop :=
  ∀ s, before pat (t ++ s) = (before pat s).map (t ++ ·)

theorem skips_nil (pat : List α) : Skips pat [] := fun s => by simp

theorem Skips.append {pat t u : List α} (ht : Skips pat t) (hu : Skips pat u) :
    Skips pat (t ++ u) := fun s => by
  rw [List.append_assoc, ht, hu, Option.map_map]
  congr 1
  funext p
  simp

/-- A terminated piece that does not hold the pattern is run over. -/
theorem skips_line {pat : List α} {sep : α} (hsep : sep ∉ pat) (hne : pat ≠ []) {l : List α}
    (hl : ¬ pat <:+: l) : Skips pat (l ++ [sep]) := fun s => by
  rw [List.append_assoc, List.singleton_append, before_append_sep hsep hne,
    before_eq_none.mpr hl, Option.none_or]
  simp

/-- So is an empty piece, or one that ends in the separator. -/
theorem skips_terminated {pat : List α} {sep : α} (hsep : sep ∉ pat) (hne : pat ≠ [])
    {t : List α} (ht : t = [] ∨ [sep] <:+ t) (hno : ¬ pat <:+: t) : Skips pat t := by
  rcases ht with rfl | ⟨l, rfl⟩
  · exact skips_nil pat
  · apply skips_line hsep hne
    intro hl
    exact hno (hl.trans (List.prefix_append l [sep]).isInfix)

/-- After a piece that is run over, the pattern is where the search stops. -/
theorem Skips.before {pat t : List α} (h : Skips pat t) (s : List α) :
    Str.before pat (t ++ (pat ++ s)) = some t := by
  rw [h, before_head (List.prefix_append _ _), Option.map_some, List.append_nil]

end Search

/-! ## Chunks -/

section Chunks

variable {α : Type*}

/-- `[T]::chunks(n)`, for a positive `n`. -/
def chunks (n : ℕ) (xs : List α) : List (List α) :=
  if _h : n = 0 ∨ xs = [] then [] else xs.take n :: chunks n (xs.drop n)
  termination_by xs.length
  decreasing_by
    have : xs.length ≠ 0 := fun h0 => _h (.inr (List.length_eq_zero_iff.mp h0))
    rw [List.length_drop]
    omega

/-- Chunks joined up again are what was cut. -/
theorem flatten_chunks {n : ℕ} (hn : n ≠ 0) (xs : List α) : (chunks n xs).flatten = xs := by
  induction xs using chunks.induct n with
  | case1 xs h =>
      rw [chunks, dif_pos h, List.flatten_nil]
      exact (h.resolve_left hn).symm
  | case2 xs h ih =>
      rw [chunks, dif_neg h, List.flatten_cons, ih, List.take_append_drop]

end Chunks

/-! ## Byte offsets

`len`, `find` and slicing count UTF-8 bytes. -/

/-- `str::len`: the size of the UTF-8 encoding. -/
def len (s : List Char) : ℕ := (s.map Char.utf8Size).sum

@[simp] theorem len_nil : len [] = 0 := rfl

@[simp] theorem len_cons (c : Char) (s : List Char) : len (c :: s) = c.utf8Size + len s := by
  simp [len]

@[simp] theorem len_append (s t : List Char) : len (s ++ t) = len s + len t := by
  simp [len]

theorem len_eq_zero {s : List Char} : len s = 0 ↔ s = [] := by
  cases s with
  | nil => simp
  | cons c s =>
      have hc := c.utf8Size_pos
      simp only [len_cons, reduceCtorEq, iff_false]
      omega

/-- `str::find`: the byte offset of the first occurrence. -/
def find (s pat : List Char) : Option ℕ := (before pat s).map len

/-- The text from byte offset `n` on, where `n` is a character boundary. -/
def dropBytes : List Char → ℕ → Option (List Char)
  | s, 0 => some s
  | [], _ + 1 => none
  | c :: s, n + 1 => if c.utf8Size ≤ n + 1 then dropBytes s (n + 1 - c.utf8Size) else none

/-- The text up to byte offset `n`, where `n` is a character boundary. -/
def takeBytes : List Char → ℕ → Option (List Char)
  | _, 0 => some []
  | [], _ + 1 => none
  | c :: s, n + 1 =>
      if c.utf8Size ≤ n + 1 then (takeBytes s (n + 1 - c.utf8Size)).map (c :: ·) else none

@[simp] theorem dropBytes_zero (s : List Char) : dropBytes s 0 = some s := by
  cases s <;> rfl

@[simp] theorem takeBytes_zero (s : List Char) : takeBytes s 0 = some [] := by
  cases s <;> rfl

/-- `&s[a..b]`: panics unless `a ≤ b` and both fall on character boundaries
inside the text. -/
def slice {ε : Type*} (s : List Char) (a b : ℕ) : Outcome ε (List Char) :=
  if a ≤ b then
    match (dropBytes s a).bind (fun t => takeBytes t (b - a)) with
    | some t => .ok t
    | none => .panic
  else .panic

theorem dropBytes_len (p s : List Char) : dropBytes (p ++ s) (len p) = some s := by
  induction p with
  | nil => simp
  | cons c p ih =>
      -- A character has a byte at least, so the offset is not zero yet.
      have hc := c.utf8Size_pos
      obtain ⟨n, hn⟩ : ∃ n, len (c :: p) = n + 1 := ⟨len (c :: p) - 1, by rw [len_cons]; omega⟩
      have hrest : n + 1 - c.utf8Size = len p := by rw [len_cons] at hn; omega
      rw [hn, List.cons_append, dropBytes, if_pos (by rw [len_cons] at hn; omega), hrest, ih]

theorem takeBytes_len (p s : List Char) : takeBytes (p ++ s) (len p) = some p := by
  induction p with
  | nil => simp
  | cons c p ih =>
      have hc := c.utf8Size_pos
      obtain ⟨n, hn⟩ : ∃ n, len (c :: p) = n + 1 := ⟨len (c :: p) - 1, by rw [len_cons]; omega⟩
      have hrest : n + 1 - c.utf8Size = len p := by rw [len_cons] at hn; omega
      rw [hn, List.cons_append, takeBytes, if_pos (by rw [len_cons] at hn; omega), hrest, ih]
      rfl

/-- Slicing out the middle of a text by the offsets of its two cuts. -/
theorem slice_middle {ε : Type*} (p m s : List Char) :
    (slice (p ++ (m ++ s)) (len p) (len p + len m) : Outcome ε (List Char)) = .ok m := by
  rw [slice, if_pos (Nat.le_add_right _ _), dropBytes_len, Option.bind_some,
    Nat.add_sub_cancel_left, takeBytes_len]

theorem slice_of_lt {ε : Type*} (s : List Char) {a b : ℕ} (h : b < a) :
    (slice s a b : Outcome ε (List Char)) = .panic := if_neg (by omega)

/-- Of two prefixes of one text, the one with fewer bytes is a prefix of the
other. -/
theorem prefix_of_len_le {p q s : List Char} (hp : p <+: s) (hq : q <+: s)
    (h : len p ≤ len q) : p <+: q := by
  rcases List.prefix_or_prefix_of_prefix hp hq with hpq | ⟨t, ht⟩
  · exact hpq
  · -- What `p` has more than `q` has no bytes, so there is none of it.
    have ht0 : len t = 0 := by
      have := congrArg len ht
      rw [len_append] at this
      omega
    rw [← ht, len_eq_zero.mp ht0, List.append_nil]

/-! ## Whitespace and lines -/

/-- `char::is_whitespace`: the Unicode `White_Space` property. -/
def isWhitespace (c : Char) : Bool :=
  (0x09 ≤ c.val ∧ c.val ≤ 0x0D) ∨ c.val = 0x20 ∨ c.val = 0x85 ∨ c.val = 0xA0 ∨ c.val = 0x1680
    ∨ (0x2000 ≤ c.val ∧ c.val ≤ 0x200A) ∨ c.val = 0x2028 ∨ c.val = 0x2029 ∨ c.val = 0x202F
    ∨ c.val = 0x205F ∨ c.val = 0x3000

/-- `str::trim`. -/
def trim (s : List Char) : List Char := (s.dropWhile isWhitespace).rdropWhile isWhitespace

/-- A text without whitespace is its own trim, whatever whitespace surrounds it. -/
theorem trim_padded {w₁ s w₂ : List Char} (h₁ : ∀ c ∈ w₁, isWhitespace c = true)
    (h₂ : ∀ c ∈ w₂, isWhitespace c = true) (hs : ∀ c ∈ s, isWhitespace c = false) :
    trim (w₁ ++ s ++ w₂) = s := by
  -- From the front: the first character of `s` stops the trimming.
  have hdrop : (w₁ ++ s ++ w₂).dropWhile isWhitespace = (s ++ w₂).dropWhile isWhitespace := by
    rw [List.append_assoc, List.dropWhile_append_of_pos h₁]
  rw [trim, hdrop]
  cases s with
  | nil =>
      rw [List.nil_append, List.dropWhile_eq_nil_iff.mpr h₂, List.rdropWhile_nil]
  | cons c s =>
      -- From the back: so does its last one.
      have hc : isWhitespace c = false := hs c (by simp)
      rw [List.cons_append, List.dropWhile_cons_of_neg (by simp [hc]), ← List.cons_append,
        List.rdropWhile, List.reverse_append,
        List.dropWhile_append_of_pos (fun d hd => h₂ d (List.mem_reverse.mp hd))]
      have hrev : ∀ d ∈ (c :: s).reverse, isWhitespace d = false := fun d hd =>
        hs d (List.mem_reverse.mp hd)
      cases hl : (c :: s).reverse with
      | nil => simp at hl
      | cons d t =>
          have hd : isWhitespace d = false := hrev d (by rw [hl]; simp)
          rw [List.dropWhile_cons_of_neg (by simp [hd]), ← hl, List.reverse_reverse]

theorem trim_self {s : List Char} (hs : ∀ c ∈ s, isWhitespace c = false) : trim s = s := by
  have h := @trim_padded [] s [] (by simp) (by simp) hs
  rwa [List.nil_append, List.append_nil] at h

/-- `str::split_inclusive('\n')`: the lines with their terminators. -/
def splitInclusive : List Char → List (List Char)
  | [] => []
  | c :: s =>
      if c = '\n' then [c] :: splitInclusive s
      else
        match splitInclusive s with
        | [] => [[c]]
        | l :: ls => (c :: l) :: ls

/-- `"\n"` and `"\r\n"` are taken off the end of a line; a bare `"\r"` is not. -/
def stripEol (l : List Char) : List Char :=
  if ['\r', '\n'] <:+ l then l.dropLast.dropLast
  else if ['\n'] <:+ l then l.dropLast
  else l

/-- `str::lines`. -/
def lines (s : List Char) : List (List Char) := (splitInclusive s).map stripEol

theorem splitInclusive_line (l s : List Char) (h : '\n' ∉ l) :
    splitInclusive (l ++ '\n' :: s) = (l ++ ['\n']) :: splitInclusive s := by
  induction l with
  | nil => rfl
  | cons c l ih =>
      simp only [List.mem_cons, not_or] at h
      rw [List.cons_append, splitInclusive, if_neg (Ne.symm h.1), ih h.2]
      rfl

theorem stripEol_line {l : List Char} (h : '\r' ∉ l) : stripEol (l ++ ['\n']) = l := by
  have hno : ¬ ['\r', '\n'] <:+ l ++ ['\n'] := by
    rintro ⟨t, ht⟩
    have : t ++ ['\r'] = l := by
      have happ : t ++ ['\r'] ++ ['\n'] = l ++ ['\n'] := by simpa using ht
      exact List.append_cancel_right happ
    exact h (by simp [← this])
  rw [stripEol, if_neg hno, if_pos (List.suffix_append _ _), List.dropLast_concat]

/-- `lines` takes off one line at a time. -/
theorem lines_line {l : List Char} (s : List Char) (hn : '\n' ∉ l) (hr : '\r' ∉ l) :
    lines (l ++ '\n' :: s) = l :: lines s := by
  rw [lines, splitInclusive_line l s hn, List.map_cons, stripEol_line hr]
  rfl

/-- A text of terminated lines falls into these lines. -/
theorem lines_flatMap {ls : List (List Char)} (h : ∀ l ∈ ls, '\n' ∉ l ∧ '\r' ∉ l) :
    lines (ls.flatMap (· ++ ['\n'])) = ls := by
  induction ls with
  | nil => rfl
  | cons l ls ih =>
      obtain ⟨hn, hr⟩ := h l (by simp)
      rw [List.flatMap_cons, List.append_assoc, List.singleton_append, lines_line _ hn hr,
        ih (fun l' hl' => h l' (List.mem_cons_of_mem _ hl'))]

/-- Lines joined by newlines, with a newline at the end. -/
theorem intercalate_newline {l : List Char} {ls : List (List Char)} :
    ['\n'].intercalate (l :: ls) ++ ['\n'] = (l :: ls).flatMap (· ++ ['\n']) := by
  induction ls generalizing l with
  | nil => simp [List.intercalate]
  | cons m ls ih =>
      rw [List.intercalate_cons_cons, List.append_assoc, List.append_assoc, ih,
        ← List.append_assoc]
      rfl

end Str

end Rust
