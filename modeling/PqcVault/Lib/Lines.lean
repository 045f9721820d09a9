/-
`Lines.lean` -- a text as its lines, whatever they end in.

A `Line` is what stands on it and the way it ends, `"\n"` or `"\r\n"`; that no
newline stands *on* it is a field. A program that trims the lines of a text sees
neither the endings nor the whitespace around a line, and `trim_lines_flatMap`
says so: what it sees of rendered lines is their trims.

The rest is about patterns and whitespace. A pattern can only occur where its
first and its last element do, so whitespace around a text neither adds nor
hides an occurrence of a pattern that has none.
-/
import PqcVault.Lib.Text

set_option autoImplicit false

namespace Rust

namespace Str

/-! ## Where a pattern can occur -/

section Search

variable {α : Type*} [DecidableEq α] {pat : List α} {a : α}

/-- The search runs over a piece that lacks the first element of the pattern. -/
theorem skips_of_head {w : List α} (hpat : pat.head? = some a) (hw : a ∉ w) : Skips pat w := by
  obtain ⟨tail, rfl⟩ := List.head?_eq_some_iff.mp hpat
  induction w with
  | nil => exact skips_nil _
  | cons c w ih =>
      have hne : a ≠ c := fun h => hw (by rw [h]; exact List.mem_cons_self)
      have ih' : Skips (a :: tail) w := ih fun h => hw (List.mem_cons_of_mem c h)
      intro s
      have hno : ¬ a :: tail <+: c :: (w ++ s) := fun h => hne (List.cons_prefix_cons.mp h).1
      rw [List.cons_append, before_tail hno, ih' s, Option.map_map]
      rfl

omit [DecidableEq α] in
/-- A pattern does not start in a front piece that lacks its first element. -/
theorem infix_of_append_left {w s : List α} (hpat : pat.head? = some a) (hw : a ∉ w)
    (h : pat <:+: w ++ s) : pat <:+: s := by
  obtain ⟨tail, rfl⟩ := List.head?_eq_some_iff.mp hpat
  induction w with
  | nil => exact h
  | cons c w ih =>
      rw [List.cons_append, List.infix_cons_iff] at h
      rcases h with hpre | hin
      · have hac : a = c := (List.cons_prefix_cons.mp hpre).1
        exact absurd (by rw [hac]; exact List.mem_cons_self) hw
      · exact ih (fun hm => hw (List.mem_cons_of_mem c hm)) hin

omit [DecidableEq α] in
/-- Nor does it end in a back piece that lacks its last one. -/
theorem infix_of_append_right {w s : List α} (hpat : pat.getLast? = some a) (hw : a ∉ w)
    (h : pat <:+: s ++ w) : pat <:+: s := by
  have hrev : pat.reverse <:+: w.reverse ++ s.reverse := by
    rw [← List.reverse_append]
    exact List.reverse_infix.mpr h
  apply List.reverse_infix.mp
  apply infix_of_append_left (a := a) _ _ hrev
  · rw [List.head?_reverse, hpat]
  · rw [List.mem_reverse]
    exact hw

end Search

/-! ## Trimming -/

theorem trim_append_whitespace {s w : List Char} (hw : ∀ c ∈ w, isWhitespace c = true) :
    trim (s ++ w) = trim s := by
  by_cases hs : ∀ c ∈ s, isWhitespace c = true
  · -- Nothing is left of either.
    rw [trim, trim, List.dropWhile_append_of_pos hs, List.dropWhile_eq_nil_iff.mpr hw,
      List.dropWhile_eq_nil_iff.mpr hs]
  · have hdrop : (s ++ w).dropWhile isWhitespace = s.dropWhile isWhitespace ++ w := by
      rw [List.dropWhile_append, if_neg]
      rw [List.isEmpty_iff, List.dropWhile_eq_nil_iff]
      exact hs
    rw [trim, trim, hdrop, List.rdropWhile, List.reverse_append,
      List.dropWhile_append_of_pos fun c hc => hw c (List.mem_reverse.mp hc)]
    rfl

theorem trim_eq_nil {w : List Char} (hw : ∀ c ∈ w, isWhitespace c = true) : trim w = [] :=
  trim_append_whitespace (s := []) hw

/-- Whitespace before, the trim, whitespace after. -/
theorem trim_split (s : List Char) :
    ∃ w₁ w₂, s = w₁ ++ trim s ++ w₂ ∧ (∀ c ∈ w₁, isWhitespace c = true)
      ∧ ∀ c ∈ w₂, isWhitespace c = true := by
  refine ⟨s.takeWhile isWhitespace, (s.dropWhile isWhitespace).rtakeWhile isWhitespace, ?_, ?_, ?_⟩
  · rw [trim, List.append_assoc, List.rdropWhile_append_rtakeWhile, List.takeWhile_append_dropWhile]
  · intro c hc
    exact List.mem_takeWhile_imp hc
  · intro c hc
    exact List.mem_rtakeWhile_imp hc

/-- Trimming neither adds nor hides a pattern without whitespace. -/
theorem infix_trim_iff {pat s : List Char} (hne : pat ≠ [])
    (hpat : ∀ c ∈ pat, isWhitespace c = false) : pat <:+: trim s ↔ pat <:+: s := by
  obtain ⟨w₁, w₂, hs, h₁, h₂⟩ := trim_split s
  constructor
  · intro h
    rw [hs]
    exact h.trans (List.infix_append _ _ _)
  · intro h
    rw [hs] at h
    have hback : pat <:+: w₁ ++ trim s := by
      apply infix_of_append_right (List.getLast?_eq_some_getLast hne) _ h
      intro hm
      exact absurd (h₂ _ hm) (by rw [hpat _ (List.getLast_mem hne)]; decide)
    apply infix_of_append_left (List.head?_eq_some_head hne) _ hback
    intro hm
    exact absurd (h₁ _ hm) (by rw [hpat _ (List.head_mem hne)]; decide)

/-! ## Lines -/

/-- The two ways a line ends. -/
inductive Eol where
  | lf
  | crlf
  deriving DecidableEq

def Eol.chars : Eol → List Char
  | .lf => ['\n']
  | .crlf => ['\r', '\n']

/-- A line and its ending. -/
structure Line where
  text : List Char
  eol : Eol
  no_newline : '\n' ∉ text

namespace Line

def render (l : Line) : List Char := l.text ++ l.eol.chars

/-- A line with nothing on it but whitespace. -/
def IsBlank (l : Line) : Prop := ∀ c ∈ l.text, isWhitespace c = true

/-- The line before its newline. -/
def stem (l : Line) : List Char :=
  match l.eol with
  | .lf => l.text
  | .crlf => l.text ++ ['\r']

theorem render_eq (l : Line) : l.render = l.stem ++ ['\n'] := by
  obtain ⟨text, eol, h⟩ := l
  cases eol with
  | lf => rfl
  | crlf => exact (List.append_assoc text ['\r'] ['\n']).symm

theorem no_newline_stem (l : Line) : '\n' ∉ l.stem := by
  obtain ⟨text, eol, h⟩ := l
  cases eol with
  | lf => exact h
  | crlf =>
      intro hm
      rcases List.mem_append.mp hm with hm | hm
      · exact h hm
      · exact absurd hm (by decide)

theorem trim_render (l : Line) : trim l.render = trim l.text := by
  rw [render]
  apply trim_append_whitespace
  apply List.all_eq_true.mp
  cases l.eol with
  | lf => decide
  | crlf => decide

theorem IsBlank.trim {l : Line} (h : l.IsBlank) : Str.trim l.text = [] := trim_eq_nil h

end Line

/-- An ending is whitespace, so trimming takes it off too. -/
theorem trim_stripEol (l : List Char) : trim (stripEol l) = trim l := by
  unfold stripEol
  split_ifs with hcrlf hlf
  · obtain ⟨t, rfl⟩ := hcrlf
    have hdrop : (t ++ ['\r', '\n']).dropLast.dropLast = t := by
      rw [List.dropLast_append_of_ne_nil (by simp), List.dropLast_append_of_ne_nil (by simp)]
      exact List.append_nil t
    rw [hdrop, trim_append_whitespace]
    exact List.all_eq_true.mp (by decide)
  · obtain ⟨t, rfl⟩ := hlf
    rw [List.dropLast_concat, trim_append_whitespace]
    exact List.all_eq_true.mp (by decide)
  · rfl

theorem flatten_splitInclusive (s : List Char) : (splitInclusive s).flatten = s := by
  induction s with
  | nil => rfl
  | cons c s ih =>
      rw [splitInclusive]
      by_cases hc : c = '\n'
      · rw [if_pos hc, List.flatten_cons, ih]
        rfl
      · rw [if_neg hc]
        cases h : splitInclusive s with
        | nil =>
            rw [h] at ih
            rw [← ih]
            rfl
        | cons l ls =>
            rw [h] at ih
            rw [← ih]
            rfl

theorem splitInclusive_flatMap (ls : List Line) (w : List Char) :
    splitInclusive (ls.flatMap Line.render ++ w) = ls.map Line.render ++ splitInclusive w := by
  induction ls with
  | nil => rfl
  | cons l ls ih =>
      rw [List.flatMap_cons, List.append_assoc, l.render_eq, List.append_assoc,
        List.singleton_append, splitInclusive_line _ _ l.no_newline_stem, ih, List.map_cons,
        l.render_eq]
      rfl

/-- **What a reader that trims sees** of lines that end one way or the other, with
whitespace after the last: the trims of the lines, and empty ones. -/
theorem trim_lines_flatMap (ls : List Line) {w : List Char}
    (hw : ∀ c ∈ w, isWhitespace c = true) :
    ((lines (ls.flatMap Line.render ++ w)).map trim).filter (fun l => l ≠ [])
      = (ls.map fun l => trim l.text).filter (fun l => l ≠ []) := by
  have hblank : ∀ l ∈ splitInclusive w, trim l = [] := by
    intro l hl
    apply trim_eq_nil
    intro c hc
    apply hw
    rw [← flatten_splitInclusive w]
    exact List.mem_flatten.mpr ⟨l, hl, hc⟩
  have hrest : ((splitInclusive w).map trim).filter (fun l => l ≠ []) = [] := by
    rw [List.filter_eq_nil_iff]
    intro t ht
    obtain ⟨l, hl, rfl⟩ := List.mem_map.mp ht
    rw [hblank l hl]
    decide
  have hstrip : trim ∘ stripEol = trim := funext trim_stripEol
  have hrender : trim ∘ Line.render = fun l => trim l.text := funext Line.trim_render
  rw [lines, List.map_map, hstrip, splitInclusive_flatMap, List.map_append, List.filter_append,
    hrest, List.append_nil, List.map_map, hrender]

end Str

end Rust
