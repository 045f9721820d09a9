/-
`PemText.lean` -- public keys in the middle of other text.

A file may hold several keys with text around them, and `decode_pem` finds its
markers by searching the whole of it. The argument goes by lines: no marker holds
a newline, so a marker can only stand inside a line, and of the lines of a block
only the first and the last hold one. `Str.Skips` carries that through any
concatenation, and what is left is to read one block back.
-/
import PqcVault.Pem

set_option autoImplicit false

namespace PqcVault

open Rust Outcome

/-! ## Markers -/

/-- The four marker lines of the two labels. -/
def markers : List (List Char) :=
  [(pemBegin KEM_LABEL).toList, (pemEnd KEM_LABEL).toList,
    (pemBegin DSA_LABEL).toList, (pemEnd DSA_LABEL).toList]

def fiveDashes : List Char := ['-', '-', '-', '-', '-']

theorem marker_no_newline : ∀ pat ∈ markers, '\n' ∉ pat := by decide

theorem fiveDashes_infix_marker : ∀ pat ∈ markers, fiveDashes <:+: pat := by
  have h : ∀ pat ∈ markers, Str.contains pat fiveDashes = true := by decide
  intro pat hpat
  exact Str.contains_iff.mp (h pat hpat)

theorem marker_ne_nil {pat : List Char} (hpat : pat ∈ markers) : pat ≠ [] := by
  rintro rfl
  exact absurd (fiveDashes_infix_marker [] hpat) (by simp [fiveDashes])

/-- No marker holds another. -/
theorem marker_not_in_marker : ∀ pat ∈ markers, ∀ pat' ∈ markers, pat ≠ pat' → ¬ pat <:+: pat' := by
  have h : ∀ pat ∈ markers, ∀ pat' ∈ markers, pat ≠ pat' → Str.contains pat' pat = false := by
    decide
  intro pat hpat pat' hpat' hne
  exact Str.contains_eq_false.mp (h pat hpat pat' hpat' hne)

/-- A line without five dashes in a row holds no marker. -/
theorem marker_not_infix_of_dashes {pat l : List Char} (hpat : pat ∈ markers)
    (hl : ¬ fiveDashes <:+: l) : ¬ pat <:+: l := fun h =>
  hl ((fiveDashes_infix_marker pat hpat).trans h)

/-- The two labels there are. -/
def IsLabel (label : String) : Prop := label = KEM_LABEL ∨ label = DSA_LABEL

theorem pemBegin_mem {label : String} (h : IsLabel label) : (pemBegin label).toList ∈ markers := by
  rcases h with rfl | rfl
  · exact .head _
  · exact .tail _ (.tail _ (.head _))

theorem pemEnd_mem {label : String} (h : IsLabel label) : (pemEnd label).toList ∈ markers := by
  rcases h with rfl | rfl
  · exact .tail _ (.head _)
  · exact .tail _ (.tail _ (.tail _ (.head _)))

theorem pemBegin_ne_pemEnd {label label' : String} (h : IsLabel label) (h' : IsLabel label') :
    (pemBegin label).toList ≠ (pemEnd label').toList := by
  rcases h with rfl | rfl <;> rcases h' with rfl | rfl <;> decide

theorem markers_ne_of_label_ne {label label' : String} (h : IsLabel label) (h' : IsLabel label')
    (hne : label ≠ label') :
    (pemBegin label).toList ≠ (pemBegin label').toList
      ∧ (pemEnd label).toList ≠ (pemEnd label').toList := by
  rcases h with rfl | rfl <;> rcases h' with rfl | rfl <;>
    first | exact absurd rfl hne | decide

/-! ## A block, line by line -/

/-- The base64 lines of a block; a key without bytes has one empty line. -/
def wrapLines (data : Bytes) : List (List Char) :=
  match Str.chunks 64 (Base64.encode data) with
  | [] => [[]]
  | c :: cs => c :: cs

theorem flatten_wrapLines (data : Bytes) : (wrapLines data).flatten = Base64.encode data := by
  have h := Str.flatten_chunks (n := 64) (by decide) (Base64.encode data)
  unfold wrapLines
  split
  case h_1 heq =>
      rw [heq] at h
      rw [← h]
      rfl
  case h_2 c cs heq => rw [← heq, h]

/-- A character of a base64 line is neither a dash nor whitespace. -/
theorem plain_of_mem_wrapLines {data : Bytes} {l : List Char} (hl : l ∈ wrapLines data) {c : Char}
    (hc : c ∈ l) : c ≠ '-' ∧ Str.isWhitespace c = false := by
  apply @Base64.plain_of_mem_encode data
  rw [← flatten_wrapLines]
  exact List.mem_flatten.mpr ⟨l, hl, hc⟩

/-- The text between the two markers of a block. -/
def bodyText (header : String) (data : Bytes) : List Char :=
  '\n' :: (header.toList :: wrapLines data).flatMap (· ++ ['\n'])

theorem toList_encode_pem (label header : String) (data : Bytes) :
    (encode_pem label header data).toList
      = (pemBegin label).toList ++ (bodyText header data ++ ((pemEnd label).toList ++ ['\n'])) := by
  have hwrap : ['\n'].intercalate (Str.chunks 64 (Base64.encode data)) ++ ['\n']
      = (wrapLines data).flatMap (· ++ ['\n']) := by
    unfold wrapLines
    split
    case h_1 heq => rw [heq]; rfl
    case h_2 c cs heq => rw [heq, Str.intercalate_newline]
  have hnl : "\n".toList = ['\n'] := rfl
  simp only [encode_pem, bodyText, String.toList_append, String.toList_ofList, hnl,
    List.flatMap_cons, ← hwrap, List.append_assoc, List.cons_append, List.nil_append]

/-- A header that takes one line, has no five dashes, and is its own trim. -/
structure PlainHeader (header : String) : Prop where
  no_newline : '\n' ∉ header.toList ∧ '\r' ∉ header.toList
  no_dashes : ¬ fiveDashes <:+: header.toList
  trimmed : Str.trim header.toList = header.toList
  ne_nil : header.toList ≠ []

section Block

variable {pat : List Char} {label header : String} {data : Bytes}

theorem not_infix_wrapLine (hpat : pat ∈ markers) {l : List Char} (hl : l ∈ wrapLines data) :
    ¬ pat <:+: l := by
  apply marker_not_infix_of_dashes hpat
  intro h
  have hmem : '-' ∈ l := h.subset (by decide)
  exact (plain_of_mem_wrapLines hl hmem).1 rfl

/-- A search runs over any number of lines that do not hold its pattern. -/
theorem skips_lines (hpat : pat ∈ markers) {ls : List (List Char)}
    (hls : ∀ l ∈ ls, ¬ pat <:+: l) : Str.Skips pat (ls.flatMap (· ++ ['\n'])) := by
  induction ls with
  | nil => exact Str.skips_nil pat
  | cons l ls ih =>
      rw [List.flatMap_cons]
      apply Str.Skips.append
      · exact Str.skips_line (marker_no_newline pat hpat) (marker_ne_nil hpat) (hls l (by simp))
      · exact ih fun l' hl' => hls l' (List.mem_cons_of_mem _ hl')

theorem skips_header_lines (hpat : pat ∈ markers) (hh : PlainHeader header) :
    Str.Skips pat ((header.toList :: wrapLines data).flatMap (· ++ ['\n'])) := by
  apply skips_lines hpat
  intro l hl
  rcases List.mem_cons.mp hl with rfl | hl
  · exact marker_not_infix_of_dashes hpat hh.no_dashes
  · exact not_infix_wrapLine hpat hl

/-- The search for the END marker of a block runs over everything before it. -/
theorem skips_to_end (hlabel : IsLabel label) (hh : PlainHeader header) :
    Str.Skips (pemEnd label).toList ((pemBegin label).toList ++ bodyText header data) := by
  have hpat := pemEnd_mem hlabel
  rw [bodyText, ← List.singleton_append, ← List.append_assoc]
  apply Str.Skips.append
  · -- The first line is the BEGIN marker, which does not hold the END marker.
    apply Str.skips_line (marker_no_newline _ hpat) (marker_ne_nil hpat)
    exact marker_not_in_marker _ hpat _ (pemBegin_mem hlabel)
      (pemBegin_ne_pemEnd hlabel hlabel).symm
  · exact skips_header_lines hpat hh

/-- The search for a marker runs over a block of the other label. -/
theorem skips_block (hpat : pat ∈ markers) (hlabel : IsLabel label) (hh : PlainHeader header)
    (hb : pat ≠ (pemBegin label).toList) (he : pat ≠ (pemEnd label).toList) :
    Str.Skips pat (encode_pem label header data).toList := by
  have hline : ∀ m ∈ markers, pat ≠ m → Str.Skips pat (m ++ ['\n']) := by
    intro m hm hne
    exact Str.skips_line (marker_no_newline _ hpat) (marker_ne_nil hpat)
      (marker_not_in_marker _ hpat _ hm hne)
  rw [toList_encode_pem, bodyText, ← List.singleton_append, List.append_assoc ['\n'],
    ← List.append_assoc]
  apply Str.Skips.append (hline _ (pemBegin_mem hlabel) hb)
  apply Str.Skips.append (skips_header_lines hpat hh)
  exact hline _ (pemEnd_mem hlabel) he

/-- The lines of a block that survive the filter. -/
theorem bodyLines_bodyText (hh : PlainHeader header) :
    bodyLines (bodyText header data)
      = header.toList :: (wrapLines data).filter (fun l => l ≠ []) := by
  have hplain : ∀ l ∈ wrapLines data, Str.trim l = l := fun l hl =>
    Str.trim_self fun c hc => (plain_of_mem_wrapLines hl hc).2
  -- The body starts behind the BEGIN marker, so its first line is empty.
  have hlines : Str.lines (bodyText header data) = [] :: header.toList :: wrapLines data := by
    have hflat : bodyText header data
        = ([] :: header.toList :: wrapLines data).flatMap (· ++ ['\n']) := rfl
    rw [hflat]
    apply Str.lines_flatMap
    intro l hl
    rcases List.mem_cons.mp hl with rfl | hl
    · simp
    rcases List.mem_cons.mp hl with rfl | hl
    · exact hh.no_newline
    · constructor <;> intro hc
      · exact absurd (plain_of_mem_wrapLines hl hc).2 (by decide)
      · exact absurd (plain_of_mem_wrapLines hl hc).2 (by decide)
  rw [bodyLines, hlines, List.map_cons, List.map_cons, hh.trimmed,
    List.map_congr_left hplain, List.map_id', List.filter_cons_of_neg (by simp [Str.trim]),
    List.filter_cons_of_pos (by simpa using hh.ne_nil)]

theorem flatten_filter_wrapLines (data : Bytes) :
    ((wrapLines data).filter (fun l => l ≠ [])).flatten = Base64.encode data := by
  rw [← flatten_wrapLines]
  exact List.flatten_filter_ne_nil

/-- What the decoder makes of the body of a block. -/
theorem decode_body_bodyText (hh : PlainHeader header) :
    decode_body (bodyText header data)
      = (parse_level_from_header header.toList >>= fun level => ok (level, data)) := by
  rw [decode_body, bodyLines_bodyText hh]
  simp only [flatten_filter_wrapLines, Base64.decode_encode, okOr_some, bind_ok, pure_eq]

end Block

/-! ## Text with blocks in it -/

/-- A block of a file. -/
structure PemBlock where
  label : String
  header : String
  data : Bytes

namespace PemBlock

def text (b : PemBlock) : String := encode_pem b.label b.header b.data

/-- A block the two encoders can write. -/
def Plain (b : PemBlock) : Prop := IsLabel b.label ∧ PlainHeader b.header

end PemBlock

/-- A piece of text around the blocks: terminated, and free of markers. -/
def IsProse (t : String) : Prop :=
  (t.toList = [] ∨ ['\n'] <:+ t.toList) ∧ ∀ pat ∈ markers, ¬ pat <:+: t.toList

/-- The file with this text first, and then each block with the text after it. -/
def document (pre : String) : List (PemBlock × String) → String
  | [] => pre
  | (b, post) :: rest => pre ++ b.text ++ document post rest

section Document

variable {label : String}

theorem IsProse.skips {t : String} (h : IsProse t) {pat : List Char} (hpat : pat ∈ markers) :
    Str.Skips pat t.toList :=
  Str.skips_terminated (marker_no_newline pat hpat) (marker_ne_nil hpat) h.1 (h.2 pat hpat)

/-- A document without a block of the label has nothing for the search to stop
at. -/
theorem document_skips (hlabel : IsLabel label) {pre : String} {bs : List (PemBlock × String)}
    (hpre : IsProse pre) (hbs : ∀ b ∈ bs, b.1.Plain ∧ IsProse b.2)
    (hno : ∀ b ∈ bs, b.1.label ≠ label) :
    Str.Skips (pemBegin label).toList (document pre bs).toList := by
  induction bs generalizing pre with
  | nil => exact hpre.skips (pemBegin_mem hlabel)
  | cons b bs ih =>
      obtain ⟨hb, hpost⟩ := hbs b (by simp)
      have hmark := markers_ne_of_label_ne hlabel hb.1 (hno b (by simp)).symm
      rw [document, String.toList_append, String.toList_append]
      refine ((hpre.skips (pemBegin_mem hlabel)).append ?_).append ?_
      · exact skips_block (pemBegin_mem hlabel) hb.1 hb.2 hmark.1
          (pemBegin_ne_pemEnd hlabel hb.1)
      · exact ih hpost (fun b' hb' => hbs b' (List.mem_cons_of_mem _ hb'))
          (fun b' hb' => hno b' (List.mem_cons_of_mem _ hb'))

/-- Before the first block of the label, neither search stops. -/
theorem document_split (hlabel : IsLabel label) {pre : String} {bs : List (PemBlock × String)}
    (hpre : IsProse pre) (hbs : ∀ b ∈ bs, b.1.Plain ∧ IsProse b.2) {b : PemBlock}
    (hfirst : (bs.map Prod.fst).find? (fun b => b.label = label) = some b) :
    ∃ u v, (document pre bs).toList = u ++ (b.text.toList ++ v)
      ∧ Str.Skips (pemBegin label).toList u ∧ Str.Skips (pemEnd label).toList u := by
  induction bs generalizing pre with
  | nil => simp at hfirst
  | cons c bs ih =>
      obtain ⟨hc, hpost⟩ := hbs c (by simp)
      have hsb := hpre.skips (pemBegin_mem hlabel)
      have hse := hpre.skips (pemEnd_mem hlabel)
      rw [List.map_cons] at hfirst
      by_cases hlab : c.1.label = label
      · rw [List.find?_cons_of_pos (by simpa using hlab)] at hfirst
        obtain rfl := Option.some.inj hfirst
        refine ⟨pre.toList, (document c.2 bs).toList, ?_, hsb, hse⟩
        rw [document, String.toList_append, String.toList_append, List.append_assoc]
      · -- The block is of the other label, so both searches run over it.
        rw [List.find?_cons_of_neg (by simpa using hlab)] at hfirst
        obtain ⟨u, v, hdoc, hub, hue⟩ := ih hpost
          (fun b' hb' => hbs b' (List.mem_cons_of_mem _ hb')) hfirst
        have hmark := markers_ne_of_label_ne hlabel hc.1 (Ne.symm hlab)
        refine ⟨pre.toList ++ c.1.text.toList ++ u, v, ?_, ?_, ?_⟩
        · rw [document, String.toList_append, String.toList_append, hdoc]
          simp only [List.append_assoc]
        · exact (hsb.append (skips_block (pemBegin_mem hlabel) hc.1 hc.2 hmark.1
            (pemBegin_ne_pemEnd hlabel hc.1))).append hub
        · exact (hse.append (skips_block (pemEnd_mem hlabel) hc.1 hc.2
            (pemBegin_ne_pemEnd hc.1 hlabel).symm hmark.2)).append hue

/-- **The decoder on a document**: it reads the first block of its label. -/
theorem decode_pem_document (hlabel : IsLabel label) {pre : String}
    {bs : List (PemBlock × String)} (hpre : IsProse pre)
    (hbs : ∀ b ∈ bs, b.1.Plain ∧ IsProse b.2) {b : PemBlock} (hb : b.Plain)
    (hfirst : (bs.map Prod.fst).find? (fun b => b.label = label) = some b) :
    decode_pem (document pre bs) label
      = (parse_level_from_header b.header.toList >>= fun level => ok (level, b.data)) := by
  obtain ⟨u, v, hdoc, hub, hue⟩ := document_split hlabel hpre hbs hfirst
  have hlab : b.label = label := by
    have h := List.find?_some hfirst
    simpa using h
  subst hlab
  rw [PemBlock.text, toList_encode_pem] at hdoc
  have hp : Str.FirstAt (pemBegin b.label).toList (document pre bs).toList u := by
    apply Str.before_eq_some.mp
    rw [hdoc, List.append_assoc]
    exact hub.before _
  have hq : Str.FirstAt (pemEnd b.label).toList (document pre bs).toList
      (u ++ (pemBegin b.label).toList ++ bodyText b.header b.data) := by
    apply Str.before_eq_some.mp
    -- The search for END runs over what stands before the block, and over the block.
    have hskip := hue.append (@skips_to_end b.label b.header b.data hlabel hb.2)
    rw [List.append_assoc u, hdoc]
    have hassoc : u ++ ((pemBegin b.label).toList ++ (bodyText b.header b.data
          ++ ((pemEnd b.label).toList ++ ['\n'])) ++ v)
        = u ++ ((pemBegin b.label).toList ++ bodyText b.header b.data)
          ++ ((pemEnd b.label).toList ++ (['\n'] ++ v)) := by
      simp only [List.append_assoc]
    rw [hassoc]
    exact hskip.before _
  rw [decode_pem_of_order hp hq, decode_body_bodyText hb.2]

/-- A text that does not hold the BEGIN marker is refused. -/
theorem decode_pem_isErr {pem : String} (h : ¬ (pemBegin label).toList <:+: pem.toList) :
    (decode_pem pem label).IsErr := by
  rw [decode_pem, Str.find, Str.before_eq_none.mpr h, Option.map_none, okOr_none, bind_err]
  exact isErr_err _

/-- In particular a text without dashes. -/
theorem decode_pem_isErr_of_dash (hlabel : IsLabel label) {pem : String} (h : '-' ∉ pem.toList) :
    (decode_pem pem label).IsErr := by
  apply decode_pem_isErr
  intro hin
  have hdash : '-' ∈ fiveDashes := List.mem_cons_self
  exact h (((fiveDashes_infix_marker _ (pemBegin_mem hlabel)).trans hin).subset hdash)

/-- A document without a block of the label is refused. -/
theorem decode_pem_document_none (hlabel : IsLabel label) {pre : String}
    {bs : List (PemBlock × String)} (hpre : IsProse pre)
    (hbs : ∀ b ∈ bs, b.1.Plain ∧ IsProse b.2)
    (hno : (bs.map Prod.fst).find? (fun b => b.label = label) = none) :
    (decode_pem (document pre bs) label).IsErr := by
  have hskip : Str.Skips (pemBegin label).toList (document pre bs).toList := by
    apply document_skips hlabel hpre hbs
    intro b hb hlab
    exact absurd hlab (by simpa using List.find?_eq_none.mp hno b.1 (List.mem_map_of_mem hb))
  have hnil : Str.before (pemBegin label).toList ([] : List Char) = none := by
    rw [Str.before_eq_none, List.infix_nil]
    exact marker_ne_nil (pemBegin_mem hlabel)
  have hnone := hskip []
  rw [List.append_nil, hnil, Option.map_none] at hnone
  exact decode_pem_isErr (Str.before_eq_none.mp hnone)

end Document

/-! ## Keys as blocks -/

theorem plain_kemHeader (level : SecurityLevel) : PlainHeader (kemHeader level) := by
  have hdash : Str.contains (kemHeader level).toList fiveDashes = false := by
    cases level <;> decide
  refine ⟨?_, Str.contains_eq_false.mp hdash, ?_, ?_⟩
  all_goals cases level <;> decide

theorem plain_dsaHeader (level : SecurityLevel) : PlainHeader (dsaHeader level) := by
  have hdash : Str.contains (dsaHeader level).toList fiveDashes = false := by
    cases level <;> decide
  refine ⟨?_, Str.contains_eq_false.mp hdash, ?_, ?_⟩
  all_goals cases level <;> decide

theorem parse_level_kemHeader (level : SecurityLevel) :
    parse_level_from_header (kemHeader level).toList = ok level := by
  cases level <;> decide

theorem parse_level_dsaHeader (level : SecurityLevel) :
    parse_level_from_header (dsaHeader level).toList = ok level := by
  cases level <;> decide

/-- A public key of either kind. -/
inductive PublicKey where
  | kem (k : KemPublicKey)
  | dsa (k : DsaPublicKey)

namespace PublicKey

/-- A key its own validation accepts. -/
def Valid (P : Platform) : PublicKey → Prop
  | .kem k => KemPublicKey.from_validated P k.level k.bytes = ok k
  | .dsa k => DsaPublicKey.from_validated P k.level k.bytes = ok k

def to_pem : PublicKey → String
  | .kem k => kem_public_key_to_pem k
  | .dsa k => dsa_public_key_to_pem k

def asKem : PublicKey → Option KemPublicKey
  | .kem k => some k
  | .dsa _ => none

def asDsa : PublicKey → Option DsaPublicKey
  | .kem _ => none
  | .dsa k => some k

/-- The block a key is written as. -/
def block : PublicKey → PemBlock
  | .kem k => ⟨KEM_LABEL, kemHeader k.level, k.bytes⟩
  | .dsa k => ⟨DSA_LABEL, dsaHeader k.level, k.bytes⟩

def level : PublicKey → SecurityLevel
  | .kem k => k.level
  | .dsa k => k.level

@[simp] theorem text_block (k : PublicKey) : k.block.text = k.to_pem := by cases k <;> rfl

theorem plain_block (k : PublicKey) : k.block.Plain := by
  cases k with
  | kem k => exact ⟨.inl rfl, plain_kemHeader k.level⟩
  | dsa k => exact ⟨.inr rfl, plain_dsaHeader k.level⟩

theorem parse_level_block (k : PublicKey) :
    parse_level_from_header k.block.header.toList = ok k.level := by
  cases k with
  | kem k => exact parse_level_kemHeader k.level
  | dsa k => exact parse_level_dsaHeader k.level

end PublicKey

/-- A file of keys: this text first, and then each key with the text after it. -/
def keyFile (pre : String) : List (PublicKey × String) → String
  | [] => pre
  | (k, post) :: rest => pre ++ k.to_pem ++ keyFile post rest

theorem keyFile_eq_document (pre : String) (keys : List (PublicKey × String)) :
    keyFile pre keys = document pre (keys.map fun s => (s.1.block, s.2)) := by
  induction keys generalizing pre with
  | nil => rfl
  | cons k keys ih =>
      rw [keyFile, ih, List.map_cons, document, PublicKey.text_block]

theorem find?_block_kem (keys : List (PublicKey × String)) :
    ((keys.map fun s => (s.1.block, s.2)).map Prod.fst).find? (fun b => b.label = KEM_LABEL)
      = ((keys.findSome? fun s => s.1.asKem).map PublicKey.kem).map PublicKey.block := by
  induction keys with
  | nil => rfl
  | cons s keys ih =>
      obtain ⟨k | k, post⟩ := s
      · rfl
      · -- A DSA key is passed over on both sides.
        exact ih

theorem find?_block_dsa (keys : List (PublicKey × String)) :
    ((keys.map fun s => (s.1.block, s.2)).map Prod.fst).find? (fun b => b.label = DSA_LABEL)
      = ((keys.findSome? fun s => s.1.asDsa).map PublicKey.dsa).map PublicKey.block := by
  induction keys with
  | nil => rfl
  | cons s keys ih =>
      obtain ⟨k | k, post⟩ := s
      · exact ih
      · rfl

section Keys

variable {P : Platform} {pre : String} {keys : List (PublicKey × String)}

theorem keyFile_blocks (hkeys : ∀ s ∈ keys, IsProse s.2) :
    ∀ b ∈ keys.map (fun s => (s.1.block, s.2)), b.1.Plain ∧ IsProse b.2 := by
  intro b hb
  obtain ⟨s, hs, rfl⟩ := List.mem_map.mp hb
  exact ⟨s.1.plain_block, hkeys s hs⟩

/-- A decoder returned the key there is, or an error where there is none. -/
def Returns {α : Type} (r : Result α) : Option α → Prop
  | some k => r = ok k
  | none => r.IsErr

/-- A second step that takes what the first one returns. -/
theorem Returns.bind {α κ : Type} {r : Result α} {o : Option κ} {part : κ → α}
    (h : Returns r (o.map part)) {f : α → Result κ} (hf : ∀ k, o = some k → f (part k) = ok k) :
    Returns (r >>= f) o := by
  cases o with
  | none => exact isErr_bind.mpr (.inl h)
  | some k =>
      have hr : r = ok (part k) := h
      change (r >>= f) = ok k
      rw [hr, bind_ok]
      exact hf k rfl

/-- `decode_pem` on a file of keys, where `o` is the first key of the label. -/
theorem decode_pem_keyFile {label : String} (hlabel : IsLabel label) (hpre : IsProse pre)
    (hkeys : ∀ s ∈ keys, IsProse s.2) {o : Option PublicKey}
    (hfind : ((keys.map fun s => (s.1.block, s.2)).map Prod.fst).find? (fun b => b.label = label)
      = o.map PublicKey.block) :
    Returns (decode_pem (keyFile pre keys) label) (o.map fun k => (k.level, k.block.data)) := by
  rw [keyFile_eq_document]
  cases o with
  | none => exact decode_pem_document_none hlabel hpre (keyFile_blocks hkeys) hfind
  | some k =>
      have h := decode_pem_document hlabel hpre (keyFile_blocks hkeys) k.plain_block hfind
      rw [k.parse_level_block, bind_ok] at h
      exact h

theorem decode_pem_keyFile_kem (hpre : IsProse pre) (hkeys : ∀ s ∈ keys, IsProse s.2) :
    Returns (decode_pem (keyFile pre keys) KEM_LABEL)
      ((keys.findSome? fun s => s.1.asKem).map fun k => (k.level, k.bytes)) := by
  have h := decode_pem_keyFile (.inl rfl) hpre hkeys (find?_block_kem keys)
  rwa [Option.map_map] at h

theorem decode_pem_keyFile_dsa (hpre : IsProse pre) (hkeys : ∀ s ∈ keys, IsProse s.2) :
    Returns (decode_pem (keyFile pre keys) DSA_LABEL)
      ((keys.findSome? fun s => s.1.asDsa).map fun k => (k.level, k.bytes)) := by
  have h := decode_pem_keyFile (.inr rfl) hpre hkeys (find?_block_dsa keys)
  rwa [Option.map_map] at h

theorem isProse_empty : IsProse "" := by
  refine ⟨.inl rfl, fun pat hpat h => ?_⟩
  exact marker_ne_nil hpat (List.infix_nil.mp h)

/-- One block and nothing else. -/
theorem keyFile_singleton (k : PublicKey) : keyFile "" [(k, "")] = k.to_pem := by
  simp [keyFile]

/-- What is written for a KEM key is read back. -/
theorem kem_public_key_from_pem_to_pem {k : KemPublicKey} (hk : (PublicKey.kem k).Valid P) :
    kem_public_key_from_pem P (kem_public_key_to_pem k) = ok k := by
  have h := @decode_pem_keyFile_kem "" [(.kem k, "")] isProse_empty (by simp [isProse_empty])
  rw [keyFile_singleton] at h
  have hvalid (k' : KemPublicKey) (heq : some k = some k') :
      KemPublicKey.from_validated P k'.level k'.bytes = ok k' := Option.some.inj heq ▸ hk
  exact h.bind hvalid

/-- What is written for a DSA key is read back. -/
theorem dsa_public_key_from_pem_to_pem {k : DsaPublicKey} (hk : (PublicKey.dsa k).Valid P) :
    dsa_public_key_from_pem P (dsa_public_key_to_pem k) = ok k := by
  have h := @decode_pem_keyFile_dsa "" [(.dsa k, "")] isProse_empty (by simp [isProse_empty])
  rw [keyFile_singleton] at h
  have hvalid (k' : DsaPublicKey) (heq : some k = some k') :
      DsaPublicKey.from_validated P k'.level k'.bytes = ok k' := Option.some.inj heq ▸ hk
  exact h.bind hvalid

/-- The public half of a pair that fits is valid. -/
theorem KemKeyPair.Fits.valid (hK : P.KyberSizes) {kp : KemKeyPair} (h : kp.Fits) :
    (PublicKey.kem kp.public_key).Valid P :=
  KemPublicKey.from_validated_eq_ok.mpr ⟨(KemPublicKey.fits_iff hK).mp h.public_key, rfl⟩

theorem DsaKeyPair.Fits.valid (hD : P.DilithiumSizes) {kp : DsaKeyPair} (h : kp.Fits) :
    (PublicKey.dsa kp.public_key).Valid P :=
  DsaPublicKey.from_validated_eq_ok.mpr ⟨(DsaPublicKey.fits_iff hD).mp h.public_key, rfl⟩

/-- A DSA key is not read as a KEM key. -/
theorem kem_public_key_from_pem_dsa (k : DsaPublicKey) :
    (kem_public_key_from_pem P (dsa_public_key_to_pem k)).IsErr := by
  have h := @decode_pem_keyFile_kem "" [(.dsa k, "")] isProse_empty (by simp [isProse_empty])
  rw [keyFile_singleton] at h
  exact isErr_bind.mpr (.inl h)

/-- And the other way round. -/
theorem dsa_public_key_from_pem_kem (k : KemPublicKey) :
    (dsa_public_key_from_pem P (kem_public_key_to_pem k)).IsErr := by
  have h := @decode_pem_keyFile_dsa "" [(.kem k, "")] isProse_empty (by simp [isProse_empty])
  rw [keyFile_singleton] at h
  exact isErr_bind.mpr (.inl h)

/-- A text without dashes is read as neither. -/
theorem kem_public_key_from_pem_of_dash {pem : String} (h : '-' ∉ pem.toList) :
    (kem_public_key_from_pem P pem).IsErr :=
  isErr_bind.mpr (.inl (decode_pem_isErr_of_dash (.inl rfl) h))

theorem dsa_public_key_from_pem_of_dash {pem : String} (h : '-' ∉ pem.toList) :
    (dsa_public_key_from_pem P pem).IsErr :=
  isErr_bind.mpr (.inl (decode_pem_isErr_of_dash (.inr rfl) h))

/-- The text of a key starts with its BEGIN marker. -/
theorem pemBegin_prefix_to_pem (k : PublicKey) :
    (pemBegin k.block.label).toList <+: k.to_pem.toList := by
  rw [← PublicKey.text_block, PemBlock.text, toList_encode_pem]
  exact List.prefix_append _ _

end Keys

end PqcVault
