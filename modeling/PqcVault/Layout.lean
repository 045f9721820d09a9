/-
`Layout.lean` -- a PEM block as a person or a mail program may lay it out.

`encode_pem` writes one layout; `decode_pem` reads many. A `Layout` is one of
them: lines of any width that end either way, whitespace around each, blank lines
in between, and text before and after the block. The one condition is that no
line holds the END marker, since the decoder stops at the first it sees.

Of all that the decoder keeps two things: the first level the header names, and
the trimmed lines joined. `decode_pem_layout` is that statement, and what follows
from it is a statement about base64. The second half is the header: what an
accepted one says about the key, and what it does not.
-/
import PqcVault.Lib.Lines
import PqcVault.PemText
import PqcVault.Sample

set_option autoImplicit false

namespace PqcVault

open Rust Outcome

/-! ## The level of a header -/

/-- The header holds the name of the level, on its own or inside other text. -/
def Mentions (header : List Char) (level : SecurityLevel) : Prop :=
  (level_name level).toList <:+: header

/-- The level is the first one, in the order they are tried, that the header
mentions. -/
def NamesLevel (header : List Char) : SecurityLevel → Prop
  | .Level1 => Mentions header .Level1
  | .Level3 => ¬ Mentions header .Level1 ∧ Mentions header .Level3
  | .Level5 => ¬ Mentions header .Level1 ∧ ¬ Mentions header .Level3 ∧ Mentions header .Level5

theorem NamesLevel.mentions {header : List Char} {level : SecurityLevel}
    (h : NamesLevel header level) : Mentions header level := by
  cases level with
  | Level1 => exact h
  | Level3 => exact h.2
  | Level5 => exact h.2.2

theorem parse_level_from_header_eq_ok {header : List Char} {level : SecurityLevel} :
    parse_level_from_header header = ok level ↔ NamesLevel header level := by
  have h1 : Str.contains header "Level1".toList = true ↔ Mentions header .Level1 :=
    Str.contains_iff
  have h3 : Str.contains header "Level3".toList = true ↔ Mentions header .Level3 :=
    Str.contains_iff
  have h5 : Str.contains header "Level5".toList = true ↔ Mentions header .Level5 :=
    Str.contains_iff
  rw [parse_level_from_header]
  by_cases m1 : Mentions header .Level1
  · rw [if_pos (h1.mpr m1)]
    cases level <;> simp [NamesLevel, m1]
  rw [if_neg (fun h => m1 (h1.mp h))]
  by_cases m3 : Mentions header .Level3
  · rw [if_pos (h3.mpr m3)]
    cases level <;> simp [NamesLevel, m1, m3]
  rw [if_neg (fun h => m3 (h3.mp h))]
  by_cases m5 : Mentions header .Level5
  · rw [if_pos (h5.mpr m5)]
    cases level <;> simp [NamesLevel, m1, m3, m5]
  · rw [if_neg (fun h => m5 (h5.mp h))]
    cases level <;> simp [NamesLevel, m1, m3, m5]

/-- A level name has no whitespace, so whitespace around the header is nothing to
it. -/
theorem mentions_trim (header : List Char) (level : SecurityLevel) :
    Mentions (Str.trim header) level ↔ Mentions header level := by
  have hne : (level_name level).toList ≠ [] := by cases level <;> decide
  have hplain : (level_name level).toList.all (fun c => Str.isWhitespace c = false) = true := by
    cases level <;> decide
  apply Str.infix_trim_iff hne
  intro c hc
  exact of_decide_eq_true (List.all_eq_true.mp hplain c hc)

theorem namesLevel_trim (header : List Char) (level : SecurityLevel) :
    NamesLevel (Str.trim header) level ↔ NamesLevel header level := by
  cases level <;> simp only [NamesLevel, mentions_trim]

/-! ## Layouts -/

/-- A block of a label, with the text around it. -/
structure Layout where
  /-- the text before the block -/
  pre : String
  label : String
  /-- the rest of the BEGIN line -/
  opening : Str.Line
  /-- blank lines in front of the header -/
  blanks : List Str.Line
  header : Str.Line
  lines : List Str.Line
  /-- what stands before the END marker on its line -/
  indent : List Char
  /-- the text after the END marker -/
  rest : List Char
  isProse_pre : IsProse pre
  isLabel : IsLabel label
  isBlank_opening : opening.IsBlank
  isBlank_blanks : ∀ l ∈ blanks, l.IsBlank
  not_infix_header : ¬ (pemEnd label).toList <:+: header.text
  not_infix_lines : ∀ l ∈ lines, ¬ (pemEnd label).toList <:+: l.text
  isBlank_indent : ∀ c ∈ indent, Str.isWhitespace c = true

theorem isWhitespace_dash : Str.isWhitespace '-' = false := by decide

theorem head?_pemEnd {label : String} (h : IsLabel label) :
    (pemEnd label).toList.head? = some '-' := by
  rcases h with rfl | rfl <;> decide

theorem getLast?_pemEnd {label : String} (h : IsLabel label) :
    (pemEnd label).toList.getLast? = some '-' := by
  rcases h with rfl | rfl <;> decide

/-- A line whose text lacks the END marker lacks it with its ending, too. -/
theorem not_infix_stem {label : String} (hlabel : IsLabel label) {l : Str.Line}
    (h : ¬ (pemEnd label).toList <:+: l.text) : ¬ (pemEnd label).toList <:+: l.stem := by
  obtain ⟨text, eol, hn⟩ := l
  cases eol with
  | lf => exact h
  | crlf =>
      intro hin
      exact h (Str.infix_of_append_right (getLast?_pemEnd hlabel) (by decide) hin)

theorem dash_not_mem_of_whitespace {w : List Char} (hw : ∀ c ∈ w, Str.isWhitespace c = true) :
    '-' ∉ w := by
  intro hm
  exact absurd (hw _ hm) (by rw [isWhitespace_dash]; decide)

/-- A blank line lacks the END marker. -/
theorem not_infix_of_isBlank {label : String} (hlabel : IsLabel label) {l : Str.Line}
    (hl : l.IsBlank) : ¬ (pemEnd label).toList <:+: l.text := by
  intro h
  have hnil : (pemEnd label).toList <:+: [] :=
    Str.infix_of_append_right (getLast?_pemEnd hlabel) (dash_not_mem_of_whitespace hl) h
  exact marker_ne_nil (pemEnd_mem hlabel) (List.infix_nil.mp hnil)

namespace Layout

/-- The lines between the two markers. -/
def allLines (t : Layout) : List Str.Line := t.blanks ++ t.header :: t.lines

/-- The text between the two markers. -/
def body (t : Layout) : List Char := (t.opening :: t.allLines).flatMap Str.Line.render ++ t.indent

def text (t : Layout) : String :=
  String.ofList (t.pre.toList ++ (pemBegin t.label).toList ++ t.body
    ++ ((pemEnd t.label).toList ++ t.rest))

/-- The trimmed lines below the header, joined. -/
def content (t : Layout) : List Char := (t.lines.map fun l => Str.trim l.text).flatten

variable {t : Layout}

theorem not_infix_allLines : ∀ l ∈ t.allLines, ¬ (pemEnd t.label).toList <:+: l.text := by
  intro l hl
  rcases List.mem_append.mp hl with hl | hl
  · exact not_infix_of_isBlank t.isLabel (t.isBlank_blanks l hl)
  rcases List.mem_cons.mp hl with rfl | hl
  · exact t.not_infix_header
  · exact t.not_infix_lines l hl

/-- The search for the END marker runs over the body. The BEGIN marker itself ends
in the five dashes the END marker starts with, so it is taken together with the
rest of its line. -/
theorem skips_body : Str.Skips (pemEnd t.label).toList ((pemBegin t.label).toList ++ t.body) := by
  have hmem := pemEnd_mem t.isLabel
  have hsep := marker_no_newline _ hmem
  have hne := marker_ne_nil hmem
  have hfirst : Str.Skips (pemEnd t.label).toList
      ((pemBegin t.label).toList ++ t.opening.stem ++ ['\n']) := by
    apply Str.skips_line hsep hne
    intro h
    have hdash : '-' ∉ t.opening.stem := by
      have hblank := dash_not_mem_of_whitespace t.isBlank_opening
      unfold Str.Line.stem
      cases t.opening.eol with
      | lf => exact hblank
      | crlf => simpa using hblank
    have hin := Str.infix_of_append_right (getLast?_pemEnd t.isLabel) hdash h
    exact marker_not_in_marker _ hmem _ (pemBegin_mem t.isLabel)
      (pemBegin_ne_pemEnd t.isLabel t.isLabel).symm hin
  have hrest : Str.Skips (pemEnd t.label).toList (t.allLines.flatMap Str.Line.render) := by
    have hrender : t.allLines.flatMap Str.Line.render
        = (t.allLines.map Str.Line.stem).flatMap (· ++ ['\n']) := by
      rw [List.flatMap_map]
      exact List.flatMap_congr fun l _ => l.render_eq
    rw [hrender]
    apply skips_lines hmem
    intro s hs
    obtain ⟨l, hl, rfl⟩ := List.mem_map.mp hs
    exact not_infix_stem t.isLabel (not_infix_allLines l hl)
  have hindent : Str.Skips (pemEnd t.label).toList t.indent :=
    Str.skips_of_head (head?_pemEnd t.isLabel) (dash_not_mem_of_whitespace t.isBlank_indent)
  have hsplit : (pemBegin t.label).toList ++ t.body
      = (pemBegin t.label).toList ++ t.opening.stem ++ ['\n']
        ++ t.allLines.flatMap Str.Line.render ++ t.indent := by
    rw [body, List.flatMap_cons, t.opening.render_eq]
    simp only [List.append_assoc]
  rw [hsplit]
  exact (hfirst.append hrest).append hindent

/-- Both markers of a layout are where they seem to be. -/
theorem firstAt_begin :
    Str.FirstAt (pemBegin t.label).toList t.text.toList t.pre.toList := by
  apply Str.before_eq_some.mp
  rw [text, String.toList_ofList, List.append_assoc, List.append_assoc]
  exact (t.isProse_pre.skips (pemBegin_mem t.isLabel)).before _

theorem firstAt_end :
    Str.FirstAt (pemEnd t.label).toList t.text.toList
      (t.pre.toList ++ (pemBegin t.label).toList ++ t.body) := by
  apply Str.before_eq_some.mp
  rw [text, String.toList_ofList, List.append_assoc t.pre.toList]
  exact ((t.isProse_pre.skips (pemEnd_mem t.isLabel)).append skips_body).before _

/-- The lines of a layout that survive the filter: the header, and those of its
lines that are not blank. -/
theorem bodyLines_body (hheader : Str.trim t.header.text ≠ []) :
    bodyLines t.body = Str.trim t.header.text
      :: (t.lines.map fun l => Str.trim l.text).filter (fun l => l ≠ []) := by
  have hblank : ∀ ls : List Str.Line, (∀ l ∈ ls, l.IsBlank) →
      (ls.map fun l => Str.trim l.text).filter (fun l => l ≠ []) = [] := by
    intro ls hls
    rw [List.filter_eq_nil_iff]
    intro s hs
    obtain ⟨l, hl, rfl⟩ := List.mem_map.mp hs
    rw [(hls l hl).trim]
    decide
  have hfront : t.opening :: t.allLines = (t.opening :: t.blanks) ++ t.header :: t.lines := rfl
  have hfrontBlank : ∀ l ∈ t.opening :: t.blanks, l.IsBlank := by
    intro l hl
    rcases List.mem_cons.mp hl with rfl | hl
    · exact t.isBlank_opening
    · exact t.isBlank_blanks l hl
  rw [bodyLines, body, Str.trim_lines_flatMap _ t.isBlank_indent, hfront, List.map_append,
    List.filter_append, hblank _ hfrontBlank, List.nil_append, List.map_cons,
    List.filter_cons_of_pos (by simpa using hheader)]

end Layout

/-- **The decoder on a layout**: the level the header names, and the base64 of the
trimmed lines joined. -/
theorem decode_pem_layout (t : Layout) {level : SecurityLevel}
    (hlevel : parse_level_from_header t.header.text = ok level) :
    decode_pem t.text t.label
      = (okOr (Base64.decode t.content) (.Other "Invalid base64 in PEM body")
          >>= fun data => ok (level, data)) := by
  have hnames : NamesLevel (Str.trim t.header.text) level :=
    (namesLevel_trim _ _).mpr (parse_level_from_header_eq_ok.mp hlevel)
  have hheader : Str.trim t.header.text ≠ [] := by
    intro hnil
    have hm : Mentions [] level := hnil ▸ hnames.mentions
    have hempty := List.infix_nil.mp hm
    cases level <;> exact absurd hempty (by decide)
  rw [decode_pem_of_order Layout.firstAt_begin Layout.firstAt_end, decode_body,
    Layout.bodyLines_body hheader]
  simp only [parse_level_from_header_eq_ok.mpr hnames, bind_ok, pure_eq,
    List.flatten_filter_ne_nil, Layout.content]

/-- **Layout does not matter, and corruption shows**: a layout decodes to a byte
string exactly when its lines are the base64 of it. So another layout of the same
characters decodes to the same bytes, and a layout of other characters to other
bytes or to an error. -/
theorem decode_pem_layout_iff (t : Layout) {level : SecurityLevel}
    (hlevel : parse_level_from_header t.header.text = ok level) :
    (∀ data, decode_pem t.text t.label = ok (level, data) ↔ t.content = Base64.encode data)
      ∧ ∀ (u : Layout) (data : Bytes), parse_level_from_header u.header.text = ok level →
          decode_pem t.text t.label = ok (level, data) →
            (u.content = t.content → decode_pem u.text u.label = ok (level, data))
            ∧ (u.content ≠ t.content → (decode_pem u.text u.label).IsErr
                ∨ ∃ data', data' ≠ data ∧ decode_pem u.text u.label = ok (level, data')) := by
  have hiff : ∀ v : Layout, parse_level_from_header v.header.text = ok level → ∀ data,
      decode_pem v.text v.label = ok (level, data) ↔ v.content = Base64.encode data := by
    intro v hv data
    rw [decode_pem_layout v hv, ← Base64.decode_eq_some]
    cases Base64.decode v.content <;> simp
  refine ⟨hiff t hlevel, ?_⟩
  intro u data hu ht
  have hcontent : t.content = Base64.encode data := (hiff t hlevel data).mp ht
  constructor
  · intro heq
    exact (hiff u hu data).mpr (heq.trans hcontent)
  · intro hne
    cases hdec : Base64.decode u.content with
    | none =>
        rw [decode_pem_layout u hu, hdec]
        exact .inl (isErr_err _)
    | some data' =>
        have hu' : u.content = Base64.encode data' := Base64.decode_eq_some.mp hdec
        refine .inr ⟨data', ?_, (hiff u hu data').mpr hu'⟩
        intro heq
        exact hne (by rw [hu', hcontent, heq])

/-- Three bytes over four lines, with both endings and whitespace of several kinds. -/
def sampleLayout : Layout where
  pre := ""
  label := KEM_LABEL
  opening := ⟨[' '], .crlf, by decide⟩
  blanks := [⟨['\t'], .lf, by decide⟩]
  header := ⟨"  the Level3 key\r".toList, .lf, by decide⟩
  lines := [⟨['A'], .lf, by decide⟩, ⟨[], .crlf, by decide⟩, ⟨"\u2003QI ".toList, .crlf, by decide⟩,
    ⟨['D'], .lf, by decide⟩]
  indent := [' ']
  rest := ['x']
  isProse_pre := isProse_empty
  isLabel := .inl rfl
  isBlank_opening := List.all_eq_true.mp (by decide)
  isBlank_blanks := List.forall_mem_singleton.mpr (List.all_eq_true.mp (by decide))
  not_infix_header := Str.contains_eq_false.mp (by decide)
  not_infix_lines := by
    intro l hl hin
    have hdash : '-' ∈ l.text := hin.subset (by decide)
    simp only [List.mem_cons, List.not_mem_nil, or_false] at hl
    rcases hl with rfl | rfl | rfl | rfl
    all_goals exact absurd hdash (by decide)
  isBlank_indent := List.all_eq_true.mp (by decide)

theorem decode_pem_layout_iff_sample :
    decode_pem sampleLayout.text sampleLayout.label = ok (.Level3, [1, 2, 3]) := by
  have hlevel : parse_level_from_header sampleLayout.header.text = ok .Level3 := by decide
  exact ((decode_pem_layout_iff sampleLayout hlevel).1 [1, 2, 3]).mpr (by decide)

/-! ## The header of an accepted text

The decoder searches the header for a level name and looks at nothing else in it.
The algorithm of a key is that of the markers, and its level is tied to the
header by the length of the key alone. -/

/-- The first line between the markers that is not blank, and the ones below it. -/
def HeaderLine (label pem : String) (header : List Char) (rest : List (List Char)) : Prop :=
  ∃ p body, Str.FirstAt (pemBegin label).toList pem.toList p
    ∧ Str.FirstAt (pemEnd label).toList pem.toList (p ++ (pemBegin label).toList ++ body)
    ∧ bodyLines body = header :: rest

theorem decode_body_eq_ok {body : List Char} {level : SecurityLevel} {data : Bytes} :
    decode_body body = ok (level, data)
      ↔ ∃ header rest, bodyLines body = header :: rest ∧ NamesLevel header level
          ∧ rest.flatten = Base64.encode data := by
  rw [decode_body]
  cases hb : bodyLines body with
  | nil => simp
  | cons header rest =>
      simp only [bind_eq_ok, okOr_eq_ok, pure_eq, Outcome.ok.injEq, Prod.mk.injEq,
        parse_level_from_header_eq_ok, Base64.decode_eq_some]
      constructor
      · rintro ⟨l, hl, d, hd, rfl, rfl⟩
        exact ⟨header, rest, rfl, hl, hd⟩
      · rintro ⟨h, r, heq, hl, hd⟩
        obtain ⟨rfl, rfl⟩ := List.cons.inj heq
        exact ⟨level, hl, data, hd, rfl, rfl⟩

/-- **The decoder, exactly**: both markers in order, a first line that names the
level, and below it the base64 of the bytes. -/
theorem decode_pem_eq_ok {pem label : String} {level : SecurityLevel} {data : Bytes} :
    decode_pem pem label = ok (level, data)
      ↔ ∃ header rest, HeaderLine label pem header rest ∧ NamesLevel header level
          ∧ rest.flatten = Base64.encode data := by
  constructor
  · intro h
    have hnp : (decode_pem pem label).NoPanic := h ▸ noPanic_ok _
    have horder := (decode_pem_noPanic pem label).mp hnp
    have hfind := h
    simp only [decode_pem, bind_eq_ok, okOr_eq_ok, Str.find, Option.map_eq_some_iff] at hfind
    obtain ⟨_, ⟨p, hp, -⟩, _, ⟨q, hq, -⟩, -⟩ := hfind
    have hp' := Str.before_eq_some.mp hp
    have hq' := Str.before_eq_some.mp hq
    obtain ⟨body, rfl⟩ := horder p q hp' hq'
    rw [decode_pem_of_order hp' hq'] at h
    obtain ⟨header, rest, hlines, hnames, hdata⟩ := decode_body_eq_ok.mp h
    exact ⟨header, rest, ⟨p, body, hp', hq', hlines⟩, hnames, hdata⟩
  · rintro ⟨header, rest, ⟨p, body, hp, hq, hlines⟩, hnames, hdata⟩
    rw [decode_pem_of_order hp hq]
    exact decode_body_eq_ok.mpr ⟨header, rest, hlines, hnames, hdata⟩

/-- **What an accepted header says**: for both decoders, that the level of the key
is the first one the header mentions. The key has the public-key length of that
level, and its bytes are what stands below the header. -/
theorem public_key_from_pem_eq_ok (P : Platform) (pem : String) :
    (∀ k, kem_public_key_from_pem P pem = ok k
        ↔ ∃ header rest, HeaderLine KEM_LABEL pem header rest ∧ NamesLevel header k.level
            ∧ rest.flatten = Base64.encode k.bytes
            ∧ k.bytes.length = (P.kyber k.level).publicKeyBytes)
      ∧ ∀ k, dsa_public_key_from_pem P pem = ok k
        ↔ ∃ header rest, HeaderLine DSA_LABEL pem header rest ∧ NamesLevel header k.level
            ∧ rest.flatten = Base64.encode k.bytes
            ∧ k.bytes.length = (P.dilithium k.level).publicKeyBytes := by
  constructor
  · intro k
    simp only [kem_public_key_from_pem, bind_eq_ok, Prod.exists, decode_pem_eq_ok,
      KemPublicKey.from_validated_eq_ok]
    constructor
    · rintro ⟨level, data, ⟨header, rest, hline, hnames, hdata⟩, hlen, rfl⟩
      exact ⟨header, rest, hline, hnames, hdata, hlen⟩
    · rintro ⟨header, rest, hline, hnames, hdata, hlen⟩
      exact ⟨k.level, k.bytes, ⟨header, rest, hline, hnames, hdata⟩, hlen, rfl⟩
  · intro k
    simp only [dsa_public_key_from_pem, bind_eq_ok, Prod.exists, decode_pem_eq_ok,
      DsaPublicKey.from_validated_eq_ok]
    constructor
    · rintro ⟨level, data, ⟨header, rest, hline, hnames, hdata⟩, hlen, rfl⟩
      exact ⟨header, rest, hline, hnames, hdata, hlen⟩
    · rintro ⟨header, rest, hline, hnames, hdata, hlen⟩
      exact ⟨k.level, k.bytes, ⟨header, rest, hline, hnames, hdata⟩, hlen, rfl⟩

/-- The header line of a text the encoder wrote is the header it was given. -/
theorem headerLine_encode_pem {label header : String} (hlabel : IsLabel label)
    (hh : PlainHeader header) (data : Bytes) :
    HeaderLine label (encode_pem label header data) header.toList
      ((wrapLines data).filter (fun l => l ≠ [])) := by
  refine ⟨[], bodyText header data, ?_, ?_, bodyLines_bodyText hh⟩
  · apply Str.before_eq_some.mp
    rw [toList_encode_pem]
    exact Str.before_head (List.prefix_append _ _)
  · apply Str.before_eq_some.mp
    rw [toList_encode_pem, ← List.append_assoc, List.nil_append]
    exact (skips_to_end hlabel hh).before _

/-- A header that names the other algorithm, two levels, and a variant of neither. -/
def ambiguousHeader : String := "Algorithm: ML-DSA; Level: Level5, not Level1; Variant: Dilithium3"

/-- The same for the other label, with the algorithm and the variant of a KEM key. -/
def contradictoryHeader : String := "Algorithm: ML-KEM; Level: Level3; Variant: Kyber1024"

theorem plain_ambiguousHeader : PlainHeader ambiguousHeader where
  no_newline := by decide
  no_dashes := Str.contains_eq_false.mp (by decide)
  trimmed := by decide
  ne_nil := by decide

theorem plain_contradictoryHeader : PlainHeader contradictoryHeader where
  no_newline := by decide
  no_dashes := Str.contains_eq_false.mp (by decide)
  trimmed := by decide
  ne_nil := by decide

/-- Both decoders accept a header that is not the one the encoder writes: that of
another algorithm, of two levels, and of another variant. -/
theorem public_key_from_pem_other_header :
    (∃ pem k header rest, kem_public_key_from_pem samplePlatform pem = ok k
        ∧ HeaderLine KEM_LABEL pem header rest ∧ header = ambiguousHeader.toList
        ∧ header ≠ (kemHeader k.level).toList)
      ∧ ∃ pem k header rest, dsa_public_key_from_pem samplePlatform pem = ok k
        ∧ HeaderLine DSA_LABEL pem header rest ∧ header = contradictoryHeader.toList
        ∧ header ≠ (dsaHeader k.level).toList := by
  constructor
  · let k := (Sample.kemPair .Level1 7).public_key
    have hline := headerLine_encode_pem (.inl rfl) plain_ambiguousHeader k.bytes
    have hdec : decode_pem (encode_pem KEM_LABEL ambiguousHeader k.bytes) KEM_LABEL
        = ok (.Level1, k.bytes) :=
      decode_pem_eq_ok.mpr ⟨_, _, hline, parse_level_from_header_eq_ok.mp (by decide),
        flatten_filter_wrapLines _⟩
    have hvalid : KemPublicKey.from_validated samplePlatform .Level1 k.bytes = ok k :=
      (Sample.kemPair_fits .Level1 7).valid Sample.kyberSizes
    refine ⟨_, k, _, _, ?_, hline, rfl, by decide⟩
    rw [kem_public_key_from_pem, hdec, bind_ok]
    exact hvalid
  · let k := (Sample.dsaPair .Level3 7).public_key
    have hline := headerLine_encode_pem (.inr rfl) plain_contradictoryHeader k.bytes
    have hdec : decode_pem (encode_pem DSA_LABEL contradictoryHeader k.bytes) DSA_LABEL
        = ok (.Level3, k.bytes) :=
      decode_pem_eq_ok.mpr ⟨_, _, hline, parse_level_from_header_eq_ok.mp (by decide),
        flatten_filter_wrapLines _⟩
    have hvalid : DsaPublicKey.from_validated samplePlatform .Level3 k.bytes = ok k :=
      (Sample.dsaPair_fits .Level3 7).valid Sample.dilithiumSizes
    refine ⟨_, k, _, _, ?_, hline, rfl, by decide⟩
    rw [dsa_public_key_from_pem, hdec, bind_ok]
    exact hvalid

end PqcVault
