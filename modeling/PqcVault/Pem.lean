/-
`Pem.lean` -- `pem.rs`: public keys as PEM, and what the decoder does on any text.

The decoder looks for its BEGIN and its END marker **independently**, each from
the start of the text, and slices between the end of the one and the start of
the other. Everything it does before the slice is total and everything after it
too, so whether it panics is decided by where the two first occurrences stand.
`decode_pem_noPanic` is that statement, in terms of the text alone.
-/
import PqcVault.Dsa
import PqcVault.Kem
import PqcVault.Lib.Base64

set_option autoImplicit false

namespace PqcVault

open Rust Outcome

/-! ## The format -/

def KEM_LABEL : String := "ML-KEM PUBLIC KEY"

def DSA_LABEL : String := "ML-DSA PUBLIC KEY"

def level_name : SecurityLevel → String
  | .Level1 => "Level1"
  | .Level3 => "Level3"
  | .Level5 => "Level5"

def kem_variant : SecurityLevel → String
  | .Level1 => "Kyber512"
  | .Level3 => "Kyber768"
  | .Level5 => "Kyber1024"

def dsa_variant : SecurityLevel → String
  | .Level1 => "Dilithium2"
  | .Level3 => "Dilithium3"
  | .Level5 => "Dilithium5"

/-- The line that starts the block of a label. -/
def pemBegin (label : String) : String := "-----BEGIN " ++ label ++ "-----"

/-- The line that ends the block of a label. -/
def pemEnd (label : String) : String := "-----END " ++ label ++ "-----"

/-- Base64 is ASCII, so cutting its bytes every 64 is cutting its characters and
the `from_utf8` of each piece succeeds. -/
def encode_pem (label header : String) (data : Bytes) : String :=
  let b64 := Base64.encode data
  let wrapped := ['\n'].intercalate (Str.chunks 64 b64)
  pemBegin label ++ "\n" ++ header ++ "\n" ++ String.ofList wrapped ++ "\n" ++ pemEnd label ++ "\n"

/-- The header line of a KEM key. -/
def kemHeader (level : SecurityLevel) : String :=
  "Algorithm: ML-KEM; Level: " ++ level_name level ++ "; Variant: " ++ kem_variant level

/-- The header line of a DSA key. -/
def dsaHeader (level : SecurityLevel) : String :=
  "Algorithm: ML-DSA; Level: " ++ level_name level ++ "; Variant: " ++ dsa_variant level

def kem_public_key_to_pem (key : KemPublicKey) : String :=
  encode_pem KEM_LABEL (kemHeader key.level) key.bytes

def dsa_public_key_to_pem (key : DsaPublicKey) : String :=
  encode_pem DSA_LABEL (dsaHeader key.level) key.bytes

/-! ## The decoder -/

def parse_level_from_header (header : List Char) : Result SecurityLevel :=
  if Str.contains header "Level1".toList then ok .Level1
  else if Str.contains header "Level3".toList then ok .Level3
  else if Str.contains header "Level5".toList then ok .Level5
  else err (.Other ("Cannot parse security level from PEM header: " ++ String.ofList header))

/-- The lines of a body that survive trimming and the filter. -/
def bodyLines (body : List Char) : List (List Char) :=
  ((Str.lines body).map Str.trim).filter (fun l => l ≠ [])

/-- `decode_pem` from the body on. -/
def decode_body (body : List Char) : Result (SecurityLevel × Bytes) :=
  match bodyLines body with
  | [] => err (.Other "Empty PEM body")
  | header_line :: lines => do
      let level ← parse_level_from_header header_line
      let bytes ← okOr (Base64.decode lines.flatten) (.Other "Invalid base64 in PEM body")
      pure (level, bytes)

def decode_pem (pem expected_label : String) : Result (SecurityLevel × Bytes) := do
  -- Two searches from the start of the text; neither knows of the other.
  let start ← okOr (Str.find pem.toList (pemBegin expected_label).toList)
    (.Other ("Missing PEM header: " ++ pemBegin expected_label))
  let finish ← okOr (Str.find pem.toList (pemEnd expected_label).toList)
    (.Other ("Missing PEM footer: " ++ pemEnd expected_label))
  let body ← Str.slice pem.toList (start + Str.len (pemBegin expected_label).toList) finish
  decode_body body

section Functions

variable (P : Platform)

def kem_public_key_from_pem (pem : String) : Result KemPublicKey := do
  let (level, bytes) ← decode_pem pem KEM_LABEL
  KemPublicKey.from_validated P level bytes

def dsa_public_key_from_pem (pem : String) : Result DsaPublicKey := do
  let (level, bytes) ← decode_pem pem DSA_LABEL
  DsaPublicKey.from_validated P level bytes

end Functions

/-! ## Panics -/

theorem parse_level_from_header_noPanic (header : List Char) :
    (parse_level_from_header header).NoPanic := by
  unfold parse_level_from_header
  split_ifs <;> simp

theorem decode_body_noPanic (body : List Char) : (decode_body body).NoPanic := by
  unfold decode_body
  split
  · exact noPanic_err _
  · rw [noPanic_bind]
    refine ⟨parse_level_from_header_noPanic _, fun level _ => ?_⟩
    rw [noPanic_bind]
    exact ⟨noPanic_okOr _ _, fun _ _ => noPanic_ok _⟩

/-- The decoder on a text whose first BEGIN marker stands after `p` and whose
first END marker stands after `q`. -/
theorem decode_pem_of_firstAt {pem label : String} {p q : List Char}
    (hp : Str.FirstAt (pemBegin label).toList pem.toList p)
    (hq : Str.FirstAt (pemEnd label).toList pem.toList q) :
    decode_pem pem label
      = (Str.slice pem.toList (Str.len p + Str.len (pemBegin label).toList) (Str.len q)
          >>= decode_body) := by
  rw [decode_pem, Str.find, Str.before_eq_some.mpr hp, Option.map_some, okOr_some, bind_ok,
    Str.find, Str.before_eq_some.mpr hq, Option.map_some, okOr_some, bind_ok]

/-- If the first END marker starts where or after the first BEGIN marker ends,
the body is the text between the two. -/
theorem decode_pem_of_order {pem label : String} {p body : List Char}
    (hp : Str.FirstAt (pemBegin label).toList pem.toList p)
    (hq : Str.FirstAt (pemEnd label).toList pem.toList (p ++ (pemBegin label).toList ++ body)) :
    decode_pem pem label = decode_body body := by
  obtain ⟨rest, hrest⟩ := hq.1
  have hsplit : pem.toList
      = p ++ (pemBegin label).toList ++ (body ++ ((pemEnd label).toList ++ rest)) := by
    rw [← hrest]
    simp only [List.append_assoc]
  rw [decode_pem_of_firstAt hp hq, Str.len_append (p ++ _) body, ← Str.len_append, hsplit,
    Str.slice_middle, bind_ok]

/-- The markers of a label stand in order: if the text holds both, its first END
marker does not start before the end of its first BEGIN marker. -/
def MarkersInOrder (label pem : String) : Prop := ∀ p q,
  Str.FirstAt (pemBegin label).toList pem.toList p →
  Str.FirstAt (pemEnd label).toList pem.toList q → p ++ (pemBegin label).toList <+: q

/-- **Where the decoder panics**: on the texts whose two first markers overlap
or stand in the wrong order. -/
theorem decode_pem_noPanic (pem label : String) :
    (decode_pem pem label).NoPanic ↔ MarkersInOrder label pem := by
  constructor
  · intro h p q hp hq
    by_contra hno
    -- Otherwise the slice ends before it starts.
    have hlt : Str.len q < Str.len p + Str.len (pemBegin label).toList := by
      by_contra hge
      apply hno
      apply Str.prefix_of_len_le hp.1 ((List.prefix_append _ _).trans hq.1)
      rw [Str.len_append]
      omega
    rw [decode_pem_of_firstAt hp hq, Str.slice_of_lt _ hlt, bind_panic] at h
    exact h rfl
  · intro h
    cases hb : Str.before (pemBegin label).toList pem.toList with
    | none =>
        rw [decode_pem, Str.find, hb, Option.map_none, okOr_none, bind_err]
        exact noPanic_err _
    | some p =>
        cases he : Str.before (pemEnd label).toList pem.toList with
        | none =>
            -- A missing END marker is an error before anything is sliced.
            rw [decode_pem, Str.find, hb, Option.map_some, okOr_some, bind_ok, Str.find, he,
              Option.map_none, okOr_none, bind_err]
            exact noPanic_err _
        | some q =>
            have hp := Str.before_eq_some.mp hb
            have hq := Str.before_eq_some.mp he
            obtain ⟨body, rfl⟩ := h p q hp hq
            rw [decode_pem_of_order hp hq]
            exact decode_body_noPanic body

end PqcVault
