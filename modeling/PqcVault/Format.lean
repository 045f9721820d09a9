/-
`Format.lean` -- the plaintext of a bundle as a format.

What `Plaintext.lean` says of one decoder run, as facts about the format: the
encoder is a section of the decoder and its only one, so a buffer and the pair it
decodes to determine each other, and of all buffers a key pair comes out of
exactly the ones that hold two halves of the level's lengths.

The second part is about the sum `4 + pk_len`. On a 32-bit target it wraps for
the four largest prefixes, and the theorem says that these are all there is.
-/
import PqcVault.Sample

set_option autoImplicit false

namespace PqcVault

open Rust Outcome

/-! ## The decoder and its inverse -/

/-- The prefix and the two cuts of a buffer. -/
theorem encode_plaintext_split {data : Bytes} (h : 4 + pkLen data ≤ data.length) :
    encode_plaintext ((data.take (4 + pkLen data)).drop 4) (data.drop (4 + pkLen data)) = data := by
  have hlen : ((data.take (4 + pkLen data)).drop 4).length = pkLen data := by
    rw [List.length_drop, List.length_take]
    omega
  have hhead : u32ToLeBytes (pkLen data) = (data.take (4 + pkLen data)).take 4 := by
    have hfour : (data.take 4).length = 4 := by rw [List.length_take]; omega
    rw [pkLen, u32ToLeBytes_fromLeBytes hfour, List.take_take, min_eq_left (by omega)]
  rw [encode_plaintext, hlen, hhead, List.take_append_drop, List.take_append_drop]

/-- **The decoder, exactly**: it returns two byte strings on their encoding, and on
no other buffer. -/
theorem decode_plaintext_eq_ok {usizeBits : ℕ} (hbits : 32 ≤ usizeBits) {data pk sk : Bytes} :
    decode_plaintext usizeBits data = ok (pk, sk)
      ↔ data = encode_plaintext pk sk ∧ pk.length < 2 ^ 32 ∧ 4 + pk.length < 2 ^ usizeBits := by
  constructor
  · intro h
    have hnp : (decode_plaintext usizeBits data).NoPanic := h ▸ noPanic_ok _
    have hlong : ¬ data.length < 4 := by
      intro hshort
      rw [decode_plaintext_of_short hshort] at h
      exact absurd h (by simp)
    have hfit : PrefixFits usizeBits data :=
      ((decode_plaintext_noPanic hbits data).mp hnp).resolve_left hlong
    rw [decode_plaintext_of_fits (by omega) hfit] at h
    split_ifs at h with hshort
    obtain ⟨rfl, rfl⟩ := Prod.mk.inj (Outcome.ok.inj h)
    have hlen : ((data.take (4 + pkLen data)).drop 4).length = pkLen data := by
      rw [List.length_drop, List.length_take]
      omega
    rw [hlen]
    exact ⟨(encode_plaintext_split (by omega)).symm, pkLen_lt data, hfit⟩
  · rintro ⟨rfl, hpk, hfit⟩
    exact decode_encode_plaintext hpk hfit sk

/-- The layout of the plaintext of a pair whose halves have `n` and `m` bytes. -/
def IsEncoding (n m : ℕ) (x : Bytes) : Prop :=
  ∃ pk sk : Bytes, pk.length = n ∧ sk.length = m ∧ x = u32ToLeBytes n ++ pk ++ sk

/-- Length and prefix tell: no truncation, extension or other prefix is one too. -/
theorem isEncoding_iff {n m : ℕ} {x : Bytes} :
    IsEncoding n m x ↔ x.length = 4 + n + m ∧ x.take 4 = u32ToLeBytes n := by
  constructor
  · rintro ⟨pk, sk, rfl, rfl, rfl⟩
    exact ⟨length_encode_plaintext pk sk, take_encode_plaintext pk sk⟩
  · rintro ⟨hlen, hpre⟩
    refine ⟨(x.drop 4).take n, (x.drop 4).drop n, ?_, ?_, ?_⟩
    · rw [List.length_take, List.length_drop]
      omega
    · rw [List.length_drop, List.length_drop]
      omega
    · rw [← hpre, List.append_assoc, List.take_append_drop, List.take_append_drop]

/-! ## Both kinds of key -/

section Kinds

variable {P : Platform}

theorem decode_kem_plaintext_eq_ok (hbits : 32 ≤ P.usizeBits) {level : SecurityLevel} {x : Bytes}
    {d : KemKeyData} :
    decode_kem_plaintext P level x = ok d
      ↔ d.level = level ∧ x = encode_kem_plaintext d ∧ d.public_key.length < 2 ^ 32
        ∧ 4 + d.public_key.length < 2 ^ P.usizeBits := by
  simp only [decode_kem_plaintext, bind_eq_ok, pure_eq, Outcome.ok.injEq, Prod.exists]
  constructor
  · rintro ⟨pk, sk, h, rfl⟩
    exact ⟨rfl, (decode_plaintext_eq_ok hbits).mp h⟩
  · rintro ⟨rfl, h⟩
    exact ⟨_, _, (decode_plaintext_eq_ok hbits).mpr h, rfl⟩

theorem decode_dsa_plaintext_eq_ok (hbits : 32 ≤ P.usizeBits) {level : SecurityLevel} {x : Bytes}
    {d : DsaKeyData} :
    decode_dsa_plaintext P level x = ok d
      ↔ d.level = level ∧ x = encode_dsa_plaintext d ∧ d.public_key.length < 2 ^ 32
        ∧ 4 + d.public_key.length < 2 ^ P.usizeBits := by
  simp only [decode_dsa_plaintext, bind_eq_ok, pure_eq, Outcome.ok.injEq, Prod.exists]
  constructor
  · rintro ⟨pk, sk, h, rfl⟩
    exact ⟨rfl, (decode_plaintext_eq_ok hbits).mp h⟩
  · rintro ⟨rfl, h⟩
    exact ⟨_, _, (decode_plaintext_eq_ok hbits).mpr h, rfl⟩

/-- Restoring, for either kind: `into` is the check of the lengths. -/
theorem decode_into_isOk {α : Type} (hword : P.WordSize) {n m : ℕ} (hn : n ≤ 4096) {x : Bytes}
    {into : Bytes × Bytes → Result α}
    (hinto : ∀ pk sk, (into (pk, sk)).IsOk ↔ pk.length = n ∧ sk.length = m) :
    (decode_plaintext P.usizeBits x >>= into).IsOk ↔ IsEncoding n m x := by
  constructor
  · rintro ⟨a, ha⟩
    obtain ⟨⟨pk, sk⟩, hdec, hok⟩ := bind_eq_ok.mp ha
    obtain ⟨rfl, rfl⟩ := (hinto pk sk).mp ⟨a, hok⟩
    exact ⟨pk, sk, rfl, rfl, ((decode_plaintext_eq_ok hword.le).mp hdec).1⟩
  · rintro ⟨pk, sk, rfl, rfl, rfl⟩
    obtain ⟨h32, hfit⟩ := prefix_of_length hword hn
    obtain ⟨a, ha⟩ := (hinto pk sk).mpr ⟨rfl, rfl⟩
    exact ⟨a, bind_eq_ok.mpr ⟨(pk, sk), decode_encode_plaintext h32 hfit sk, ha⟩⟩

theorem restore_kem_isOk (hword : P.WordSize) (hK : P.KyberSizes) {level : SecurityLevel}
    {x : Bytes} :
    (restore_kem P level x).IsOk
      ↔ IsEncoding (kemSizes level).public_key (kemSizes level).private_key x := by
  rw [restore_kem, decode_kem_plaintext, bind_assoc]
  exact decode_into_isOk hword (kemSizes_public_key_le level) fun _ _ =>
    KemKeyPair.from_bytes_isOk hK

theorem restore_dsa_isOk (hword : P.WordSize) (hD : P.DilithiumSizes) {level : SecurityLevel}
    {x : Bytes} :
    (restore_dsa P level x).IsOk
      ↔ IsEncoding (dsaSizes level).public_key (dsaSizes level).private_key x := by
  rw [restore_dsa, decode_dsa_plaintext, bind_assoc]
  exact decode_into_isOk hword (dsaSizes_public_key_le level) fun _ _ =>
    DsaKeyPair.from_bytes_isOk hD

theorem prefix_of_64 (hbits : P.usizeBits = 64) {n : ℕ} (hn : n < 2 ^ 32) :
    32 ≤ P.usizeBits ∧ 4 + n < 2 ^ P.usizeBits := by
  rw [hbits]
  omega

theorem decode_encode_kem_plaintext (hbits : P.usizeBits = 64) {d : KemKeyData}
    (hpk : d.public_key.length < 2 ^ 32) :
    decode_kem_plaintext P d.level (encode_kem_plaintext d) = ok d := by
  obtain ⟨hle, hfit⟩ := prefix_of_64 hbits hpk
  exact (decode_kem_plaintext_eq_ok hle).mpr ⟨rfl, rfl, hpk, hfit⟩

theorem decode_encode_dsa_plaintext (hbits : P.usizeBits = 64) {d : DsaKeyData}
    (hpk : d.public_key.length < 2 ^ 32) :
    decode_dsa_plaintext P d.level (encode_dsa_plaintext d) = ok d := by
  obtain ⟨hle, hfit⟩ := prefix_of_64 hbits hpk
  exact (decode_dsa_plaintext_eq_ok hle).mpr ⟨rfl, rfl, hpk, hfit⟩

/-- With 64-bit words no sum wraps, so what is not restored is an error. -/
theorem isErr_of_64 {α : Type} (hbits : P.usizeBits = 64) {x : Bytes} {restored : Result α}
    {p : Prop} (hnp : restored.NoPanic ↔ x.length < 4 ∨ PrefixFits P.usizeBits x)
    (hok : restored.IsOk ↔ p) (hx : ¬ p) : restored.IsErr := by
  have hfit : PrefixFits P.usizeBits x := hbits ▸ prefixFits_of_64 x
  apply (hnp.mpr (.inr hfit)).isErr
  intro a ha
  exact hx (hok.mp ⟨a, ha⟩)

theorem restore_kem_isErr (hbits : P.usizeBits = 64) (hK : P.KyberSizes) {level : SecurityLevel}
    {x : Bytes} (hx : ¬ IsEncoding (kemSizes level).public_key (kemSizes level).private_key x) :
    (restore_kem P level x).IsErr := by
  have hword : P.WordSize := .inr hbits
  exact isErr_of_64 hbits (restore_kem_noPanic hword.le level x) (restore_kem_isOk hword hK) hx

theorem restore_dsa_isErr (hbits : P.usizeBits = 64) (hD : P.DilithiumSizes)
    {level : SecurityLevel} {x : Bytes}
    (hx : ¬ IsEncoding (dsaSizes level).public_key (dsaSizes level).private_key x) :
    (restore_dsa P level x).IsErr := by
  have hword : P.WordSize := .inr hbits
  exact isErr_of_64 hbits (restore_dsa_noPanic hword.le level x) (restore_dsa_isOk hword hD) hx

/-- A buffer of another length, or with another prefix, than an encoding. -/
theorem IsEncoding.not_of_altered {n m : ℕ} {x y : Bytes} (hx : IsEncoding n m x)
    (hy : y.length ≠ x.length ∨ y.take 4 ≠ x.take 4) : ¬ IsEncoding n m y := by
  intro henc
  obtain ⟨hxlen, hxpre⟩ := isEncoding_iff.mp hx
  obtain ⟨hylen, hypre⟩ := isEncoding_iff.mp henc
  rcases hy with hlen | hpre
  · exact hlen (hylen.trans hxlen.symm)
  · exact hpre (hypre.trans hxpre.symm)

end Kinds

/-- **The plaintext format is exact**, for both kinds of key: encoding and decoding
are inverse, a pair comes out of the encodings of two halves of the level's
lengths, and every other buffer is an error, so any truncation, extension or
other prefix of an encoding is. -/
theorem plaintext_format_exact {P : Platform} (hbits : P.usizeBits = 64) (hK : P.KyberSizes)
    (hD : P.DilithiumSizes) :
    ((∀ d : KemKeyData, d.public_key.length < 2 ^ 32 →
          decode_kem_plaintext P d.level (encode_kem_plaintext d) = ok d)
      ∧ (∀ d : DsaKeyData, d.public_key.length < 2 ^ 32 →
          decode_dsa_plaintext P d.level (encode_dsa_plaintext d) = ok d))
    ∧ ((∀ level x d, decode_kem_plaintext P level x = ok d → encode_kem_plaintext d = x)
      ∧ (∀ level x d, decode_dsa_plaintext P level x = ok d → encode_dsa_plaintext d = x))
    ∧ (∀ level x,
        ((decode_kem_plaintext P level x >>= fun d => d.into_keypair P).IsOk
          ↔ IsEncoding (kemSizes level).public_key (kemSizes level).private_key x)
        ∧ (¬ IsEncoding (kemSizes level).public_key (kemSizes level).private_key x →
            (decode_kem_plaintext P level x >>= fun d => d.into_keypair P).IsErr)
        ∧ ((decode_dsa_plaintext P level x >>= fun d => d.into_keypair P).IsOk
          ↔ IsEncoding (dsaSizes level).public_key (dsaSizes level).private_key x)
        ∧ (¬ IsEncoding (dsaSizes level).public_key (dsaSizes level).private_key x →
            (decode_dsa_plaintext P level x >>= fun d => d.into_keypair P).IsErr))
    ∧ ∀ level x y, y.length ≠ x.length ∨ y.take 4 ≠ x.take 4 →
        (IsEncoding (kemSizes level).public_key (kemSizes level).private_key x →
            (decode_kem_plaintext P level y >>= fun d => d.into_keypair P).IsErr)
        ∧ (IsEncoding (dsaSizes level).public_key (dsaSizes level).private_key x →
            (decode_dsa_plaintext P level y >>= fun d => d.into_keypair P).IsErr) := by
  have hword : P.WordSize := .inr hbits
  refine ⟨⟨?_, ?_⟩, ⟨?_, ?_⟩, ?_, ?_⟩
  · intro d hpk
    exact decode_encode_kem_plaintext hbits hpk
  · intro d hpk
    exact decode_encode_dsa_plaintext hbits hpk
  · intro level x d h
    exact ((decode_kem_plaintext_eq_ok hword.le).mp h).2.1.symm
  · intro level x d h
    exact ((decode_dsa_plaintext_eq_ok hword.le).mp h).2.1.symm
  · intro level x
    exact ⟨restore_kem_isOk hword hK, restore_kem_isErr hbits hK, restore_dsa_isOk hword hD,
      restore_dsa_isErr hbits hD⟩
  · intro level x y hy
    constructor
    · intro hx
      exact restore_kem_isErr hbits hK (hx.not_of_altered hy)
    · intro hx
      exact restore_dsa_isErr hbits hD (hx.not_of_altered hy)

/-- Two short halves survive the format and are then refused, two halves of the
first level are restored. -/
theorem plaintext_format_exact_sample :
    decode_kem_plaintext samplePlatform .Level1 (encode_kem_plaintext ⟨.Level1, [7], [8, 9]⟩)
        = ok ⟨.Level1, [7], [8, 9]⟩
      ∧ (decode_dsa_plaintext samplePlatform .Level1 [1, 0, 0, 0, 7, 8, 9]
          >>= fun d => d.into_keypair samplePlatform).IsErr
      ∧ (decode_kem_plaintext samplePlatform .Level1
          (u32ToLeBytes 800 ++ List.replicate 800 7 ++ List.replicate 1632 8)
          >>= fun d => d.into_keypair samplePlatform).IsOk := by
  obtain ⟨⟨hkem, -⟩, -, hinto, -⟩ :=
    plaintext_format_exact (P := samplePlatform) rfl Sample.kyberSizes Sample.dilithiumSizes
  refine ⟨?_, ?_, ?_⟩
  · exact hkem ⟨.Level1, [7], [8, 9]⟩ (by decide)
  · have hlen : ¬ IsEncoding 1312 2528 [1, 0, 0, 0, 7, 8, 9] := by
      rw [isEncoding_iff]
      decide
    exact (hinto .Level1 [1, 0, 0, 0, 7, 8, 9]).2.2.2 hlen
  · exact (hinto .Level1 _).1.mpr
      ⟨_, _, List.length_replicate, List.length_replicate, rfl⟩

/-! ## The sum

A decoder takes `4 + pk_len` once the buffer has four bytes. On 64 bits the sum of
any prefix fits. On 32 bits the four prefixes from `2 ^ 32 - 4` on wrap to a stop
below four, which every buffer is long enough for. -/

/-- What the arithmetic of a decoder owes a buffer: the sum fits the word wherever
it is taken, no slice panics, and the errors are those of the two missing parts,
as integers. -/
structure LengthSafe {α : Type} (usizeBits : ℕ) (data : Bytes) (decoded : Result α) : Prop where
  fits : 4 ≤ data.length → PrefixFits usizeBits data
  noPanic : decoded.NoPanic
  isErr_iff : decoded.IsErr ↔ data.length < 4 ∨ data.length < 4 + pkLen data

/-- The buffers a decoder is safe on, for either word size. -/
theorem prefixFits_iff {usizeBits : ℕ} (hbits : usizeBits = 32 ∨ usizeBits = 64) (data : Bytes) :
    PrefixFits usizeBits data ↔ usizeBits = 64 ∨ pkLen data < 2 ^ 32 - 4 := by
  have hlt := pkLen_lt data
  unfold PrefixFits
  rcases hbits with rfl | rfl
  · constructor
    · intro h
      exact .inr (by omega)
    · intro h
      omega
  · constructor
    · intro _
      exact .inl rfl
    · intro _
      omega

/-- The two errors of the decoder, where the sum fits. -/
theorem decode_plaintext_isErr {usizeBits : ℕ} {data : Bytes}
    (h : data.length < 4 ∨ PrefixFits usizeBits data) :
    (decode_plaintext usizeBits data).IsErr
      ↔ data.length < 4 ∨ data.length < 4 + pkLen data := by
  by_cases hshort : data.length < 4
  · rw [decode_plaintext_of_short hshort]
    exact iff_of_true (isErr_err _) (.inl hshort)
  · rw [decode_plaintext_of_fits (by omega) (h.resolve_left hshort)]
    by_cases hcut : data.length < 4 + pkLen data
    · rw [if_pos hcut]
      exact iff_of_true (isErr_err _) (.inr hcut)
    · rw [if_neg hcut]
      exact iff_of_false (not_isErr_ok _) (by omega)

theorem lengthSafe_iff {α : Type} {usizeBits : ℕ} (hbits : usizeBits = 32 ∨ usizeBits = 64)
    (data : Bytes) (build : Bytes × Bytes → α) :
    LengthSafe usizeBits data (decode_plaintext usizeBits data >>= fun x => ok (build x))
      ↔ usizeBits = 64 ∨ data.length < 4 ∨ pkLen data < 2 ^ 32 - 4 := by
  have hle : 32 ≤ usizeBits := by omega
  have hnp : (decode_plaintext usizeBits data >>= fun x => ok (build x)).NoPanic
      ↔ data.length < 4 ∨ PrefixFits usizeBits data := by
    rw [noPanic_bind, decode_plaintext_noPanic hle]
    exact and_iff_left fun _ _ => noPanic_ok _
  have hcond : data.length < 4 ∨ PrefixFits usizeBits data
      ↔ usizeBits = 64 ∨ data.length < 4 ∨ pkLen data < 2 ^ 32 - 4 := by
    rw [prefixFits_iff hbits]
    tauto
  rw [← hcond]
  constructor
  · intro h
    exact hnp.mp h.noPanic
  · intro h
    refine ⟨?_, hnp.mpr h, ?_⟩
    · intro hlong
      exact h.resolve_left (by omega)
    · rw [isErr_bind, decode_plaintext_isErr h]
      exact or_iff_left fun ⟨_, _, herr⟩ => not_isErr_ok _ herr

/-- **The length arithmetic of the decoders**, for both kinds of key: it is safe on
64-bit words, and on 32-bit words on the buffers that are too short for a prefix
or whose prefix is below `2 ^ 32 - 4`. -/
theorem decode_lengthSafe_iff {P : Platform} (hword : P.WordSize) (level : SecurityLevel)
    (data : Bytes) :
    (LengthSafe P.usizeBits data (decode_kem_plaintext P level data)
        ↔ P.usizeBits = 64 ∨ data.length < 4 ∨ pkLen data < 2 ^ 32 - 4)
      ∧ (LengthSafe P.usizeBits data (decode_dsa_plaintext P level data)
        ↔ P.usizeBits = 64 ∨ data.length < 4 ∨ pkLen data < 2 ^ 32 - 4) := by
  constructor
  · exact lengthSafe_iff hword data fun x => (⟨level, x.1, x.2⟩ : KemKeyData)
  · exact lengthSafe_iff hword data fun x => (⟨level, x.1, x.2⟩ : DsaKeyData)

/-- The sample platform with 32-bit words. -/
def samplePlatform32 : Platform := { samplePlatform with usizeBits := 32 }

/-- The largest prefix, alone: the sum wraps to three, and `4..3` panics. -/
theorem decode_plaintext_wraps :
    samplePlatform32.WordSize ∧ [255, 255, 255, 255].length ≤ 2 ^ 31 - 1
      ∧ ¬ LengthSafe 32 [255, 255, 255, 255]
        (decode_kem_plaintext samplePlatform32 .Level1 [255, 255, 255, 255])
      ∧ ¬ LengthSafe 32 [255, 255, 255, 255]
        (decode_dsa_plaintext samplePlatform32 .Level1 [255, 255, 255, 255]) := by
  have hkem : decode_kem_plaintext samplePlatform32 .Level1 [255, 255, 255, 255] = panic := by
    decide
  have hdsa : decode_dsa_plaintext samplePlatform32 .Level1 [255, 255, 255, 255] = panic := by
    decide
  refine ⟨.inl rfl, by decide, ?_, ?_⟩
  · intro h
    rw [hkem] at h
    exact not_noPanic_panic h.noPanic
  · intro h
    rw [hdsa] at h
    exact not_noPanic_panic h.noPanic

/-- At that buffer both sides of both equivalences are false. -/
theorem decode_lengthSafe_iff_wraps :
    ¬ LengthSafe 32 [255, 255, 255, 255]
        (decode_kem_plaintext samplePlatform32 .Level1 [255, 255, 255, 255])
      ∧ ¬ LengthSafe 32 [255, 255, 255, 255]
        (decode_dsa_plaintext samplePlatform32 .Level1 [255, 255, 255, 255])
      ∧ ¬ (samplePlatform32.usizeBits = 64 ∨ [255, 255, 255, 255].length < 4
        ∨ pkLen [255, 255, 255, 255] < 2 ^ 32 - 4) := by
  have hno : ¬ (samplePlatform32.usizeBits = 64 ∨ [255, 255, 255, 255].length < 4
      ∨ pkLen [255, 255, 255, 255] < 2 ^ 32 - 4) := by decide
  obtain ⟨hkem, hdsa⟩ :=
    decode_lengthSafe_iff (P := samplePlatform32) (.inl rfl) .Level1 [255, 255, 255, 255]
  exact ⟨fun h => hno (hkem.mp h), fun h => hno (hdsa.mp h), hno⟩

end PqcVault
