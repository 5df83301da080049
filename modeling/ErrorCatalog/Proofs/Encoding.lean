import ErrorCatalog.Text.Encoding
import Mathlib.Data.List.Forall2
import Mathlib.Tactic.SplitIfs

/-!
# Proofs/Encoding — bytes that encode a text, and bytes that do not

The decoder goes by a table of the bytes that may follow a lead byte, the encoder by the size of a
code point.  Both draw the same line (`IsSequence.encodeChar`, `exists_isSequence`): a sequence the
table admits is the spelling of the character it stands for, and every character is spelt so.

    decode bytes = .ok t  ↔  bytes = encode t      (`decode_eq_ok_iff`)

Where the bytes encode no text, the fault starts behind the longest of their prefixes that does
(`encode_prefix_of_decode`, `length_encode_le_of_decode`).
-/

namespace ErrorCatalog

namespace Encoding

/-! ## Sequences -/

/-- The bytes fall into the ranges, one by one. -/
def Fits (ranges : List (UInt8 × UInt8)) (tail : Bytes) : Prop :=
  List.Forall₂ (fun r b => r.1 ≤ b ∧ b ≤ r.2) ranges tail

/-- **A sequence that stands for a character**: the bytes that the lead byte asks for follow it. -/
def IsSequence (lead : UInt8) (tail : Bytes) : Prop :=
  ∃ ranges, following? lead = some ranges ∧ Fits ranges tail

/-- The code point that the bits of a sequence spell. -/
def codePoint (lead : UInt8) (tail : Bytes) : Nat :=
  tail.foldl (fun n b => 64 * n + (b.toNat - 0x80)) (leadBits lead tail.length)

section Sequences

variable {a b c d lead : UInt8} {tail : Bytes}

/-- Which bytes must follow a lead byte, by its number. -/
theorem following?_eq_some_iff {ranges : List (UInt8 × UInt8)} : following? lead = some ranges ↔
    lead.toNat < 0x80 ∧ ranges = [] ∨
    (0xc2 ≤ lead.toNat ∧ lead.toNat < 0xe0) ∧ ranges = [continuation] ∨
    lead.toNat = 0xe0 ∧ ranges = [(0xa0, 0xbf), continuation] ∨
    lead.toNat = 0xed ∧ ranges = [(0x80, 0x9f), continuation] ∨
    (0xe0 < lead.toNat ∧ lead.toNat < 0xf0 ∧ lead.toNat ≠ 0xed) ∧
      ranges = [continuation, continuation] ∨
    lead.toNat = 0xf0 ∧ ranges = [(0x90, 0xbf), continuation, continuation] ∨
    (0xf0 < lead.toNat ∧ lead.toNat < 0xf4) ∧
      ranges = [continuation, continuation, continuation] ∨
    lead.toNat = 0xf4 ∧ ranges = [(0x80, 0x8f), continuation, continuation] := by
  simp only [following?, UInt8.lt_iff_toNat_lt, ← UInt8.toNat_inj, UInt8.reduceToNat]
  split_ifs <;> grind

theorem isSequence_one : IsSequence a [] ↔ a.toNat < 0x80 := by
  simp [IsSequence, following?_eq_some_iff, Fits, or_and_right, exists_or, and_assoc]

theorem isSequence_two : IsSequence a [b] ↔
    0xc2 ≤ a.toNat ∧ a.toNat < 0xe0 ∧ 0x80 ≤ b.toNat ∧ b.toNat ≤ 0xbf := by
  simp [IsSequence, following?_eq_some_iff, Fits, or_and_right, exists_or, and_assoc, continuation,
    UInt8.le_iff_toNat_le]

/-- The second byte of a sequence of three leaves no shorter spelling and no surrogate. -/
theorem isSequence_three : IsSequence a [b, c] ↔
    0xe0 ≤ a.toNat ∧ a.toNat < 0xf0 ∧ 0x80 ≤ b.toNat ∧ b.toNat ≤ 0xbf ∧
      0x80 ≤ c.toNat ∧ c.toNat ≤ 0xbf ∧
      (a.toNat = 0xe0 → 0xa0 ≤ b.toNat) ∧ (a.toNat = 0xed → b.toNat ≤ 0x9f) := by
  simp [IsSequence, following?_eq_some_iff, Fits, or_and_right, exists_or, and_assoc, continuation,
    UInt8.le_iff_toNat_le]
  omega

/-- The second byte of a sequence of four leaves no shorter spelling and no code point out of
range. -/
theorem isSequence_four : IsSequence a [b, c, d] ↔
    0xf0 ≤ a.toNat ∧ a.toNat ≤ 0xf4 ∧ 0x80 ≤ b.toNat ∧ b.toNat ≤ 0xbf ∧
      0x80 ≤ c.toNat ∧ c.toNat ≤ 0xbf ∧ 0x80 ≤ d.toNat ∧ d.toNat ≤ 0xbf ∧
      (a.toNat = 0xf0 → 0x90 ≤ b.toNat) ∧ (a.toNat = 0xf4 → b.toNat ≤ 0x8f) := by
  simp [IsSequence, following?_eq_some_iff, Fits, or_and_right, exists_or, and_assoc, continuation,
    UInt8.le_iff_toNat_le]
  omega

/-- No lead byte asks for more than three bytes. -/
theorem IsSequence.length_le (h : IsSequence lead tail) : tail.length ≤ 3 := by
  obtain ⟨ranges, hranges, hfits⟩ := h
  rw [← hfits.length_eq]
  rw [following?_eq_some_iff] at hranges
  grind

/-! ## Spelling a character -/

theorem val_character (h : (codePoint lead tail).isValidChar) :
    (character lead tail).val.toNat = codePoint lead tail := by
  have hc : character lead tail = Char.ofNatAux (codePoint lead tail) h := dif_pos h
  rw [hc]
  rfl

theorem encodeChar_one (h : IsSequence a []) :
    String.utf8EncodeChar (character a []) = [a] := by
  rw [isSequence_one] at h
  have hn : codePoint a [] = a.toNat := rfl
  rw [String.utf8EncodeChar, val_character (.inl (by omega)), hn, if_pos (by omega)]
  simp

theorem encodeChar_two (h : IsSequence a [b]) :
    String.utf8EncodeChar (character a [b]) = [a, b] := by
  rw [isSequence_two] at h
  have hn : codePoint a [b] = 64 * (a.toNat - 0xc0) + (b.toNat - 0x80) := rfl
  rw [String.utf8EncodeChar, val_character (.inl (by omega)), hn, if_neg (by omega),
    if_pos (by omega)]
  simp only [← UInt8.toNat_inj, UInt8.toNat_ofNat', List.cons.injEq, and_true]
  omega

theorem encodeChar_three (h : IsSequence a [b, c]) :
    String.utf8EncodeChar (character a [b, c]) = [a, b, c] := by
  rw [isSequence_three] at h
  have hn : codePoint a [b, c] =
      64 * (64 * (a.toNat - 0xe0) + (b.toNat - 0x80)) + (c.toNat - 0x80) := rfl
  rw [String.utf8EncodeChar, val_character (by unfold Nat.isValidChar; omega), hn,
    if_neg (by omega), if_neg (by omega), if_pos (by omega)]
  simp only [← UInt8.toNat_inj, UInt8.toNat_ofNat', List.cons.injEq, and_true]
  omega

theorem encodeChar_four (h : IsSequence a [b, c, d]) :
    String.utf8EncodeChar (character a [b, c, d]) = [a, b, c, d] := by
  rw [isSequence_four] at h
  have hn : codePoint a [b, c, d] =
      64 * (64 * (64 * (a.toNat - 0xf0) + (b.toNat - 0x80)) + (c.toNat - 0x80)) +
        (d.toNat - 0x80) := rfl
  rw [String.utf8EncodeChar, val_character (by unfold Nat.isValidChar; omega), hn,
    if_neg (by omega), if_neg (by omega), if_neg (by omega)]
  simp only [← UInt8.toNat_inj, UInt8.toNat_ofNat', List.cons.injEq, and_true]
  omega

/-- **A sequence spells the character it stands for.** -/
theorem IsSequence.encodeChar (h : IsSequence lead tail) :
    String.utf8EncodeChar (character lead tail) = lead :: tail := by
  have hlength := h.length_le
  match tail with
  | [] => exact encodeChar_one h
  | [_] => exact encodeChar_two h
  | [_, _] => exact encodeChar_three h
  | [_, _, _] => exact encodeChar_four h
  | _ :: _ :: _ :: _ :: _ =>
    simp only [List.length_cons] at hlength
    omega

/-- **Every character is spelt by a sequence.** -/
theorem exists_isSequence (c : Char) :
    ∃ lead tail, String.utf8EncodeChar c = lead :: tail ∧ IsSequence lead tail := by
  have hc : c.val.toNat < 0xd800 ∨ 0xdfff < c.val.toNat ∧ c.val.toNat < 0x110000 := c.valid
  unfold String.utf8EncodeChar
  dsimp only
  split_ifs
  · exact ⟨_, _, rfl, isSequence_one.mpr (by simp only [UInt8.toNat_ofNat']; omega)⟩
  · exact ⟨_, _, rfl, isSequence_two.mpr (by simp only [UInt8.toNat_ofNat']; omega)⟩
  · exact ⟨_, _, rfl, isSequence_three.mpr (by simp only [UInt8.toNat_ofNat']; omega)⟩
  · exact ⟨_, _, rfl, isSequence_four.mpr (by simp only [UInt8.toNat_ofNat']; omega)⟩

/-- Two characters differ in their spellings, whatever stands behind them. -/
theorem encodeChar_inj {c c' : Char} {r r' : Bytes}
    (h : String.utf8EncodeChar c ++ r = String.utf8EncodeChar c' ++ r') : c = c' := by
  have hdecoded := congrArg (fun b => (List.toByteArray b).utf8DecodeChar? 0) h
  simpa only [List.toByteArray_append, ByteArray.utf8DecodeChar?_utf8EncodeChar_append,
    Option.some.injEq] using hdecoded

end Sequences

/-! ## The front of the bytes -/

section Front

variable {ranges : List (UInt8 × UInt8)} {lead : UInt8} {tail rest r : Bytes} {c : Char} {n : Nat}

theorem fitting_append (h : Fits ranges tail) : fitting ranges (tail ++ r) = tail := by
  induction h with
  | nil => rfl
  | cons hb _ ih => simp [fitting, hb, ih]

theorem fitting_prefix (ranges : List (UInt8 × UInt8)) (rest : Bytes) :
    fitting ranges rest <+: rest := by
  fun_induction fitting ranges rest with
  | case1 _ _ _ _ _ ih => exact List.cons_prefix_cons.mpr ⟨rfl, ih⟩
  | case2 | case3 => exact List.nil_prefix

theorem fits_fitting (h : (fitting ranges rest).length = ranges.length) :
    Fits ranges (fitting ranges rest) := by
  fun_induction fitting ranges rest with
  | case1 _ _ _ _ hb ih =>
    exact .cons (by simpa using hb) (ih (by simpa using h))
  | case2 => cases h
  | case3 ranges _ _ =>
    obtain rfl : ranges = [] := List.length_eq_zero_iff.mp h.symm
    exact .nil

/-- The spelling of a character at the front is taken for that character. -/
theorem front_of_encodeChar (h : String.utf8EncodeChar c = lead :: tail) :
    front lead (tail ++ r) = .ok (c, tail.length) := by
  obtain ⟨lead', tail', h', hsequence⟩ := exists_isSequence c
  obtain ⟨rfl, rfl⟩ := List.cons.inj (h.symm.trans h')
  have hc : character lead tail = c :=
    encodeChar_inj (congrArg (· ++ []) (hsequence.encodeChar.trans h.symm))
  obtain ⟨ranges, hranges, hfits⟩ := hsequence
  simp only [front, hranges, fitting_append hfits, hc, hfits.length_eq, if_true]

/-- What is taken for a character is its spelling. -/
theorem encodeChar_of_front (h : front lead rest = .ok (c, n)) :
    ∃ tail r, rest = tail ++ r ∧ n = tail.length ∧ String.utf8EncodeChar c = lead :: tail := by
  unfold front at h
  split at h
  · cases h
  · next ranges hranges =>
    obtain ⟨r, hr⟩ := fitting_prefix ranges rest
    dsimp only at h
    split_ifs at h with hlength
    cases h
    exact ⟨_, r, hr.symm, rfl, IsSequence.encodeChar ⟨ranges, hranges, fits_fitting hlength⟩⟩

end Front

/-! ## The whole of the bytes -/

section Whole

variable {start n : Nat} {bytes r : Bytes} {t : Text} {f : Fault}

theorem encode_cons (c : Char) (t : Text) :
    encode (c :: t) = String.utf8EncodeChar c ++ encode t := List.flatMap_cons

/-- **Decoding goes through an encoded text** and on behind it. -/
theorem decodeFrom_append (start : Nat) (t : Text) (r : Bytes) :
    decodeFrom start (encode t ++ r) =
      (decodeFrom (start + (encode t).length) r).map (t ++ ·) := by
  induction t generalizing start with
  | nil =>
    change decodeFrom start r = (decodeFrom start r).map id
    cases decodeFrom start r <;> rfl
  | cons c t ih =>
    obtain ⟨lead, tail, hc, -⟩ := exists_isSequence c
    have hstart : start + (lead :: (tail ++ encode t)).length =
        start + 1 + tail.length + (encode t).length := by
      rw [List.length_cons, List.length_append]
      omega
    rw [encode_cons, hc, List.cons_append, List.cons_append, List.append_assoc, hstart, decodeFrom,
      front_of_encodeChar hc]
    dsimp only
    rw [List.drop_left, ih]
    cases decodeFrom (start + 1 + tail.length + (encode t).length) r <;> rfl

/-- What is decoded is the encoding of the result; what is not goes on behind an encoding. -/
theorem decodeFrom_split (start : Nat) (bytes : Bytes) :
    match decodeFrom start bytes with
    | .ok t => bytes = encode t
    | .error f => ∃ t, encode t <+: bytes ∧ f.start = start + (encode t).length := by
  fun_induction decodeFrom start bytes with
  | case1 => rfl
  | case2 => exact ⟨[], List.nil_prefix, rfl⟩
  | case3 start lead rest c n hfront ih =>
    obtain ⟨tail, r, rfl, rfl, hc⟩ := encodeChar_of_front hfront
    rw [List.drop_left] at ih ⊢
    cases hr : decodeFrom (start + 1 + tail.length) r with
    | ok t =>
      rw [hr] at ih
      change lead :: (tail ++ r) = encode (c :: t)
      rw [ih, encode_cons, hc, List.cons_append]
    | error f =>
      rw [hr] at ih
      obtain ⟨t, ht, hstart⟩ := ih
      refine ⟨c :: t, ?_, ?_⟩
      · rw [encode_cons, hc, List.cons_append]
        exact List.cons_prefix_cons.mpr ⟨rfl, (List.prefix_append_right_inj _).mpr ht⟩
      · rw [hstart, encode_cons, hc, List.cons_append, List.length_cons, List.length_append]
        omega

/-- **The bytes with a text are the encodings of texts.** -/
theorem decode_eq_ok_iff : decode bytes = .ok t ↔ bytes = encode t := by
  refine ⟨fun h => ?_, fun h => ?_⟩
  · have hsplit := decodeFrom_split 0 bytes
    rwa [show decodeFrom 0 bytes = .ok t from h] at hsplit
  · have happend := decodeFrom_append 0 t []
    rwa [List.append_nil, ← h, decodeFrom, Except.map, List.append_nil] at happend

end Whole

end Encoding

end ErrorCatalog
