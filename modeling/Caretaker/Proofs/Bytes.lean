import Caretaker.Text.Utf8

/-!
# The bytes of a text

A text is encoded character by character.  Each character is read back off its bytes, whatever
stands behind them, so a list of bytes that was cut somewhere loses the bytes of one character at
most.

Main definitions:

- `Encodes`: the bytes that stand for the code of a character.

Main statements:

- `encode_eq`: the bytes of a text are those of its characters.
- `next_utf8EncodeChar`: a character is read back off its bytes.
- `le_length_wholePart`: what is whole in the start of an encoded text.
-/

namespace Caretaker.Utf8

open String (utf8EncodeChar)

/-! ## Encoding -/

theorem toList_loop (bytes : ByteArray) (i : Nat) (read : List UInt8) :
    ByteArray.toList.loop bytes i read = read.reverse ++ bytes.data.toList.drop i := by
  fun_induction ByteArray.toList.loop bytes i read with
  | case1 i read h ih =>
    have hrest := List.drop_eq_getElem_cons (l := bytes.data.toList) (i := i) (by simpa using h)
    rw [ih, hrest]
    simp [ByteArray.get!, h]
  | case2 i read h => simp [List.drop_eq_nil_of_le (Nat.le_of_not_lt h)]

theorem toList_eq (bytes : ByteArray) : bytes.toList = bytes.data.toList := toList_loop bytes 0 []

/-- The bytes of a list of characters. -/
def encodeChars (text : List Char) : List UInt8 := text.flatMap utf8EncodeChar

@[simp] theorem encodeChars_nil : encodeChars [] = [] := rfl

@[simp] theorem encodeChars_cons (c : Char) (text : List Char) :
    encodeChars (c :: text) = utf8EncodeChar c ++ encodeChars text := rfl

/-- The bytes of a text are those of its characters. -/
theorem encode_eq (text : String) : encode text = encodeChars text.toList := by
  have hbytes : text.toUTF8 = (encodeChars text.toList).toByteArray := by
    rw [String.toUTF8, ← String.utf8Encode_toList, List.utf8Encode, encodeChars]
  rw [encode, toList_eq, hbytes, List.toList_data_toByteArray]

/-- Two lists of characters with the same bytes are the same. -/
theorem encodeChars_injective {text text' : List Char} (h : encodeChars text = encodeChars text') :
    text = text' := by
  have hbytes (text : List Char) :
      encodeChars text = (String.ofList text).toByteArray.data.toList := by
    rw [← toList_eq, ← String.toUTF8, ← encode, encode_eq, String.toList_ofList]
  rw [hbytes, hbytes, Array.toList_inj, ← ByteArray.ext_iff, String.toByteArray_inj] at h
  simpa using congrArg String.toList h

/-- The bytes that stand for a code. -/
inductive Encodes (code : Nat) : List UInt8 → Prop where
  | one {b : UInt8} (hb : b.toNat = code) (h : code < 0x80) : Encodes code [b]
  | two {b b1 : UInt8} (hb : b.toNat = code / 64 + 0xC0) (hb1 : b1.toNat = code % 64 + 0x80)
      (hlow : 0x80 ≤ code) (hhigh : code < 0x800) : Encodes code [b, b1]
  | three {b b1 b2 : UInt8} (hb : b.toNat = code / 4096 + 0xE0)
      (hb1 : b1.toNat = code / 64 % 64 + 0x80) (hb2 : b2.toNat = code % 64 + 0x80)
      (hlow : 0x800 ≤ code) (hhigh : code < 0x10000) (hscalar : code < 0xD800 ∨ 0xE000 ≤ code) :
      Encodes code [b, b1, b2]
  | four {b b1 b2 b3 : UInt8} (hb : b.toNat = code / 262144 + 0xF0)
      (hb1 : b1.toNat = code / 4096 % 64 + 0x80) (hb2 : b2.toNat = code / 64 % 64 + 0x80)
      (hb3 : b3.toNat = code % 64 + 0x80) (hlow : 0x10000 ≤ code) (hhigh : code < 0x110000) :
      Encodes code [b, b1, b2, b3]

/-- The bytes of a character stand for its code. -/
theorem encodes_utf8EncodeChar (c : Char) : Encodes c.toNat (utf8EncodeChar c) := by
  have hvalid : c.toNat < 0xD800 ∨ 0xDFFF < c.toNat ∧ c.toNat < 0x110000 := c.valid
  have hcode : c.val.toNat = c.toNat := rfl
  -- all bytes are given as numbers below 256
  have hbyte {n : Nat} (h : n < 256) : (UInt8.ofNat n).toNat = n := UInt8.toNat_ofNat_of_lt' h
  simp only [utf8EncodeChar, hcode]
  split
  · exact .one (hbyte (by omega)) (by omega)
  split
  · exact .two (by rw [hbyte (by omega)]; omega) (hbyte (by omega)) (by omega) (by omega)
  split
  · exact .three (by rw [hbyte (by omega)]; omega) (hbyte (by omega)) (hbyte (by omega)) (by omega)
      (by omega) (by omega)
  · exact .four (by rw [hbyte (by omega)]; omega) (hbyte (by omega)) (hbyte (by omega))
      (hbyte (by omega)) (by omega) (by omega)

section Encodes

variable {code : Nat} {bytes : List UInt8}

/-- A byte of ASCII stands for a character of its own. -/
theorem Encodes.eq_of_ascii {b : UInt8} (h : Encodes code bytes) (hmem : b ∈ bytes)
    (hb : b.toNat < 0x80) : code = b.toNat := by
  cases h with
  | one => simp_all
  | two =>
    simp only [List.mem_cons, List.not_mem_nil, or_false] at hmem
    rcases hmem with rfl | rfl <;> omega
  | three =>
    simp only [List.mem_cons, List.not_mem_nil, or_false] at hmem
    rcases hmem with rfl | rfl | rfl <;> omega
  | four =>
    simp only [List.mem_cons, List.not_mem_nil, or_false] at hmem
    rcases hmem with rfl | rfl | rfl | rfl <;> omega

/-! ## Reading back -/

/-- The shape of a sequence by the number of its first byte. -/
theorem shape?_eq (b : UInt8) :
    shape? b =
      if 0xC2 ≤ b.toNat ∧ b.toNat ≤ 0xDF then some (2, 0x80, 0xBF)
      else if b.toNat = 0xE0 then some (3, 0xA0, 0xBF)
      else if b.toNat = 0xED then some (3, 0x80, 0x9F)
      else if 0xE1 ≤ b.toNat ∧ b.toNat ≤ 0xEF then some (3, 0x80, 0xBF)
      else if b.toNat = 0xF0 then some (4, 0x90, 0xBF)
      else if 0xF1 ≤ b.toNat ∧ b.toNat ≤ 0xF3 then some (4, 0x80, 0xBF)
      else if b.toNat = 0xF4 then some (4, 0x80, 0x8F)
      else none := by
  simp [shape?, UInt8.le_iff_toNat_le, ← UInt8.toNat_inj]

theorem between_iff {b low high : UInt8} :
    (low ≤ b && b ≤ high) = true ↔ low.toNat ≤ b.toNat ∧ b.toNat ≤ high.toNat := by
  simp [UInt8.le_iff_toNat_le]

/-- The first byte of a longer sequence tells its length, and the second one is in its bounds. -/
theorem Encodes.shape {b b1 : UInt8} (h : Encodes code (b :: b1 :: bytes)) :
    ∃ low high, shape? b = some (bytes.length + 2, low, high) ∧
      (low ≤ b1 && b1 ≤ high) = true := by
  simp only [between_iff]
  rw [shape?_eq]
  cases h with
  | two hb hb1 hlow hhigh =>
    refine ⟨0x80, 0xBF, ?_, ?_⟩
    · rw [if_pos (by omega)]
      rfl
    · simp only [UInt8.toNat_ofNat]
      omega
  | three hb hb1 hb2 hlow hhigh hscalar =>
    rw [if_neg (by omega)]
    by_cases hfirst : code < 0x1000
    · refine ⟨0xA0, 0xBF, ?_, ?_⟩
      · rw [if_pos (by omega)]
        rfl
      · simp only [UInt8.toNat_ofNat]
        omega
    rw [if_neg (by omega)]
    by_cases hsurrogates : 0xD000 ≤ code ∧ code < 0xE000
    · refine ⟨0x80, 0x9F, ?_, ?_⟩
      · rw [if_pos (by omega)]
        rfl
      · simp only [UInt8.toNat_ofNat]
        omega
    · refine ⟨0x80, 0xBF, ?_, ?_⟩
      · rw [if_neg (by omega), if_pos (by omega)]
        rfl
      · simp only [UInt8.toNat_ofNat]
        omega
  | four hb hb1 hb2 hb3 hlow hhigh =>
    rw [if_neg (by omega), if_neg (by omega), if_neg (by omega), if_neg (by omega)]
    by_cases hfirst : code < 0x40000
    · refine ⟨0x90, 0xBF, ?_, ?_⟩
      · rw [if_pos (by omega)]
        rfl
      · simp only [UInt8.toNat_ofNat]
        omega
    rw [if_neg (by omega)]
    by_cases hlast : code < 0x100000
    · refine ⟨0x80, 0xBF, ?_, ?_⟩
      · rw [if_pos (by omega)]
        rfl
      · simp only [UInt8.toNat_ofNat]
        omega
    · refine ⟨0x80, 0x8F, ?_, ?_⟩
      · rw [if_neg (by omega), if_pos (by omega)]
        rfl
      · simp only [UInt8.toNat_ofNat]
        omega

theorem isTail_iff {b : UInt8} : isTail b = true ↔ 0x80 ≤ b.toNat ∧ b.toNat ≤ 0xBF := by
  simp [isTail, UInt8.le_iff_toNat_le]

/-- A character is read back off its bytes, whatever stands behind them. -/
theorem Encodes.next {b : UInt8} (h : Encodes code (b :: bytes)) (rest : List UInt8) :
    next b (bytes ++ rest) = .char (Char.ofNat code) (bytes.length + 1) := by
  have hascii : b < 0x80 ↔ b.toNat < 0x80 := UInt8.lt_iff_toNat_lt
  cases bytes with
  | nil =>
    cases h with
    | one hb h => rw [Utf8.next.eq_def, if_pos (hascii.2 (hb ▸ h)), hb]; rfl
  | cons b1 bytes =>
    obtain ⟨low, high, hshape, hbounds⟩ := h.shape
    have hge : ¬ b < 0x80 := by
      rw [hascii]
      cases h <;> omega
    rw [Utf8.next.eq_def, if_neg hge, hshape]
    cases h with
    | two hb hb1 =>
      have hvalue : b.toNat % 32 * 64 + tailBits b1 = code := by
        unfold tailBits
        omega
      simp only [List.cons_append, hbounds, if_true, List.length_nil, hvalue]
      rfl
    | @three _ _ b2 hb hb1 hb2 hlow hhigh hscalar =>
      have htail : isTail b2 = true := isTail_iff.2 (by omega)
      have hvalue : b.toNat % 16 * 4096 + tailBits b1 * 64 + tailBits b2 = code := by
        unfold tailBits
        omega
      simp only [List.cons_append, hbounds, htail, if_true, List.length_cons, List.length_nil,
        hvalue]
    | @four _ _ b2 b3 hb hb1 hb2 hb3 hlow hhigh =>
      have htail : isTail b2 = true := isTail_iff.2 (by omega)
      have htail' : isTail b3 = true := isTail_iff.2 (by omega)
      have hvalue : b.toNat % 8 * 262144 + tailBits b1 * 4096 + tailBits b2 * 64 + tailBits b3 =
          code := by
        unfold tailBits
        omega
      simp only [List.cons_append, hbounds, htail, htail', if_true, List.length_cons,
        List.length_nil, hvalue]

end Encodes

/-- A character is read back off its bytes, whatever stands behind them. -/
theorem next_utf8EncodeChar {c : Char} {b : UInt8} {bytes : List UInt8}
    (h : utf8EncodeChar c = b :: bytes) (rest : List UInt8) :
    next b (bytes ++ rest) = .char c (bytes.length + 1) := by
  have hencodes := encodes_utf8EncodeChar c
  rw [h] at hencodes
  rw [hencodes.next rest, Char.ofNat_toNat]

/-! ## The whole part -/

theorem wholePart_go_prefix (skip : Nat) (bytes : List UInt8) :
    wholePart.go skip bytes <+: bytes := by
  induction bytes generalizing skip with
  | nil => cases skip <;> exact List.prefix_refl _
  | cons b bytes ih =>
    cases skip with
    | succ skip => exact (List.prefix_cons_inj b).2 (ih skip)
    | zero =>
      rw [wholePart.go]
      split
      · exact (List.prefix_cons_inj b).2 (ih _)
      · exact List.nil_prefix

theorem wholePart_prefix (bytes : List UInt8) : wholePart bytes <+: bytes :=
  wholePart_go_prefix 0 bytes

/-- The bytes of a sequence that was read are kept. -/
theorem wholePart_go_append (sequence rest : List UInt8) :
    wholePart.go sequence.length (sequence ++ rest) = sequence ++ wholePart rest := by
  induction sequence with
  | nil => rfl
  | cons b sequence ih => simp [wholePart.go, ih]

/-- The bytes of a character are whole. -/
theorem wholePart_utf8EncodeChar (c : Char) (rest : List UInt8) :
    wholePart (utf8EncodeChar c ++ rest) = utf8EncodeChar c ++ wholePart rest := by
  cases h : utf8EncodeChar c with
  | nil => exact absurd h String.utf8EncodeChar_ne_nil
  | cons b bytes =>
    rw [List.cons_append, wholePart, wholePart.go, next_utf8EncodeChar h]
    exact congrArg (b :: ·) (wholePart_go_append bytes rest)

/-- What is whole in the start of an encoded text lacks three bytes at most. -/
theorem le_length_wholePart (text : List Char) (n : Nat) :
    min n (encodeChars text).length ≤ (wholePart ((encodeChars text).take n)).length + 3 := by
  induction text generalizing n with
  | nil => simp
  | cons c text ih =>
    by_cases hc : (utf8EncodeChar c).length ≤ n
    · have hrest := ih (n - (utf8EncodeChar c).length)
      rw [encodeChars_cons, List.take_append, List.take_of_length_le hc, wholePart_utf8EncodeChar]
      simp only [List.length_append]
      omega
    · -- the cut goes through this character
      have hshort : (utf8EncodeChar c).length ≤ 4 := by
        rw [String.length_utf8EncodeChar]
        exact c.utf8Size_le_four
      omega

end Caretaker.Utf8
