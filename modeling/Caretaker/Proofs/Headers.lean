import Mathlib.Algebra.Group.Nat.Defs
import Caretaker.Engine.Archive
import Caretaker.Proofs.Digits
import Caretaker.Proofs.EntryNames

/-!
# What a header says

The format of archives gives each field of a header a place in its block.  A reader takes the fields
from there, and believes a block only if the checksum and the mark in it are right.

Main definitions:

- `number?`: the number in a field.
- `label?`: what the header in a block says.

Main statements:

- `number?_octal`, `number?_sizeField`: a number is read as it was put.
- `label?_header`: a header says what it was made for.
-/

namespace Caretaker.Engine.Archive

open Text (maxU64 paddedDigits readNumber)

/-! ## Reading fields -/

/-- The part of a block of a given size, from a place on. -/
def slice (start size : Nat) (block : Bytes) : Bytes := (block.drop start).take size

/-- The text in a field ends at the first zero. -/
def textOf (bytes : Bytes) : Bytes := bytes.takeWhile (· ≠ 0)

/-- The number in a field: octal digits, or bytes of which the first is marked. -/
def number? : Bytes → Option Nat
  | [] => none
  | first :: rest =>
    if first < 0x80 then
      let digits := (textOf (first :: rest)).map fun b => Char.ofNat b.toNat
      (readNumber 8 maxU64 digits).toOption
    else some (rest.foldl (fun n b => 256 * n + b.toNat) (first.toNat - 0x80))

/-- What a header says of its entry. -/
structure Label where
  name : Bytes
  mode : Nat
  size : Nat
  flag : UInt8
deriving DecidableEq, Repr

/-- What the header in a block says, if its mark is there and its checksum is the sum of the block
with blanks for the checksum. -/
def label? (block : Bytes) : Option Label := do
  guard (block.length = blockSize)
  let mode ← number? (slice 100 8 block)
  let size ← number? (slice 124 12 block)
  let checksum ← number? (slice 148 8 block)
  let flag ← block[156]?
  guard (checksum = sum (slice 0 148 block ++ List.replicate 8 0x20 ++ slice 156 356 block))
  guard (slice 257 8 block = ascii "ustar  " ++ [0])
  return { name := textOf (slice 0 nameSize block), mode, size, flag }

section slice

variable {start size : Nat} {front back : Bytes}

theorem slice_append_left (h : start + size ≤ front.length) :
    slice start size (front ++ back) = slice start size front := by
  rw [slice, List.drop_append_of_le_length (by omega),
    List.take_append_of_le_length (by rw [List.length_drop]; omega)]
  rfl

theorem slice_append_right (h : front.length ≤ start) :
    slice start size (front ++ back) = slice (start - front.length) size back := by
  rw [slice, List.drop_append, List.drop_of_length_le h, List.nil_append]
  rfl

theorem slice_all {bytes : Bytes} (h : bytes.length = size) : slice 0 size bytes = bytes := by
  subst h
  exact List.take_length

end slice

theorem textOf_of_notMem {bytes : Bytes} (h : 0 ∉ bytes) : textOf bytes = bytes := by
  have hbytes : ∀ b ∈ bytes, decide (b ≠ 0) = true := fun b hb =>
    decide_eq_true fun hzero => h (hzero ▸ hb)
  rw [textOf, ← List.append_nil bytes, List.takeWhile_append_of_pos hbytes, List.takeWhile_nil]

/-- Zeros that fill up a field do not belong to its text. -/
theorem textOf_field (width : Nat) (bytes : Bytes) : textOf (field width bytes) = textOf bytes := by
  unfold field textOf
  generalize width - bytes.length = zeros
  induction bytes with
  | nil => rcases zeros with _ | zeros <;> simp [List.replicate_succ]
  | cons b bytes ih => by_cases hb : b = 0 <;> simp_all

/-! ## Numbers in fields -/

theorem length_field {width : Nat} {bytes : Bytes} (h : bytes.length ≤ width) :
    (field width bytes).length = width := by
  simp only [field, List.length_append, List.length_replicate]
  omega

section octal

variable {width n : Nat}

theorem length_paddedDigits {digits : Nat} (hdigits : 0 < digits) (hn : n < 8 ^ digits) :
    (paddedDigits 8 digits n).length = digits := by
  have hlength := (Nat.length_toDigits_le_iff (by decide) hdigits).2 hn
  simp only [paddedDigits, Text.padZeros, List.length_append, List.length_replicate]
  omega

theorem isDigit_of_mem_paddedDigits {digits : Nat} {c : Char} (h : c ∈ paddedDigits 8 digits n) :
    c.isDigit = true := by
  rcases List.mem_append.1 h with hzero | hdigit
  · rw [(List.mem_replicate.1 hzero).2]
    rfl
  · exact Nat.isDigit_of_mem_toDigits (by decide) (by decide) hdigit

theorem length_octal (hwidth : 1 < width) (hn : n < 8 ^ (width - 1)) :
    (octal width n).length = width := by
  refine length_field ?_
  rw [List.length_map, length_paddedDigits (by omega) hn]
  omega

/-- A digit is a byte of ASCII, and no zero. -/
theorem byte_of_isDigit {c : Char} (h : c.isDigit = true) :
    48 ≤ (UInt8.ofNat c.toNat).toNat ∧ (UInt8.ofNat c.toNat).toNat < 0x80 ∧
      Char.ofNat (UInt8.ofNat c.toNat).toNat = c := by
  have hbounds : 48 ≤ c.toNat ∧ c.toNat ≤ 57 := by
    simpa [Char.isDigit, Char.le_def, UInt32.le_iff_toNat_le] using h
  have hbyte : (UInt8.ofNat c.toNat).toNat = c.toNat :=
    UInt8.toNat_ofNat_of_lt' (Nat.lt_of_le_of_lt hbounds.2 (by decide))
  rw [hbyte]
  exact ⟨hbounds.1, by omega, Char.ofNat_toNat c⟩

theorem readNumber_of_isDigit {c : Char} {digits : List Char} (h : c.isDigit = true) :
    readNumber 8 maxU64 (c :: digits) = Text.readDigits 8 maxU64 0 (c :: digits) := by
  have hplus : c ≠ '+' := by
    rintro rfl
    exact absurd h (by decide)
  unfold readNumber
  split <;> simp_all

/-- Digits are the text of their field, whatever fills it up. -/
theorem textOf_digits {digits : List Char} (h : ∀ c ∈ digits, c.isDigit = true) (width : Nat) :
    (textOf (field width (digits.map fun c => UInt8.ofNat c.toNat))).map
      (fun b => Char.ofNat b.toNat) = digits := by
  have hnul : 0 ∉ digits.map fun c => UInt8.ofNat c.toNat := by
    intro hzero
    obtain ⟨c, hc, hbyte⟩ := List.mem_map.1 hzero
    have hbounds := (byte_of_isDigit (h c hc)).1
    rw [hbyte] at hbounds
    exact absurd hbounds (by decide)
  have hback : ∀ c ∈ digits, Char.ofNat (UInt8.ofNat c.toNat).toNat = id c := fun c hc =>
    (byte_of_isDigit (h c hc)).2.2
  rw [textOf_field, textOf_of_notMem hnul, List.map_map]
  exact (List.map_congr_left hback).trans (List.map_id _)

/-- Digits are read as the number they are printed for. -/
theorem number?_octal (hwidth : 1 < width) (hn : n < 8 ^ (width - 1)) (hmax : n ≤ maxU64) :
    number? (octal width n) = some n := by
  have hread : Text.readDigits 8 maxU64 0 (paddedDigits 8 (width - 1) n) = .ok n :=
    Text.readDigits_paddedDigits (by decide) (by decide) (width - 1) hmax
  have hlength := length_paddedDigits (by omega : 0 < width - 1) hn
  have hdigit : ∀ c ∈ paddedDigits 8 (width - 1) n, c.isDigit = true := fun c =>
    isDigit_of_mem_paddedDigits
  unfold octal
  generalize paddedDigits 8 (width - 1) n = digits at hread hlength hdigit
  obtain ⟨first, rest, rfl⟩ := List.exists_cons_of_length_pos (by omega : 0 < digits.length)
  have hisDigit : first.isDigit = true := hdigit first List.mem_cons_self
  have hfirst : UInt8.ofNat first.toNat < 0x80 :=
    UInt8.lt_iff_toNat_lt.2 (byte_of_isDigit hisDigit).2.1
  have htext := textOf_digits hdigit width
  simp only [field, List.map_cons, List.cons_append] at htext ⊢
  simp only [number?, if_pos hfirst, htext]
  rw [readNumber_of_isDigit hisDigit, hread]
  rfl

end octal

theorem length_bigEndian (count n : Nat) : (bigEndian count n).length = count := by
  induction count generalizing n with
  | zero => rfl
  | succ count ih => simp [bigEndian, ih]

/-- The bytes of a number are read as what of it fits into them. -/
theorem foldl_bigEndian (count n read : Nat) :
    (bigEndian count n).foldl (fun n b => 256 * n + b.toNat) read =
      read * 256 ^ count + n % 256 ^ count := by
  induction count generalizing n with
  | zero => simp [bigEndian, Nat.mod_one]
  | succ count ih =>
    have hbyte : (UInt8.ofNat (n % 256)).toNat = n % 256 :=
      UInt8.toNat_ofNat_of_lt' (Nat.mod_lt _ (by decide))
    have hparts : n % 256 ^ (count + 1) = n % 256 + 256 * (n / 256 % 256 ^ count) := by
      rw [Nat.pow_succ', Nat.mod_mul]
    rw [bigEndian, List.foldl_append, ih, List.foldl_cons, List.foldl_nil, hbyte, hparts,
      Nat.pow_succ', Nat.mul_add, Nat.mul_left_comm 256 read]
    omega

/-- A size is read as it was put, if it fits into eight bytes. -/
theorem number?_sizeField {n : Nat} (h : n ≤ maxU64) : number? (sizeField n) = some n := by
  unfold sizeField
  split
  · next hdigits => exact number?_octal (by decide) hdigits h
  · have hmark : ¬ (0x80 : UInt8) < 0x80 := by decide
    have hfits : n % 256 ^ 8 = n := Nat.mod_eq_of_lt (Nat.lt_of_le_of_lt h (by decide))
    simp only [List.cons_append, List.nil_append, number?, if_neg hmark, List.foldl_cons]
    rw [foldl_bigEndian, hfits]
    simp

theorem length_sizeField (n : Nat) : (sizeField n).length = 12 := by
  unfold sizeField
  split
  · next hdigits => exact length_octal (by decide) hdigits
  · simp [length_bigEndian]

/-! ## Sums of bytes -/

theorem foldl_sum (bytes : Bytes) (n : Nat) :
    bytes.foldl (fun n b => n + b.toNat) n = n + sum bytes := by
  unfold sum
  induction bytes generalizing n with
  | nil => rfl
  | cons b bytes ih =>
    rw [List.foldl_cons, List.foldl_cons, ih, ih (0 + b.toNat)]
    omega

theorem sum_append (front back : Bytes) : sum (front ++ back) = sum front + sum back := by
  rw [sum, List.foldl_append, foldl_sum, ← sum]

theorem sum_le (bytes : Bytes) : sum bytes ≤ 255 * bytes.length := by
  induction bytes with
  | nil => exact Nat.le_refl _
  | cons b bytes ih =>
    have hb : b.toNat < 256 := b.toNat_lt
    have hsum : sum (b :: bytes) = b.toNat + sum bytes := by
      rw [sum, List.foldl_cons, foldl_sum, Nat.zero_add]
    rw [hsum, List.length_cons]
    omega

/-! ## A whole header -/

/-- The mode of an entry. -/
def Kind.mode : Kind → Nat
  | file => 0o600
  | longName => 0o644

/-- The owner of an entry. -/
def Kind.owner : Kind → Bytes
  | file => List.replicate 16 0
  | longName => octal 8 0 ++ octal 8 0

theorem headerStart_eq (name : Bytes) (kind : Kind) (size : Nat) :
    headerStart name kind size =
      field nameSize name ++ octal 8 kind.mode ++ kind.owner ++ sizeField size ++ octal 12 0 := by
  cases kind <;> rfl

theorem length_ascii_mark : (ascii "ustar  ").length = 7 := by
  rw [length_ascii]
  decide

theorem headerEnd_eq (kind : Kind) :
    headerEnd kind =
      kind.byte :: List.replicate 100 0 ++ (ascii "ustar  " ++ [0]) ++ List.replicate 247 0 := by
  have hfill : 349 - (kind.byte :: List.replicate 100 0 ++ ascii "ustar  ").length = 241 := by
    simp [length_ascii_mark]
  have hzeros : List.replicate 241 (0 : UInt8) ++ List.replicate 7 0 =
      [0] ++ List.replicate 247 0 :=
    List.replicate_append_replicate.trans List.replicate_succ
  simp only [headerEnd, field, hfill, List.append_eq, List.append_assoc, hzeros]

section header

variable {name : Bytes} {kind : Kind} {size : Nat}

theorem length_mode : (octal 8 kind.mode).length = 8 := by
  cases kind <;> exact length_octal (by decide) (by decide)

theorem length_owner : kind.owner.length = 16 := by
  cases kind with
  | file => rfl
  | longName =>
    have hzero : (octal 8 0).length = 8 := length_octal (by decide) (by decide)
    rw [Kind.owner, List.length_append, hzero]

theorem length_headerStart (hname : name.length ≤ nameSize) :
    (headerStart name kind size).length = 148 := by
  have hzero : (octal 12 0).length = 12 := length_octal (by decide) (by decide)
  simp only [headerStart_eq, List.length_append, length_field hname, length_mode, length_owner,
    length_sizeField, hzero]
  rfl

theorem length_headerEnd : (headerEnd kind).length = 356 := by
  simp only [headerEnd_eq, List.length_append, List.length_cons, List.length_replicate,
    length_ascii_mark, List.length_nil]

theorem slice_name (hname : name.length ≤ nameSize) :
    slice 0 nameSize (headerStart name kind size) = field nameSize name := by
  have hfield := length_field hname
  simp only [headerStart_eq, List.append_assoc]
  rw [slice_append_left (Nat.le_of_eq (by rw [hfield, Nat.zero_add])), slice_all hfield]

theorem slice_mode (hname : name.length ≤ nameSize) :
    slice 100 8 (headerStart name kind size) = octal 8 kind.mode := by
  have hfield : (field nameSize name).length = 100 := length_field hname
  simp only [headerStart_eq, List.append_assoc]
  rw [slice_append_right (Nat.le_of_eq hfield), hfield,
    slice_append_left (Nat.le_of_eq length_mode.symm), slice_all length_mode]

theorem slice_size (hname : name.length ≤ nameSize) :
    slice 124 12 (headerStart name kind size) = sizeField size := by
  have hbefore : (field nameSize name ++ octal 8 kind.mode ++ kind.owner).length = 124 := by
    simp only [List.length_append, length_field hname, length_mode, length_owner]
    rfl
  rw [headerStart_eq, List.append_assoc _ (sizeField size),
    slice_append_right (Nat.le_of_eq hbefore), hbefore,
    slice_append_left (Nat.le_of_eq (length_sizeField size).symm),
    slice_all (length_sizeField size)]

theorem slice_mark : slice 101 8 (headerEnd kind) = ascii "ustar  " ++ [0] := by
  have hbefore : (kind.byte :: List.replicate 100 0).length = 101 := by
    rw [List.length_cons, List.length_replicate]
  have hmark : (ascii "ustar  " ++ [0]).length = 8 := by simp [length_ascii_mark]
  rw [headerEnd_eq, List.append_assoc, slice_append_right (Nat.le_of_eq hbefore), hbefore,
    slice_append_left (Nat.le_of_eq hmark.symm), slice_all hmark]

/-- The checksum in a header. -/
def checksum (name : Bytes) (kind : Kind) (size : Nat) : Nat :=
  sum (headerStart name kind size) + 8 * 0x20 + sum (headerEnd kind)

theorem header_eq : header name kind size =
    headerStart name kind size ++ octal 8 (checksum name kind size) ++ headerEnd kind := rfl

/-- A checksum fits into its field. -/
theorem checksum_lt (hname : name.length ≤ nameSize) : checksum name kind size < 8 ^ 7 := by
  have hfront := sum_le (headerStart name kind size)
  have hback := sum_le (headerEnd kind)
  rw [length_headerStart hname] at hfront
  rw [length_headerEnd] at hback
  unfold checksum
  omega

theorem length_checksum (hname : name.length ≤ nameSize) :
    (octal 8 (checksum name kind size)).length = 8 := length_octal (by decide) (checksum_lt hname)

theorem length_header_front (hname : name.length ≤ nameSize) :
    (headerStart name kind size ++ octal 8 (checksum name kind size)).length = 156 := by
  rw [List.length_append, length_headerStart hname, length_checksum hname]

theorem length_header (hname : name.length ≤ nameSize) :
    (header name kind size).length = blockSize := by
  rw [header_eq, List.length_append, length_header_front hname, length_headerEnd]
  rfl

/-- Fields before the checksum. -/
theorem slice_header_left (hname : name.length ≤ nameSize) {start width : Nat}
    (h : start + width ≤ 148) :
    slice start width (header name kind size) =
      slice start width (headerStart name kind size) := by
  rw [header_eq, List.append_assoc, slice_append_left (length_headerStart hname ▸ h)]

theorem slice_header_checksum (hname : name.length ≤ nameSize) :
    slice 148 8 (header name kind size) = octal 8 (checksum name kind size) := by
  have hfront : (headerStart name kind size).length = 148 := length_headerStart hname
  have hfield : (octal 8 (checksum name kind size)).length = 8 := length_checksum hname
  rw [header_eq, List.append_assoc, slice_append_right (Nat.le_of_eq hfront), hfront,
    slice_append_left (Nat.le_of_eq hfield.symm), slice_all hfield]

/-- Fields behind the checksum. -/
theorem slice_header_right (hname : name.length ≤ nameSize) {start width : Nat}
    (h : 156 ≤ start) :
    slice start width (header name kind size) = slice (start - 156) width (headerEnd kind) := by
  have hfront : (headerStart name kind size ++ octal 8 (checksum name kind size)).length = 156 :=
    length_header_front hname
  rw [header_eq, slice_append_right (hfront ▸ h), hfront]

theorem getElem?_header_flag (hname : name.length ≤ nameSize) :
    (header name kind size)[156]? = some kind.byte := by
  have hfront : (headerStart name kind size ++ octal 8 (checksum name kind size)).length = 156 :=
    length_header_front hname
  rw [header_eq, List.getElem?_append_right (Nat.le_of_eq hfront), hfront, headerEnd_eq]
  rfl

/-- The checksum counts its own field as blanks. -/
theorem checksum_eq (hname : name.length ≤ nameSize) :
    checksum name kind size =
      sum (slice 0 148 (header name kind size) ++ List.replicate 8 0x20 ++
        slice 156 356 (header name kind size)) := by
  have hfront : (headerStart name kind size).length = 148 := length_headerStart hname
  have hback : (headerEnd kind).length = 356 := length_headerEnd
  rw [slice_header_left hname (by decide), slice_all hfront,
    slice_header_right hname (by decide), slice_all hback, sum_append, sum_append]
  rfl

/-- A header fills a block and says what it was made for. -/
theorem label?_header (hname : name.length ≤ nameSize) (hsize : size ≤ maxU64) :
    label? (header name kind size) =
      some { name := textOf name, mode := kind.mode, size, flag := kind.byte } := by
  have hnameField : textOf (slice 0 nameSize (header name kind size)) = textOf name := by
    rw [slice_header_left hname (by decide), slice_name hname, textOf_field]
  have hmode : number? (slice 100 8 (header name kind size)) = some kind.mode := by
    rw [slice_header_left hname (by decide), slice_mode hname]
    cases kind <;> exact number?_octal (by decide) (by decide) (by decide)
  have hsizeField : number? (slice 124 12 (header name kind size)) = some size := by
    rw [slice_header_left hname (by decide), slice_size hname, number?_sizeField hsize]
  have hchecksum :
      number? (slice 148 8 (header name kind size)) = some (checksum name kind size) := by
    have hlt : checksum name kind size < 8 ^ 7 := checksum_lt hname
    rw [slice_header_checksum hname]
    exact number?_octal (by decide) hlt (Nat.le_of_lt (Nat.lt_trans hlt (by decide)))
  have hmark : slice 257 8 (header name kind size) = ascii "ustar  " ++ [0] :=
    (slice_header_right hname (by decide)).trans slice_mark
  unfold label? guard
  rw [length_header hname, hmode, hsizeField, hchecksum, getElem?_header_flag hname, hmark,
    hnameField, ← checksum_eq hname]
  simp

end header

end Caretaker.Engine.Archive
