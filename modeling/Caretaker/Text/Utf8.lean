/-!
# Reading UTF-8

`Utf8.next` reads one character off a byte list, or says how many bytes form a broken sequence: the
longest start of a well-formed sequence, and at least one byte.  Reading strictly refuses broken
sequences; reading leniently puts one U+FFFD in the place of each.
-/

namespace Caretaker.Utf8

/-- What stands at the start of a byte list. -/
inductive Lead where
  | char (c : Char) (size : Nat)
  | broken (size : Nat)

/-- A byte that continues a sequence. -/
def isTail (b : UInt8) : Bool := 0x80 ≤ b && b ≤ 0xBF

/-- The bounds of the second byte after a first byte of a longer sequence, with the length of the
sequence: narrower than a tail where the sequence would be overlong, a surrogate or too large. -/
def shape? (b : UInt8) : Option (Nat × UInt8 × UInt8) :=
  if 0xC2 ≤ b && b ≤ 0xDF then some (2, 0x80, 0xBF)
  else if b = 0xE0 then some (3, 0xA0, 0xBF)
  else if b = 0xED then some (3, 0x80, 0x9F)
  else if 0xE1 ≤ b && b ≤ 0xEF then some (3, 0x80, 0xBF)
  else if b = 0xF0 then some (4, 0x90, 0xBF)
  else if 0xF1 ≤ b && b ≤ 0xF3 then some (4, 0x80, 0xBF)
  else if b = 0xF4 then some (4, 0x80, 0x8F)
  else none

/-- The low six bits of a tail byte. -/
def tailBits (b : UInt8) : Nat := b.toNat % 64

/-- The character or broken sequence at the start of `b :: rest`. -/
def next (b : UInt8) (rest : List UInt8) : Lead :=
  if b < 0x80 then .char (Char.ofNat b.toNat) 1
  else
    match shape? b, rest with
    | some (size, low, high), b1 :: rest1 =>
      if low ≤ b1 && b1 ≤ high then
        match size, rest1 with
        | 2, _ => .char (Char.ofNat (b.toNat % 32 * 64 + tailBits b1)) 2
        | 3, b2 :: _ =>
          if isTail b2 then
            .char (Char.ofNat (b.toNat % 16 * 4096 + tailBits b1 * 64 + tailBits b2)) 3
          else .broken 2
        | 4, b2 :: rest2 =>
          if isTail b2 then
            match rest2 with
            | b3 :: _ =>
              if isTail b3 then
                .char (Char.ofNat (b.toNat % 8 * 262144 + tailBits b1 * 4096 + tailBits b2 * 64
                  + tailBits b3)) 4
              else .broken 3
            | [] => .broken 3
          else .broken 2
        | _, _ => .broken 2
      else .broken 1
    | _, _ => .broken 1

/-- The text of a byte list, if no sequence in it is broken. -/
def decode? (bytes : List UInt8) : Option (List Char) :=
  go 0 bytes
where
  /-- `skip` bytes of a sequence that was already read are still to be passed over. -/
  go : (skip : Nat) → List UInt8 → Option (List Char)
    | _, [] => some []
    | skip + 1, _ :: rest => go skip rest
    | 0, b :: rest =>
      match next b rest with
      | .char c size => (go (size - 1) rest).map (c :: ·)
      | .broken _ => none

/-- The text of a byte list, with `mark` in the place of each broken sequence. -/
def decodeMarking (mark : List Char) (bytes : List UInt8) : List Char :=
  go 0 bytes
where
  /-- `skip` bytes of a sequence that was already read are still to be passed over. -/
  go : (skip : Nat) → List UInt8 → List Char
    | _, [] => []
    | skip + 1, _ :: rest => go skip rest
    | 0, b :: rest =>
      match next b rest with
      | .char c size => c :: go (size - 1) rest
      | .broken size => mark ++ go (size - 1) rest

/-- The text of a byte list, each broken sequence read as U+FFFD. -/
def decodeLossy (bytes : List UInt8) : List Char := decodeMarking ['\uFFFD'] bytes

/-- The bytes of a text. -/
def encode (text : String) : List UInt8 :=
  text.toUTF8.toList

/-- The longest start of a byte list in which no sequence is broken. -/
def wholePart (bytes : List UInt8) : List UInt8 :=
  go 0 bytes
where
  /-- `skip` bytes of a sequence that was already read are still to be kept. -/
  go : (skip : Nat) → List UInt8 → List UInt8
    | _, [] => []
    | skip + 1, b :: rest => b :: go skip rest
    | 0, b :: rest =>
      match next b rest with
      | .char _ size => b :: go (size - 1) rest
      | .broken _ => []

end Caretaker.Utf8
