import Caretaker.Text.Utf8
import Caretaker.Text.Number

/-!
# Percent encoding

Each part of a URL has its own set of characters that have to be written as percent-encoded UTF-8.
The sets grow from the control characters: fragment, path, user information, and, beside them, the
query.
-/

namespace Caretaker.Net.Percent

/-- A set of characters that have to be encoded. -/
abbrev Set := Char → Bool

/-- Everything but printable ASCII. -/
def controls : Set := fun c => c.toNat < 0x20 || 0x7E < c.toNat

/-- What is encoded in a fragment. -/
def fragment : Set := fun c => controls c || " \"<>`".toList.contains c

/-- What is encoded in a path. -/
def path : Set := fun c => fragment c || "#?\x7b\x7d".toList.contains c

/-- What is encoded in a user name or a password. -/
def userInfo : Set := fun c => path c || "/:;=@[\\]^|".toList.contains c

/-- What is encoded in a query; in the special schemes a single quote is, too. -/
def query (special : Bool) : Set :=
  fun c => controls c || " \"#<>".toList.contains c || (special && c == '\x27')

/-- A byte as a percent sign and two upper-case digits. -/
def encodeByte (b : UInt8) : List Char :=
  '%' :: (Text.paddedDigits 16 2 b.toNat).map Char.toUpper

/-- A text with the characters of the set encoded. -/
def encode (set : Set) (text : List Char) : List Char :=
  text.flatMap fun c =>
    if set c then (Utf8.encode (String.singleton c)).flatMap encodeByte else [c]

/-- The bytes of a text whose percent-encoded bytes are decoded; a percent sign that starts none
stays. -/
def decodeBytes : List Char → List UInt8
  | '%' :: a :: b :: rest =>
    match Text.digitValue? 16 a, Text.digitValue? 16 b with
    | some x, some y => UInt8.ofNat (x * 16 + y) :: decodeBytes rest
    | _, _ => UInt8.ofNat '%'.toNat :: decodeBytes (a :: b :: rest)
  | c :: rest => Utf8.encode (String.singleton c) ++ decodeBytes rest
  | [] => []

end Caretaker.Net.Percent
