import Caretaker.Json.Reader
import Caretaker.Text.Utf8

/-!
# Streams of JSON values

A stream carries values one after the other, each on a line of its own.  A line that holds no whole
value is joined with the next one.  `Stream.read` gives the values of a stream, and whether it is
whole: nothing in it is broken, and no value in it is cut off.
-/

namespace Caretaker.Json

/-- Texts that may complete a token whose end is missing. -/
def completions : List String :=
  ["\"", "\\\"", "0\"", "00\"", "000\"", "0000\"", "0", "ull", "ll", "l", "rue", "ue", "alse",
    "lse", "se", "e"]

/-- Whether a text is a token whose end is missing. -/
def isCutOff (text : List Char) : Bool :=
  completions.any fun completion =>
    match Token.next? (text ++ completion.toList) with
    | some (_, []) => true
    | _ => false

/-- Whether a token that is cut off may stand where a machine is. -/
def Machine.accepts (cutOff : List Char) : Machine → Bool
  | needValue _ | openArray _ => true
  | openObject _ | needKey _ _ => cutOff.head? == some '"'
  | _ => false

/-- What a piece of a stream holds. -/
inductive Piece (α : Type) where
  | item (value : α)
  /-- Nothing, or a value that is cut off. -/
  | unfinished
  | broken
deriving Repr

/-- What a text holds, when values are read by `reader`; null is no value. -/
def Piece.ofText (reader : Spelled → Option α) (text : List Char) : Piece α :=
  let (tokens, rest) := Token.scan text
  match tokens.foldlM Machine.push (.needValue []) with
  | none => broken
  | some machine =>
    match rest, machine.result? with
    | [], some .null => unfinished
    | [], some value => (reader value).elim broken item
    | [], none => unfinished
    | rest, _ => if isCutOff rest && machine.accepts rest then unfinished else broken

/-- What some bytes hold. -/
def Piece.ofBytes (reader : Spelled → Option α) (bytes : List UInt8) : Piece α :=
  (Utf8.decode? bytes).elim broken (ofText reader)

/-- The values of a stream. -/
structure Stream (α : Type) where
  items : List α
  /-- Whether the stream ends well after them. -/
  isWhole : Bool
deriving Repr

namespace Stream

/-- The byte between lines. -/
def lineEnd : UInt8 := '\n'.toUInt8

/-- The values at the front of some bytes, at most `fuel` of them, and the bytes after them that
hold none; no bytes when something is broken. -/
def front (reader : Spelled → Option α) : (fuel : Nat) → List UInt8 → List α × Option (List UInt8)
  | 0, bytes => ([], some bytes)
  | _ + 1, [] => ([], some [])
  | fuel + 1, bytes =>
    let line := bytes.takeWhile (· ≠ lineEnd)
    let after := (bytes.dropWhile (· ≠ lineEnd)).drop 1
    match Piece.ofBytes reader line with
    | .item value =>
      let (values, rest) := front reader fuel after
      (value :: values, rest)
    | .unfinished => ([], some (line ++ after))
    | .broken => ([], none)

/-- The values of the bytes that a stream carries.  What holds no value is looked at once more when
the stream has ended. -/
def read (reader : Spelled → Option α) (bytes : List UInt8) : Stream α :=
  match front reader (bytes.length + 1) bytes with
  | (items, none) => ⟨items, false⟩
  | (items, some rest) =>
    match front reader (rest.length + 1) rest with
    | (more, none) => ⟨items ++ more, false⟩
    | (more, some rest) => ⟨items ++ more, rest.isEmpty⟩

end Stream
end Caretaker.Json
