import Caretaker.Json.Token
import Caretaker.Text.Utf8

/-!
# Reading JSON values

A value is built from tokens by a machine with an explicit stack of the arrays and objects that are
still open, so any depth of nesting is read.  `read?` accepts exactly one value with blanks around
it.  A broken sequence of bytes may stand in a string, which then spells no text.
-/

namespace Caretaker.Json

/-- An array or object that is still open, its finished parts last one first. -/
inductive Frame where
  | array (items : List Spelled)
  | object (members : List (Option String × Spelled)) (key : Option String)

/-- What the reader of tokens has in hand and waits for. -/
inductive Machine where
  /-- A value has to come. -/
  | needValue (stack : List Frame)
  /-- An array was opened: a value or its end has to come. -/
  | openArray (stack : List Frame)
  /-- An object was opened: a key or its end has to come. -/
  | openObject (stack : List Frame)
  /-- A comma stood in an object: a key has to come. -/
  | needKey (stack : List Frame) (members : List (Option String × Spelled))
  /-- A key was read: a colon has to come. -/
  | needColon (stack : List Frame) (members : List (Option String × Spelled)) (key : Option String)
  /-- A value is finished: a comma, an end or nothing has to come. -/
  | finished (stack : List Frame) (value : Spelled)

/-- The machine after the first token of a value. -/
def Machine.begin (stack : List Frame) : Token → Option Machine
  | .openBrace => some (.openObject stack)
  | .openBracket => some (.openArray stack)
  | .null => some (.finished stack .null)
  | .bool value => some (.finished stack (.bool value))
  | .number spelling => some (.finished stack (.number spelling))
  | .string value => some (.finished stack (.string value))
  | _ => none

/-- The machine after one more token; none when the token may not stand there. -/
def Machine.push : Machine → Token → Option Machine
  | .needValue stack, token => begin stack token
  | .openArray stack, .closeBracket => some (.finished stack (.array []))
  | .openArray stack, token => begin (.array [] :: stack) token
  | .openObject stack, .closeBrace => some (.finished stack (.object []))
  | .openObject stack, .string key => some (.needColon stack [] key)
  | .needKey stack members, .string key => some (.needColon stack members key)
  | .needColon stack members key, .colon => some (.needValue (.object members key :: stack))
  | .finished (.array items :: stack) value, .comma =>
    some (.needValue (.array (value :: items) :: stack))
  | .finished (.array items :: stack) value, .closeBracket =>
    some (.finished stack (.array (value :: items).reverse))
  | .finished (.object members key :: stack) value, .comma =>
    some (.needKey stack ((key, value) :: members))
  | .finished (.object members key :: stack) value, .closeBrace =>
    some (.finished stack (.object ((key, value) :: members).reverse))
  | _, _ => none

/-- The value, once everything that was opened is closed. -/
def Machine.result? : Machine → Option Spelled
  | .finished [] value => some value
  | _ => none

/-- The value that a list of tokens spells. -/
def ofTokens? (tokens : List Token) : Option Spelled :=
  (tokens.foldlM Machine.push (.needValue [])).bind Machine.result?

/-- The value that a text spells, blanks around it allowed. -/
def read? (text : List Char) : Option Spelled :=
  match Token.scan text with
  | (tokens, []) => ofTokens? tokens
  | _ => none

/-- What is read for a broken sequence of bytes: a character that may stand in a string only, and
half a surrogate pair. -/
def brokenMark : List Char := ['\uFFFD', '\\', 'u', 'd', 'c', '0', '0']

/-- The value that bytes spell, blanks around it allowed. -/
def readBytes? (bytes : List UInt8) : Option Spelled :=
  read? (Utf8.decodeMarking brokenMark bytes)

mutual

/-- A value that was read, if each string in it spells a text. -/
def toText? : Spelled → Option Json
  | .null => some .null
  | .bool value => some (.bool value)
  | .number spelling => some (.number spelling)
  | .string value => value.map .string
  | .array items => (itemsToText? items).map .array
  | .object members => (membersToText? members).map .object

@[inherit_doc toText?]
def itemsToText? : List Spelled → Option (List Json)
  | [] => some []
  | item :: items =>
    match toText? item, itemsToText? items with
    | some item, some items => some (item :: items)
    | _, _ => none

@[inherit_doc toText?]
def membersToText? : List (Option String × Spelled) → Option (List (String × Json))
  | [] => some []
  | (key, value) :: members =>
    match key, toText? value, membersToText? members with
    | some key, some value, some members => some ((key, value) :: members)
    | _, _, _ => none

end

end Caretaker.Json
