/-!
# JSON values and their compact form

A `Tree τ` is a JSON value whose strings have the type `τ`.  `Json` is a value that can be written:
its strings are Unicode texts and its numbers are kept as they are spelled.  Members of an object
keep their order, and the compact form has no space outside strings.

A string that was read may hold an escape for half a surrogate pair.  That is well formed JSON but
no text, so the strings of a value that was read are optional texts.
-/

namespace Caretaker

/-- A JSON value with strings of type `τ`; a number keeps its spelling. -/
inductive Json.Tree (τ : Type) where
  | null
  | bool (value : Bool)
  | number (spelling : String)
  | string (value : τ)
  | array (items : List (Json.Tree τ))
  | object (members : List (τ × Json.Tree τ))
deriving Repr, BEq

/-- A JSON value that can be written. -/
abbrev Json := Json.Tree String

/-- A JSON value as it was read: `none` stands for a string that spells no text. -/
abbrev Json.Spelled := Json.Tree (Option String)

namespace Json

instance : Inhabited (Tree τ) := ⟨.null⟩

/-- Whether a value is the one that stands for nothing. -/
def Tree.isNull : Tree τ → Bool
  | .null => true
  | _ => false

/-- A whole number. -/
def ofInt (n : Int) : Json := .number (toString n)

/-- A natural number. -/
def ofNat (n : Nat) : Json := .number (toString n)

/-- An optional text; absence is `null`. -/
def ofText? : Option String → Json
  | none => .null
  | some text => .string text

/-! ## Strings -/

/-- The lower-case hexadecimal digit of a number below sixteen. -/
def hexDigit (n : Nat) : Char :=
  if n < 10 then Char.ofNat ('0'.toNat + n) else Char.ofNat ('a'.toNat + (n - 10))

/-- How a character is written inside a string: only the quote, the backslash and the control
characters below U+0020 are escaped. -/
def escapeChar (c : Char) : List Char :=
  if c = '"' then ['\\', '"']
  else if c = '\\' then ['\\', '\\']
  else if c = '\n' then ['\\', 'n']
  else if c = '\r' then ['\\', 'r']
  else if c = '\t' then ['\\', 't']
  else if c = '\x08' then ['\\', 'b']
  else if c = '\x0c' then ['\\', 'f']
  else if c.toNat < 0x20 then
    ['\\', 'u', '0', '0', hexDigit (c.toNat / 16), hexDigit (c.toNat % 16)]
  else [c]

/-- A text as a JSON string, quotes included. -/
def quote (text : List Char) : List Char :=
  '"' :: text.flatMap escapeChar ++ ['"']

/-! ## The compact form -/

mutual

/-- The compact form of a value. -/
def write : Json → List Char
  | .null => "null".toList
  | .bool true => "true".toList
  | .bool false => "false".toList
  | .number spelling => spelling.toList
  | .string text => quote text.toList
  | .array items => '[' :: writeItems items ++ [']']
  | .object members => '{' :: writeMembers members ++ ['}']

/-- The items of an array, commas between them. -/
def writeItems : List Json → List Char
  | [] => []
  | [item] => write item
  | item :: next :: items => write item ++ ',' :: writeItems (next :: items)

/-- The members of an object, commas between them. -/
def writeMembers : List (String × Json) → List Char
  | [] => []
  | [(key, value)] => quote key.toList ++ ':' :: write value
  | (key, value) :: next :: members =>
    quote key.toList ++ ':' :: write value ++ ',' :: writeMembers (next :: members)

end

/-- The compact form of a value, as a string. -/
def render (value : Json) : String := String.ofList (write value)

/-- The first member of that name. -/
def Tree.get? [BEq τ] (key : τ) : Tree τ → Option (Tree τ)
  | .object members => (members.find? fun member => member.1 == key).map (·.2)
  | _ => none

end Json
end Caretaker
