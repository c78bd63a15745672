import Caretaker.Json.Reader

/-!
# Reading records from JSON

A record has named fields in a declared order.  Its JSON form is an object, in which members with
other names are ignored and a field named twice is refused, or an array of the fields in the
declared order.  A field is required, or may be missing or null.
-/

namespace Caretaker.Json

/-- The fields of a record that a value carries, by name. -/
abbrev Fields := List (String × Spelled)

/-- The known members of an object; refused when a key spells no text or a known one comes twice. -/
def Fields.ofMembers? (names : List String) :
    List (Option String × Spelled) → Option Fields
  | [] => some []
  | (none, _) :: _ => none
  | (some key, value) :: members =>
    match ofMembers? names members with
    | none => none
    | some fields =>
      if key ∈ names then
        if fields.any (·.1 == key) then none else some ((key, value) :: fields)
      else some fields

/-- The fields that a value carries for a record with these field names. -/
def Tree.fields? (names : List String) : Spelled → Option Fields
  | .object members => Fields.ofMembers? names members
  | .array items => if items.length ≤ names.length then some (names.zip items) else none
  | _ => none

/-- The value of a field, if it is there. -/
def Fields.get? (fields : Fields) (name : String) : Option Spelled :=
  (fields.find? (·.1 == name)).map (·.2)

/-- A field that has to be there, read by `reader`. -/
def Fields.required? (fields : Fields) (name : String) (reader : Spelled → Option α) : Option α :=
  (fields.get? name).bind reader

/-- A field that may be missing or null, read by `reader` otherwise. -/
def Fields.optional? (fields : Fields) (name : String) (reader : Spelled → Option α) :
    Option (Option α) :=
  match fields.get? name with
  | none | some .null => some none
  | some value => (reader value).map some

/-- The text of a string. -/
def Tree.text? : Spelled → Option String
  | .string value => value
  | _ => none

/-- The value of a Boolean. -/
def Tree.bool? : Spelled → Option Bool
  | .bool value => some value
  | _ => none

/-- The items of an array, each read by `reader`. -/
def Tree.list? (reader : Spelled → Option α) : Spelled → Option (List α)
  | .array items => items.mapM reader
  | _ => none

/-- The number that decimal digits spell. -/
def naturalOfDigits (digits : List Char) : Nat :=
  digits.foldl (fun n c => 10 * n + (c.toNat - '0'.toNat)) 0

/-- The whole number a spelling stands for: digits with an optional minus sign.  A spelling with a
point or an exponent is no whole number, and neither is a negative zero. -/
def wholeNumber? (spelling : String) : Option Int :=
  match spelling.toList with
  | '-' :: digits =>
    if digits.all Char.isDigit && naturalOfDigits digits != 0 then
      some (-(naturalOfDigits digits : Int))
    else none
  | digits => if digits.all Char.isDigit then some (naturalOfDigits digits) else none

/-- A whole number between the two bounds. -/
def Tree.int? (low high : Int) : Spelled → Option Int
  | .number spelling => (wholeNumber? spelling).filter fun n => low ≤ n ∧ n ≤ high
  | _ => none

/-- A whole number of 64 bits with a sign. -/
def Tree.int64? : Spelled → Option Int :=
  Tree.int? (-9223372036854775808) 9223372036854775807

end Caretaker.Json
