import Caretaker.Json.Record

/-!
# Shapes of JSON values

A shape says which values are expected somewhere.  Shapes are tests, built up from those for single
values; a record names its fields, says which have to be there, and ignores members of other names.
-/

namespace Caretaker.Json

/-- A test for values. -/
abbrev Shape := Spelled → Bool

namespace Shape

/-- Any text. -/
def text : Shape := fun value => value.text?.isSome

/-- A Boolean. -/
def flag : Shape := fun value => value.bool?.isSome

/-- A whole number between two bounds. -/
def whole (low high : Int) : Shape := fun value => (value.int? low high).isSome

/-- A whole number of 64 bits with a sign. -/
def int64 : Shape := fun value => value.int64?.isSome

/-- One of some texts. -/
def oneOf (texts : List String) : Shape := fun value => value.text?.any texts.contains

/-- An array of values of one shape. -/
def list (item : Shape) : Shape
  | .array items => items.all item
  | _ => false

/-- An object with values of one shape. -/
def map (item : Shape) : Shape
  | .object members => members.all fun (key, value) => key.isSome && item value
  | _ => false

/-- A field of a record. -/
structure Field where
  name : String
  shape : Shape
  required : Bool := false

/-- A field that may be missing or null. -/
def optional (name : String) (shape : Shape) : Field := { name, shape }

/-- A field that has to be there. -/
def required (name : String) (shape : Shape) : Field := { name, shape, required := true }

/-- Whether a field is as it should be among the fields of a value. -/
def Field.isIn (field : Field) (fields : Fields) : Bool :=
  match fields.get? field.name with
  | none => !field.required
  | some value => field.shape value || (!field.required && value.isNull)

/-- The fields of a value that has the form of a record: an object, or an array of all fields. -/
def fieldsOf? (fields : List Field) (value : Spelled) : Option Fields :=
  let names := fields.map (·.name)
  match value with
  | .array items => if items.length = names.length then some (names.zip items) else none
  | value => value.fields? names

/-- The fields of a value, if it is a record with fields like these. -/
def read? (fields : List Field) (value : Spelled) : Option Fields :=
  (fieldsOf? fields value).filter fun found => fields.all (·.isIn found)

/-- A record. -/
def record (fields : List Field) : Shape := fun value => (read? fields value).isSome

/-- A text of a record, if it is there. -/
def textOf? (name : String) (fields : Fields) : Option String :=
  (fields.get? name).bind Tree.text?

end Shape
end Caretaker.Json
