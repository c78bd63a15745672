/-!
# Unsigned numbers in text

Reading takes one optional plus sign and then digits only, and refuses a number above the limit at
the first digit that makes it too large.  Printing is decimal, hexadecimal or octal, with leading
zeros up to a width.
-/

namespace Caretaker.Text

/-- Why a text is not a number within the limit. -/
inductive NumberFault where
  | empty
  | invalidDigit
  | tooLarge
deriving DecidableEq, Repr

/-- The wording of a number fault. -/
def NumberFault.message : NumberFault → String
  | .empty => "cannot parse integer from empty string"
  | .invalidDigit => "invalid digit found in string"
  | .tooLarge => "number too large to fit in target type"

/-- The value of a digit, letters counting from ten in either case. -/
def digitValue? (radix : Nat) (c : Char) : Option Nat :=
  let value? :=
    if '0' ≤ c ∧ c ≤ '9' then some (c.toNat - '0'.toNat)
    else if 'a' ≤ c ∧ c ≤ 'z' then some (c.toNat - 'a'.toNat + 10)
    else if 'A' ≤ c ∧ c ≤ 'Z' then some (c.toNat - 'A'.toNat + 10)
    else none
  value?.filter (· < radix)

/-- The number that `digits` continue from `acc`, at most `limit`. -/
def readDigits (radix limit : Nat) : (acc : Nat) → List Char → Except NumberFault Nat
  | acc, [] => .ok acc
  | acc, c :: digits =>
    match digitValue? radix c with
    | none => .error .invalidDigit
    | some d =>
      if radix * acc + d ≤ limit then readDigits radix limit (radix * acc + d) digits
      else .error .tooLarge

/-- The number a text spells, at most `limit`: an optional plus sign, then one digit or more. -/
def readNumber (radix limit : Nat) : List Char → Except NumberFault Nat
  | [] => .error .empty
  | ['+'] => .error .invalidDigit
  | '+' :: digits => readDigits radix limit 0 digits
  | digits => readDigits radix limit 0 digits

/-- `text` filled up with zeros on the left to `width` characters. -/
def padZeros (width : Nat) (text : List Char) : List Char :=
  List.replicate (width - text.length) '0' ++ text

/-- The digits of `n`, at least `width` of them. -/
def paddedDigits (radix width n : Nat) : List Char :=
  padZeros width (Nat.toDigits radix n)

/-- The largest number of 16, 32 and 64 bits. -/
def maxU16 : Nat := 65535
@[inherit_doc maxU16] def maxU32 : Nat := 4294967295
@[inherit_doc maxU16] def maxU64 : Nat := 18446744073709551615

end Caretaker.Text
