import Caretaker.Json.Tree

/-!
# JSON tokens

`Token.next?` reads one token off a text; `Token.scan` reads tokens for as long as there are any
and returns what is left, which is empty exactly when the whole text is made of tokens and blanks.
-/

namespace Caretaker.Json

/-- A lexical element of a JSON text. -/
inductive Token where
  | openBrace
  | closeBrace
  | openBracket
  | closeBracket
  | comma
  | colon
  | null
  | bool (value : Bool)
  | number (spelling : String)
  | string (value : Option String)
deriving Repr, BEq, DecidableEq

/-- The four characters that may stand between tokens. -/
def isBlank (c : Char) : Bool :=
  c == ' ' || c == '\n' || c == '\r' || c == '\t'

/-! ## Strings -/

/-- One unit of a string: a character, or the code of a `\u` escape. -/
inductive StringUnit where
  | char (c : Char)
  | code (n : Nat)
deriving Repr, DecidableEq

/-- The value of a hexadecimal digit in either case. -/
def hexValue? (c : Char) : Option Nat :=
  if '0' ≤ c ∧ c ≤ '9' then some (c.toNat - '0'.toNat)
  else if 'a' ≤ c ∧ c ≤ 'f' then some (c.toNat - 'a'.toNat + 10)
  else if 'A' ≤ c ∧ c ≤ 'F' then some (c.toNat - 'A'.toNat + 10)
  else none

/-- The number of four hexadecimal digits. -/
def hexCode? (a b c d : Char) : Option Nat :=
  match hexValue? a, hexValue? b, hexValue? c, hexValue? d with
  | some a, some b, some c, some d => some (((a * 16 + b) * 16 + c) * 16 + d)
  | _, _, _, _ => none

/-- The character a one-letter escape stands for. -/
def simpleEscape? : Char → Option Char
  | '"' => some '"'
  | '\\' => some '\\'
  | '/' => some '/'
  | 'b' => some '\x08'
  | 'f' => some '\x0c'
  | 'n' => some '\n'
  | 'r' => some '\r'
  | 't' => some '\t'
  | _ => none

/-- The units of a string after its opening quote, and the text after its closing quote. -/
def stringUnits? : List Char → Option (List StringUnit × List Char)
  | [] => none
  | '"' :: rest => some ([], rest)
  | '\\' :: 'u' :: a :: b :: c :: d :: rest =>
    match hexCode? a b c d with
    | none => none
    | some n => (stringUnits? rest).map fun (units, after) => (.code n :: units, after)
  | '\\' :: c :: rest =>
    match simpleEscape? c with
    | none => none
    | some e => (stringUnits? rest).map fun (units, after) => (.char e :: units, after)
  | c :: rest =>
    if c = '\\' then none
    else if c.toNat < 0x20 then none
    else (stringUnits? rest).map fun (units, after) => (.char c :: units, after)

/-- Codes of the first and of the second half of a surrogate pair. -/
def isHighSurrogate (n : Nat) : Bool := 0xD800 ≤ n && n ≤ 0xDBFF

@[inherit_doc isHighSurrogate]
def isLowSurrogate (n : Nat) : Bool := 0xDC00 ≤ n && n ≤ 0xDFFF

/-- The text that units spell; none when a surrogate has no partner. -/
def spell? : List StringUnit → Option (List Char)
  | [] => some []
  | .char c :: units => (spell? units).map (c :: ·)
  | .code high :: .code low :: units =>
    if isHighSurrogate high then
      if isLowSurrogate low then
        (spell? units).map
          (Char.ofNat (0x10000 + (high - 0xD800) * 0x400 + (low - 0xDC00)) :: ·)
      else none
    else if isLowSurrogate high then none
    else (spell? (.code low :: units)).map (Char.ofNat high :: ·)
  | .code n :: units =>
    if isHighSurrogate n || isLowSurrogate n then none
    else (spell? units).map (Char.ofNat n :: ·)

/-! ## Numbers -/

/-- The leading decimal digits of a text, and the rest of it. -/
def digits (text : List Char) : List Char × List Char :=
  (text.takeWhile Char.isDigit, text.dropWhile Char.isDigit)

/-- The whole part of a number: a single zero, or digits that start with none. -/
def wholePart? : List Char → Option (List Char × List Char)
  | '0' :: c :: rest => if c.isDigit then none else some (['0'], c :: rest)
  | '0' :: [] => some (['0'], [])
  | text =>
    match digits text with
    | ([], _) => none
    | (ds, rest) => some (ds, rest)

/-- The fraction of a number, nothing where no point stands; a point alone is refused. -/
def fraction? : List Char → Option (List Char × List Char)
  | '.' :: text =>
    match digits text with
    | ([], _) => none
    | (ds, rest) => some ('.' :: ds, rest)
  | text => some ([], text)

/-- The sign of an exponent, if there is one. -/
def exponentSign : List Char → List Char × List Char
  | '+' :: rest => (['+'], rest)
  | '-' :: rest => (['-'], rest)
  | text => ([], text)

/-- The exponent of a number, nothing where no `e` stands; an `e` without digits is refused. -/
def exponent? : List Char → Option (List Char × List Char)
  | [] => some ([], [])
  | e :: text =>
    if e = 'e' ∨ e = 'E' then
      let (sign, rest) := exponentSign text
      match digits rest with
      | ([], _) => none
      | (ds, rest) => some (e :: sign ++ ds, rest)
    else some ([], e :: text)

/-- The spelling of the unsigned number at the start of a text, and the rest of it. -/
def unsigned? (text : List Char) : Option (List Char × List Char) := do
  let (whole, rest) ← wholePart? text
  let (fraction, rest) ← fraction? rest
  let (exponent, rest) ← exponent? rest
  return (whole ++ fraction ++ exponent, rest)

/-- The spelling of the number at the start of a text, and the rest of it. -/
def numeral? : List Char → Option (List Char × List Char)
  | '-' :: text => (unsigned? text).map fun (spelling, rest) => ('-' :: spelling, rest)
  | text => unsigned? text

/-! ## Tokens -/

/-- The token at the start of a text that starts with no blank, and the rest of the text. -/
def Token.next? : List Char → Option (Token × List Char)
  | [] => none
  | '{' :: rest => some (.openBrace, rest)
  | '}' :: rest => some (.closeBrace, rest)
  | '[' :: rest => some (.openBracket, rest)
  | ']' :: rest => some (.closeBracket, rest)
  | ',' :: rest => some (.comma, rest)
  | ':' :: rest => some (.colon, rest)
  | 'n' :: 'u' :: 'l' :: 'l' :: rest => some (.null, rest)
  | 't' :: 'r' :: 'u' :: 'e' :: rest => some (.bool true, rest)
  | 'f' :: 'a' :: 'l' :: 's' :: 'e' :: rest => some (.bool false, rest)
  | '"' :: rest =>
    (stringUnits? rest).map fun (units, after) =>
      (.string ((spell? units).map String.ofList), after)
  | text => (numeral? text).map fun (spelling, rest) => (.number (String.ofList spelling), rest)

/-- The tokens at the start of a text, at most `fuel` of them, put after those already `read` (last
one first), and the text they leave. -/
def Token.scanWithin : (fuel : Nat) → (read : List Token) → List Char → List Token × List Char
  | 0, read, text => (read.reverse, text.dropWhile isBlank)
  | fuel + 1, read, text =>
    match Token.next? (text.dropWhile isBlank) with
    | none => (read.reverse, text.dropWhile isBlank)
    | some (token, rest) => scanWithin fuel (token :: read) rest

/-- The tokens at the start of a text, and the text they leave.  A token takes one character or
more, so the length of the text bounds their number. -/
def Token.scan (text : List Char) : List Token × List Char :=
  Token.scanWithin text.length [] text

end Caretaker.Json
