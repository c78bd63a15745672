import Caretaker.Text.Number

/-!
# IP addresses

Addresses of both families with a parser for the start of a text and a canonical printer.  The parts
of an IPv4 address are decimal without leading zeros.  An IPv6 address has eight groups of up to
four hexadecimal digits; `::` stands once for one zero group or more, and the last two groups may be
an IPv4 address.  The printer shortens the first of the longest runs of two zero groups or more.
-/

namespace Caretaker.Net

/-- An IPv4 address, its four parts in order. -/
structure Ipv4 where
  a : UInt8
  b : UInt8
  c : UInt8
  d : UInt8
deriving DecidableEq, Repr

/-- An IPv6 address: eight groups of 16 bits. -/
structure Ipv6 where
  groups : Vector UInt16 8
deriving DecidableEq, Repr

/-! ## Reading numbers off a text -/

/-- The digits of a radix at the start of a text, as values, and the rest. -/
def takeDigits (radix : Nat) : List Char → List Nat × List Char
  | [] => ([], [])
  | c :: text =>
    match Text.digitValue? radix c with
    | none => ([], c :: text)
    | some d =>
      let (ds, rest) := takeDigits radix text
      (d :: ds, rest)

/-- The number that digit values spell. -/
def ofDigits (radix : Nat) (ds : List Nat) : Nat :=
  ds.foldl (fun n d => radix * n + d) 0

/-- A number of one digit or more at the start of a text, at most `limit`. -/
def takeNumber? (radix limit : Nat) (text : List Char) : Option (Nat × List Char) :=
  match takeDigits radix text with
  | ([], _) => none
  | (ds, rest) => if ofDigits radix ds ≤ limit then some (ofDigits radix ds, rest) else none

/-- The rest of a text that starts with `c`. -/
def takeChar? (c : Char) : List Char → Option (List Char)
  | [] => none
  | d :: text => if d = c then some text else none

/-! ## IPv4 -/

/-- A part of an IPv4 address at the start of a text: up to three digits, no leading zero. -/
def takeOctet? (text : List Char) : Option (UInt8 × List Char) :=
  match takeDigits 10 text with
  | ([], _) => none
  | (d :: ds, rest) =>
    if ds.length ≤ 2 ∧ ¬ (d = 0 ∧ ds ≠ []) ∧ ofDigits 10 (d :: ds) ≤ 255 then
      some (UInt8.ofNat (ofDigits 10 (d :: ds)), rest)
    else none

/-- The IPv4 address at the start of a text, and the rest. -/
def Ipv4.take? (text : List Char) : Option (Ipv4 × List Char) := do
  let (a, text) ← takeOctet? text
  let (b, text) ← takeOctet? (← takeChar? '.' text)
  let (c, text) ← takeOctet? (← takeChar? '.' text)
  let (d, text) ← takeOctet? (← takeChar? '.' text)
  return (⟨a, b, c, d⟩, text)

/-- The dotted form. -/
def Ipv4.render (ip : Ipv4) : String :=
  s!"{ip.a.toNat}.{ip.b.toNat}.{ip.c.toNat}.{ip.d.toNat}"

/-- The address as a number of 32 bits. -/
def Ipv4.ofNat (n : Nat) : Ipv4 :=
  ⟨UInt8.ofNat (n >>> 24), UInt8.ofNat (n >>> 16), UInt8.ofNat (n >>> 8), UInt8.ofNat n⟩

/-! ## IPv6 -/

/-- A group of an IPv6 address at the start of a text: up to four digits. -/
def takeGroup? (text : List Char) : Option (UInt16 × List Char) :=
  match takeDigits 16 text with
  | ([], _) => none
  | (ds, rest) =>
    if ds.length ≤ 4 then some (UInt16.ofNat (ofDigits 16 ds), rest) else none

/-- The two groups an IPv4 address fills. -/
def Ipv4.groups (ip : Ipv4) : List UInt16 :=
  [UInt16.ofNat (ip.a.toNat * 256 + ip.b.toNat), UInt16.ofNat (ip.c.toNat * 256 + ip.d.toNat)]

/-- The groups at the start of a text, at most `room` of them, whether they end in an IPv4 address,
and the rest.  A colon stands before each but the first. -/
def takeGroups : (room : Nat) → (first : Bool) → List Char → List UInt16 × Bool × List Char
  | 0, _, text => ([], false, text)
  | room + 1, first, text =>
    let start? := if first then some text else takeChar? ':' text
    match start? with
    | none => ([], false, text)
    | some start =>
      match (if room = 0 then none else Ipv4.take? start) with
      | some (ip, rest) => (ip.groups, true, rest)
      | none =>
        match takeGroup? start with
        | none => ([], false, text)
        | some (group, rest) =>
          let (groups, dotted, rest) := takeGroups room false rest
          (group :: groups, dotted, rest)

/-- Eight groups: the front ones, zeros, and the back ones. -/
def Ipv6.ofEnds (front back : List UInt16) : Ipv6 :=
  let zeros := List.replicate (8 - front.length - back.length) 0
  ⟨Vector.ofFn fun i => (front ++ zeros ++ back).getD i 0⟩

/-- The IPv6 address at the start of a text, and the rest. -/
def Ipv6.take? (text : List Char) : Option (Ipv6 × List Char) :=
  match takeGroups 8 true text with
  | (front, dotted, rest) =>
    if front.length = 8 then some (ofEnds front [], rest)
    else if dotted then none
    else
      match rest with
      | ':' :: ':' :: rest =>
        let (back, _, rest) := takeGroups (7 - front.length) true rest
        some (ofEnds front back, rest)
      | _ => none

/-- The length of the run of zeros at the start of a list. -/
def zeroRun (groups : List UInt16) : Nat := (groups.takeWhile (· = 0)).length

/-- Where the first of the longest runs of zero groups starts, and its length. -/
def longestZeroRun (groups : List UInt16) : Nat × Nat :=
  (List.range groups.length).foldl
    (fun best i =>
      let run := zeroRun (groups.drop i)
      if best.2 < run then (i, run) else best)
    (0, 0)

/-- Groups in hexadecimal with colons between them. -/
def renderGroups (groups : List UInt16) : String :=
  ":".intercalate (groups.map fun g => String.ofList (Nat.toDigits 16 g.toNat))

/-- The canonical form of the groups; an IPv4 address mapped into IPv6 keeps its dotted form when
`dotted`. -/
def Ipv6.render (ip : Ipv6) (dotted : Bool) : String :=
  let groups := ip.groups.toList
  let high := fun i => (groups.getD i 0).toNat
  if dotted && groups.take 6 == [0, 0, 0, 0, 0, 0xffff] then
    "::ffff:" ++ (Ipv4.ofNat (high 6 * 65536 + high 7)).render
  else
    let (start, length) := longestZeroRun groups
    if length < 2 then renderGroups groups
    else renderGroups (groups.take start) ++ "::" ++ renderGroups (groups.drop (start + length))

end Caretaker.Net
