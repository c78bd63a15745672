/-!
# Punycode

The ASCII form of a label of a domain name that holds other characters: its ASCII characters, a
hyphen, and the other characters in increasing order as differences in digits of base 36.
-/

namespace Caretaker.Net.Punycode

/-- The digit of base 36 for a number: letters first. -/
def digit (n : Nat) : Char :=
  if n < 26 then Char.ofNat ('a'.toNat + n) else Char.ofNat ('0'.toNat + (n - 26))

/-- The bias after a difference was written. -/
def adapt (delta points : Nat) (first : Bool) : Nat :=
  let delta := if first then delta / 700 else delta / 2
  shrink delta.log2 (delta + delta / points) 0
where
  /-- Divides `delta` down to the range of one digit; `fuel` bounds the halvings. -/
  shrink : (fuel delta k : Nat) → Nat
    | 0, delta, k => k + 36 * delta / (delta + 38)
    | fuel + 1, delta, k =>
      if 455 < delta then shrink fuel (delta / 35) (k + 36) else k + 36 * delta / (delta + 38)

/-- The digits of a difference under a bias; `fuel` bounds their number. -/
def writeDelta (bias : Nat) : (fuel q k : Nat) → List Char
  | 0, q, _ => [digit q]
  | fuel + 1, q, k =>
    let t := if k ≤ bias then 1 else if bias + 26 ≤ k then 26 else k - bias
    if q < t then [digit q]
    else digit (t + (q - t) % (36 - t)) :: writeDelta bias fuel ((q - t) / (36 - t)) (k + 36)

/-- What the encoder has written and counts. -/
structure State where
  delta : Nat
  bias : Nat
  handled : Nat
  written : List Char

/-- Writes every occurrence of the character with number `n` in the label. -/
def writeOccurrences (basic n : Nat) (label : List Nat) (state : State) : State :=
  label.foldl
    (fun state c =>
      if c < n then { state with delta := state.delta + 1 }
      else if c = n then
        { delta := 0
          bias := adapt state.delta (state.handled + 1) (state.handled == basic)
          handled := state.handled + 1
          written := state.written ++ writeDelta state.bias state.delta state.delta 36 }
      else state)
    state

/-- Writes the characters from number `n` on; `fuel` bounds the number of different ones. -/
def writeFrom (basic : Nat) (label : List Nat) : (fuel n : Nat) → State → List Char
  | 0, _, state => state.written
  | fuel + 1, n, state =>
    match (label.filter (n ≤ ·)).min? with
    | none => state.written
    | some m =>
      let state := { state with delta := state.delta + (m - n) * (state.handled + 1) }
      let state := writeOccurrences basic m label state
      writeFrom basic label fuel (m + 1) { state with delta := state.delta + 1 }

/-- The Punycode form of a label, without any mark in front. -/
def encode (label : List Char) : List Char :=
  let basic := label.filter (·.toNat < 128)
  let start := if basic.isEmpty then [] else basic ++ ['-']
  writeFrom basic.length (label.map Char.toNat) label.length 128 ⟨0, 72, basic.length, start⟩

end Caretaker.Net.Punycode
