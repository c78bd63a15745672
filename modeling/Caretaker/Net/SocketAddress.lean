import Caretaker.Net.IpAddress

/-!
# Socket addresses

An IP address with a port.  An IPv6 address stands in brackets and may have a numeric scope.
-/

namespace Caretaker.Net

/-- An address that a server can listen on. -/
inductive SocketAddress where
  | v4 (ip : Ipv4) (port : UInt16)
  | v6 (ip : Ipv6) (scope : UInt32) (port : UInt16)
deriving DecidableEq, Repr

namespace SocketAddress

/-- The port of an address. -/
def port : SocketAddress → UInt16
  | .v4 _ port => port
  | .v6 _ _ port => port

/-- A port after its colon, up to the end of the text. -/
def port? (text : List Char) : Option UInt16 := do
  let (port, rest) ← takeNumber? 10 Text.maxU16 (← takeChar? ':' text)
  if rest = [] then some (UInt16.ofNat port) else none

/-- An IPv4 address with its port. -/
def v4? (text : List Char) : Option SocketAddress := do
  let (ip, rest) ← Ipv4.take? text
  return .v4 ip (← port? rest)

/-- The scope after its percent sign, if there is one. -/
def takeScope? : List Char → Option (UInt32 × List Char)
  | '%' :: text => (takeNumber? 10 Text.maxU32 text).map fun (n, rest) => (UInt32.ofNat n, rest)
  | text => some (0, text)

/-- A bracketed IPv6 address with its port. -/
def v6? (text : List Char) : Option SocketAddress := do
  let (ip, rest) ← Ipv6.take? (← takeChar? '[' text)
  let (scope, rest) ← takeScope? rest
  return .v6 ip scope (← port? (← takeChar? ']' rest))

/-- The address that a text spells. -/
def parse? (text : String) : Option SocketAddress :=
  (v4? text.toList).orElse fun _ => v6? text.toList

/-- The form in which an address is shown. -/
def render : SocketAddress → String
  | .v4 ip port => s!"{ip.render}:{port.toNat}"
  | .v6 ip scope port =>
    if scope = 0 then s!"[{ip.render true}]:{port.toNat}"
    else s!"[{ip.render true}%{scope.toNat}]:{port.toNat}"

end SocketAddress
end Caretaker.Net
