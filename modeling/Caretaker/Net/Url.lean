import Caretaker.Text.Split
import Caretaker.Net.IpAddress
import Caretaker.Net.Percent
import Caretaker.Net.Punycode

/-!
# URLs

Absolute URLs are read by the rules of the web: blanks around the text and line breaks in it are
dropped, the special schemes take backslashes for slashes and need a host, hosts are normalised, dot
segments of the path are resolved, and each part is percent-encoded as it needs.  A URL is kept in
the parts that its normal form is made of.
-/

namespace Caretaker.Net

/-- A URL in normal form, by parts; every part is already encoded. -/
structure Url where
  scheme : String
  username : String := ""
  password : String := ""
  host : Option String := none
  port : Option Nat := none
  path : String := ""
  query : Option String := none
  fragment : Option String := none
deriving DecidableEq, Repr

namespace Url

/-- Why a text is no absolute URL. -/
inductive Fault where
  | relative
  | emptyHost
  | domain
  | ipv4
  | ipv6
  | opaqueHost
  | port
deriving DecidableEq, Repr

/-- The wording of a fault. -/
def Fault.message : Fault → String
  | relative => "relative URL without a base"
  | emptyHost => "empty host"
  | domain => "invalid international domain name"
  | ipv4 => "invalid IPv4 address"
  | ipv6 => "invalid IPv6 address"
  | opaqueHost => "invalid domain character"
  | port => "invalid port number"

/-- The port that a special scheme leaves out; none for a special scheme without one. -/
def specialPort? : String → Option (Option Nat)
  | "http" => some (some 80)
  | "https" => some (some 443)
  | "ws" => some (some 80)
  | "wss" => some (some 443)
  | "ftp" => some (some 21)
  | "file" => some none
  | _ => none

/-- A scheme whose URLs have a host and slashes. -/
def isSpecial (scheme : String) : Bool := (specialPort? scheme).isSome

/-! ## Hosts -/

/-- A number in a part of an IPv4 host: hexadecimal after `0x`, octal after a zero. -/
def ipv4Number? (text : List Char) : Option Nat :=
  let read := fun radix digits =>
    if digits.isEmpty then some 0
    else if digits.all fun c => (Text.digitValue? radix c).isSome then
      some (ofDigits radix (takeDigits radix digits).1)
    else none
  match text with
  | [] => none
  | '0' :: 'x' :: digits => read 16 digits
  | '0' :: 'X' :: digits => read 16 digits
  | '0' :: c :: digits => read 8 (c :: digits)
  | digits => read 10 digits

/-- The labels of a host, without the empty one after a final dot. -/
def labels (host : List Char) : List (List Char) :=
  let parts := Text.splitOn '.' host
  if 1 < parts.length ∧ parts.getLast? = some [] then parts.dropLast else parts

/-- Whether the last label of a host is a number, so that the host has to be an IPv4 address. -/
def endsInNumber (host : List Char) : Bool :=
  match (labels host).getLast? with
  | none => false
  | some [] => false
  | some label => label.all Char.isDigit || (ipv4Number? label).isSome

/-- The IPv4 address of a host that ends in a number: the last part fills all places left. -/
def ipv4? (host : List Char) : Option Ipv4 := do
  let numbers ← (labels host).mapM ipv4Number?
  let last ← numbers.getLast?
  let front := numbers.dropLast
  if numbers.length ≤ 4 ∧ front.all (· ≤ 255) ∧ last < Nat.pow 256 (5 - numbers.length) then
    some (.ofNat (front.zipIdx.foldl (fun n (part, i) => n + part * Nat.pow 256 (3 - i)) last))
  else none

/-- Characters that no domain name may hold. -/
def forbiddenInDomain (c : Char) : Bool :=
  c.toNat ≤ 0x20 || c.toNat == 0x7F || "#/:<>?@[\\]^|%".toList.contains c

/-- Characters that no other host may hold. -/
def forbiddenInHost (c : Char) : Bool :=
  "\x00\t\n\r #/:<>?@[\\]^|".toList.contains c

/-- The ASCII form of a label. -/
def asciiLabel (label : List Char) : List Char :=
  let label := label.map Char.toLower
  if label.all (·.toNat < 128) then label else "xn--".toList ++ Punycode.encode label

/-- The normal form of a host. -/
def parseHost (special : Bool) (text : List Char) : Except Fault String :=
  match text with
  | '[' :: inner =>
    match Ipv6.take? inner with
    | some (ip, [']']) => .ok ("[" ++ ip.render false ++ "]")
    | _ => .error .ipv6
  | _ =>
    if special then
      let decoded := Utf8.decodeLossy (Percent.decodeBytes text)
      let ascii := ".".toList.intercalate ((Text.splitOn '.' decoded).map asciiLabel)
      if ascii.any forbiddenInDomain then .error .domain
      else if ascii.isEmpty then .error .emptyHost
      else if endsInNumber ascii then (ipv4? ascii).elim (.error .ipv4) (.ok ·.render)
      else .ok (String.ofList ascii)
    else if text.any forbiddenInHost then .error .opaqueHost
    else .ok (String.ofList (Percent.encode Percent.controls text))

/-! ## Paths -/

/-- A segment that stands for its directory. -/
def isSingleDot (segment : List Char) : Bool :=
  [".", "%2e"].contains (String.ofList (segment.map Char.toLower))

/-- A segment that stands for the directory above. -/
def isDoubleDot (segment : List Char) : Bool :=
  ["..", ".%2e", "%2e.", "%2e%2e"].contains (String.ofList (segment.map Char.toLower))

/-- The segments that are left (last one first) when dot segments are resolved. -/
def resolveDots : (kept : List (List Char)) → List (List Char) → List (List Char)
  | kept, [] => kept
  | kept, [last] =>
    if isDoubleDot last then [] :: kept.drop 1
    else if isSingleDot last then [] :: kept
    else last :: kept
  | kept, segment :: next :: rest =>
    if isDoubleDot segment then resolveDots (kept.drop 1) (next :: rest)
    else if isSingleDot segment then resolveDots kept (next :: rest)
    else resolveDots (segment :: kept) (next :: rest)

/-- The normal form of a path that starts with a slash; the slash is not part of `text`. -/
def absolutePath (special : Bool) (text : List Char) : String :=
  let text := if special then text.map fun c => if c = '\\' then '/' else c else text
  let segments := (resolveDots [] (Text.splitOn '/' text)).reverse
  String.ofList (segments.flatMap fun segment => '/' :: Percent.encode Percent.path segment)

/-! ## Reading -/

/-- Blanks and control characters around a text are dropped, and so are line breaks and tabs. -/
def clean (text : List Char) : List Char :=
  let isEdge := fun c : Char => c.toNat ≤ 0x20
  let trimmed := ((text.dropWhile isEdge).reverse.dropWhile isEdge).reverse
  trimmed.filter fun c => !(c == '\t' || c == '\n' || c == '\r')

/-- The scheme at the start of a text, in lower case, and what follows its colon. -/
def scheme? (text : List Char) : Option (String × List Char) :=
  let isPart := fun c : Char => c.isAlphanum || c == '+' || c == '-' || c == '.'
  match text.takeWhile isPart, text.dropWhile isPart with
  | c :: scheme, ':' :: rest =>
    if c.isAlpha then some (String.ofList ((c :: scheme).map Char.toLower), rest) else none
  | _, _ => none

/-- The query and the fragment after a path, each without its mark. -/
def tail (special : Bool) (text : List Char) : Option String × Option String :=
  let (before, fragment) :=
    match Text.splitFirst? ['#'] text with
    | some (before, after) => (before, some (String.ofList (Percent.encode Percent.fragment after)))
    | none => (text, none)
  match before with
  | '?' :: query => (some (String.ofList (Percent.encode (Percent.query special) query)), fragment)
  | _ => (none, fragment)

/-- Where a path ends. -/
def endsPath (c : Char) : Bool := c == '?' || c == '#'

/-- A port after its colon: digits, none of them meaning no port; at most 65535. -/
def parsePort (text : List Char) : Except Fault (Option Nat) :=
  if text.isEmpty then .ok none
  else if text.all Char.isDigit then
    let n := ofDigits 10 (takeDigits 10 text).1
    if n ≤ Text.maxU16 then .ok (some n) else .error .port
  else .error .port

/-- Host and port of an authority; a colon in brackets belongs to the host. -/
def splitPort (text : List Char) : List Char × List Char :=
  match text with
  | '[' :: _ =>
    match Text.splitFirst? [']'] text with
    | some (inner, after) => (inner ++ [']'], after)
    | none => (text, [])
  | _ => (text.takeWhile (· ≠ ':'), text.dropWhile (· ≠ ':'))

/-- A URL with an authority, from the text after the slashes. -/
def withAuthority (scheme : String) (text : List Char) : Except Fault Url := do
  let special := isSpecial scheme
  let endsAuthority := fun c => c == '/' || endsPath c || (special && c == '\\')
  let authority := text.takeWhile fun c => !endsAuthority c
  let rest := text.dropWhile fun c => !endsAuthority c
  let (info, address) := (Text.splitLast? ['@'] authority).getD ([], authority)
  let (hostText, portText) := splitPort address
  if hostText.isEmpty && (special || !info.isEmpty || !portText.isEmpty) then throw .emptyHost
  let host ← if hostText.isEmpty then pure "" else parseHost special hostText
  let port ←
    match portText with
    | [] => pure none
    | ':' :: digits => parsePort digits
    | _ => throw .ipv6
  let path := rest.takeWhile fun c => !endsPath c
  let (query, fragment) := tail special (rest.dropWhile fun c => !endsPath c)
  let encodeInfo := fun part => String.ofList (Percent.encode Percent.userInfo part)
  return {
    scheme
    username := encodeInfo (info.takeWhile (· ≠ ':'))
    password := encodeInfo ((info.dropWhile (· ≠ ':')).drop 1)
    host := some host
    port := if (specialPort? scheme).any (fun usual => usual.isSome && usual == port) then none
      else port
    path := if path.isEmpty then (if special then "/" else "")
      else absolutePath special (path.drop 1)
    query, fragment }

/-- A URL without an authority: a rooted path, or a path that is kept as it is. -/
def withoutAuthority (scheme : String) (text : List Char) : Url :=
  let path := text.takeWhile fun c => !endsPath c
  let (query, fragment) := tail false (text.dropWhile fun c => !endsPath c)
  { scheme, query, fragment
    path :=
      match path with
      | '/' :: rest => absolutePath false rest
      | _ => String.ofList (Percent.encode Percent.controls path) }

/-- A slash of either kind. -/
def isSlash (c : Char) : Bool := c == '/' || c == '\\'

/-- A `file` URL on a host, from the text after the host. -/
def fileOn (host : Option String) (text : List Char) : Url :=
  let path := text.takeWhile fun c => !endsPath c
  let (query, fragment) := tail true (text.dropWhile fun c => !endsPath c)
  { scheme := "file", host, query, fragment
    path := absolutePath true (if path.head?.any isSlash then path.drop 1 else path) }

/-- A `file` URL; a local one has no host. -/
def file : List Char → Except Fault Url
  | a :: b :: rest => do
    if isSlash a && isSlash b then
      let endsHost := fun c => isSlash c || endsPath c
      let text := rest.takeWhile fun c => !endsHost c
      let host ← if text.isEmpty then pure "localhost" else parseHost true text
      let local? := if host == "localhost" then none else some host
      return fileOn local? (rest.dropWhile fun c => !endsHost c)
    else return fileOn none (a :: b :: rest)
  | text => .ok (fileOn none text)

/-- The URL that a text spells. -/
def parse (text : String) : Except Fault Url :=
  match scheme? (clean text.toList) with
  | none => .error .relative
  | some ("file", rest) => file rest
  | some (scheme, rest) =>
    if isSpecial scheme then
      withAuthority scheme (rest.dropWhile fun c => c == '/' || c == '\\')
    else
      match rest with
      | '/' :: '/' :: rest => withAuthority scheme rest
      | _ => .ok (withoutAuthority scheme rest)

/-! ## Writing -/

/-- The user name and password before a host, with the sign after them. -/
def renderUserInfo (url : Url) : String :=
  if url.username.isEmpty && url.password.isEmpty then ""
  else if url.password.isEmpty then url.username ++ "@"
  else url.username ++ ":" ++ url.password ++ "@"

/-- The normal form of a URL. -/
def render (url : Url) : String :=
  let authority :=
    match url.host with
    | some host =>
      "//" ++ url.renderUserInfo ++ host ++ (url.port.map fun p => s!":{p}").getD ""
    | none =>
      if url.scheme == "file" then "//" else if url.path.startsWith "//" then "/." else ""
  url.scheme ++ ":" ++ authority ++ url.path ++ (url.query.map ("?" ++ ·)).getD ""
    ++ (url.fragment.map ("#" ++ ·)).getD ""

/-- A URL without its user name and password. -/
def withoutUserInfo (url : Url) : Url := { url with username := "", password := "" }

/-- The target of a request on a fixed host: the normal form of a rooted path and the query in it.
-/
def requestTarget (text : String) : String × Option String :=
  let text := clean text.toList
  let path := text.takeWhile fun c => !endsPath c
  (absolutePath false (path.drop 1), (tail false (text.dropWhile fun c => !endsPath c)).1)

end Url
end Caretaker.Net
