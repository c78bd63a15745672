import Caretaker.Event
import Caretaker.Json.Record
import Caretaker.Net.Http
import Caretaker.Net.Url
import Caretaker.Text.Number

/-!
# Probes

Before the service starts it checks what it depends on: a JSON-RPC endpoint has to tell its latest
block, and the batch API has to accept a test batch.  A `Probe` answers these checks;
`Probe.overHttp` does so by requests over a network.
-/

namespace Caretaker

/-- A check of something the service depends on. -/
inductive Check where
  /-- The JSON-RPC endpoint at `url` tells its latest block. -/
  | rpc (url : String)
  /-- The batch API below `url` accepts a test batch. -/
  | batch (url : String)
deriving DecidableEq, Repr

/-- What a check gives when it succeeds. -/
abbrev Check.Value : Check → Type
  | rpc _ => Nat
  | batch _ => Unit

namespace Probe

/-- Why a check failed. -/
inductive Fault where
  /-- The text is no URL. -/
  | noUrl (cause : Net.Url.Fault)
  /-- The URL is none of the web. -/
  | unusable (url : String)
  /-- The request to a URL was not answered. -/
  | unanswered (url : String) (causes : List String)
  /-- The endpoint answered with a status that is no success. -/
  | rpcStatus (status : Nat) (body : String)
  | batchStatus (status : Nat) (body : String)
  /-- The endpoint answered no response of the protocol. -/
  | undecodable
  | rpcError (code : Int) (message : String)
  | noResult
  /-- The result does not start like a quantity. -/
  | notHex (value : String)
  | invalidQuantity (value : String) (cause : Text.NumberFault)
  | other (message : String)
deriving DecidableEq, Repr

namespace Fault

/-- The wording of a fault. -/
def message : Fault → String
  | noUrl _ => "builder error"
  | unusable url => s!"builder error for url ({url})"
  | unanswered url _ => s!"error sending request for url ({url})"
  | rpcStatus status body => s!"JSON-RPC endpoint returned {Http.statusText status}: {body}"
  | batchStatus status body => s!"batch API returned {Http.statusText status}: {body}"
  | undecodable => "error decoding response body"
  | rpcError code message => s!"JSON-RPC error {code}: {message}"
  | noResult => "JSON-RPC response has no result"
  | notHex value => s!"quantity is not hex: {value}"
  | invalidQuantity value _ => s!"invalid quantity: {value}"
  | other message => message

/-- The wording of a fault and of its causes. -/
def chain (fault : Fault) : List String :=
  fault.message ::
    match fault with
    | noUrl cause => [cause.message]
    | unusable _ => ["URL scheme is not allowed"]
    | unanswered _ causes => causes
    | invalidQuantity _ cause => [cause.message]
    | _ => []

end Fault
end Probe

/-- Something that answers checks, and what the log tells meanwhile. -/
structure Probe where
  answer : (check : Check) → Except Probe.Fault check.Value
  events : Check → List Event := fun _ => []

namespace Probe

/-- A probe whose endpoints tell block 1 but for those that fail with a given message. -/
def failingAt (urls : List (String × String)) (batch : Option String) : Probe where
  answer
    | .rpc url =>
      match urls.find? (·.1 == url) with
      | some (_, message) => .error (.other message)
      | none => .ok 1
    | .batch _ =>
      match batch with
      | some message => .error (.other message)
      | none => .ok ()

/-! ## Over HTTP -/

/-- A network: how posting a JSON value to a URL ends. -/
abbrev Network := Net.Url → Json → Http.Outcome

/-- A network that cannot be reached. -/
def Network.unreachable : Network := fun _ _ =>
  .failed ["client error (Connect)", "tcp connect error", "Network is unreachable (os error 101)"]

/-- The number that a quantity spells: `0x` and hexadecimal digits, at most 64 bits. -/
def quantity (value : String) : Except Fault Nat :=
  match value.toList with
  | '0' :: 'x' :: digits =>
    (Text.readNumber 16 Text.maxU64 digits).mapError (.invalidQuantity value)
  | _ => .error (.notHex value)

/-- The error that a JSON-RPC response reports, if it reports one, and its result. -/
structure RpcResponse where
  result : Option String
  error : Option (Int × String)
deriving DecidableEq, Repr

open Json in
/-- The JSON-RPC response that a JSON value is. -/
def RpcResponse.ofJson? (value : Spelled) : Option RpcResponse := do
  let fields ← value.fields? ["result", "error"]
  let result ← fields.optional? "result" Tree.text?
  let error ← fields.optional? "error" fun value => do
    let fields ← value.fields? ["code", "message"]
    return (← fields.required? "code" Tree.int64?, ← fields.required? "message" Tree.text?)
  return { result, error }

/-- The text of a body, with a replacement for what is no text; no text if the body broke off. -/
def bodyText (body : Option (List UInt8)) : String :=
  String.ofList ((body.map Utf8.decodeLossy).getD [])

/-- The block that the answer of a JSON-RPC endpoint tells.  A status that is no success comes
first, then what cannot be read, then a reported error, whatever else the answer holds. -/
def blockOf (status : Nat) (body : Option (List UInt8)) : Except Fault Nat :=
  if !Http.isSuccess status then .error (.rpcStatus status (bodyText body))
  else
    match (body.bind Json.readBytes?).bind RpcResponse.ofJson? with
    | none => .error .undecodable
    | some { error := some (code, message), .. } => .error (.rpcError code message)
    | some { result := none, .. } => .error .noResult
    | some { result := some value, .. } => quantity value

/-- The request that asks an endpoint for its latest block. -/
def blockRequest : Json :=
  .object [("jsonrpc", .string "2.0"), ("id", Json.ofNat 1), ("method", .string "eth_blockNumber"),
    ("params", .array [])]

/-- A batch that changes nothing. -/
def testBatch : Json := .object [("ref", .string "test")]

/-- The answer to posting a value to a URL; only web URLs with a host can be asked. -/
def post (network : Network) (url : String) (value : Json) :
    Except Fault (Nat × Option (List UInt8)) :=
  match Net.Url.parse url with
  | .error fault => .error (.noUrl fault)
  | .ok url =>
    let shown := url.withoutUserInfo.render
    if (url.scheme == "http" || url.scheme == "https") && url.host.isSome then
      match network url value with
      | .answered status body => .ok (status, body)
      | .failed causes => .error (.unanswered shown causes)
    else .error (.unusable shown)

/-- Where a batch goes, below the base of the API. -/
def batchUrl (base : String) : String := String.ofList (Text.trimEnd '/' base.toList) ++ "/batch"

/-- An event of a probe. -/
def event (message url : String) : Event :=
  { level := .debug, component := .probe, message, fields := [("url", url)] }

/-- The probe that asks over a network. -/
def overHttp (network : Network) : Probe where
  answer
    | .rpc url => do
      let (status, body) ← post network url blockRequest
      blockOf status body
    | .batch base => do
      let (status, body) ← post network (batchUrl base) testBatch
      if Http.isSuccess status then return () else .error (.batchStatus status (bodyText body))
  events
    | .rpc url => [event "Probing JSON-RPC endpoint" url]
    | .batch base => [event "Probing alert batch API" (batchUrl base)]

end Probe
end Caretaker
