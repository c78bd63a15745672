import Caretaker.Container.Fault
import Caretaker.Event
import Caretaker.Json.Reader
import Caretaker.Net.Url
import Caretaker.Script

/-!
# Exchanges with a container engine

A request to the engine, how it may end, and the signature of everything that a client of the engine
asks for.  `exchange` is the one way to send a request: it tells apart the ends of it and reads out
of a refusal what the engine has to say.
-/

namespace Caretaker.Engine

/-- What a request wants done with its path. -/
inductive Method where
  | get
  | post
  | put
  | delete
deriving DecidableEq, Repr

/-- The name of a method. -/
def Method.name : Method → String
  | get => "GET"
  | post => "POST"
  | put => "PUT"
  | delete => "DELETE"

/-- What a request carries. -/
inductive Body where
  | empty
  | json (value : Json)
  | bytes (bytes : List UInt8)

/-- A request to the engine. -/
structure Request where
  method : Method
  /-- The path in normal form. -/
  path : String
  /-- The options, by name. -/
  options : List (String × String) := []
  body : Body := .empty

/-- The name and value pairs of a query: a plus sign stands for a blank. -/
def queryPairs (query : List Char) : List (String × String) :=
  let decode := fun text : List Char =>
    let blanks := text.map fun c => if c = '+' then ' ' else c
    String.ofList (Utf8.decodeLossy (Net.Percent.decodeBytes blanks))
  ((Text.splitOn '&' query).filter (!·.isEmpty)).map fun part =>
    match Text.splitFirst? ['='] part with
    | some (name, value) => (decode name, decode value)
    | none => (decode part, "")

/-- The request for a path.  Without options of its own, it has those that stand in the path. -/
def Request.on (method : Method) (path : String) (options : List (String × String) := [])
    (body : Body := .empty) : Request :=
  let (path, query) := Net.Url.requestTarget path
  { method, path, body
    options := if options.isEmpty then queryPairs (query.getD "").toList else options }

/-- How a request ends. -/
inductive Outcome where
  | answered (status : Nat) (body : List UInt8)
  /-- The connection could not be made or broke. -/
  | dropped
  /-- No answer came within the time that was given. -/
  | silent
deriving DecidableEq, Repr

/-- What a client of the engine asks for. -/
inductive Need where
  /-- Sends a request and waits for its end, `limit` milliseconds at most. -/
  | send (request : Request) (limit : Nat)
  /-- The time in milliseconds. -/
  | now
  /-- Lets time pass. -/
  | pause (milliseconds : Nat)
  /-- Tells the log. -/
  | log (event : Event)

/-- What each need is answered with. -/
abbrev Need.Answer : Need → Type
  | send _ _ => Outcome
  | now => Nat
  | pause _ => Unit
  | log _ => Unit

/-- The signature of a client of the engine. -/
abbrev signature : Signature where
  Request := Need
  Answer := Need.Answer

/-- Something a client of the engine does. -/
abbrev Action := Script signature

@[inherit_doc Need.send]
def send (request : Request) (limit : Nat) : Action Outcome :=
  Script.request (S := signature) (.send request limit)

@[inherit_doc Need.now]
def now : Action Nat := Script.request (S := signature) .now

@[inherit_doc Need.pause]
def pause (milliseconds : Nat) : Action Unit :=
  Script.request (S := signature) (.pause milliseconds)

@[inherit_doc Need.log]
def log (level : Level) (message : String) (fields : List (String × EventValue)) : Action Unit :=
  Script.request (S := signature) (.log { level, component := .engine, message, fields })

/-! ## Refusals -/

/-- What the body of a refusal says. -/
inductive Refusal where
  /-- It is a record with a message. -/
  | worded (message : String)
  /-- It is JSON of another form, so it is shown as it is. -/
  | shapeless
  /-- It is no JSON. -/
  | unreadable
deriving DecidableEq, Repr

namespace Refusal

open Json

/-- What is settled about a refusal as soon as a reader of its tokens is in some state.  A value of
the wrong kind settles it at once, whatever comes after. -/
def ofMachine? : Machine → Option Refusal
  | .finished [] (.object members) =>
    match members.find? (·.1 == some "message") with
    | some (_, .string (some message)) => some (.worded message)
    | _ => some .shapeless
  | .finished [] (.array [.string (some message)]) => some (.worded message)
  | .finished [] (.string none) => some .unreadable
  | .finished [] _ => some .shapeless
  | .needColon [] _ none => some .unreadable
  | .needColon [] members (some "message") =>
    if members.any (·.1 == some "message") then some .shapeless else none
  | .finished [.object _ (some "message")] value | .finished [.array []] value =>
    match value with
    | .string (some _) => none
    | .string none => some .unreadable
    | _ => some .shapeless
  | .openArray [.object _ (some "message")] | .openObject [.object _ (some "message")]
  | .openArray [.array []] | .openObject [.array []] => some .shapeless
  | .needValue [.array _] => some .unreadable
  | _ => none

/-- What tokens say, `rest` being the text after them that is none. -/
def ofTokens (rest : List Char) : Machine → List Token → Refusal
  | _, [] => .unreadable
  | machine, token :: tokens =>
    match machine.push token with
    | none => .unreadable
    | some machine =>
      match ofMachine? machine with
      | none => ofTokens rest machine tokens
      | some (.worded message) =>
        if tokens.isEmpty && rest.isEmpty then .worded message else .unreadable
      | some refusal => refusal

/-- What the text of a body says. -/
def ofText (text : List Char) : Refusal :=
  let (tokens, rest) := Token.scan text
  ofTokens rest (.needValue []) tokens

end Refusal

/-- The fault that a refusal with some status and body is. -/
def refusalFault (status : Nat) (body : List UInt8) : EngineFault :=
  let text := Utf8.decodeLossy body
  if text.isEmpty then .response status ""
  else
    match Refusal.ofText text with
    | .worded message => .response status message
    | .shapeless => .response status (String.ofList text)
    | .unreadable => .undecodable

/-- A status that tells of success; a request that had nothing to change succeeded. -/
def isSuccess (status : Nat) : Bool := (200 ≤ status && status < 300) || status == 304

/-- What an outcome gives: the body of a success, or a fault. -/
def Outcome.body : Outcome → Except EngineFault (List UInt8)
  | answered status body =>
    if isSuccess status then .ok body else .error (refusalFault status body)
  | dropped => .error .transport
  | silent => .error .timedOut

/-- The time in milliseconds that the engine has for one request. -/
def requestLimit : Nat := 120000

/-- Sends a request and gives the body of its answer. -/
def exchange (request : Request) : Action (Except EngineFault (List UInt8)) := do
  return (← send request requestLimit).body

/-- Sends a request whose answer is read by `reader`. -/
def ask {α : Type} (request : Request) (reader : Json.Spelled → Option α) :
    Action (Except EngineFault α) := do
  match ← exchange request with
  | .error fault => return .error fault
  | .ok body =>
    match ((Utf8.decode? body).bind Json.read?).bind reader with
    | some value => return .ok value
    | none => return .error .undecodable

/-- Sends a request whose answer says nothing more than that it succeeded. -/
def tell (request : Request) : Action (Except EngineFault Unit) := do
  return (← exchange request).map fun _ => ()

end Caretaker.Engine
