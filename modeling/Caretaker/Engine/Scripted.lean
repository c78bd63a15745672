import Caretaker.Engine.Client

/-!
# Engines that follow a script

An engine whose answers are laid down beforehand, in simulated time.  It remembers what it was
asked, and is a backend for calls on containers.
-/

namespace Caretaker.Engine

/-- How an engine ends a request, and when. -/
structure Reaction where
  outcome : Outcome
  /-- The time in milliseconds from the request to its end. -/
  delay : Nat := 0
deriving DecidableEq, Repr

namespace Reaction

/-- The reaction of an engine whose script is at its end. -/
def unscripted : Reaction where
  outcome := .answered 500 (Utf8.encode (Json.render (.object [("message", .string "unscripted")])))

/-- An outcome as it reaches a client: some answers have no body, whatever was written down. -/
def received : Outcome → Outcome
  | .answered status body => .answered status (if status == 204 || status == 304 then [] else body)
  | outcome => outcome

/-- The outcome for a client that waits `limit` milliseconds, and the time it takes. -/
def within (limit : Nat) (r : Reaction) : Outcome × Nat :=
  if r.outcome = .silent ∨ limit < r.delay then (.silent, limit) else (received r.outcome, r.delay)

end Reaction

/-- An engine that follows a script. -/
structure Scripted where
  timing : Timing := {}
  /-- How the coming requests end. -/
  reactions : List Reaction := []
  /-- What was asked, the last request first. -/
  requests : List Request := []
  /-- The time in milliseconds. -/
  clock : Nat := 0
  /-- Whether the engine can be connected to. -/
  hasSocket : Bool := true
  /-- What the log told, the last event first. -/
  events : List Event := []

namespace Scripted

/-- The engine after a request, and how the request ends.  Without a socket it ends at once. -/
def send (request : Request) (limit : Nat) (e : Scripted) : Outcome × Scripted :=
  if !e.hasSocket then (.dropped, e)
  else
    let (outcome, time) := (e.reactions.head?.getD .unscripted).within limit
    (outcome,
      { e with
        reactions := e.reactions.tail
        requests := request :: e.requests
        clock := e.clock + time })

/-- The answer to what a client needs. -/
def answer : (need : Need) → Scripted → need.Answer × Scripted
  | .send request limit, e => e.send request limit
  | .now, e => (e.clock, e)
  | .pause milliseconds, e => ((), { e with clock := e.clock + milliseconds })
  | .log event, e => ((), { e with events := event :: e.events })

/-- The answer to a call, with what the log tells meanwhile. -/
def perform (call : Container.Call) (e : Scripted) : Container.Reply call.Answer Scripted :=
  let (result, after) :=
    (Engine.perform e.timing call).run.run (S := signature) answer { e with events := [] }
  { answer := result, state := { after with events := [] }, events := after.events.reverse }

instance : Container.Backend Scripted := ⟨perform⟩

end Scripted

/-! ## Connecting -/

/-- The path of a socket; the scheme of a local socket may stand in its address. -/
def socketPath (address : String) : String :=
  match Text.splitFirst? "unix://".toList address.toList with
  | some (before, after) => String.ofList (before ++ after)
  | none => address

/-- Whether an engine can be connected to at an address; only the socket has to be there. -/
def connect (exists? : String → Bool) (address : String) : Except Container.Fault Unit :=
  let path := socketPath address
  if exists? path then .ok () else .error (.engine (.socketMissing path))

end Caretaker.Engine
