import Caretaker.Crew.Operation
import Caretaker.Service.Error
import Caretaker.Shutdown

/-!
# What the service asks for

The service works on the crew, and beside that it asks for checks, for images from the store, for
the passing of time, for the shutdown signal, and for activities of its own that go on in the
background.
-/

namespace Caretaker.Service

/-- Something the service does in the background. -/
inductive Activity where
  /-- Begins to follow the image stream. -/
  | updates
  /-- Follows the image stream. -/
  | updatesFrom
  /-- Begins to restart containers that exited. -/
  | keepAlive
  /-- Waits for the tick at `nextTick` milliseconds, having seen `seen` sends of the shutdown
  signal. -/
  | keepAliveFrom (nextTick seen : Nat)
  /-- Begins to serve health. -/
  | health
  /-- Serves health, having seen `seen` sends of the shutdown signal. -/
  | healthFrom (seen : Nat)
deriving DecidableEq, Repr

/-- What ends the wait between two passes. -/
inductive Wake where
  | tick
  | shutdown (news : ShutdownNews)
deriving DecidableEq, Repr

/-- What the service asks for. -/
inductive Request where
  | crew (request : Crew.Request)
  | check (check : Check)
  | embeddedImages
  /-- The image stream; it is handed out once. -/
  | takeImages
  /-- The next images of the stream, none at its end; this may take a while. -/
  | nextImages
  /-- Drops the image stream. -/
  | leaveImages
  | spawn (activity : Activity)
  /-- The time in milliseconds. -/
  | now
  /-- The tick at a time or news of the shutdown signal; this may take a while. -/
  | tickOrShutdown (nextTick seen : Nat)
  /-- News of the shutdown signal; this may take a while. -/
  | shutdown (seen : Nat)
  /-- An address to serve on; refused when it is taken. -/
  | listen (address : Net.SocketAddress)
  | leave (address : Net.SocketAddress)
  /-- Tells of an error that the service cannot go on from. -/
  | fatal (error : ServiceError)
  /-- The right to wait for the updates; it is given once for each time they begin. -/
  | claimUpdates
  /-- The end of the updates; this may take a while. -/
  | awaitUpdates

/-- What a request is answered with. -/
abbrev Request.Answer : Request → Type
  | crew r => r.Answer
  | check c => Except Probe.Fault c.Value
  | embeddedImages => ImageRefs
  | takeImages => Except ImageFault Unit
  | nextImages => Option ImageRefs
  | now => Nat
  | tickOrShutdown _ _ => Wake
  | shutdown _ => ShutdownNews
  | listen _ => Bool
  | claimUpdates => Bool
  | _ => Unit

/-- The requests of the service. -/
def signature : Signature := ⟨Request, Request.Answer⟩

/-- Something the service does. -/
abbrev Action (α : Type) := Script signature α

namespace Action

/-- Asks for one thing. -/
def ask (request : Request) : Action request.Answer := Script.ask (S := signature) request .done

/-- Does what a transaction on the crew does. -/
def ofCrew {α : Type} : Crew.Transaction α → Action α
  | Script.done value => Script.done value
  | Script.ask r next => Script.ask (S := signature) (.crew r) fun answer => ofCrew (next answer)

/-- A call on the containers. -/
def call (c : Container.Call) : Action c.Answer := ask (.crew (.call c))

/-- An event of a component. -/
def log (component : Component) (level : Level) (message : String)
    (fields : List (String × EventValue)) : Action Unit :=
  ask (.crew (.log { level, component, message, fields }))

theorem ofCrew_bind {α β : Type} (t : Crew.Transaction α) (f : α → Crew.Transaction β) :
    ofCrew (t >>= f) = (ofCrew t >>= fun value => ofCrew (f value)) := by
  induction t with
  | done => rfl
  | ask r next ih => exact congrArg (Script.ask (S := signature) (.crew r)) (funext ih)

end Action

/-- What an activity goes on with after a round. -/
abbrev Next := Option Activity

end Caretaker.Service
