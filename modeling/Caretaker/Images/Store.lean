import Caretaker.Images.Refs

/-!
# The image store

The store knows the images that are built in, and holds the receiving end of a channel on which
publishers announce newer ones.  The receiving end is handed out once, as a stream; the stream ends
when all publishers are gone and everything they announced was taken.
-/

namespace Caretaker

/-- What can go wrong with the image store. -/
inductive ImageFault where
  | alreadyTaken
  | closed
deriving DecidableEq, Repr

/-- The wording of a fault. -/
def ImageFault.message : ImageFault → String
  | alreadyTaken => "latest image stream was already taken"
  | closed => "image discovery is closed"

/-- Where the receiving end of the channel is. -/
inductive Receiver where
  /-- Still in the store. -/
  | stored
  /-- Handed out as a stream. -/
  | streaming
  /-- Nowhere: nothing can be received any more. -/
  | gone
deriving DecidableEq, Repr

/-- An image store with its channel. -/
structure ImageStore where
  embedded : ImageRefs
  /-- Whether the store itself is still there; the channel may outlive it. -/
  isOpen : Bool := true
  /-- Which publishers, by number, are still there. -/
  publishers : List Bool := [true]
  receiver : Receiver := .stored
  /-- What was announced and not yet taken, in order. -/
  pending : List ImageRefs := []
deriving Repr

namespace ImageStore

/-- A store whose channel is empty, with one publisher. -/
def plain (embedded : ImageRefs) : ImageStore := { embedded }

/-- A store whose channel holds the built-in images as the latest ones, with one publisher. -/
def seeded (embedded : ImageRefs) : ImageStore := { embedded, pending := [embedded] }

/-- Whether a publisher is still there. -/
def hasPublisher (publisher : Nat) (store : ImageStore) : Bool :=
  store.publishers[publisher]?.getD false

/-- Announces images; that fails when nobody can receive them.  None when the publisher is gone. -/
def publish? (publisher : Nat) (refs : ImageRefs) (store : ImageStore) :
    Option (Except ImageFault Unit) × ImageStore :=
  if !store.hasPublisher publisher then (none, store)
  else if store.receiver = .gone then (some (.error .closed), store)
  else (some (.ok ()), { store with pending := store.pending ++ [refs] })

/-- Makes another publisher like this one, and gives its number. -/
def clonePublisher (publisher : Nat) (store : ImageStore) : Nat × ImageStore :=
  (store.publishers.length,
    { store with publishers := store.publishers ++ [store.hasPublisher publisher] })

/-- Drops a publisher. -/
def dropPublisher (publisher : Nat) (store : ImageStore) : ImageStore :=
  { store with publishers := store.publishers.set publisher false }

/-- The images that are built in; none when the store is gone. -/
def embedded? (store : ImageStore) : Option ImageRefs :=
  if store.isOpen then some store.embedded else none

/-- Hands out the stream; that works once.  None when the store is gone. -/
def latest? (store : ImageStore) : Option (Except ImageFault Unit) × ImageStore :=
  if !store.isOpen then (none, store)
  else if store.receiver = .stored then (some (.ok ()), { store with receiver := .streaming })
  else (some (.error .alreadyTaken), store)

/-- What a stream gives when it is asked. -/
inductive Polled where
  | item (refs : ImageRefs)
  | pending
  | ended
deriving DecidableEq, Repr

/-- Asks the stream once; none when there is no stream. -/
def poll? (store : ImageStore) : Option Polled × ImageStore :=
  if store.receiver ≠ .streaming then (none, store)
  else
    match store.pending with
    | refs :: pending => (some (.item refs), { store with pending })
    | [] => (some (if store.publishers.any id then .pending else .ended), store)

/-- Drops the stream, if it was handed out, with everything in it. -/
def dropStream (store : ImageStore) : ImageStore :=
  if store.receiver = .streaming then { store with receiver := .gone, pending := [] } else store

/-- Drops the store; the receiving end goes with it unless it was handed out. -/
def dropStore (store : ImageStore) : ImageStore :=
  if store.receiver = .stored then { store with isOpen := false, receiver := .gone, pending := [] }
  else { store with isOpen := false }

/-! ## Histories -/

/-- One thing that can be done with a store and its channel. -/
inductive Step where
  | publish (publisher : Nat) (refs : ImageRefs)
  | clone (publisher : Nat)
  | dropPublisher (publisher : Nat)
  | dropStream
  | dropStore
  | embedded
  | latest
  | next
deriving DecidableEq, Repr

/-- What a step is answered with; an absent value stands for an owner that is gone. -/
inductive Answer where
  | published (result : Option (Except ImageFault Unit))
  | publisher (number : Nat)
  | dropped
  | embedded (refs : Option ImageRefs)
  | latest (result : Option (Except ImageFault Unit))
  | next (polled : Option Polled)
deriving Repr

/-- Does one step. -/
def step (store : ImageStore) : Step → Answer × ImageStore
  | .publish publisher refs =>
    let (result, store) := store.publish? publisher refs
    (.published result, store)
  | .clone publisher =>
    let (number, store) := store.clonePublisher publisher
    (.publisher number, store)
  | .dropPublisher publisher => (.dropped, store.dropPublisher publisher)
  | .dropStream => (.dropped, store.dropStream)
  | .dropStore => (.dropped, store.dropStore)
  | .embedded => (.embedded store.embedded?, store)
  | .latest =>
    let (result, store) := store.latest?
    (.latest result, store)
  | .next =>
    let (polled, store) := store.poll?
    (.next polled, store)

/-- Does steps one after the other, and gives their answers. -/
def steps (store : ImageStore) : List Step → List Answer × ImageStore
  | [] => ([], store)
  | first :: rest =>
    let (answer, store) := store.step first
    let (answers, store) := store.steps rest
    (answer :: answers, store)

end ImageStore
end Caretaker
