/-!
# The shutdown signal

A value that is sent to everybody who watches it.  Each send counts, also of a value that is there
already; a watcher remembers how many sends it has seen, and the value at the start is no news.  The
signal is closed when its sender is gone.
-/

namespace Caretaker

/-- The shutdown signal. -/
structure ShutdownSignal where
  value : Bool := false
  /-- How many values were sent. -/
  sent : Nat := 0
  isOpen : Bool := true
deriving DecidableEq, Repr

/-- News for a watcher. -/
inductive ShutdownNews where
  /-- A value that was not seen yet, and how many were sent. -/
  | changed (sent : Nat) (value : Bool)
  /-- The sender is gone, and everything it sent was seen. -/
  | closed
deriving DecidableEq, Repr

/-- Whether the news tell a watcher to end. -/
def ShutdownNews.endsWatch : ShutdownNews → Bool
  | changed _ value => value
  | closed => true

namespace ShutdownSignal

/-- Sends a value. -/
def send (value : Bool) (signal : ShutdownSignal) : ShutdownSignal :=
  { signal with value, sent := signal.sent + 1 }

/-- Drops the sender. -/
def close (signal : ShutdownSignal) : ShutdownSignal := { signal with isOpen := false }

/-- The news for a watcher that has seen `seen` sends. -/
def news? (seen : Nat) (signal : ShutdownSignal) : Option ShutdownNews :=
  if seen ≠ signal.sent then some (.changed signal.sent signal.value)
  else if signal.isOpen then none
  else some .closed

end ShutdownSignal
end Caretaker
