import Caretaker.Text.Split

/-!
# Registry refs

A release image is addressed by its content: a repository, `@sha256:` and a digest, with anything up
to the last slash in front.  Only the repository and the digest count, so a release can be pulled
from any registry that has it.
-/

namespace Caretaker.Registry

/-- Why an image ref is not the ref of a release; each cause carries the ref. -/
inductive Fault where
  | missingDigest (ref : String)
  | invalidDigest (ref : String)
  | invalidRepository (ref : String)
deriving DecidableEq, Repr

/-- The wording of a fault. -/
def Fault.message : Fault → String
  | missingDigest ref => s!"image ref has no sha256 digest: {ref}"
  | invalidDigest ref => s!"invalid sha256 digest in image ref: {ref}"
  | invalidRepository ref => s!"invalid repository in image ref: {ref}"

/-- What stands between a repository and a digest. -/
def digestMark : List Char := "@sha256:".toList

/-- A character of a digest. -/
def isDigestChar (c : Char) : Bool := ('0' ≤ c && c ≤ '9') || ('a' ≤ c && c ≤ 'f')

/-- A digest: sixty-four lower-case hexadecimal digits. -/
def isDigest (text : List Char) : Bool := text.length == 64 && text.all isDigestChar

/-- A character of a repository. -/
def isRepositoryChar (c : Char) : Bool := ('a' ≤ c && c ≤ 'z') || ('0' ≤ c && c ≤ '9')

/-- A repository: lower-case letters and digits, at least one. -/
def isRepository (text : List Char) : Bool := !text.isEmpty && text.all isRepositoryChar

/-- The ref that pulls the release image `ref` from `registry`. -/
def refIn (registry ref : String) : Except Fault String :=
  match Text.splitLast? digestMark ref.toList with
  | none => .error (.missingDigest ref)
  | some (name, digest) =>
    let repository := Text.afterLast '/' name
    if !isDigest digest then .error (.invalidDigest ref)
    else if !isRepository repository then .error (.invalidRepository ref)
    else .ok (String.ofList (registry.toList ++ '/' :: repository ++ digestMark ++ digest))

end Caretaker.Registry
