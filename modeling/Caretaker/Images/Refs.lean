import Caretaker.Role
import Caretaker.Json.Record

/-!
# Image refs

The images that the two roles should run, with what is known about the release they come from.  Both
have a JSON form; a release also travels to the containers as text in their environment.
-/

namespace Caretaker

/-- A release, as its manifest describes it. -/
structure Release where
  timestamp : String := ""
  repository : String := ""
  version : String := ""
  commit : String := ""
  updater : String := ""
  supervisor : String := ""
deriving DecidableEq, Repr

/-- A release with the content address of its manifest. -/
structure ReleaseInfo where
  ipfs : String := ""
  release : Release := {}
deriving DecidableEq, Repr

/-- The images both roles should run. -/
structure ImageRefs where
  supervisor : String
  updater : String
  releaseInfo : Option ReleaseInfo := none
deriving DecidableEq, Repr

/-- The image a role should run. -/
def ImageRefs.of (refs : ImageRefs) : Role → String
  | .updater => refs.updater
  | .supervisor => refs.supervisor

/-! ## The JSON form -/

/-- A release as JSON, the images of its services in an object of their own. -/
def Release.toJson (r : Release) : Json :=
  .object [
    ("timestamp", .string r.timestamp),
    ("repository", .string r.repository),
    ("version", .string r.version),
    ("commit", .string r.commit),
    ("services", .object [("updater", .string r.updater), ("supervisor", .string r.supervisor)])]

/-- Release information as JSON, the release in a manifest of its own. -/
def ReleaseInfo.toJson (info : ReleaseInfo) : Json :=
  .object [
    ("ipfs", .string info.ipfs),
    ("manifest", .object [("release", info.release.toJson)])]

/-- Image refs as JSON; a release that is not known is left out. -/
def ImageRefs.toJson (refs : ImageRefs) : Json :=
  .object ([("supervisor", .string refs.supervisor), ("updater", .string refs.updater)]
    ++ (refs.releaseInfo.map fun info => ("releaseInfo", info.toJson)).toList)

open Json in
/-- The release that a JSON value describes. -/
def Release.ofJson? (value : Spelled) : Option Release := do
  let fields ← value.fields? ["timestamp", "repository", "version", "commit", "services"]
  let timestamp ← fields.required? "timestamp" Tree.text?
  let repository ← fields.required? "repository" Tree.text?
  let version ← fields.required? "version" Tree.text?
  let commit ← fields.required? "commit" Tree.text?
  let services ← fields.required? "services" (Tree.fields? ["updater", "supervisor"])
  let updater ← services.required? "updater" Tree.text?
  let supervisor ← services.required? "supervisor" Tree.text?
  return { timestamp, repository, version, commit, updater, supervisor }

open Json in
/-- The release information that a JSON value describes. -/
def ReleaseInfo.ofJson? (value : Spelled) : Option ReleaseInfo := do
  let fields ← value.fields? ["ipfs", "manifest"]
  let ipfs ← fields.required? "ipfs" Tree.text?
  let manifest ← fields.required? "manifest" (Tree.fields? ["release"])
  let release ← manifest.required? "release" Release.ofJson?
  return { ipfs, release }

open Json in
/-- The image refs that a JSON value describes. -/
def ImageRefs.ofJson? (value : Spelled) : Option ImageRefs := do
  let fields ← value.fields? ["supervisor", "updater", "releaseInfo"]
  let supervisor ← fields.required? "supervisor" Tree.text?
  let updater ← fields.required? "updater" Tree.text?
  let releaseInfo ← fields.optional? "releaseInfo" ReleaseInfo.ofJson?
  return { supervisor, updater, releaseInfo }

/-- The image refs that a JSON text describes. -/
def ImageRefs.read? (text : String) : Option ImageRefs :=
  (Json.read? text.toList).bind ImageRefs.ofJson?

/-! ## In the environment of a container -/

/-- Release information as text for a container. -/
def ReleaseInfo.toEnvironment (info : ReleaseInfo) : String := Json.render info.toJson

/-- The release information in a text for a container; none in the empty text. -/
def ReleaseInfo.ofEnvironment? (text : String) : Option ReleaseInfo :=
  if text.isEmpty then none else (Json.read? text.toList).bind ReleaseInfo.ofJson?

/-- The release information of refs as text for a container, empty when there is none. -/
def ImageRefs.releaseEnvironment (refs : ImageRefs) : String :=
  (refs.releaseInfo.map ReleaseInfo.toEnvironment).getD ""

/-- The commit of the release, when it is known. -/
def ImageRefs.commit? (refs : ImageRefs) : Option String :=
  refs.releaseInfo.map (·.release.commit)

end Caretaker
