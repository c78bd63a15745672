import Caretaker.Container.Basic
import Caretaker.Json.Shape
import Caretaker.Text.Split

/-!
# What an engine answers

The records that an engine answers with.  Of each the service needs a few fields, but the whole
record has to have the right shape: a field of another kind makes the answer unreadable, and so does
a missing field that has to be there.  Of the parts of a record that describe how a container was
made up only the outline counts.
-/

namespace Caretaker.Engine.Answer

open Json Json.Shape

/-! ## Shapes -/

/-- Optional fields of one shape. -/
def fieldsOf (shape : Shape) (names : List String) : List Field :=
  names.map fun name => optional name shape

/-- Texts by name. -/
def texts : Shape := list text

/-- An object, whatever is in it. -/
def anyObject : Shape
  | .object _ => true
  | _ => false

/-- An object with nothing in it. -/
def emptyObject : Shape
  | .object [] => true
  | _ => false

/-- A number of a network protocol. -/
def portNumber : Shape := whole 0 65535

/-- A connection of a container to a network. -/
def endpoint : Shape := record <|
  [optional "IPAMConfig" anyObject, optional "Links" texts, optional "MacAddress" text,
    optional "Aliases" texts]
  ++ fieldsOf text ["NetworkID", "EndpointID", "Gateway", "IPAddress"]
  ++ [optional "IPPrefixLen" int64, optional "IPv6Gateway" text, optional "GlobalIPv6Address" text,
    optional "GlobalIPv6PrefixLen" int64, optional "DriverOpts" (map text),
    optional "DNSNames" texts]

/-- A number that a container offers. -/
def port : Shape := record
  [optional "IP" text, required "PrivatePort" portNumber, optional "PublicPort" portNumber,
    optional "Type" (oneOf ["", "tcp", "udp", "sctp"])]

/-- Something mounted in a container. -/
def mount : Shape := record <|
  [optional "Type" (oneOf ["", "bind", "volume", "tmpfs", "npipe", "cluster"])]
  ++ fieldsOf text ["Name", "Source", "Destination", "Driver", "Mode"]
  ++ [optional "RW" flag, optional "Propagation" text]

/-- The fields of a container in a list. -/
def summaryFields : List Field :=
  [optional "Id" text, optional "Names" texts]
  ++ fieldsOf text ["Image", "ImageID", "Command"]
  ++ [optional "Created" int64, optional "Ports" (list port), optional "SizeRw" int64,
    optional "SizeRootFs" int64, optional "Labels" (map text)]
  ++ fieldsOf text ["State", "Status"]
  ++ [optional "HostConfig"
      (record [optional "NetworkMode" text, optional "Annotations" (map text)]),
    optional "NetworkSettings" (record [optional "Networks" (map endpoint)]),
    optional "Mounts" (list mount)]

/-- The names of the states of a container, and no name. -/
def stateNames : List String :=
  ["", "created", "running", "paused", "restarting", "removing", "exited", "dead"]

/-- The fields of the state of a container. -/
def stateFields : List Field :=
  [optional "Status" (oneOf stateNames)]
  ++ fieldsOf flag ["Running", "Paused", "Restarting", "OOMKilled", "Dead"]
  ++ fieldsOf int64 ["Pid", "ExitCode"]
  ++ fieldsOf text ["Error", "StartedAt", "FinishedAt"]
  ++ [optional "Health" anyObject]

/-- The fields of what a container runs. -/
def configFields : List Field :=
  fieldsOf text ["Hostname", "Domainname", "User"]
  ++ fieldsOf flag ["AttachStdin", "AttachStdout", "AttachStderr"]
  ++ [optional "ExposedPorts" (map emptyObject)]
  ++ fieldsOf flag ["Tty", "OpenStdin", "StdinOnce"]
  ++ fieldsOf texts ["Env", "Cmd"]
  ++ [optional "Healthcheck" anyObject, optional "ArgsEscaped" flag, optional "Image" text,
    optional "Volumes" (map emptyObject), optional "WorkingDir" text, optional "Entrypoint" texts,
    optional "NetworkDisabled" flag, optional "MacAddress" text, optional "OnBuild" texts,
    optional "Labels" (map text), optional "StopSignal" text, optional "StopTimeout" int64,
    optional "Shell" texts]

/-- The fields of a container that was asked for. -/
def containerFields : List Field :=
  fieldsOf text ["Id", "Created", "Path"]
  ++ [optional "Args" texts, optional "State" (record stateFields)]
  ++ fieldsOf text ["Image", "ResolvConfPath", "HostnamePath", "HostsPath", "LogPath", "Name"]
  ++ [optional "RestartCount" int64]
  ++ fieldsOf text ["Driver", "Platform", "MountLabel", "ProcessLabel", "AppArmorProfile"]
  ++ [optional "ExecIDs" texts, optional "HostConfig" anyObject, optional "GraphDriver" anyObject,
    optional "SizeRw" int64, optional "SizeRootFs" int64, optional "Mounts" (list mount),
    optional "Config" (record configFields), optional "NetworkSettings" anyObject]

/-- The fields of an image. -/
def imageFields : List Field :=
  [optional "Id" text, optional "RepoTags" texts, optional "RepoDigests" texts]
  ++ fieldsOf text ["Parent", "Comment", "Created", "Container"]
  ++ [optional "ContainerConfig" (record configFields)]
  ++ fieldsOf text ["DockerVersion", "Author"]
  ++ [optional "Config" (record configFields)]
  ++ fieldsOf text ["Architecture", "Variant", "Os", "OsVersion"]
  ++ fieldsOf int64 ["Size", "VirtualSize"]
  ++ [optional "GraphDriver" anyObject, optional "RootFS" anyObject, optional "Metadata" anyObject]

/-! ## What is read from them -/

/-- A record in a field of another record. -/
def inner? (name : String) (fields : List Field) (found : Fields) : Option Fields :=
  (found.get? name).bind (fieldsOf? fields)

/-- The name of a container, which an engine gives as a path. -/
def plainName (name : String) : String := String.ofList (name.toList.dropWhile (· = '/'))

/-- A container in a list. -/
def summary? (value : Spelled) : Option ContainerInfo :=
  (read? summaryFields value).map fun found =>
    let names := ((found.get? "Names").bind (Tree.list? Tree.text?)).getD []
    { id := (textOf? "Id" found).getD ""
      name := plainName (names.head?.getD "")
      image := (textOf? "Image" found).getD ""
      state := .ofName ((textOf? "State" found).getD "") }

/-- A container that was asked for; one that does not tell its id has the one it was asked for by.
-/
def container? (asked : String) (value : Spelled) : Option ContainerInfo :=
  (read? containerFields value).map fun found =>
    { id := (textOf? "Id" found).getD asked
      name := plainName ((textOf? "Name" found).getD "")
      image := ((inner? "Config" configFields found).bind (textOf? "Image")).getD ""
      state := .ofName (((inner? "State" stateFields found).bind (textOf? "Status")).getD "") }

/-- The id of a container that was created. -/
def createdId? (value : Spelled) : Option String :=
  let textsOrNull : Shape := fun value => value.isNull || texts value
  (read? [required "Id" text, required "Warnings" textsOrNull] value).bind (textOf? "Id")

/-- How many containers were removed. -/
def removedCount? (value : Spelled) : Option Nat :=
  let fields := [optional "ContainersDeleted" texts, optional "SpaceReclaimed" int64]
  (read? fields value).map fun found =>
    (((found.get? "ContainersDeleted").bind (Tree.list? Tree.text?)).getD []).length

/-- An image; nothing of it is needed. -/
def image? (value : Spelled) : Option Unit := (read? imageFields value).map fun _ => ()

/-- The exit of a container. -/
structure Exit where
  code : Int
  /-- The error that came with the exit, with its wording if it has one. -/
  error : Option (Option String)
deriving DecidableEq, Repr

/-- The exit of a container that was waited for. -/
def exit? (value : Spelled) : Option Exit := do
  let errorFields := [optional "Message" text]
  let found ← read? [required "StatusCode" int64, optional "Error" (record errorFields)] value
  let code ← (found.get? "StatusCode").bind Tree.int64?
  return { code, error := (inner? "Error" errorFields found).map (textOf? "Message") }

/-- What is told while an image is pulled. -/
structure Progress where
  status : Option String
  error : Option String
deriving DecidableEq, Repr

/-- What an engine tells while it pulls an image. -/
def progress? (value : Spelled) : Option Progress :=
  let fields := fieldsOf text ["id", "error"]
    ++ [optional "errorDetail" (record [optional "code" int64, optional "message" text])]
    ++ fieldsOf text ["status", "progress"]
    ++ [optional "progressDetail" (record (fieldsOf int64 ["current", "total"]))]
  (read? fields value).map fun found =>
    { status := textOf? "status" found, error := textOf? "error" found }

end Caretaker.Engine.Answer
