import Caretaker.Container.Basic
import Caretaker.Json.Tree

/-!
# The request that creates a container

What a descriptor becomes when an engine is asked for a container.  Pairs become texts with a sign
between their parts, and the numbers of the host are gathered by the number of the container.
-/

namespace Caretaker.Engine

/-- The label of every container that is managed here. -/
def managedLabel : String := "node-runner.managed"

/-- The name by which a container that may do so reaches its host. -/
def hostEntry : String := "host.docker.internal:host-gateway"

/-- A request for a container. -/
structure CreateRequest where
  image : String
  command : List String
  /-- Variables as names and values with an equals sign between them. -/
  environment : List String
  labels : Dictionary String
  /-- The numbers that the container offers. -/
  exposed : Dictionary Unit
  /-- Paths of the host and of the container with a colon between them. -/
  binds : List String
  /-- The numbers of the host for each number that the container offers. -/
  bindings : Dictionary (List String)
  maxLogSize : String
  maxLogFiles : Nat
  /-- Names of hosts with the addresses they stand for. -/
  hosts : Option (List String)

namespace CreateRequest

/-- How a number that a container offers is written. -/
def portKey (port : String) : String := port ++ "/tcp"

/-- The numbers that a container offers. -/
def exposedOf (ports : List (String × String)) : Dictionary Unit :=
  ports.foldl (fun d (_, inside) => d.insert (portKey inside) ()) ∅

/-- The numbers of the host, gathered by the number of the container and in order. -/
def bindingsOf (ports : List (String × String)) : Dictionary (List String) :=
  ports.foldl
    (fun d (host, inside) =>
      d.insert (portKey inside) ((d.get? (portKey inside)).getD [] ++ [host]))
    ∅

/-- The request for a container with a descriptor. -/
def ofDescriptor (d : Descriptor) : CreateRequest where
  image := d.image
  command := d.command
  environment := d.environment.entries.map fun (name, value) => name ++ "=" ++ value
  labels := .ofList [(managedLabel, "true")]
  exposed := exposedOf d.ports
  binds := d.volumes.entries.map fun (host, inside) => host ++ ":" ++ inside
  bindings := bindingsOf d.ports
  maxLogSize := d.maxLogSize
  maxLogFiles := d.maxLogFiles
  hosts := if d.dialHost then some [hostEntry] else none

/-- A dictionary as an object. -/
def objectOf {α : Type} (value : α → Json) (d : Dictionary α) : Json :=
  .object (d.entries.map fun (key, v) => (key, value v))

/-- Texts as an array. -/
def arrayOf (texts : List String) : Json := .array (texts.map .string)

/-- The JSON form of a request. -/
def toJson (r : CreateRequest) : Json :=
  let hostPort := fun (port : String) => (.object [("HostPort", .string port)] : Json)
  let log : Json := .object
    [("Type", .string "json-file"),
      ("Config", .object
        [("max-file", .string (toString r.maxLogFiles)), ("max-size", .string r.maxLogSize)])]
  let host : Json := .object <|
    [("Binds", arrayOf r.binds), ("LogConfig", log),
      ("PortBindings", objectOf (fun ports => .array (ports.map hostPort)) r.bindings)]
    ++ (r.hosts.map fun hosts => ("ExtraHosts", arrayOf hosts)).toList
  .object
    [("Image", .string r.image), ("Cmd", arrayOf r.command), ("Env", arrayOf r.environment),
      ("Labels", objectOf .string r.labels),
      ("ExposedPorts", objectOf (fun _ => .object []) r.exposed), ("HostConfig", host)]

end CreateRequest
end Caretaker.Engine
