import Caretaker.Container.Basic
import Caretaker.Images.Refs
import Caretaker.Settings
import Caretaker.Text.Utf8

/-!
# What each role is launched from

The descriptor of a role's container follows from the settings, the image and what is known about
the release.
-/

namespace Caretaker

/-- The images that are built in. -/
def Settings.builtInImages (settings : Settings) : ImageRefs where
  supervisor := settings.supervisorImage
  updater := settings.updaterImage

/-- The program inside a release image. -/
def nodeProgram : String := "/node-runner"

/-- Where the directory of the host appears in a container. -/
def containerNodeDir : String := "/.node"

/-- The socket of the engine, at one path on the host and in the supervisor. -/
def engineSocketPath : String := "/var/run/docker.sock"

/-- The variable that carries release information into a container. -/
def releaseVariable : String := "RUNNER_RELEASE_INFO"

/-- The descriptor for a role that runs `image`.  The updater is told whether this is development
and is reached from outside.  The supervisor launches containers of its own: it sees the engine and
the host, and gets the passphrase in a file. -/
def Role.descriptor (role : Role) (settings : Settings) (image : String) (refs : ImageRefs) :
    Descriptor :=
  let release := (releaseVariable, refs.releaseEnvironment)
  let nodeVolume := (settings.nodeDir, containerNodeDir)
  let healthPort := ("", "8090")
  match role with
  | .updater =>
    { name := role.containerName
      image
      command := [nodeProgram, "updater"]
      environment := .ofList [("RUNNER_DEVELOPMENT", toString settings.development), release]
      volumes := .ofList [nodeVolume]
      ports := [("8770", "8770"), healthPort]
      maxLogSize := settings.maxLogSize
      maxLogFiles := settings.maxLogFiles }
  | .supervisor =>
    { name := role.containerName
      image
      command := [nodeProgram, "supervisor"]
      environment := .ofList [("RUNNER_HOST_NODE_DIR", settings.nodeDir), release]
      volumes := .ofList [(engineSocketPath, engineSocketPath), nodeVolume]
      ports := [healthPort]
      files := .ofList [("passphrase", Utf8.encode settings.passphrase)]
      dialHost := true
      maxLogSize := settings.maxLogSize
      maxLogFiles := settings.maxLogFiles }

end Caretaker
