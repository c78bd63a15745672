import Caretaker.Command.Run

/-!
# The command

Reads the variables, runs the command and shows how it ended.  It runs where there is neither a
network nor an engine, so only containers in memory can be worked on and every check of an endpoint
fails.
-/

open Caretaker

/-- The value of each variable that is set. -/
def readVariables (names : List String) : IO (List (String × String)) :=
  names.filterMapM fun name => do
    return (← IO.getEnv name).map fun value => (name, value)

def main : IO UInt32 := do
  let found ← readVariables Command.variableNames
  let ending := Command.run
    { lookup := fun name => found.lookup name
      exists? := fun _ => false
      probe := .overHttp .unreachable
      engine := { hasSocket := false }
      signal := .terminate }
  for event in ending.events do
    IO.println (Json.render (Command.logLine event))
  IO.eprint ending.report
  return ending.exitCode.toUInt32
