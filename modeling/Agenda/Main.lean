import Agenda.Program.Run
import Agenda.Server
import Agenda.Usage.Arguments
import Agenda.Usage.Help

/-!
The command line: what a run needs to know of the system, and what is told of its outcome.
-/

namespace Agenda.CommandLine

/-- Adds files of settings to the picture, and those that they include. -/
partial def exploreSettings (environment : Settings.Environment) (places : List Place)
    (disk : Disk) : List String → IO Disk
  | [] => return disk
  | path :: paths => do
      let mut disk ← System.explore path disk
      match Settings.readFile disk path with
      | .error _ => exploreSettings environment places disk paths
      | .ok (place, lines) =>
          if place ∈ places then exploreSettings environment places disk paths
          else
            for spelled in Settings.spellings environment lines do
              disk ← System.explore spelled disk
            exploreSettings environment (place :: places) disk
              (Settings.targets disk environment lines ++ paths)

def folder? (surroundings : Program.Surroundings) (invocation : Usage.Invocation)
    (disk : Disk) : Option String :=
  match Program.settings surroundings invocation disk with
  | .ok settings => some (settings.dataPath surroundings.environment invocation.data)
  | .error _ => none

/-- The part of the disk that a run can reach. -/
def picture (surroundings : Program.Surroundings) (invocation : Usage.Invocation) : IO Disk := do
  let environment := surroundings.environment
  let mut disk ← System.blank
  if let some home := environment.home then
    disk ← System.explore (Path.join home ".skedrc") disk
  if let some path := Settings.rcPath? environment disk invocation.rcFile then
    disk ← exploreSettings environment [] disk [Path.expandHome environment.home path]
  if let some path := folder? surroundings invocation disk then
    disk ← System.exploreStore path disk
  return disk

def surroundings : IO Program.Surroundings := do
  return {
    environment := {
      home := ← IO.getEnv "HOME"
      rc := ← IO.getEnv "SKEDRC"
      port := ← IO.getEnv "TODO_PORT"
      data := ← IO.getEnv "TODO_DATA" }
    clock := ← System.clock
    terminal := ← (← IO.getStdout).isTty }

def fail (message : String) : IO UInt32 := do
  IO.eprintln ("error: " ++ message)
  return 1

/-- What is told of a run, and the status with which it ends; 101 stands for a sudden end. -/
def conclude : Except Program.Failure Program.Answer → IO UInt32
  | .error failure =>
      if failure.isSudden then do
        IO.eprintln failure.message
        return 101
      else fail failure.message
  | .ok (.text text) => do
      IO.print text
      return 0
  | .ok (.serve port limit folder) => do
      Server.serve ⟨limit, folder⟩ port
      return 0

def run (arguments : List String) : IO UInt32 := do
  match Usage.read arguments with
  | .error problem =>
      if problem.exitCode = 0 then IO.print problem.message else IO.eprint problem.message
      return problem.exitCode.toUInt32
  | .ok invocation =>
      let surroundings ← surroundings
      conclude (← System.carryOut (picture surroundings invocation)
        (folder? surroundings invocation) (Program.run surroundings invocation))

end Agenda.CommandLine

/-- Runs the program; what the system refuses is told as a failure of its own. -/
def main (arguments : List String) : IO UInt32 := do
  try Agenda.CommandLine.run arguments
  catch e => Agenda.CommandLine.fail (toString e)
