import Agenda.Program.Dispatch
import Agenda.Settings.RcFile

/-!
A run of the program on a disk: settings first, then the folder and its files, then the command.
-/

namespace Agenda.Program

/-- What a run finds outside the disk. -/
structure Surroundings where
  environment : Settings.Environment
  clock : Date
  terminal : Bool

/-- The settings with everything that is said about them outside the files. -/
def settings (surroundings : Surroundings) (invocation : Usage.Invocation) (disk : Disk) :
    Except Settings.Error Settings := do
  let settings ← Settings.load disk surroundings.environment invocation.rcFile
  return settings.override (surroundings.environment.overrides ++ invocation.overrides)

/-- Makes sure that the folder is there, and finds its place. -/
def openFolder (path : String) (disk : Disk) : Except File.Error (Place × Disk) := do
  let disk ← disk.makeFolders path
  return (← disk.locateFolder path, disk)

/-- Carries out the command in the store at a place. -/
def runAt (surroundings : Surroundings) (settings : Settings) (path : String)
    (command : Usage.Command) (d : Directory) : Store.Outcome Failure Answer :=
  match Store.establish d with
  | (.error e, d) => (.error (.files path e), d)
  | (.ok (), d) =>
      match settings.color, Clock.today? surroundings.clock with
      | .error e, _ => (.error (.settings e), d)
      | .ok _, none => (.error .clock, d)
      | .ok color, some today =>
          dispatch ⟨settings, color && surroundings.terminal, today, path⟩ command d

def run (surroundings : Surroundings) (invocation : Usage.Invocation) (disk : Disk) :
    Except Failure Answer × Disk :=
  match settings surroundings invocation disk with
  | .error e => (.error (.settings e), disk)
  | .ok settings =>
      match settings.dataFolder surroundings.environment invocation.data disk with
      | .error e => (.error (.noFolder e), disk)
      | .ok (path, disk) =>
          match openFolder path disk with
          | .error e => (.error (.folder path e), disk)
          | .ok (place, disk) =>
              let (answer, d) :=
                runAt surroundings settings path invocation.command (disk.directory place)
              (answer, disk.setDirectory place d)

end Agenda.Program
