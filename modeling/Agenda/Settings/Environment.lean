import Agenda.Disk
import Agenda.Settings.Error
import Agenda.Settings

/-!
What the surroundings say about settings: the environment, and the folders of the disk.
-/

namespace Agenda.Settings

structure Environment where
  home : Option String
  rc : Option String := none
  port : Option String := none
  data : Option String := none

/-- A variable's value, if it is not blank. -/
def variableOverride (key : String) (value : Option String) : List Assignment :=
  match value.map Blank.trimText with
  | none | some "" => []
  | some value => [(key, value)]

def Environment.overrides (env : Environment) : List Assignment :=
  variableOverride "server.port" env.port ++ variableOverride "data.location" env.data

/-- The rc file to start with: the given one, or the environment's, or the one in the home folder
if it is there. The environment can say that there is none. -/
def rcPath? (env : Environment) (disk : Disk) (given : Option String) : Option String :=
  match given, env.rc with
  | some path, _ => some path
  | none, some "/dev/null" => none
  | none, some path => some path
  | none, none =>
      (env.home.map fun home => Path.join home ".skedrc").filter disk.isPresent

def dataPath (s : Settings) (env : Environment) (given : Option String) : String :=
  given.getD (Path.expandHome env.home ((s.get? "data.location").getD "~/.sked"))

/-- The path of the folder for the tasks, which is made if nothing is there. -/
def dataFolder (s : Settings) (env : Environment) (given : Option String) (disk : Disk) :
    Except Error (String × Disk) :=
  let path := s.dataPath env given
  if disk.isPresent path then .ok (path, disk)
  else
    match disk.makeFolders path with
    | .ok disk => .ok (path, disk)
    | .error cause => .error (.noFolder path cause)

end Agenda.Settings
