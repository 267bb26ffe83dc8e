import Agenda.Store.Directory
import Agenda.Text.Numeral
import Agenda.Text.Quoted

/-!
Why settings cannot be used.
-/

namespace Agenda.Settings

inductive Error where
  | unreadable (path : String) (cause : File.Error)
  /-- The canonical path of a file that was read cannot be found. -/
  | unresolved (path : String) (cause : File.Error)
  | invalidLine (path : String) (number : Nat) (line : String)
  | invalidValue (key value reason : String)
  | invalidColor (value : String)
  | noFolder (path : String) (cause : File.Error)
  deriving DecidableEq, Repr

def Error.message : Error → String
  | .unreadable path cause => "failed to read " ++ path ++ ": " ++ cause.message
  | .unresolved path cause => "failed to resolve " ++ path ++ ": " ++ cause.message
  | .invalidLine path number line =>
      "invalid config line " ++ path ++ ":" ++ Numeral.text number ++ ": " ++ line
  | .invalidValue key value reason =>
      "invalid value for " ++ key ++ ": " ++ Quoted.encode value ++ " (" ++ reason ++ ")"
  | .invalidColor value => "invalid color setting: " ++ value
  | .noFolder path cause => "failed to create " ++ path ++ ": " ++ cause.message

end Agenda.Settings
