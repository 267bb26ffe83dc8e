import Agenda.Settings
import Agenda.Settings.Error

/-!
The values of settings as numbers and truth values. Blanks around a value do not count, and a key
without a value has none to be wrong.
-/

namespace Agenda.Settings

/-- The value of a key, as a reader takes it. -/
def read? (s : Settings) (key : String) (reader : List Char → Except String α) :
    Except Error (Option α) :=
  match s.get? key with
  | none => .ok none
  | some raw =>
      match reader (Blank.trim raw.toList) with
      | .ok value => .ok (some value)
      | .error reason => .error (.invalidValue key raw reason)

def natural? (s : Settings) (max : Nat) (key : String) : Except Error (Option Nat) :=
  s.read? key fun cs => (Numeral.natural max cs).mapError Numeral.Error.message

def integer? (s : Settings) (max : Nat) (key : String) : Except Error (Option Int) :=
  s.read? key fun cs => (Numeral.integer max cs).mapError Numeral.Error.message

def readTruth (cs : List Char) : Except String Bool :=
  match String.ofList cs with
  | "true" => .ok true
  | "false" => .ok false
  | _ => .error "provided string was not `true` or `false`"

def truth? (s : Settings) (key : String) : Except Error (Option Bool) := s.read? key readTruth

def port (s : Settings) : Except Error Nat := do
  return (← s.natural? Numeral.max16 "server.port").getD 7540

def listLimit (s : Settings) : Except Error Nat := do
  return (← s.natural? Numeral.max64 "list.limit").getD 50

def color (s : Settings) : Except Error Bool :=
  match ((s.get? "color").getD "on").map Char.toLower with
  | "on" | "yes" | "true" | "1" => .ok true
  | "off" | "no" | "false" | "0" => .ok false
  | other => .error (.invalidColor other)

end Agenda.Settings
