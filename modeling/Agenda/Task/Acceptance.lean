import Agenda.Repeat.Occurrence
import Agenda.Task

/-!
Accepting a task. A task needs a title, a date that exists and, if it comes back, a readable rule.
A date that is not later than today is moved: to today for a task that happens once, to the next
occurrence for one that comes back. Nothing but the date is ever changed.
-/

namespace Agenda.Task

inductive Fault where
  | missingTitle
  | missingId
  | invalidDate (value : String)
  | invalidRule (rule : String) (cause : Repeat.Error)
  deriving DecidableEq, Repr

def Fault.message : Fault → String
  | .missingTitle => "title is required"
  | .missingId => "task id is required"
  | .invalidDate value => "invalid date format: " ++ value
  | .invalidRule rule cause =>
      "invalid repeat rule " ++ Quoted.encode rule ++ ": " ++ cause.message

/-- The date from which a task counts: its own, or today if it has none. -/
def startText (now : Date) (t : Task) : String :=
  if t.date = "" then now.compact else t.date

/-- The date of an accepted task whose start is the given day, which `start` writes. -/
def acceptedDate (now : Date) (t : Task) (start : String) (day : Date) :
    Except Repeat.Error String :=
  if day.isAfter now then
    if t.repeats then (Repeat.Rule.ofText t.rule).map fun _ => start else .ok start
  else if t.repeats then Repeat.nextDate now start t.rule
  else .ok now.compact

def accept (now : Date) (t : Task) : Except Fault Task :=
  if (Blank.trim t.title.toList).isEmpty then .error .missingTitle
  else
    let start := t.startText now
    match Date.ofCompact? start with
    | none => .error (.invalidDate start)
    | some day =>
        match t.acceptedDate now start day with
        | .ok date => .ok { t with date }
        | .error cause => .error (.invalidRule t.rule cause)

end Agenda.Task
