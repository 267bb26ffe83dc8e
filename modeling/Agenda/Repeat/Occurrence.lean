import Agenda.Calendar.Compact
import Agenda.Repeat.Rule

/-!
Occurrences of a repeating task. The occurrence with number `k` lies `k` steps of the rule behind
the start; the next one after a day is the first with a positive number that comes later than that
day.
-/

namespace Agenda.Repeat

namespace Rule

/-- The occurrence so many steps behind the start, if it lies inside the calendar. -/
def occurrence? (start : Date) (steps : Nat) : Rule → Option Date
  | .daily interval _ => start.addDays? (interval * steps)
  | .yearly => start.addYears? steps

/-- The number of the first occurrence that is later than the given day: at least one step is
taken, and no more than needed. -/
def stepsAfter (start now : Date) : Rule → Nat
  | .daily interval _ => max 1 ((now.ordinal - start.ordinal) / interval + 1).toNat
  | .yearly =>
      let years := max 1 (now.year - start.year).toNat
      match start.addYears? years with
      | some d => if d.isAfter now then years else years + 1
      | none => years

/-- The first occurrence after the given day, the start itself not being one. -/
def nextAfter (rule : Rule) (start now : Date) : Except Error Date :=
  match rule.occurrence? start (rule.stepsAfter start now) with
  | some d => .ok d
  | none => .error (.outOfRange start.compact)

end Rule

/-- The next date of a task, from its written start and rule. An empty rule is told before a wrong
start, and a wrong start before a wrong rule. -/
def nextDate (now : Date) (start rule : String) : Except Error String :=
  if rule = "" then .error .emptyRule
  else
    match Date.ofCompact? start with
    | none => .error (.invalidStart start)
    | some day => do
        let rule ← Rule.ofText rule
        return (← rule.nextAfter day now).compact

end Agenda.Repeat
