import Agenda.Text.Blank
import Agenda.Text.Numeral
import Agenda.Text.Quoted

/-!
Repeat rules and their written form: `d` with a number of days, or `y` for every year. Reading
splits a rule at blanks and gives one cause for each way a rule can be wrong.
-/

namespace Agenda.Repeat

/-- How a task comes back: after a fixed number of days, or on the same day of every year. -/
inductive Rule where
  | daily (interval : Nat) (positive : 0 < interval)
  | yearly
  deriving DecidableEq

inductive Error where
  | emptyRule
  | invalidStart (value : String)
  | malformed (rule : String)
  | invalidInterval (value : String)
  | unsupported (word : String)
  /-- The next date would lie behind the end of the calendar. -/
  | outOfRange (start : String)
  deriving DecidableEq, Repr

def Error.message : Error → String
  | .emptyRule => "repeat rule is empty"
  | .invalidStart value => "invalid start date " ++ Quoted.encode value ++ ": expected YYYYMMDD"
  | .malformed rule => "malformed repeat rule " ++ Quoted.encode rule
  | .invalidInterval value =>
      "invalid daily interval " ++ Quoted.encode value ++ ": expected `d <1-400>`"
  | .unsupported word => "unsupported repeat rule: " ++ word
  | .outOfRange start => "no occurrence after " ++ start ++ " fits in the supported date range"

/-- The longest interval that a written rule may have. -/
def maxInterval : Nat := 400

namespace Rule

/-- The rule with the interval that a word gives. Leading zeros do not count. -/
def ofInterval? (word : List Char) : Except Error Rule :=
  if h : word ≠ [] ∧ word.all Char.isDigit ∧
      0 < Numeral.value word ∧ Numeral.value word ≤ maxInterval then
    .ok (.daily (Numeral.value word) h.2.2.1)
  else .error (.invalidInterval (String.ofList word))

/-- Reads a rule. What follows `y` does not matter. -/
def ofText (text : String) : Except Error Rule :=
  if text = "" then .error .emptyRule
  else
    match Blank.words text.toList with
    | [] => .error (.malformed text)
    | ['d'] :: words =>
        match words with
        | [word] => ofInterval? word
        | _ => .error (.invalidInterval text)
    | ['y'] :: _ => .ok .yearly
    | word :: _ => .error (.unsupported (String.ofList word))

/-- The shortest written form of a rule. -/
def text : Rule → String
  | .daily interval _ => "d " ++ Numeral.text interval
  | .yearly => "y"

end Rule

end Agenda.Repeat
