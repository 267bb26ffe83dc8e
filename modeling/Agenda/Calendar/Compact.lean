import Agenda.Calendar.Date
import Agenda.Text.Numeral
import Agenda.Text.Quoted

/-!
The compact written form of a date, `YYYYMMDD`. Eight digits are read, for the years 0000 to 9999;
every date of the calendar can be written, a year outside those four digits with its sign.
-/

namespace Agenda.Date

/-- A year takes at least four digits, and a sign if it is negative or needs more. -/
def yearText (year : Int) : String :=
  if 0 ≤ year ∧ year ≤ 9999 then Numeral.padded 4 year.toNat
  else (if year < 0 then "-" else "+") ++ Numeral.padded 4 year.natAbs

/-- Year, month and day without separators. -/
def compact (d : Date) : String :=
  yearText d.year ++ Numeral.padded 2 d.month ++ Numeral.padded 2 d.day

/-- Reads eight ASCII digits that name a day of the calendar. -/
def ofCompact? (text : String) : Option Date :=
  let cs := text.toList
  if cs.length = 8 ∧ cs.all Char.isDigit then
    ofParts? (Numeral.value (cs.take 4)) (Numeral.value ((cs.drop 4).take 2))
      (Numeral.value (cs.drop 6))
  else none

/-- What is said of a text that is no compact date. -/
def compactExpected (text : String) : String :=
  "expected an 8-digit YYYYMMDD calendar date, got " ++ Quoted.encode text

/-- The refusal of a text that is no compact date. -/
structure CompactError where
  value : String
  deriving DecidableEq, Repr

def CompactError.message (e : CompactError) : String := compactExpected e.value

/-- The day of a compact date. Any other text is handed back as it is. -/
def ofCompact (text : String) : Except CompactError Date :=
  match ofCompact? text with
  | some d => .ok d
  | none => .error ⟨text⟩

end Agenda.Date
