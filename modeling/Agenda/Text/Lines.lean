/-!
Lines of a text. A line ends at a line feed; a carriage return before the line feed belongs to the
ending, and the text after the last line feed is a line only if it is not empty.
-/

namespace Agenda.Lines

/-- Splits at every separator; there is always a first piece. -/
def splitAt [BEq α] (separator : α) : List α → List (List α)
  | [] => [[]]
  | c :: cs =>
      if c == separator then [] :: splitAt separator cs
      else
        match splitAt separator cs with
        | [] => [[c]]
        | piece :: pieces => (c :: piece) :: pieces

/-- The part before the first separator and the part after it, if there is one. -/
def splitFirst? [BEq α] (separator : α) : List α → Option (List α × List α)
  | [] => none
  | c :: cs =>
      if c == separator then some ([], cs)
      else (splitFirst? separator cs).map fun (before, after) => (c :: before, after)

def dropCarriageReturn (line : List Char) : List Char :=
  if line.getLast? = some '\r' then line.dropLast else line

/-- Only a line that a line feed ended loses a carriage return. -/
def ofPieces : List (List Char) → List (List Char)
  | [] => []
  | [last] => if last.isEmpty then [] else [last]
  | piece :: pieces => dropCarriageReturn piece :: ofPieces pieces

def lines (cs : List Char) : List (List Char) := ofPieces (splitAt '\n' cs)

end Agenda.Lines
