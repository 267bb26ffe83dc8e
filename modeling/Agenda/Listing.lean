import Agenda.Calendar.Compact
import Agenda.Task
import Agenda.Text.Lines

/-!
Tasks as text for a terminal: a table with one line for each task, and a card for a single task. A
cell may hold escape sequences, which take no room, so columns are as wide as what is seen. There is
a limit to how wide a header can be filled up, and a table with a wider column is not printed.
-/

namespace Agenda.Listing

/-- What is seen of a text. An escape sequence goes from the escape to the next `m`; without one it
goes to the end. -/
def visibleFrom (escaped : Bool) : List Char → List Char
  | [] => []
  | c :: cs =>
      if escaped then visibleFrom (c ≠ 'm') cs
      else if c = '\x1b' then visibleFrom true cs
      else c :: visibleFrom false cs

def visible (text : String) : List Char := visibleFrom false text.toList

def paint (colored : Bool) (color : String) (text : String) : String :=
  if colored then "\x1b[" ++ color ++ "m" ++ text ++ "\x1b[0m" else text

def yellow : String := "33"

def red : String := "31"

def isOverdue (today : Date) (t : Task) : Bool := (Date.ofCompact? t.date).any today.isAfter

def firstLine (text : String) : String :=
  String.ofList ((Lines.lines text.toList).head?.getD [])

inductive Column where
  | id
  | date
  | title
  | rule
  | comment
  deriving DecidableEq, Repr

namespace Column

def all : List Column := [id, date, title, rule, comment]

def header : Column → String
  | .id => "ID"
  | .date => "Date"
  | .title => "Title"
  | .rule => "Repeat"
  | .comment => "Comment"

def cell (colored : Bool) (today : Date) (t : Task) : Column → String
  | .id => paint colored yellow t.id
  | .date => if isOverdue today t then paint colored red t.date else t.date
  | .title => t.title
  | .rule => t.rule
  | .comment => firstLine t.comment

end Column

def repeated (n : Nat) (c : Char) : String := String.ofList (List.replicate n c)

/-- The widest of the given texts, as they are seen. -/
def widest (width : List Char → Nat) (texts : List String) : Nat :=
  (texts.map fun text => width (visible text)).foldl max 0

def columnWidth (width : List Char → Nat) (colored : Bool) (today : Date) (tasks : List Task)
    (column : Column) : Nat :=
  widest width (column.header :: tasks.map fun t => column.cell colored today t)

def line (cells : List String) : String :=
  String.join (cells.map fun cell => cell ++ " ") ++ "\n"

/-- A cell with blanks up to the width of its column. -/
def padded (width : List Char → Nat) (columnWidth : Nat) (cell : String) : String :=
  cell ++ repeated (columnWidth - width (visible cell)) ' '

/-- The table: the headers, a rule below them, and a line for each task. -/
def table (width : List Char → Nat) (colored : Bool) (today : Date) (tasks : List Task) : String :=
  let columns := Column.all.map fun column =>
    (column, columnWidth width colored today tasks column)
  line (columns.map fun (column, n) =>
      column.header ++ repeated (n - column.header.length) ' ') ++
    line (columns.map fun (_, n) => repeated n '-') ++
    String.join (tasks.map fun t =>
      line (columns.map fun (column, n) => padded width n (column.cell colored today t)))

/-- The largest width that a header can be filled up to. -/
def maxWidth : Nat := Numeral.max16

/-- The first column that is wider than its header can be filled up, if there is one. -/
def tooWide? (width : List Char → Nat) (colored : Bool) (today : Date) (tasks : List Task) :
    Option Column :=
  Column.all.find? fun column => maxWidth < columnWidth width colored today tasks column

/-- The table as far as it can be printed; it stops at a column that is too wide. -/
def printed (width : List Char → Nat) (colored : Bool) (today : Date) (tasks : List Task) :
    Except Column String :=
  match tooWide? width colored today tasks with
  | some column => .error column
  | none => .ok (table width colored today tasks)

/-- The card of a task; what is empty is left out at its end. -/
def card (t : Task) : String :=
  "id       " ++ t.id ++ "\n" ++
  "date     " ++ t.date ++ "\n" ++
  "title    " ++ t.title ++ "\n" ++
  (if t.repeats then "repeat   " ++ t.rule ++ "\n" else "") ++
  (if t.comment = "" then "" else "comment  " ++ t.comment ++ "\n")

end Agenda.Listing
