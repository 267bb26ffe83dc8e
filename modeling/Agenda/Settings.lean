import Agenda.Text.Blank
import Agenda.Text.Lines

/-!
Settings: keys with values, where the last assignment of a key counts. They are assigned in the
order defaults, rc files, environment, command line.
-/

namespace Agenda

abbrev Assignment := String × String

namespace Assignment

/-- Reads `KEY=VALUE`; the first equals sign parts the two, and blanks around them do not count. -/
def ofText? (text : List Char) : Option Assignment :=
  (Lines.splitFirst? '=' text).map fun (key, value) =>
    (String.ofList (Blank.trim key), String.ofList (Blank.trim value))

/-- What is said of a text that is no assignment. -/
def expected (text : String) : String := "expected KEY=VALUE, got: " ++ text

/-- A key may be given with `rc.` in front. -/
def withoutMark (assignment : Assignment) : Assignment :=
  match assignment.1.toList with
  | 'r' :: 'c' :: '.' :: key => (String.ofList key, assignment.2)
  | _ => assignment

end Assignment

structure Settings where
  assignments : List Assignment
  /-- The paths of the files they were read from, in the order of reading. -/
  loaded : List String := []

namespace Settings

def defaults : Settings where
  assignments :=
    [("data.location", "~/.sked"), ("server.port", "7540"), ("list.limit", "50"), ("color", "on")]

/-- The value of a key, which its last assignment gives. -/
def get? (s : Settings) (key : String) : Option String := s.assignments.reverse.lookup key

/-- Adds assignments made outside the files. -/
def override (s : Settings) (assignments : List Assignment) : Settings :=
  { s with assignments := s.assignments ++ assignments.map Assignment.withoutMark }

def keys (s : Settings) : List String := (s.assignments.map Prod.fst).eraseDups

/-- The keys with their values, in the order of the keys. -/
def entries (s : Settings) : List Assignment :=
  (s.keys.mergeSort (· ≤ ·)).map fun key => (key, (s.get? key).getD "")

/-- The written form, which is itself a file of settings: an assignment on each line, and a comment
for each file that was read. -/
def text (s : Settings) : String :=
  String.join (s.entries.map fun (key, value) => key ++ "=" ++ value ++ "\n") ++
    String.join (s.loaded.map fun path => "# loaded " ++ path ++ "\n")

end Settings

end Agenda
