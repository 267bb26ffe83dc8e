/-!
A task: what is to be done, when, and how it comes back. All five fields are texts; whether the date
and the rule make sense is decided where a task is accepted, not here.
-/

namespace Agenda

structure Task where
  id : String := ""
  date : String := ""
  title : String := ""
  comment : String := ""
  /-- The written repeat rule, empty for a task that happens once. -/
  rule : String := ""
  deriving DecidableEq, Repr

namespace Task

def repeats (t : Task) : Bool := t.rule ≠ ""

def titled (title : String) : Task := { title }

/-- A place for one of a task's texts. -/
inductive Field where
  | id
  | date
  | title
  | comment
  | rule
  deriving DecidableEq, Repr

namespace Field

/-- The fields in the order in which they are written. -/
def all : List Field := [id, date, title, comment, rule]

/-- The key under which a field is written. -/
def key : Field → String
  | .id => "id"
  | .date => "date"
  | .title => "title"
  | .comment => "comment"
  | .rule => "repeat"

def ofKey? (key : List Char) : Option Field :=
  all.find? fun field => field.key.toList = key

end Field

def get (t : Task) : Field → String
  | .id => t.id
  | .date => t.date
  | .title => t.title
  | .comment => t.comment
  | .rule => t.rule

end Task

end Agenda
