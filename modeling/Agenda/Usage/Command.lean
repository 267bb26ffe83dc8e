import Agenda.Settings
import Agenda.Task

/-!
The commands of the command line, and what can be said along with them.
-/

namespace Agenda.Usage

inductive Verb where
  | nextDate
  | add
  | list
  | info
  | modify
  | done
  | delete
  | serve
  | «show»
  deriving DecidableEq, Repr

namespace Verb

def all : List Verb := [nextDate, add, list, info, modify, done, delete, serve, «show»]

def name : Verb → String
  | .nextDate => "nextdate"
  | .add => "add"
  | .list => "list"
  | .info => "info"
  | .modify => "modify"
  | .done => "done"
  | .delete => "delete"
  | .serve => "serve"
  | .show => "show"

def ofName? (name : String) : Option Verb := all.find? fun verb => verb.name = name

end Verb

/-- The parts of a task that can be given with an option. -/
structure Fields where
  date : Option String := none
  comment : Option String := none
  rule : Option String := none
  deriving DecidableEq, Repr

inductive Command where
  | nextDate (date rule : String) (now : Option String)
  | add (title : String) (fields : Fields)
  | list (limit : Option Nat)
  | info (id : String)
  | modify (id : String) (title : Option String) (fields : Fields)
  | done (id : String)
  | delete (id : String)
  | serve (port : Option Nat)
  | «show»
  deriving DecidableEq, Repr

/-- A command and what is given for every command. -/
structure Invocation where
  verbose : Nat
  quiet : Nat
  overrides : List Assignment
  rcFile : Option String
  data : Option String
  command : Command

/-- The task with these parts; what is not given is empty. -/
def Fields.task (fields : Fields) (title : String) : Task :=
  { title, date := fields.date.getD "", comment := fields.comment.getD "",
    rule := fields.rule.getD "" }

/-- The task with these parts in the place of its own; what is not given stays. -/
def Fields.revise (fields : Fields) (title : Option String) (t : Task) : Task :=
  { t with
    title := title.getD t.title
    date := fields.date.getD t.date
    comment := fields.comment.getD t.comment
    rule := fields.rule.getD t.rule }

end Agenda.Usage
