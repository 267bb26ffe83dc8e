import Agenda.Listing
import Agenda.Program.Failure
import Agenda.Settings.Value
import Agenda.Tasks.Operation
import Agenda.Text.Width
import Agenda.Usage.Command

/-!
What the commands do on the directory of the store, and what they print.
-/

namespace Agenda.Program

open Store (Outcome)
open Usage (Command)

/-- What a command comes to: a text to print, or the wish to serve the API on what a folder holds. -/
inductive Answer where
  | text (text : String)
  | serve (port limit : Nat) (folder : String)
  deriving DecidableEq, Repr

structure Context where
  settings : Settings
  colored : Bool
  today : Date
  folder : String

/-- The outcome of an operation on tasks, with the text that tells of it. -/
def report (context : Context) (text : α → String) (outcome : Outcome Tasks.Error α) :
    Outcome Failure Answer :=
  (match outcome.1 with
    | .ok answer => .ok (.text (text answer))
    | .error e => .error (.tasks context.folder e), outcome.2)

def line (text : String) : String := text ++ "\n"

/-- The table of tasks, if it can be printed. -/
def listing (context : Context) (tasks : List Task) : Except Failure Answer :=
  match Listing.printed Width.width context.colored context.today tasks with
  | .error column => .error (.tooWide column)
  | .ok text => .ok (.text text)

/-- The date that the text of `--now` gives; without one it is today. -/
def reference (today : Date) : Option String → Except Failure Date
  | none => .ok today
  | some text =>
      match Date.ofCompact? text with
      | some now => .ok now
      | none => .error (.now text)

def nextDate (today : Date) (date rule : String) (now : Option String) :
    Except Failure Answer :=
  match reference today now with
  | .error e => .error e
  | .ok now =>
      match Repeat.nextDate now date rule with
      | .ok next => .ok (.text (line next))
      | .error e => .error (.rule e)

/-- A limit or a port that is given, or the one of the settings. -/
def orSetting (given : Option Nat) (setting : Except Settings.Error Nat) : Except Failure Nat :=
  match given with
  | some n => .ok n
  | none => setting.mapError .settings

def dispatch (context : Context) (command : Command) (d : Directory) : Outcome Failure Answer :=
  match command with
  | .nextDate date rule now => (nextDate context.today date rule now, d)
  | .add title fields =>
      report context (fun id => line ("Created task " ++ id ++ "."))
        (Tasks.add context.today (fields.task title) d)
  | .list limit =>
      match orSetting limit context.settings.listLimit with
      | .error e => (.error e, d)
      | .ok limit =>
          match Tasks.list limit d with
          | (.error e, d) => (.error (.tasks context.folder e), d)
          | (.ok tasks, d) => (listing context tasks, d)
  | .info id => report context Listing.card (Tasks.get id d)
  | .modify id title fields =>
      report context (fun _ => line ("Modified task " ++ id ++ "."))
        (Tasks.revise id context.today (fields.revise title) d)
  | .done id =>
      report context (fun _ => line ("Completed task " ++ id ++ "."))
        (Tasks.complete id context.today d)
  | .delete id =>
      report context (fun _ => line ("Deleted task " ++ id ++ ".")) (Tasks.delete id d)
  | .serve port =>
      (do
        let port ← orSetting port context.settings.port
        let limit ← orSetting none context.settings.listLimit
        return .serve port limit context.folder, d)
  | .show => (.ok (.text context.settings.text), d)

end Agenda.Program
