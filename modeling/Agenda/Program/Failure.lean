import Agenda.Listing
import Agenda.Settings.Error
import Agenda.Tasks.Error

/-!
Why a run of the program fails, and what is said about it: the error, and behind it the cause that
its own words have already named.
-/

namespace Agenda.Program

inductive Failure where
  | settings (error : Settings.Error)
  /-- The folder for the tasks cannot be made. -/
  | noFolder (error : Settings.Error)
  /-- What is found in the place of the folder is none, or cannot hold one. -/
  | folder (path : String) (cause : File.Error)
  /-- The files in the folder cannot be made. -/
  | files (path : String) (error : Store.Error)
  | now (value : String)
  | rule (error : Repeat.Error)
  | tasks (path : String) (error : Tasks.Error)
  | clock
  /-- The table stops at a column that is too wide. -/
  | tooWide (column : Listing.Column)
  deriving DecidableEq, Repr

/-- The cause that an error of the store names. -/
def storeCause? : Store.Error → Option String
  | .file _ cause => some cause.message
  | _ => none

def cause? : Tasks.Error → Option String
  | .refused (.invalidRule _ cause) => some cause.message
  | .refused _ => none
  | .store error => storeCause? error
  | .recurrence _ cause => some cause.message

def withCause (message : String) : Option String → String
  | some cause => message ++ ": " ++ cause
  | none => message

/-- The run comes to a sudden end. What is said about it then is not an error of the program. -/
def Failure.isSudden : Failure → Bool
  | .clock | .tooWide _ | .tasks _ (.store .overflow) => true
  | _ => false

def Failure.message : Failure → String
  | .settings error => error.message
  | .noFolder error => "failed to resolve data directory: " ++ error.message
  | .folder path cause =>
      "failed to open datastore at " ++ path ++ ": " ++
        withCause ("I/O error on " ++ path ++ ": " ++ cause.message) (some cause.message)
  | .files path error =>
      "failed to open datastore at " ++ path ++ ": " ++
        withCause (error.message path) (storeCause? error)
  | .now value => "invalid --now: " ++ Date.compactExpected value
  | .rule error => error.message
  | .tasks path error => withCause (error.message path) (cause? error)
  | .clock => "the clock cannot be read"
  | .tooWide column => "the column " ++ column.header ++ " is too wide to be printed"

end Agenda.Program
