import Agenda.Store.Error
import Agenda.Task.Acceptance

/-!
Why an operation on tasks fails.
-/

namespace Agenda.Tasks

inductive Error where
  | refused (fault : Task.Fault)
  | store (error : Store.Error)
  /-- A kept task has no next date. -/
  | recurrence (id : String) (cause : Repeat.Error)
  deriving DecidableEq, Repr

namespace Error

def message (folder : String) : Error → String
  | .refused fault => fault.message
  | .store error => error.message folder
  | .recurrence id cause => "failed to compute next date for task " ++ id ++ ": " ++ cause.message

/-- There is no task with the identifier that was asked for. -/
def isNotFound : Error → Bool
  | .store (.notFound _) => true
  | _ => false

end Error

end Agenda.Tasks
