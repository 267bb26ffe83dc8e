import Agenda.Path
import Agenda.Store.Directory
import Agenda.Text.Numeral
import Agenda.Text.Quoted

/-!
Why a store gives no answer.
-/

namespace Agenda.Store

inductive Error where
  | notFound (id : String)
  | file (entry : Entry) (cause : File.Error)
  /-- The line with this number, from 1 on, holds no task. -/
  | corrupt (line : Nat)
  /-- This text, found where the last number is kept, is none. -/
  | sequence (raw : String)
  /-- An operation of the same handle has come to a sudden end before. -/
  | poisoned
  /-- The number behind the last one is too large. Nothing is answered then: the operation comes to
  a sudden end while it holds the handle, which is poisoned from then on. -/
  | overflow
  deriving DecidableEq, Repr

/-- What is said of an error in the given folder. -/
def Error.message (folder : String) : Error → String
  | .notFound id => "task not found: " ++ id
  | .file entry cause => "I/O error on " ++ Path.join folder entry.name ++ ": " ++ cause.message
  | .corrupt line =>
      "failed parsing " ++ Path.join folder Entry.tasks.name ++ " line " ++ Numeral.text line
  | .sequence raw =>
      "invalid id sequence in " ++ Path.join folder Entry.sequence.name ++ ": " ++
        Quoted.encode raw
  | .poisoned => "datastore lock poisoned"
  | .overflow => "attempt to add with overflow"

end Agenda.Store
