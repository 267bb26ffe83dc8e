import Agenda.Store.Rows

/-!
How an operation works on a directory. It takes the lock, plans from what it reads, and then makes
its writes in their order. A plan that fails writes nothing; a write that fails ends the operation.
-/

namespace Agenda.Store

/-- An answer or an error, and the directory afterwards. -/
abbrev Outcome (ε α : Type) := Except ε α × Directory

/-- What an operation is going to write, in order, and to answer. -/
structure Change (α : Type) where
  writes : List (Entry × List UInt8)
  answer : α

/-- An answer for which nothing has to be written. -/
def Change.none (answer : α) : Change α := ⟨[], answer⟩

/-- What an operation decides from what it reads. -/
abbrev Plan (α : Type) := Directory → Except Error (Change α)

/-- Makes the writes in order, up to the first one that fails. -/
def commit : List (Entry × List UInt8) → Directory → Outcome Error Unit
  | [], d => (.ok (), d)
  | (entry, content) :: writes, d =>
      match d.replace entry content with
      | .error e => (.error (.file entry e), d)
      | .ok d => commit writes d

/-- Takes the lock, and carries out what is planned. -/
def perform (plan : Plan α) (d : Directory) : Outcome Error α :=
  match d.create .lock with
  | .error e => (.error (.file .lock e), d)
  | .ok d =>
      match plan d with
      | .error e => (.error e, d)
      | .ok change =>
          match commit change.writes d with
          | (.error e, d) => (.error e, d)
          | (.ok (), d) => (.ok change.answer, d)

/-- Reads an entry, and what its content says. -/
def load (entry : Entry) (decode : List UInt8 → Except Error α) (d : Directory) : Except Error α :=
  match d.read entry with
  | .error e => .error (.file entry e)
  | .ok content => decode content

def loadTasks (d : Directory) : Except Error (List Task) := load .tasks Rows.decode d

def loadSequence (d : Directory) : Except Error Nat := load .sequence Sequence.decode d

end Agenda.Store
