import Agenda.Store.Operation
import Agenda.Tasks.Error

/-!
The operations on tasks, each of which is one operation of the store or two. Between the two the
store is free, so another operation can come in between.
-/

namespace Agenda.Tasks

open Store (Outcome)

/-- An outcome of the store, as one of the operation that asked for it. -/
def lift (outcome : Outcome Store.Error α) : Outcome Error α :=
  (outcome.1.mapError .store, outcome.2)

/-- Keeps an accepted task under a new identifier. -/
def add (now : Date) (t : Task) (d : Directory) : Outcome Error String :=
  match t.accept now with
  | .error fault => (.error (.refused fault), d)
  | .ok t => lift (Store.insert { t with id := "" } d)

def get (id : String) (d : Directory) : Outcome Error Task := lift (Store.get id d)

def list (limit : Nat) (d : Directory) : Outcome Error (List Task) := lift (Store.list limit d)

/-- Puts an accepted task in the place of the one with its identifier. -/
def update (now : Date) (t : Task) (d : Directory) : Outcome Error Unit :=
  if t.id = "" then (.error (.refused .missingId), d)
  else
    match t.accept now with
    | .error fault => (.error (.refused fault), d)
    | .ok t => lift (Store.update t d)

def delete (id : String) (d : Directory) : Outcome Error Unit := lift (Store.delete id d)

/-- What becomes of a task that was found and is done: it goes, or it moves to its next date. -/
def conclude (id : String) (now : Date) (t : Task) (d : Directory) : Outcome Error Unit :=
  if t.repeats then
    match Repeat.nextDate now t.date t.rule with
    | .error cause => (.error (.recurrence id cause), d)
    | .ok next => lift (Store.updateDate id next d)
  else lift (Store.delete id d)

def complete (id : String) (now : Date) (d : Directory) : Outcome Error Unit :=
  match get id d with
  | (.error e, d) => (.error e, d)
  | (.ok t, d) => conclude id now t d

/-- Changes a task that is already kept, and has the result accepted. -/
def revise (id : String) (now : Date) (change : Task → Task) (d : Directory) :
    Outcome Error Unit :=
  match get id d with
  | (.error e, d) => (.error e, d)
  | (.ok t, d) => update now (change t) d

end Agenda.Tasks
