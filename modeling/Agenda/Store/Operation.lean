import Agenda.Store.Plan

/-!
The operations of a store, each of which carries out one plan.
-/

namespace Agenda.Store

/-- Makes sure that the files of tasks and of the last number are there. -/
def establish (d : Directory) : Outcome Error Unit :=
  match d.create .tasks with
  | .error e => (.error (.file .tasks e), d)
  | .ok d =>
      match d.create .sequence with
      | .error e => (.error (.file .sequence e), d)
      | .ok d => (.ok (), d)

def list (limit : Nat) : Directory → Outcome Error (List Task) := perform (Plan.list limit)

def get (id : String) : Directory → Outcome Error Task := perform (Plan.get id)

/-- Keeps a task and gives its new identifier. -/
def insert (t : Task) : Directory → Outcome Error String := perform (Plan.insert t)

/-- Puts a task in the place of the one with its identifier. -/
def update (t : Task) : Directory → Outcome Error Unit := perform (Plan.modify t.id fun _ => t)

def updateDate (id date : String) : Directory → Outcome Error Unit :=
  perform (Plan.modify id fun t => { t with date })

def delete (id : String) : Directory → Outcome Error Unit := perform (Plan.delete id)

end Agenda.Store
