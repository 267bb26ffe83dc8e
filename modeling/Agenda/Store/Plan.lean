import Agenda.Store.Change

/-!
What the operations of a store plan. A task is found by its identifier, and the first task with it
counts; a new task takes the number behind the last one that is written down and behind every number
in use. Numbers have 64 bits.
-/

namespace Agenda.Store

/-- The number that an identifier writes, if it writes one. -/
def number? (id : String) : Option Nat := (Numeral.natural Numeral.max64 id.toList).toOption

/-- An identifier without a number comes first, then the smaller number. -/
def numberLE : Option Nat → Option Nat → Bool
  | none, _ => true
  | some _, none => false
  | some m, some n => m ≤ n

/-- The order of a list: by date, and on one date by number. -/
def listedLE (a b : Task) : Bool :=
  a.date < b.date || (a.date == b.date && numberLE (number? a.id) (number? b.id))

/-- The tasks as they are listed; those that the order does not part stay as they are kept. -/
def sorted (tasks : List Task) : List Task := tasks.mergeSort listedLE

def find (id : String) (tasks : List Task) : Except Error Task :=
  match tasks.find? fun t => t.id = id with
  | some t => .ok t
  | none => .error (.notFound id)

/-- Changes the first task with this identifier. -/
def modifyFirst (id : String) (change : Task → Task) : List Task → List Task
  | [] => []
  | t :: tasks => if t.id = id then change t :: tasks else t :: modifyFirst id change tasks

/-- The largest number in use, zero if there is none. -/
def largest (tasks : List Task) : Nat :=
  (tasks.filterMap fun t => number? t.id).foldl max 0

def nextNumber (last : Nat) (tasks : List Task) : Nat := max last (largest tasks) + 1

/-- What a build of the program makes of a sum that is too large for 64 bits. -/
inductive Arithmetic where
  /-- The operation that adds comes to a sudden end. -/
  | checked
  /-- The lowest 64 bits of the sum are taken for it. -/
  | wrapping
  deriving DecidableEq, Repr

/-- The sum that is gone on with. -/
def Arithmetic.fit (arithmetic : Arithmetic) (sum : Nat) : Except Error Nat :=
  if sum ≤ Numeral.max64 then .ok sum
  else
    match arithmetic with
    | .checked => .error .overflow
    | .wrapping => .ok (sum % (Numeral.max64 + 1))

theorem Arithmetic.fit_of_le {sum : Nat} (h : sum ≤ Numeral.max64) (arithmetic : Arithmetic) :
    arithmetic.fit sum = .ok sum :=
  if_pos h

theorem Arithmetic.fit_checked_of_lt {sum : Nat} (h : Numeral.max64 < sum) :
    checked.fit sum = .error .overflow :=
  if_neg (Nat.not_le.2 h)

namespace Plan

def list (limit : Nat) : Plan (List Task) := fun d => do
  let tasks ← loadTasks d
  return .none ((sorted tasks).take limit)

def get (id : String) : Plan Task := fun d => do
  let tasks ← loadTasks d
  return .none (← find id tasks)

/-- Keeps a task under a new number, which is written down before the task is. -/
def insertWith (arithmetic : Arithmetic) (t : Task) : Plan String := fun d => do
  let tasks ← loadTasks d
  let last ← loadSequence d
  let number ← arithmetic.fit (nextNumber last tasks)
  let id := Numeral.text number
  return ⟨[(.sequence, Sequence.encode number),
    (.tasks, Rows.encode (tasks ++ [{ t with id }]))], id⟩

/-- Keeps a task under a new number in a build that checks its sums. -/
def insert (t : Task) : Plan String := insertWith .checked t

/-- Changes a task, but never its identifier. -/
def modify (id : String) (change : Task → Task) : Plan Unit := fun d => do
  let tasks ← loadTasks d
  let _ ← find id tasks
  let tasks := modifyFirst id (fun t => { change t with id }) tasks
  return ⟨[(.tasks, Rows.encode tasks)], ()⟩

/-- Takes away every task with this identifier. -/
def delete (id : String) : Plan Unit := fun d => do
  let tasks ← loadTasks d
  let _ ← find id tasks
  return ⟨[(.tasks, Rows.encode (tasks.filter fun t => t.id ≠ id))], ()⟩

end Plan

end Agenda.Store
