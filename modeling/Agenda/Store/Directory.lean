/-!
The directory of a store: three entries of which each can be absent, a folder or a file. Writing an
entry replaces the whole file or changes nothing. What cannot be done with a file is told in the
words and with the numbers of the operating system.
-/

namespace Agenda.File

inductive Error where
  | missing
  | present
  | notFolder
  | isFolder
  | nameTooLong
  | notText
  | zeroInName
  deriving DecidableEq, Repr

def Error.message : Error → String
  | .missing => "No such file or directory (os error 2)"
  | .present => "File exists (os error 17)"
  | .notFolder => "Not a directory (os error 20)"
  | .isFolder => "Is a directory (os error 21)"
  | .nameTooLong => "File name too long (os error 36)"
  | .notText => "stream did not contain valid UTF-8"
  | .zeroInName => "file name contained an unexpected NUL byte"

end Agenda.File

namespace Agenda

/-! Steps that may fail, one behind the other. -/

theorem bind_eq_ok {ε α β : Type} {x : Except ε α} {f : α → Except ε β} {b : β}
    (h : (x >>= f) = .ok b) : ∃ a, x = .ok a ∧ f a = .ok b := by
  cases x with
  | error e => cases h
  | ok a => exact ⟨a, rfl, h⟩

instance decidableEqExcept {ε α : Type} [DecidableEq ε] [DecidableEq α] :
    DecidableEq (Except ε α)
  | .ok a, .ok b => decidable_of_iff (a = b) ⟨congrArg Except.ok, Except.ok.inj⟩
  | .error e, .error e' => decidable_of_iff (e = e') ⟨congrArg Except.error, Except.error.inj⟩
  | .ok _, .error _ => .isFalse nofun
  | .error _, .ok _ => .isFalse nofun

/-! The three entries. -/

inductive Slot where
  | absent
  | folder
  | file (content : List UInt8)
  deriving DecidableEq

inductive Entry where
  | tasks
  | sequence
  | lock
  deriving DecidableEq, Repr

def Entry.name : Entry → String
  | .tasks => "tasks.data"
  | .sequence => "sequence.data"
  | .lock => "lock"

structure Directory where
  tasks : Slot := .absent
  sequence : Slot := .absent
  lock : Slot := .absent
  deriving DecidableEq

namespace Directory

def get (d : Directory) : Entry → Slot
  | .tasks => d.tasks
  | .sequence => d.sequence
  | .lock => d.lock

def set (d : Directory) (entry : Entry) (slot : Slot) : Directory :=
  match entry with
  | .tasks => { d with tasks := slot }
  | .sequence => { d with sequence := slot }
  | .lock => { d with lock := slot }

theorem get_set (d : Directory) (e e' : Entry) (slot : Slot) :
    (d.set e slot).get e' = if e' = e then slot else d.get e' := by
  cases e <;> cases e' <;> rfl

def read (d : Directory) (entry : Entry) : Except File.Error (List UInt8) :=
  match d.get entry with
  | .absent => .error .missing
  | .folder => .error .isFolder
  | .file content => .ok content

/-- Makes sure that there is a file. -/
def create (d : Directory) (entry : Entry) : Except File.Error Directory :=
  match d.get entry with
  | .absent => .ok (d.set entry (.file []))
  | .folder => .error .isFolder
  | .file _ => .ok d

/-- Puts a file in the place of what is there; a folder stays. -/
def replace (d : Directory) (entry : Entry) (content : List UInt8) :
    Except File.Error Directory :=
  match d.get entry with
  | .folder => .error .isFolder
  | _ => .ok (d.set entry (.file content))

end Directory

end Agenda
