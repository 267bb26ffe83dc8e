import Agenda.Path
import Agenda.Store.Directory
import Agenda.Text.Utf8

/-!
A disk without links: what is found at which place, and the folder from which relative paths start.
A path is followed name by name. Each name has to be found in a folder, so the way a path fails
depends on how far it leads.
-/

namespace Agenda

/-- The names that lead from the root to a place, the last one first. -/
abbrev Place := List String

def Place.path (place : Place) : String := "/" ++ "/".intercalate place.reverse

inductive Node where
  | folder
  | file (content : List UInt8)
  /-- What is always empty when it is read. -/
  | device
  deriving DecidableEq

structure Disk where
  nodes : List (Place × Node)
  working : String

namespace Disk

/-- What is found at a place; the root is always a folder. -/
def node? (d : Disk) (place : Place) : Option Node :=
  match place with
  | [] => some .folder
  | _ => d.nodes.lookup place

def erase (d : Disk) (place : Place) : Disk :=
  { d with nodes := d.nodes.filter fun (p, _) => p ≠ place }

def put (d : Disk) (place : Place) (node : Node) : Disk :=
  { d with nodes := (place, node) :: (d.erase place).nodes }

def maxName : Nat := 255

def maxPath : Nat := 4095

/-- One name further from a place. -/
def follow (d : Disk) (place : Place) (name : String) : Except File.Error Place :=
  match d.node? place with
  | some .folder =>
      if name = "" ∨ name = "." then .ok place
      else if name = ".." then .ok place.tail
      else if maxName < name.utf8ByteSize then .error .nameTooLong
      else if (d.node? (name :: place)).isSome then .ok (name :: place)
      else .error .missing
  | some _ => .error .notFolder
  | none => .error .missing

/-- Follows the names of a path that may be looked up at all. -/
def names (d : Disk) (path : String) : Except File.Error (List String) :=
  if path.toList.contains '\x00' then .error .zeroInName
  else if path = "" then .error .missing
  else if maxPath < path.utf8ByteSize then .error .nameTooLong
  else .ok ((Path.names (Path.join d.working path)).map String.ofList)

def locate (d : Disk) (path : String) : Except File.Error Place := do
  (← d.names path).foldlM d.follow []

/-- The place of a folder whose files are to be named by paths; an empty path stands for the working
folder then. -/
def locateFolder (d : Disk) (path : String) : Except File.Error Place :=
  d.locate (if path = "" then "." else path)

def isPresent (d : Disk) (path : String) : Bool := (d.locate path).toBool

/-- The place of a path, if its canonical path is not too long: that one starts from the root, so it
can be longer than the path itself. -/
def resolve (d : Disk) (path : String) : Except File.Error Place := do
  let place ← d.locate path
  if maxPath < place.path.utf8ByteSize then throw .nameTooLong
  return place

def isFolder (d : Disk) (path : String) : Bool :=
  match d.locate path with
  | .ok place => d.node? place == some .folder
  | .error _ => false

def contentAt (d : Disk) (place : Place) : Except File.Error (List UInt8) :=
  match d.node? place with
  | none => .error .missing
  | some .folder => .error .isFolder
  | some (.file content) => .ok content
  | some .device => .ok []

theorem mem_nodes_of_contentAt {d : Disk} {place : Place} {content : List UInt8}
    (h : d.contentAt place = .ok content) : ∃ node, (place, node) ∈ d.nodes := by
  unfold contentAt at h
  cases place with
  | nil => cases h
  | cons name place =>
      cases hl : d.nodes.lookup (name :: place) with
      | none => simp [node?, hl] at h
      | some node =>
          obtain ⟨before, after, hl, _⟩ := List.lookup_eq_some_iff.1 hl
          exact ⟨node, by simp [hl]⟩

def read (d : Disk) (path : String) : Except File.Error (List UInt8) := do
  d.contentAt (← d.locate path)

theorem resolve_eq_ok {d : Disk} {path : String} {place : Place} (h : d.resolve path = .ok place) :
    d.locate path = .ok place ∧ place.path.utf8ByteSize ≤ maxPath := by
  obtain ⟨found, hfound, h⟩ := bind_eq_ok h
  by_cases hlong : maxPath < found.path.utf8ByteSize
  · rw [if_pos hlong] at h
    cases h
  · rw [if_neg hlong] at h
    cases h
    exact ⟨hfound, Nat.not_lt.1 hlong⟩

theorem contentAt_of_read {d : Disk} {path : String} {place : Place} {content : List UInt8}
    (h : d.read path = .ok content) (hplace : d.locate path = .ok place) :
    d.contentAt place = .ok content := by
  obtain ⟨found, hfound, h⟩ := bind_eq_ok h
  cases hfound.symm.trans hplace
  exact h

/-- Writes a file whose folder is there. -/
def write (d : Disk) (path : String) (content : List UInt8) : Except File.Error Disk := do
  match (← d.names path).reverse with
  | [] => throw .isFolder
  | name :: before =>
      let place ← before.reverse.foldlM d.follow []
      match d.follow place name with
      | .ok place =>
          if d.node? place = some .folder then throw .isFolder
          else return d.put place (.file content)
      | .error .missing => return d.put (name :: place) (.file content)
      | .error e => throw e

/-- Makes a folder whose own folder is there. -/
def makeFolder (d : Disk) (path : String) : Except File.Error Disk := do
  let names := (← d.names path).reverse.dropWhile (· = "")
  match names with
  | [] => throw .present
  | name :: before =>
      let place ← before.reverse.foldlM d.follow []
      match d.follow place name with
      | .ok _ => throw .present
      | .error .missing => return d.put (name :: place) .folder
      | .error e => throw e

/-- Makes the first folder of a lineage, and before it those above it that are missing. -/
def makeLineage (d : Disk) : List String → Except File.Error Disk
  | [] => .error .missing
  | path :: above =>
      if path = "" then .ok d
      else
        match d.makeFolder path with
        | .ok d => .ok d
        | .error .missing => do
            let d ← d.makeLineage above
            match d.makeFolder path with
            | .ok d => return d
            | .error e => if d.isFolder path then return d else throw e
        | .error e => if d.isFolder path then .ok d else .error e

/-- Makes sure that a folder is there, with all folders above it. -/
def makeFolders (d : Disk) (path : String) : Except File.Error Disk :=
  d.makeLineage (Path.lineage path)

/-! The directory of a store, as a part of a disk. -/

def slot (d : Disk) (place : Place) : Slot :=
  match d.node? place with
  | none => .absent
  | some .folder => .folder
  | some (.file content) => .file content
  | some .device => .file []

def setSlot (d : Disk) (place : Place) : Slot → Disk
  | .absent => d.erase place
  | .folder => d.put place .folder
  | .file content => d.put place (.file content)

def directory (d : Disk) (place : Place) : Directory :=
  { tasks := d.slot (Entry.tasks.name :: place)
    sequence := d.slot (Entry.sequence.name :: place)
    lock := d.slot (Entry.lock.name :: place) }

def setDirectory (d : Disk) (place : Place) (directory : Directory) : Disk :=
  ((d.setSlot (Entry.lock.name :: place) directory.lock).setSlot
    (Entry.sequence.name :: place) directory.sequence).setSlot
    (Entry.tasks.name :: place) directory.tasks

end Disk

end Agenda
