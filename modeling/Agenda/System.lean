import Agenda.Calendar.Date
import Agenda.Disk
import Std.Time

/-!
The disk and the clock of the system. Work is done on a picture of the part of the disk that it can
reach; what it changes there is then written back. Links are taken for what they lead to.
-/

namespace Agenda.System

/-- What the disk has at a place whose folder is there. -/
def look (place : Place) : IO (Option Node) := do
  try
    return some (.file (← IO.FS.readBinFile place.path).toList)
  catch
    | .noFileOrDirectory .. => return none
    | .inappropriateType .. => return some .folder
    | e => throw e

/-- A picture of which nothing is known yet. -/
def blank : IO Disk := return { nodes := [], working := (← IO.currentDir).toString }

/-- Adds to the picture what a path leads along. -/
def explore (path : String) (disk : Disk) : IO Disk := do
  let names := (disk.names path).toOption.getD []
  let mut disk := disk
  let mut place : Place := []
  for name in names do
    if (disk.follow place name).toOption.isNone then
      match ← look (name :: place) with
      | some node => disk := disk.put (name :: place) node
      | none => return disk
    match disk.follow place name with
    | .ok further => place := further
    | .error _ => return disk
  return disk

/-- Adds to the picture what the folder of a store holds. -/
def exploreStore (folder : String) (disk : Disk) : IO Disk := do
  let mut disk := disk
  for entry in [Entry.tasks, Entry.sequence, Entry.lock] do
    disk ← explore (Path.join folder entry.name) disk
  return disk

/-- Puts a file in the place of what is there, at once or not at all. -/
def writeFile (place : Place) (content : List UInt8) : IO Unit := do
  let draft := place.path ++ ".new"
  IO.FS.writeBinFile draft content.toByteArray
  IO.FS.rename draft place.path

/-- Makes the folders that are new, each after the one that holds it. -/
def makeFolders (before after : Disk) : IO Unit := do
  for (place, node) in after.nodes.reverse do
    if node = .folder ∧ before.node? place ≠ some .folder then
      IO.FS.createDir place.path

def writeFiles (before after : Disk) : IO Unit := do
  for (place, node) in after.nodes.reverse do
    if let .file content := node then
      if before.node? place ≠ some node then writeFile place content

/-- Holds a lock as long as something is done. -/
def holding (path : String) (act : IO α) : IO α := do
  let lock ← IO.FS.Handle.mk path .append
  lock.lock
  try act finally lock.unlock

/-- Carries out work on the disk as it is now. Work that takes the lock of a store is done again as
soon as it has the lock. -/
def carryOut (picture : IO Disk) (store? : Disk → Option String) (work : Disk → α × Disk) :
    IO α := do
  let before ← picture
  let (answer, after) := work before
  makeFolders before after
  let lock? := ((store? before).map fun folder => Path.join folder Entry.lock.name).filter
    fun path => (after.read path).toBool
  match lock? with
  | none =>
      writeFiles before after
      return answer
  | some path =>
      holding path do
        let before ← picture
        let (answer, after) := work before
        writeFiles before after
        return answer

def clock : IO Date := do
  let today ← Std.Time.PlainDate.now
  match Date.ofParts? today.year.toInt today.month.val.toNat today.day.val.toNat with
  | some date => return date
  | none => throw (IO.userError "the clock shows no date")

end Agenda.System
