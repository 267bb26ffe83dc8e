import Agenda.Settings.Environment

/-!
Files of settings. A line assigns a value or includes another file; what follows `#` does not count.
An included file is read in the place of its line, the first time it is met. A file that is met
again is passed over, so reading ends whatever the files include.
-/

namespace Agenda.Settings

inductive Directive where
  | nothing
  | embed (path : String)
  | assign (assignment : Assignment)
  | invalid
  deriving DecidableEq

def withoutComment (line : List Char) : List Char :=
  match Lines.splitFirst? '#' line with
  | some (before, _) => Blank.trim before
  | none => Blank.trim line

def dropStart? : List Char → List Char → Option (List Char)
  | [], cs => some cs
  | s :: start, c :: cs => if s = c then dropStart? start cs else none
  | _ :: _, [] => none

def Directive.ofLine (line : List Char) : Directive :=
  let cs := withoutComment line
  if cs.isEmpty then .nothing
  else
    match dropStart? "include ".toList cs with
    | some path => .embed (String.ofList (Blank.trim path))
    | none =>
        match Assignment.ofText? cs with
        | some assignment => .assign assignment
        | none => .invalid

/-- A line of a file, with its number in the file. -/
structure Line where
  path : String
  number : Nat
  text : List Char

/-- The path of an included file, spelled out from the folder of the file that includes it. -/
def Line.spelled (line : Line) (env : Environment) (path : String) : String :=
  Path.join ((Path.parent? line.path).getD ".") (Path.expandHome env.home path)

/-- The path at which an included file is read. It has been expanded before, and is so once more. -/
def Line.target (line : Line) (env : Environment) (path : String) : String :=
  Path.expandHome env.home (line.spelled env path)

/-- The paths that lines include, as they are spelled out. -/
def spellings (env : Environment) (lines : List Line) : List String :=
  lines.filterMap fun line =>
    match Directive.ofLine line.text with
    | .embed path => some (line.spelled env path)
    | _ => none

/-- The paths at which the files that lines include are read, where something is there at all. -/
def targets (disk : Disk) (env : Environment) (lines : List Line) : List String :=
  ((spellings env lines).filter disk.isPresent).map (Path.expandHome env.home)

def numbered (path : String) (lines : List (List Char)) : List Line :=
  lines.zipIdx.map fun (text, i) => ⟨path, i + 1, text⟩

def readFile (disk : Disk) (path : String) : Except Error (Place × List Line) :=
  match disk.read path with
  | .error cause => .error (.unreadable path cause)
  | .ok content =>
      match Utf8.decode? content with
      | none => .error (.unreadable path .notText)
      | some cs =>
          match disk.resolve path with
          | .error cause => .error (.unresolved path cause)
          | .ok place => .ok (place, numbered path (Lines.lines cs))

/-- How many things on the disk are at none of these places. -/
def remaining (disk : Disk) (places : List Place) : Nat :=
  (disk.nodes.filter fun (place, _) => place ∉ places).length

theorem length_filter_lt {p q : α → Bool} {l : List α} {a : α} (ha : a ∈ l) (hq : q a = true)
    (hp : p a = false) (hpq : ∀ x, p x = true → q x = true) :
    (l.filter p).length < (l.filter q).length := by
  induction l with
  | nil => cases ha
  | cons x l ih =>
      have hle : (l.filter p).length ≤ (l.filter q).length := by
        simpa only [← List.countP_eq_length_filter] using
          List.countP_mono_left fun x _ => hpq x
      rcases List.mem_cons.1 ha with rfl | ha
      · simp only [List.filter_cons, hq, hp, if_true]
        simpa using Nat.lt_succ_of_le hle
      · have hlt := ih ha
        by_cases hpx : p x = true
        · simpa [hpx, hpq x hpx] using hlt
        · by_cases hqx : q x = true
          · simpa [hpx, hqx] using Nat.lt_succ_of_lt hlt
          · simpa [hpx, hqx] using hlt

/-- What is read is on the disk. -/
theorem mem_nodes_of_readFile {disk : Disk} {path : String} {place : Place} {lines : List Line}
    (h : readFile disk path = .ok (place, lines)) : ∃ node, (place, node) ∈ disk.nodes := by
  unfold readFile at h
  split at h
  · cases h
  · rename_i content hcontent
    split at h
    · cases h
    · split at h
      · cases h
      · rename_i found hfound
        cases h
        have hplace := (Disk.resolve_eq_ok hfound).1
        exact Disk.mem_nodes_of_contentAt (Disk.contentAt_of_read hcontent hplace)

theorem remaining_lt {disk : Disk} {path : String} {place : Place} {lines : List Line}
    {places : List Place} (h : readFile disk path = .ok (place, lines)) (hp : place ∉ places) :
    remaining disk (place :: places) < remaining disk places := by
  obtain ⟨node, hn⟩ := mem_nodes_of_readFile h
  refine length_filter_lt hn (by simpa using hp) (by simp) ?_
  intro x hx
  simp only [List.mem_cons, not_or, decide_eq_true_eq] at hx ⊢
  exact hx.2

/-- Goes through lines, with the settings read so far and the places they come from. -/
def loadOn (disk : Disk) (env : Environment) (places : List Place) (s : Settings) :
    List Line → Except Error Settings
  | [] => .ok s
  | line :: lines =>
      match Directive.ofLine line.text with
      | .nothing => loadOn disk env places s lines
      | .invalid => .error (.invalidLine line.path line.number (String.ofList line.text))
      | .assign assignment =>
          loadOn disk env places { s with assignments := s.assignments ++ [assignment] } lines
      | .embed path =>
          if disk.isPresent (line.spelled env path) then
            match _h : readFile disk (line.target env path) with
            | .error e => .error e
            | .ok (place, included) =>
                if _hp : place ∈ places then loadOn disk env places s lines
                else
                  loadOn disk env (place :: places) { s with loaded := s.loaded ++ [place.path] }
                    (included ++ lines)
          else loadOn disk env places s lines
termination_by lines => (remaining disk places, lines.length)
decreasing_by
  all_goals first
    | exact Prod.Lex.left _ _ (remaining_lt _h _hp)
    | exact Prod.Lex.right _ (Nat.lt_succ_self _)

/-- The settings of the rc file and of what it includes, on top of the defaults. -/
def load (disk : Disk) (env : Environment) (given : Option String) : Except Error Settings :=
  match rcPath? env disk given with
  | none => .ok defaults
  | some path =>
      match readFile disk (Path.expandHome env.home path) with
      | .error e => .error e
      | .ok (place, lines) =>
          loadOn disk env [place] { defaults with loaded := [place.path] } lines

end Agenda.Settings
