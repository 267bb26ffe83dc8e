import Agenda.Text.Lines

/-!
Paths as texts. A slash separates names; what a path leads to is not asked here. Joining keeps both
texts as they are, and an absolute second path stands for itself.
-/

namespace Agenda.Path

def isAbsolute (path : String) : Bool := path.toList.head? = some '/'

/-- The second path as seen from the first. -/
def join (base path : String) : String :=
  if isAbsolute path || base = "" then path
  else if base.toList.getLast? = some '/' then base ++ path
  else base ++ "/" ++ path

/-- The names of a path that starts behind its root, if it has one; an empty name stands where two
slashes meet and at a slash that ends the path. -/
def names (path : String) : List (List Char) :=
  Lines.splitAt '/' (if isAbsolute path then path.toList.drop 1 else path.toList)

def ofNames (absolute : Bool) (names : List (List Char)) : String :=
  String.ofList ((if absolute then ['/'] else []) ++ ['/'].intercalate names)

/-- A name that leads nowhere else: an empty one, or a dot that does not start a relative path. -/
def isIdle (absolute : Bool) (before : List (List Char)) (name : List Char) : Bool :=
  name.isEmpty || (name == ['.'] && (absolute || !before.isEmpty))

/-- Without the idle names at the end. The names come last one first. -/
def dropIdle (absolute : Bool) : List (List Char) → List (List Char)
  | [] => []
  | name :: before =>
      if isIdle absolute before name then dropIdle absolute before else name :: before

theorem length_dropIdle (absolute : Bool) (names : List (List Char)) :
    (dropIdle absolute names).length ≤ names.length := by
  induction names with
  | nil => exact Nat.le_refl _
  | cons name before ih =>
      unfold dropIdle
      split
      · exact Nat.le_succ_of_le ih
      · exact Nat.le_refl _

/-- The names without the last one that leads elsewhere, last one first. -/
def withoutLast? (absolute : Bool) (names : List (List Char)) : Option (List (List Char)) :=
  match dropIdle absolute names with
  | [] => none
  | _ :: before => some (dropIdle absolute before)

/-- The path of the folder that holds what the path names. -/
def parent? (path : String) : Option String :=
  (withoutLast? (isAbsolute path) (names path).reverse).map fun names =>
    ofNames (isAbsolute path) names.reverse

/-- The folders above, the nearest first. The names come last one first. -/
def above (absolute : Bool) (names : List (List Char)) : List String :=
  match _h : dropIdle absolute names with
  | [] => []
  | _ :: before =>
      ofNames absolute (dropIdle absolute before).reverse :: above absolute before
termination_by names.length
decreasing_by
  have := length_dropIdle absolute names
  rw [_h, List.length_cons] at this
  omega

/-- The path and the folders above it, the path itself first. -/
def lineage (path : String) : List String :=
  path :: above (isAbsolute path) (names path).reverse

/-- A path that starts with `~/` starts in the home folder, if there is one. -/
def expandHome (home : Option String) (path : String) : String :=
  match home, path.toList with
  | some home, '~' :: '/' :: rest => join home (String.ofList rest)
  | _, _ => path

end Agenda.Path
