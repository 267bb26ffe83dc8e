import Agenda.Store.Error
import Agenda.Task.Written
import Agenda.Text.Blank
import Agenda.Text.Lines

/-!
What the files of a store hold: a task on each line, in its written form, and the last number given
out. Reading passes over blank lines and over blanks around a task or a number, and stops at the
first line that is wrong.
-/

namespace Agenda.Store

namespace Rows

/-- The task on a line, if the line is not blank. -/
def decodeLine (number : Nat) (line : List Glyph) : Except Error (Option Task) :=
  match Utf8.characters? line with
  | none => .error (.file .tasks .notText)
  | some cs =>
      if (Blank.trim cs).isEmpty then .ok none
      else
        match Task.ofJson? (Blank.trim cs) with
        | none => .error (.corrupt number)
        | some t => .ok (some t)

/-- The tasks on these lines, the first of which has the given number. -/
def decodeLines (number : Nat) : List (List Glyph) → Except Error (List Task)
  | [] => .ok []
  | line :: lines =>
      match decodeLine number line with
      | .error e => .error e
      | .ok t => (decodeLines (number + 1) lines).map (t.toList ++ ·)

def decode (content : List UInt8) : Except Error (List Task) :=
  decodeLines 1 (Lines.splitAt (some '\n') (Utf8.decode content))

def encode (tasks : List Task) : List UInt8 :=
  Utf8.encode (tasks.flatMap fun t => t.json ++ ['\n'])

end Rows

namespace Sequence

/-- The last number given out; a blank file says zero. -/
def decode (content : List UInt8) : Except Error Nat :=
  match Utf8.decode? content with
  | none => .error (.file .sequence .notText)
  | some cs =>
      if (Blank.trim cs).isEmpty then .ok 0
      else
        match Numeral.natural Numeral.max64 (Blank.trim cs) with
        | .ok n => .ok n
        | .error _ => .error (.sequence (String.ofList (Blank.trim cs)))

def encode (n : Nat) : List UInt8 := Utf8.encode (Numeral.digits n)

end Sequence

end Agenda.Store
