import Agenda.Json.Literal
import Agenda.Text.Lines

/-!
Queries as forms: fields with names and values, joined by `&` and written in bytes, where `+` is a
blank and `%` stands before a byte in hexadecimal digits. Whatever is written can be read.
-/

namespace Agenda.Form

def hexDigit? (b : UInt8) : Option Nat := Json.hexValue? (Char.ofNat b.toNat)

/-- Puts a blank in the place of each plus sign. -/
def blanks (bs : List UInt8) : List UInt8 := bs.map fun b => if b == 0x2B then 0x20 else b

/-- Puts the byte in the place of its digits; a percent sign without two digits stands for
itself. -/
def unescape : List UInt8 → List UInt8
  | b :: c :: d :: rest =>
      match b == 0x25, hexDigit? c, hexDigit? d with
      | true, some high, some low => UInt8.ofNat (16 * high + low) :: unescape rest
      | _, _, _ => b :: unescape (c :: d :: rest)
  | bs => bs
termination_by bs => bs.length

def text (written : List UInt8) : String :=
  String.ofList (Utf8.repaired (Utf8.decode (unescape (blanks written))))

/-- A field; without an equals sign it has an empty value. -/
def field (written : List UInt8) : String × String :=
  match Lines.splitFirst? 0x3D written with
  | some (name, value) => (text name, text value)
  | none => (text written, "")

def fields (query : String) : List (String × String) :=
  ((Lines.splitAt 0x26 (Utf8.encodeText query)).filter fun written => !written.isEmpty).map field

/-- The value of a field that may be given once; nothing if it is given more often. -/
def get? (fields : List (String × String)) (name : String) : Option (Option String) :=
  match fields.filter fun field => field.1 = name with
  | [] => some none
  | [(_, value)] => some (some value)
  | _ => none

end Agenda.Form
