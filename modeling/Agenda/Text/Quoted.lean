import Agenda.Text.Graphic
import Agenda.Text.Extender

/-!
Quoted text, as messages show it. The quotes and the backslash are escaped, the common controls
have names, and every other character that cannot be seen on its own is given by its number.
-/

namespace Agenda.Quoted

def hexDigits (n : Nat) : List Char := Nat.toDigits 16 n

/-- The escape that names a character by its number. -/
def numbered (c : Char) : List Char :=
  ['\\', 'u', '\x7b'] ++ hexDigits c.toNat ++ ['\x7d']

def encodeChar (c : Char) : List Char :=
  match c with
  | '"' => ['\\', '"']
  | '\\' => ['\\', '\\']
  | '\n' => ['\\', 'n']
  | '\r' => ['\\', 'r']
  | '\t' => ['\\', 't']
  | '\x00' => ['\\', '0']
  | c =>
      if Extender.isExtender c || !Graphic.isGraphic c then numbered c else [c]

def encode (s : String) : String :=
  String.ofList ('"' :: s.toList.flatMap encodeChar ++ ['"'])

end Agenda.Quoted
