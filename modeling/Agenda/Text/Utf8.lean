/-!
UTF-8. Writing turns characters into bytes. Reading never fails: where bytes form no character it
gives nothing in their place, once for each longest stretch that could still have become one.
-/

namespace Agenda

/-- What a reader sees at one place: a character, or nothing where the bytes form none. -/
abbrev Glyph := Option Char

namespace Utf8

def encode (cs : List Char) : List UInt8 := cs.flatMap String.utf8EncodeChar

def encodeText (s : String) : List UInt8 := encode s.toList

def isTail (b : UInt8) : Bool := 0x80 ≤ b && b ≤ 0xBF

/-- A byte that may come second behind this first byte of three or four. -/
def fitsSecond (first second : UInt8) : Bool :=
  if first == 0xE0 then 0xA0 ≤ second && second ≤ 0xBF
  else if first == 0xED then 0x80 ≤ second && second ≤ 0x9F
  else if first == 0xF0 then 0x90 ≤ second && second ≤ 0xBF
  else if first == 0xF4 then 0x80 ≤ second && second ≤ 0x8F
  else 0xE1 ≤ first && first ≤ 0xF3 && isTail second

/-- How many of the following bytes belong to the broken character that starts with this byte. -/
def brokenTail (first : UInt8) : List UInt8 → Nat
  | [] => 0
  | [second] => if fitsSecond first second then 1 else 0
  | second :: third :: _ =>
      if fitsSecond first second then if 0xF0 ≤ first && isTail third then 2 else 1 else 0

def decode : List UInt8 → List Glyph
  | [] => []
  | b :: bs =>
      match ((b :: bs).take 4).toByteArray.utf8DecodeChar? 0 with
      | some c => some c :: decode (bs.drop (c.utf8Size - 1))
      | none => none :: decode (bs.drop (brokenTail b bs))
termination_by bs => bs.length
decreasing_by all_goals simp only [List.length_cons, List.length_drop]; omega

/-- The characters, if every glyph is one. -/
def characters? : List Glyph → Option (List Char)
  | [] => some []
  | none :: _ => none
  | some c :: gs => (characters? gs).map (c :: ·)

/-- The characters of bytes that are well-formed throughout. -/
def decode? (bytes : List UInt8) : Option (List Char) := characters? (decode bytes)

/-- Puts the replacement character where there is none. -/
def repaired (gs : List Glyph) : List Char := gs.map fun g => g.getD '\ufffd'

end Utf8

end Agenda
