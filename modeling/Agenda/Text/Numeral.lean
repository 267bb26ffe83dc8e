/-!
Decimal numerals: their value, their written form, and the reading of bounded whole numbers. A
reader goes from left to right and stops at the first character that is no digit or that makes the
number too large, so the two failures never compete.
-/

namespace Agenda.Numeral

/-- The value of a digit; other characters count from it on. -/
def digit (c : Char) : Nat := c.toNat - '0'.toNat

def value (cs : List Char) : Nat :=
  cs.foldl (fun n c => 10 * n + digit c) 0

/-- The digits of a number, without leading zeros. -/
def digits (n : Nat) : List Char := Nat.toDigits 10 n

def text (n : Nat) : String := String.ofList (digits n)

/-- Digits with leading zeros up to a width. -/
def padded (width n : Nat) : String :=
  String.ofList (List.replicate (width - (digits n).length) '0' ++ digits n)

inductive Error where
  | empty
  | invalidDigit
  | tooLarge
  | tooSmall
  deriving DecidableEq, Repr

def Error.message : Error → String
  | .empty => "cannot parse integer from empty string"
  | .invalidDigit => "invalid digit found in string"
  | .tooLarge => "number too large to fit in target type"
  | .tooSmall => "number too small to fit in target type"

/-- Goes on reading digits behind a number, which may not pass `max`. -/
def readOn (max : Nat) : Nat → List Char → Except Error Nat
  | n, [] => .ok n
  | n, c :: cs =>
      if c.isDigit then
        if 10 * n + digit c ≤ max then readOn max (10 * n + digit c) cs else .error .tooLarge
      else .error .invalidDigit

/-- A number from 0 to `max`, a plus sign being allowed. -/
def natural (max : Nat) : List Char → Except Error Nat
  | [] => .error .empty
  | ['+'] => .error .invalidDigit
  | '+' :: cs => readOn max 0 cs
  | cs => readOn max 0 cs

/-- A number from one below `-max` to `max`, a sign being allowed. -/
def integer (max : Nat) : List Char → Except Error Int
  | ['-'] => .error .invalidDigit
  | '-' :: cs =>
      match readOn (max + 1) 0 cs with
      | .ok n => .ok (-n)
      | .error .tooLarge => .error .tooSmall
      | .error e => .error e
  | cs => (natural max cs).map Int.ofNat

def max64 : Nat := 0xFFFFFFFFFFFFFFFF

/-- The largest number of 64 bits of which one is a sign. -/
def maxSigned64 : Nat := 0x7FFFFFFFFFFFFFFF

def max16 : Nat := 0xFFFF

end Agenda.Numeral
