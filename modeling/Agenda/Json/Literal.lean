import Agenda.Text.Utf8

/-!
String literals of JSON. Writing escapes the quote, the backslash and the controls below U+0020;
reading accepts every escape of the format. A literal may spell what is no text, an unpaired
surrogate or bytes that form no character; it still ends at its quote, but has no value.
-/

namespace Agenda.Json

def hexByte (n : Nat) : List Char := [Nat.digitChar (n / 16), Nat.digitChar (n % 16)]

def escapeChar (c : Char) : List Char :=
  match c with
  | '"' => ['\\', '"']
  | '\\' => ['\\', '\\']
  | '\x08' => ['\\', 'b']
  | '\x0c' => ['\\', 'f']
  | '\n' => ['\\', 'n']
  | '\r' => ['\\', 'r']
  | '\t' => ['\\', 't']
  | c => if c.toNat < 0x20 then ['\\', 'u', '0', '0'] ++ hexByte c.toNat else [c]

def literal (s : String) : List Char := '"' :: s.toList.flatMap escapeChar ++ ['"']

def unescape? : Char → Option Char
  | '"' => some '"'
  | '\\' => some '\\'
  | '/' => some '/'
  | 'b' => some '\x08'
  | 'f' => some '\x0c'
  | 'n' => some '\n'
  | 'r' => some '\r'
  | 't' => some '\t'
  | _ => none

def hexValue? (c : Char) : Option Nat :=
  let n := c.toNat
  if c.isDigit then some (n - 48)
  else if 97 ≤ n ∧ n ≤ 102 then some (n - 87)
  else if 65 ≤ n ∧ n ≤ 70 then some (n - 55)
  else none

def unit? (a b c d : Char) : Option Nat := do
  let a ← hexValue? a
  let b ← hexValue? b
  let c ← hexValue? c
  let d ← hexValue? d
  return ((a * 16 + b) * 16 + c) * 16 + d

def isHighSurrogate (n : Nat) : Bool := 0xD800 ≤ n && n ≤ 0xDBFF

def isLowSurrogate (n : Nat) : Bool := 0xDC00 ≤ n && n ≤ 0xDFFF

/-- The character that a pair of surrogates stands for. -/
def pairValue (high low : Nat) : Char :=
  Char.ofNat (0x10000 + (high - 0xD800) * 0x400 + (low - 0xDC00))

/-- Puts a glyph in front of what was read behind it; without a character there is no value. -/
def prepend (g : Glyph) :
    Option (Option (List Char) × List Glyph) → Option (Option (List Char) × List Glyph)
  | none => none
  | some (value, rest) => some (g.bind fun c => value.map (c :: ·), rest)

/-- Reads a literal from behind its opening quote: its value, if it has one, and what follows the
closing quote. -/
def readLiteral : List Glyph → Option (Option (List Char) × List Glyph)
  | [] => none
  | none :: rest => prepend none (readLiteral rest)
  | some '"' :: rest => some (some [], rest)
  | some '\\' :: some 'u' :: some a :: some b :: some c :: some d ::
      some '\\' :: some 'u' :: some e :: some f :: some g :: some h :: rest =>
      match unit? a b c d, unit? e f g h with
      | some high, some low =>
          if isHighSurrogate high && isLowSurrogate low then
            prepend (some (pairValue high low)) (readLiteral rest)
          else
            prepend (if isHighSurrogate high || isLowSurrogate high then none
                else some (Char.ofNat high))
              (readLiteral
                (some '\\' :: some 'u' :: some e :: some f :: some g :: some h :: rest))
      | _, _ => none
  | some '\\' :: some 'u' :: some a :: some b :: some c :: some d :: rest =>
      match unit? a b c d with
      | some n =>
          prepend (if isHighSurrogate n || isLowSurrogate n then none else some (Char.ofNat n))
            (readLiteral rest)
      | none => none
  | some '\\' :: some c :: rest =>
      match unescape? c with
      | some c => prepend (some c) (readLiteral rest)
      | none => none
  | some c :: rest =>
      if c = '\\' ∨ c.toNat < 0x20 then none else prepend (some c) (readLiteral rest)
termination_by gs => gs.length

theorem prepend_eq_some {g : Glyph} {r : Option (Option (List Char) × List Glyph)}
    {value : Option (List Char)} {rest : List Glyph} (h : prepend g r = some (value, rest)) :
    ∃ value', r = some (value', rest) := by
  cases r with
  | none => simp [prepend] at h
  | some p =>
      obtain ⟨v, r⟩ := p
      simp only [prepend, Option.some.injEq, Prod.mk.injEq] at h
      exact ⟨v, by rw [h.2]⟩

/-- Reading a literal uses up at least its closing quote. -/
theorem length_readLiteral {gs rest : List Glyph} {value : Option (List Char)}
    (h : readLiteral gs = some (value, rest)) : rest.length < gs.length := by
  fun_induction readLiteral gs generalizing value rest with
  | case1 | case6 | case8 | case10 | case11 => cases h
  | case3 => cases h; simp
  | case2 _ ih | case4 _ _ _ _ _ _ _ _ _ _ _ _ _ _ ih | case5 _ _ _ _ _ _ _ _ _ _ _ _ _ _ ih
  | case7 _ _ _ _ _ _ _ _ ih | case9 _ _ _ _ _ _ ih | case12 _ _ _ _ _ _ _ ih =>
      obtain ⟨_, h⟩ := prepend_eq_some h
      have := ih h
      simp only [List.length_cons] at this ⊢
      omega

end Agenda.Json
