import Agenda.Json.Literal

/-!
Tokens of JSON. A text that has no row of tokens is no JSON; blanks between tokens do not count.
Numbers and words have no value here, because no reader of this library keeps one.
-/

namespace Agenda.Json

inductive Token where
  | beginRecord
  | endRecord
  | beginList
  | endList
  | colon
  | comma
  /-- A literal, with its value if it has one. -/
  | literal (value : Option (List Char))
  /-- A number, a truth value or null. -/
  | atom
  deriving DecidableEq

namespace Token

def isBlank (c : Char) : Bool := c == ' ' || c == '\n' || c == '\t' || c == '\r'

def isDigit (g : Glyph) : Bool := g.any Char.isDigit

def dropDigits (gs : List Glyph) : List Glyph := gs.dropWhile isDigit

def dropWord? : List Char → List Glyph → Option (List Glyph)
  | [], gs => some gs
  | c :: cs, g :: gs => if g = some c then dropWord? cs gs else none
  | _ :: _, [] => none

def dropDigits? : List Glyph → Option (List Glyph)
  | [] => none
  | g :: gs => if isDigit g then some (dropDigits gs) else none

/-- What follows the whole part of a number, which starts with zero only if it is zero. -/
def dropWhole? : List Glyph → Option (List Glyph)
  | [] => none
  | g :: gs =>
      if g = some '0' then if gs.head?.any isDigit then none else some gs
      else if isDigit g then some (dropDigits gs)
      else none

def dropFraction? : List Glyph → Option (List Glyph)
  | some '.' :: gs => dropDigits? gs
  | gs => some gs

def dropSign : List Glyph → List Glyph
  | some '+' :: gs => gs
  | some '-' :: gs => gs
  | gs => gs

def dropExponent? : List Glyph → Option (List Glyph)
  | some 'e' :: gs => dropDigits? (dropSign gs)
  | some 'E' :: gs => dropDigits? (dropSign gs)
  | gs => some gs

/-- What follows a number without its sign. -/
def dropNumber? (gs : List Glyph) : Option (List Glyph) :=
  ((dropWhole? gs).bind dropFraction?).bind dropExponent?

/-- The first token that starts with this character, and what follows it. -/
def read? (c : Char) (gs : List Glyph) : Option (Token × List Glyph) :=
  match c with
  | '\x7b' => some (beginRecord, gs)
  | '\x7d' => some (endRecord, gs)
  | '[' => some (beginList, gs)
  | ']' => some (endList, gs)
  | ':' => some (colon, gs)
  | ',' => some (comma, gs)
  | '"' => (readLiteral gs).map fun (value, rest) => (literal value, rest)
  | 't' => (dropWord? ['r', 'u', 'e'] gs).map (atom, ·)
  | 'f' => (dropWord? ['a', 'l', 's', 'e'] gs).map (atom, ·)
  | 'n' => (dropWord? ['u', 'l', 'l'] gs).map (atom, ·)
  | '-' => (dropNumber? gs).map (atom, ·)
  | c => (dropNumber? (some c :: gs)).map (atom, ·)

theorem length_dropDigits (gs : List Glyph) : (dropDigits gs).length ≤ gs.length := by
  unfold dropDigits
  induction gs with
  | nil => simp
  | cons g gs ih =>
      rw [List.dropWhile_cons]
      split
      · exact Nat.le_succ_of_le ih
      · exact Nat.le_refl _

theorem length_dropWord? {word : List Char} {gs rest : List Glyph}
    (h : dropWord? word gs = some rest) : rest.length ≤ gs.length := by
  induction word generalizing gs with
  | nil => cases h; exact Nat.le_refl _
  | cons c cs ih =>
      cases gs with
      | nil => cases h
      | cons g gs =>
          simp only [dropWord?] at h
          split at h
          · exact Nat.le_succ_of_le (ih h)
          · cases h

theorem length_dropDigits? {gs rest : List Glyph} (h : dropDigits? gs = some rest) :
    rest.length < gs.length := by
  cases gs with
  | nil => cases h
  | cons g gs =>
      simp only [dropDigits?] at h
      split at h
      · cases h; exact Nat.lt_succ_of_le (length_dropDigits gs)
      · cases h

theorem length_dropWhole? {gs rest : List Glyph} (h : dropWhole? gs = some rest) :
    rest.length < gs.length := by
  cases gs with
  | nil => cases h
  | cons g gs =>
      simp only [dropWhole?] at h
      split at h
      · split at h
        · cases h
        · cases h; exact Nat.lt_succ_self _
      · split at h
        · cases h; exact Nat.lt_succ_of_le (length_dropDigits gs)
        · cases h

theorem length_dropFraction? {gs rest : List Glyph} (h : dropFraction? gs = some rest) :
    rest.length ≤ gs.length := by
  unfold dropFraction? at h
  split at h
  · exact Nat.le_succ_of_le (Nat.le_of_lt (length_dropDigits? h))
  · cases h; exact Nat.le_refl _

theorem length_dropSign (gs : List Glyph) : (dropSign gs).length ≤ gs.length := by
  unfold dropSign
  split <;> simp

theorem length_dropExponent? {gs rest : List Glyph} (h : dropExponent? gs = some rest) :
    rest.length ≤ gs.length := by
  unfold dropExponent? at h
  split at h
  · rename_i gs
    have := length_dropDigits? h
    have := length_dropSign gs
    simp only [List.length_cons]
    omega
  · rename_i gs
    have := length_dropDigits? h
    have := length_dropSign gs
    simp only [List.length_cons]
    omega
  · cases h; exact Nat.le_refl _

theorem length_dropNumber? {gs rest : List Glyph} (h : dropNumber? gs = some rest) :
    rest.length < gs.length := by
  obtain ⟨fraction, hf, he⟩ := Option.bind_eq_some_iff.1 h
  obtain ⟨whole, hw, hf⟩ := Option.bind_eq_some_iff.1 hf
  have := length_dropWhole? hw
  have := length_dropFraction? hf
  have := length_dropExponent? he
  omega

/-- A token uses up at least its first character. -/
theorem length_read? {c : Char} {gs rest : List Glyph} {token : Token}
    (h : read? c gs = some (token, rest)) : rest.length ≤ gs.length := by
  unfold read? at h
  split at h
  case h_1 | h_2 | h_3 | h_4 | h_5 | h_6 => cases h; exact Nat.le_refl _
  case h_7 =>
      obtain ⟨⟨value, rest'⟩, hr, h⟩ := Option.map_eq_some_iff.1 h
      cases h
      exact Nat.le_of_lt (length_readLiteral hr)
  case h_8 | h_9 | h_10 =>
      obtain ⟨rest', hr, h⟩ := Option.map_eq_some_iff.1 h
      cases h
      exact length_dropWord? hr
  case h_11 =>
      obtain ⟨rest', hr, h⟩ := Option.map_eq_some_iff.1 h
      cases h
      exact Nat.le_of_lt (length_dropNumber? hr)
  case h_12 =>
      obtain ⟨rest', hr, h⟩ := Option.map_eq_some_iff.1 h
      cases h
      exact Nat.le_of_lt_succ (length_dropNumber? hr)

def scan : List Glyph → Option (List Token)
  | [] => some []
  | none :: _ => none
  | some c :: gs =>
      if isBlank c then scan gs
      else
        match _h : read? c gs with
        | none => none
        | some (token, rest) => (scan rest).map (token :: ·)
termination_by gs => gs.length
decreasing_by
  · simp
  · exact Nat.lt_succ_of_le (length_read? _h)

end Token

end Agenda.Json
