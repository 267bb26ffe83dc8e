import Agenda.Text.Emoji
import Agenda.Text.Invisible
import Agenda.Text.Wide

/-!
Display width: the number of columns that a text takes on a terminal. The text is measured from its
end, since what stands behind a character decides how it is shown: selectors, joiners, the second
letter of a ligature or of a flag.
-/

namespace Agenda.Width

/-- What the text behind a place starts with, as far as that changes the characters before it. -/
inductive Shape where
  | other
  | lineFeed
  /-- An emoji, or a sequence that is shown as one. -/
  | emoji
  | tone
  /-- The last letter of a flag, or several of them. -/
  | region
  | regions
  /-- An emoji with a joiner before it, and what can stand before that. -/
  | joined
  | joinedKeycap
  | joinedRegion
  | joinedRegionsEven
  | joinedRegionsOdd
  /-- Tags behind the base of a flag: their end, and so many letters or digits. -/
  | tagEnd
  | tagLetters (count : Nat)
  | tagDigits (count : Nat)
  | wideQuoteMark
  | alef
  | lamed
  | joinedLamed
  | khmer
  | ya
  | joinedYa
  | vowelYa
  | tifinagh
  | joinedTifinagh
  | tifinaghPair
  | lisuTone
  | orkhonI
  | joinedOrkhonI
  | kiratE
  | kiratAi
  deriving DecidableEq, Repr

inductive Form where
  | free
  | color
  | plain
  deriving DecidableEq, Repr

structure Ahead where
  shape : Shape
  form : Form
  deriving DecidableEq, Repr

/-- Nothing behind changes anything. -/
def Ahead.none : Ahead := ⟨.other, .free⟩

def of (shape : Shape) : Ahead := ⟨shape, .free⟩

namespace Shape

/-- A letter that waits for another one across characters that stand inside of a ligature. -/
def isLigature : Shape → Bool
  | .lamed | .joinedLamed | .khmer | .ya | .joinedYa | .vowelYa | .tifinagh | .joinedTifinagh
  | .tifinaghPair | .lisuTone | .orkhonI | .joinedOrkhonI => true
  | _ => false

/-- The shape with a joiner before it. -/
def join : Shape → Shape
  | .lamed => .joinedLamed
  | .ya => .joinedYa
  | .tifinagh => .joinedTifinagh
  | .orkhonI => .joinedOrkhonI
  | shape => shape

def isJoinedEmoji (shape : Shape) : Bool := shape == .joined || shape == .joinedKeycap

end Shape

def within (first last : Nat) (c : Char) : Bool := first ≤ c.toNat && c.toNat ≤ last

def isLam (c : Char) : Bool :=
  c.toNat == 0x644 || within 0x6B5 0x6B8 c || c.toNat == 0x76A || c.toNat == 0x8A6 ||
    c.toNat == 0x8C7

def isAlef (c : Char) : Bool :=
  within 0x622 0x623 c || c.toNat == 0x625 || c.toNat == 0x627 || within 0x671 0x673 c ||
    c.toNat == 0x675 || within 0x773 0x774 c || within 0x870 0x882 c

def isTifinagh (c : Char) : Bool := within 0x2D31 0x2D65 c || c.toNat == 0x2D6F

/-- The columns of a character on its own, and its shape for what stands before it. -/
def alone (c : Char) : Nat × Ahead :=
  let n := c.toNat
  if Invisible.isInvisible c then (0, if n == 0xFE01 then of .wideQuoteMark else .none)
  else if n == 0x17D8 then (3, .none)
  else if Emoji.isTone c then (2, of .tone)
  else if Emoji.isColor c then (2, of .emoji)
  else if Wide.isWide c then (2, .none)
  else if Emoji.isRegion c then (1, of .region)
  else if isAlef c then (1, of .alef)
  else if n == 0x5DC then (1, of .lamed)
  else if within 0x1780 0x17AF c then (1, of .khmer)
  else if n == 0x1A10 then (1, of .ya)
  else if isTifinagh c then (1, of .tifinagh)
  else if within 0xA4FC 0xA4FD c then (1, of .lisuTone)
  else if n == 0x10C03 then (1, of .orkhonI)
  else if n == 0x16D67 then (1, of .kiratE)
  else if n == 0x16D68 then (1, of .kiratAi)
  else (1, .none)

/-- The columns that a character adds before an emoji with a joiner. -/
def beforeJoined (c : Char) : Option (Int × Ahead) :=
  if c.toNat == 0x20E3 then some (0, of .joinedKeycap)
  else if Emoji.isRegion c then some (1, of .joinedRegion)
  else if Emoji.isTone c then some (0, of .tone)
  else if c.toNat == 0xE007F then some (0, of .tagEnd)
  else if (alone c).2 = of .emoji then some (0, of .emoji)
  else none

/-- The base of a flag with tags ends them, if there are enough. -/
def beforeTags (c : Char) (letters digits : Nat) : Option (Int × Ahead) :=
  if Emoji.isTagLetter c && digits == 0 && letters < 6 then some (0, of (.tagLetters (letters + 1)))
  else if Emoji.isTagDigit c && digits == 0 && letters < 5 then some (0, of (.tagDigits 1))
  else if Emoji.isTagDigit c && 0 < digits && digits < 3 then
    some (0, of (.tagDigits (digits + 1)))
  else if c.toNat == 0x1F3F4 && (3 ≤ letters || digits == 3) then some (0, of .emoji)
  else none

/-- The columns that a character adds where the shape behind it changes them. -/
def combined? (c : Char) (shape : Shape) : Option (Int × Ahead) :=
  let n := c.toNat
  let joiner := n == 0x200D
  match shape with
  | .wideQuoteMark =>
      if n == 0x2018 || n == 0x2019 || n == 0x201C || n == 0x201D then some (2, .none) else none
  | .alef =>
      if isLam c then some (0, .none)
      else if Invisible.isTransparent c then some (0, of .alef)
      else none
  | .joinedLamed => if n == 0x5D0 then some (0, .none) else none
  | .khmer => if n == 0x17D2 then some (-1, .none) else none
  | .joinedYa => if n == 0x1A17 then some (0, of .vowelYa) else none
  | .vowelYa => if n == 0x1A15 then some (0, .none) else none
  | .tifinagh => if n == 0x2D7F then some (1, of .tifinaghPair) else none
  | .joinedTifinagh =>
      if n == 0x2D7F then some (1, of .tifinaghPair)
      else if isTifinagh c then some (0, .none)
      else none
  | .tifinaghPair => if isTifinagh c then some (-1, .none) else none
  | .lisuTone => if within 0xA4F8 0xA4FB c then some (0, .none) else none
  | .joinedOrkhonI => if n == 0x10C32 then some (0, .none) else none
  | .kiratE =>
      if n == 0x16D63 || n == 0x16D69 then some (0, .none)
      else if n == 0x16D67 then some (0, of .kiratAi)
      else if n == 0x16D68 then some (1, of .kiratE)
      else none
  | .kiratAi => if n == 0x16D63 then some (0, .none) else none
  | .tone =>
      if joiner then some (0, of .joined)
      else if Emoji.takesTone c then some (0, of .emoji)
      else none
  | .emoji => if joiner then some (0, of .joined) else none
  | .region => if Emoji.isRegion c then some (1, of .regions) else none
  | .regions =>
      if Emoji.isRegion c then some (1, of .regions)
      else if joiner then some (0, of .joined)
      else none
  | .joinedRegion =>
      if Emoji.isRegion c then some (-1, of .joinedRegionsEven) else none
  | .joinedRegionsOdd =>
      if Emoji.isRegion c then some (-1, of .joinedRegionsEven)
      else if joiner then some (0, of .joined)
      else none
  | .joinedRegionsEven =>
      if Emoji.isRegion c then some (3, of .joinedRegionsOdd)
      else if joiner then some (0, of .joined)
      else none
  | .joined => beforeJoined c
  | .tagEnd => beforeTags c 0 0
  | .tagLetters count => beforeTags c count 0
  | .tagDigits count => beforeTags c 0 count
  | .other | .lineFeed | .joinedKeycap | .lamed | .ya | .orkhonI => none

/-- A selector in front of the shape. -/
def select (form : Form) (shape : Shape) : Ahead :=
  if shape.isLigature || (form == .color && shape.isJoinedEmoji) then ⟨shape, form⟩
  else ⟨.other, form⟩

/-- The columns of a character behind which no form is asked for. -/
def addFree (c : Char) (shape : Shape) : Int × Ahead :=
  if c.toNat ≤ 0xA0 then
    if c = '\n' then (1, of .lineFeed)
    else if c = '\r' ∧ shape = .lineFeed then (0, .none)
    else (1, .none)
  else if c.toNat == 0xFE0F then (0, select .color shape)
  else if c.toNat == 0xFE0E then (0, select .plain shape)
  else if shape.isLigature && c.toNat == 0x200D then (0, of shape.join)
  else if shape.isLigature && Invisible.isInsideLigature c then (0, of shape)
  else
    match combined? c shape with
    | some r => r
    | none => ((alone c).1, (alone c).2)

/-- The columns that a character adds to what stands behind it. -/
def add (c : Char) (ahead : Ahead) : Int × Ahead :=
  match ahead.form with
  | .free => addFree c ahead.shape
  | .color =>
      if Emoji.hasColorForm c then (if ahead.shape.isJoinedEmoji then 0 else 2, of .emoji)
      else addFree c ahead.shape
  | .plain =>
      if Emoji.hasPlainForm c then (1, .none) else addFree c ahead.shape

def measure (cs : List Char) : Int × Ahead :=
  cs.foldr (fun c (columns, ahead) =>
    let added := add c ahead
    (added.1 + columns, added.2)) (0, .none)

def width (cs : List Char) : Nat := (measure cs).1.toNat

end Agenda.Width
