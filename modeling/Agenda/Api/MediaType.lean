/-!
Media types, as a content type header gives them: a type, a subtype and parameters. The question is
only whether a body is said to be JSON; a header that breaks the grammar says nothing.
-/

namespace Agenda.MediaType

def isToken (c : Char) : Bool :=
  c.isAlphanum || ['!', '#', '$', '%', '&', '\'', '*', '+', '-', '.', '^', '_', '\x60', '|',
    '~'].contains c

def isQuotable (c : Char) : Bool := 0x20 ≤ c.toNat && c.toNat < 0x7F

/-- Where a reader of parameters stands. -/
inductive Position where
  /-- In front of a parameter. -/
  | start
  | name
  /-- Behind the equals sign. -/
  | value
  | word
  /-- Behind the opening quote. -/
  | quote
  | quoted
  /-- Behind the closing quote. -/
  | closed
  deriving DecidableEq

def advance? (position : Position) (c : Char) : Option Position :=
  match position with
  | .start => if c = ' ' then some .start else if isToken c then some .name else none
  | .name => if c = '=' then some .value else if isToken c then some .name else none
  | .value => if c = '"' then some .quote else if isToken c then some .word else none
  | .word => if c = ';' then some .start else if isToken c then some .word else none
  | .quote => if isQuotable c then some .quoted else none
  | .quoted => if c = '"' then some .closed else if isQuotable c then some .quoted else none
  | .closed => if c = ';' then some .start else if c = ' ' then some .closed else none

def mayEnd (position : Position) : Bool :=
  position = .start || position = .value || position = .word || position = .closed

def areParameters (cs : List Char) : Bool :=
  (cs.foldlM advance? Position.start).any mayEnd

/-- The part before the last plus sign and the part after it; a plus sign at the start parts
nothing. -/
def splitSuffix (subtype : List Char) : List Char × Option (List Char) :=
  let suffix := (subtype.reverse.takeWhile (· ≠ '+')).reverse
  let stem := (subtype.reverse.drop (suffix.length + 1)).reverse
  if suffix.length = subtype.length ∨ stem = [] then (subtype, none) else (stem, some suffix)

def isJsonSubtype (subtype : List Char) : Bool :=
  let (stem, suffix) := splitSuffix subtype
  stem = ['j', 's', 'o', 'n'] || suffix = some ['j', 's', 'o', 'n']

/-- The header names JSON, or a type that is written in JSON. -/
def isJson (header : String) : Bool :=
  let cs := header.toList.map Char.toLower
  let kind := cs.takeWhile isToken
  let rest := cs.drop kind.length
  let subtype := (rest.drop 1).takeWhile isToken
  let parameters := (rest.drop 1).drop subtype.length
  String.ofList kind = "application" && rest.head? = some '/' && isJsonSubtype subtype &&
    (parameters.isEmpty || (parameters.head? = some ';' && areParameters (parameters.drop 1)))

end Agenda.MediaType
