import Agenda.Usage.Option

/-!
Reading arguments. They go from left to right, first those in front of the command and then those
behind it. The value of a key is looked at when the next option or word is met or the arguments
end; in front of the command, only after what stands behind it. An option that is not known is told
before a value that is still to be looked at.
-/

namespace Agenda.Usage

/-- What was given so far on one side of the command. -/
structure Given where
  verbose : Option Nat := none
  quiet : Option Nat := none
  values : List (Key × String) := []
  subject : Option String := none
  /-- The key that was given last, and its value as soon as it has one. -/
  pending : Option (Key × Option String) := none

namespace Given

def all (g : Given) (key : Key) : List String :=
  g.values.filterMap fun (k, value) => if k = key then some value else none

def get? (g : Given) (key : Key) : Option String := (g.all key).head?

/-- Adds a value that fits its key. -/
def put (g : Given) (key : Key) (value : String) : Except Problem Given :=
  if !key.mayRepeat && (g.get? key).isSome then .error .repeated
  else
    match key.problem? value with
    | some problem => .error problem
    | none => .ok { g with values := g.values ++ [(key, value)] }

/-- Looks at the value that is still to be looked at. -/
def settle (g : Given) : Except Problem Given :=
  match g.pending with
  | none => .ok g
  | some (_, none) => .error .missingValue
  | some (key, some value) => { g with pending := none }.put key value

def waiting? (g : Given) : Option Key :=
  match g.pending with
  | some (key, none) => some key
  | _ => none

/-- Flags are counted up to 255. -/
def count (n : Option Nat) : Option Nat := some (min 255 (n.getD 0 + 1))

def raise (g : Given) : Flag → Except Problem Given
  | .verbose => .ok { g with verbose := count g.verbose }
  | .quiet => .ok { g with quiet := count g.quiet }
  | .help => .error .help
  | .version => .error .version

def isEmpty (g : Given) : Bool := g.verbose.isNone && g.quiet.isNone && g.values.isEmpty

end Given

inductive Argument where
  /-- Only words follow. -/
  | wordsFollow
  | long (name : String) (value : Option String)
  | letters (letters : List Char)
  | word

def Argument.ofText (text : String) : Argument :=
  match text.toList with
  | ['-', '-'] => .wordsFollow
  | '-' :: '-' :: cs =>
      match Lines.splitFirst? '=' cs with
      | some (name, value) => .long (String.ofList name) (some (String.ofList value))
      | none => .long (String.ofList cs) none
  | '-' :: c :: cs => .letters (c :: cs)
  | _ => .word

/-- An option with its full name, and the value attached to it. -/
def readLong (verb : Option Verb) (g : Given) (name : String) (value : Option String) :
    Except Problem Given :=
  match Key.ofName? verb name, Flag.ofName? verb name, value with
  | some key, _, some value => do (← g.settle).put key value
  | some key, _, none => do return { ← g.settle with pending := some (key, none) }
  | none, some _, some _ => .error .surplusValue
  | none, some flag, none => do (← g.settle).raise flag
  | none, none, _ => .error .unknownArgument

def readLetters (verb : Option Verb) (g : Given) : List Char → Except Problem Given
  | [] => .ok g
  | c :: cs =>
      match Flag.ofLetter? verb c with
      | none => .error .unknownArgument
      | some flag => do
          let g ← (← g.settle).raise flag
          readLetters verb g cs

/-- A word that is neither a command nor the value of a key. -/
def readWord (verb : Option Verb) (trailing : Bool) (g : Given) (word : String) :
    Except Problem Given :=
  match verb with
  | none =>
      if trailing && (Verb.ofName? word).isSome then .error .unknownArgument
      else .error .unknownVerb
  | some verb =>
      if verb.takesSubject && g.subject.isNone then do
        return { ← g.settle with subject := some word }
      else .error .unknownArgument

/-- Reads the arguments on one side of the command. In front of it, the command and what stands
behind it are left over. -/
def readOn (verb : Option Verb) (trailing : Bool) (g : Given) :
    List String → Except Problem (Given × Option (Verb × List String))
  | [] => .ok (g, none)
  | text :: rest =>
      if trailing then do readOn verb true (← readWord verb true g text) rest
      else
        match verb, g.waiting?, Verb.ofName? text with
        | none, none, some verb => .ok (g, some (verb, rest))
        | verb, waiting, _ =>
            match Argument.ofText text, waiting with
            | .wordsFollow, _ => readOn verb true g rest
            | .long name value, _ => do readOn verb false (← readLong verb g name value) rest
            | .letters letters, _ => do readOn verb false (← readLetters verb g letters) rest
            | .word, some key =>
                readOn verb false { g with pending := some (key, some text) } rest
            | .word, none => do readOn verb false (← readWord verb false g text) rest

/-- What stands behind a command, which has to be all that the command needs. -/
def readBehind (verb : Verb) (arguments : List String) : Except Problem Given := do
  let (g, _) ← readOn (some verb) false {} arguments
  let g ← g.settle
  if (verb.takesSubject && g.subject.isNone) ||
      (Key.required verb).any fun key => (g.get? key).isNone then throw .missingArgument
  return g

/-- The command with what was given behind it. -/
def Verb.command (verb : Verb) (g : Given) : Command :=
  let subject := g.subject.getD ""
  let fields : Fields :=
    { date := g.get? .date, comment := g.get? .comment, rule := g.get? .rule }
  match verb with
  | .nextDate => .nextDate ((g.get? .date).getD "") ((g.get? .rule).getD "") (g.get? .now)
  | .add => .add subject fields
  | .list => .list ((g.get? .limit).bind Key.limit?)
  | .info => .info subject
  | .modify => .modify subject (g.get? .title) fields
  | .done => .done subject
  | .delete => .delete subject
  | .serve => .serve ((g.get? .port).bind Key.port?)
  | .show => .show

/-- What is given behind the command counts before what is given in front of it. -/
def Invocation.of (verb : Verb) (front behind : Given) : Invocation :=
  let overrides := behind.all .override
  { verbose := (behind.verbose.or front.verbose).getD 0
    quiet := (behind.quiet.or front.quiet).getD 0
    overrides := (if overrides.isEmpty then front.all .override else overrides).filterMap
      fun value => Assignment.ofText? value.toList
    rcFile := (behind.get? .rcFile).or (front.get? .rcFile)
    data := (behind.get? .data).or (front.get? .data)
    command := verb.command behind }

def read (arguments : List String) : Except Problem Invocation := do
  match ← readOn none false {} arguments with
  | (front, some (verb, rest)) =>
      let behind ← readBehind verb rest
      let front ← front.settle
      return .of verb front behind
  | (front, none) =>
      let front ← front.settle
      throw (if front.isEmpty then .empty else .missingVerb)

end Agenda.Usage
