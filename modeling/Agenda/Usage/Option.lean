import Agenda.Text.Numeral
import Agenda.Usage.Command

/-!
Options: the flags, which stand alone, and the keys, which take a value. Some are known everywhere,
the others only behind the command they belong to.
-/

namespace Agenda.Usage

/-- Why arguments are no command. Help and the version are such causes too. -/
inductive Problem where
  | help
  | version
  /-- Nothing is said at all. -/
  | empty
  | missingVerb
  | unknownVerb
  | missingArgument
  | unknownArgument
  | missingValue
  /-- A value is not what its key takes. -/
  | wrongValue
  | surplusValue
  | repeated
  deriving DecidableEq, Repr

def Problem.exitCode : Problem → Nat
  | .help | .version => 0
  | _ => 2

inductive Flag where
  | verbose
  | quiet
  | help
  | version
  deriving DecidableEq, Repr

namespace Flag

def all : List Flag := [verbose, quiet, help, version]

def name : Flag → String
  | .verbose => "verbose"
  | .quiet => "quiet"
  | .help => "help"
  | .version => "version"

def letter : Flag → Char
  | .verbose => 'v'
  | .quiet => 'q'
  | .help => 'h'
  | .version => 'V'

/-- The version is asked for before any command only. -/
def isKnown (verb : Option Verb) (flag : Flag) : Bool := flag ≠ .version || verb.isNone

def ofName? (verb : Option Verb) (name : String) : Option Flag :=
  all.find? fun flag => flag.isKnown verb && flag.name = name

def ofLetter? (verb : Option Verb) (letter : Char) : Option Flag :=
  all.find? fun flag => flag.isKnown verb && flag.letter = letter

end Flag

inductive Key where
  | override
  | rcFile
  | data
  | date
  | rule
  | now
  | comment
  | title
  | limit
  | port
  deriving DecidableEq, Repr

namespace Key

def name : Key → String
  | .override => "rc"
  | .rcFile => "skedrc"
  | .data => "data"
  | .date => "date"
  | .rule => "repeat"
  | .now => "now"
  | .comment => "comment"
  | .title => "title"
  | .limit => "limit"
  | .port => "port"

/-- The keys that are known everywhere. -/
def global : List Key := [override, rcFile, data]

def ofVerb : Verb → List Key
  | .nextDate => [date, rule, now]
  | .add => [date, comment, rule]
  | .list => [limit]
  | .modify => [title, date, comment, rule]
  | .serve => [port]
  | .info | .done | .delete | .show => []

def required : Verb → List Key
  | .nextDate => [date, rule]
  | _ => []

def ofName? (verb : Option Verb) (name : String) : Option Key :=
  (global ++ (verb.map ofVerb).getD []).find? fun key => key.name = name

def mayRepeat (key : Key) : Bool := key = .override

def port? (value : String) : Option Nat :=
  match Numeral.integer Numeral.maxSigned64 value.toList with
  | .ok n => if 0 ≤ n ∧ n ≤ Numeral.max16 then some n.toNat else none
  | .error _ => none

def limit? (value : String) : Option Nat :=
  (Numeral.natural Numeral.max64 value.toList).toOption

/-- What is wrong with a value of the key. -/
def problem? (key : Key) (value : String) : Option Problem :=
  match key with
  | .override => if (Assignment.ofText? value.toList).isSome then none else some .wrongValue
  | .rcFile | .data => if value = "" then some .missingValue else none
  | .limit => if (limit? value).isSome then none else some .wrongValue
  | .port => if (port? value).isSome then none else some .wrongValue
  | .date | .rule | .now | .comment | .title => none

end Key

/-- The commands that are about one task, whose title or identifier follows. -/
def Verb.takesSubject : Verb → Bool
  | .add | .info | .modify | .done | .delete => true
  | .nextDate | .list | .serve | .show => false

end Agenda.Usage
