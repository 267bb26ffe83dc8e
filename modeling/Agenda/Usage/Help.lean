import Agenda.Usage.Option

/-!
What is said about the command line: how each command is used, and what is wrong with arguments.
-/

namespace Agenda.Usage

def Key.usage (key : Key) : String :=
  "--" ++ key.name ++ " " ++ String.ofList (key.name.toList.map Char.toUpper)

def Verb.subjectName (verb : Verb) : String := if verb = .add then "TITLE" else "ID"

/-- The command with all that can stand behind it; what is between brackets can be left out. -/
def Verb.usage (verb : Verb) : String :=
  let required := Key.required verb
  " ".intercalate
    (verb.name :: (if verb.takesSubject then [verb.subjectName] else []) ++
      required.map Key.usage ++
      ((Key.ofVerb verb).filter fun key => !required.contains key).map fun key =>
        "[" ++ key.usage ++ "]")

/-- The options that can stand everywhere, and all commands. -/
def summary : String :=
  let flags := Flag.all.map fun flag => "--" ++ flag.name
  "options: " ++ ", ".intercalate (flags ++ Key.global.map Key.usage) ++ "\ncommands:\n" ++
    String.join (Verb.all.map fun verb => "  " ++ verb.usage ++ "\n")

def Problem.message : Problem → String
  | .help => summary
  | .version => "agenda 0.1.0\n"
  | .empty | .missingVerb => "a command is needed\n" ++ summary
  | .unknownVerb => "there is no such command\n" ++ summary
  | .missingArgument => "something the command needs is missing\n" ++ summary
  | .unknownArgument => "an argument is not known here\n" ++ summary
  | .missingValue => "an option has no value\n" ++ summary
  | .wrongValue => "an option has a value that it does not take\n" ++ summary
  | .surplusValue => "an option takes no value\n" ++ summary
  | .repeated => "an option is given twice\n" ++ summary

end Agenda.Usage
