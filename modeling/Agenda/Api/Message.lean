import Agenda.Text.Lines

/-!
Requests to the API and its responses.
-/

namespace Agenda.Api

inductive Method where
  | get
  | head
  | post
  | put
  | delete
  /-- A method that no route takes. -/
  | other (name : String)
  deriving DecidableEq, Repr

def Method.ofText : String → Method
  | "GET" => .get
  | "HEAD" => .head
  | "POST" => .post
  | "PUT" => .put
  | "DELETE" => .delete
  | name => .other name

def Method.text : Method → String
  | .get => "GET"
  | .head => "HEAD"
  | .post => "POST"
  | .put => "PUT"
  | .delete => "DELETE"
  | .other name => name

structure Request where
  method : Method
  /-- What is asked for: a path, and behind a question mark a query. A scheme and a host can stand
  in front. -/
  target : String
  contentType : Option String := none
  body : List UInt8 := []

structure Response where
  status : Nat
  contentType : Option String := none
  body : String := ""
  /-- The methods that the route takes, where another one was used. -/
  allow : Option (List Method) := none
  deriving DecidableEq, Repr

namespace Request

def isScheme (c : Char) : Bool := c.isAlphanum || c = '+' || c = '-' || c = '.'

/-- What follows scheme and host, where a target names them. -/
def behindHost (target : List Char) : List Char :=
  match target.dropWhile isScheme with
  | ':' :: '/' :: '/' :: rest => rest.dropWhile fun c => c ≠ '/' && c ≠ '?' && c ≠ '#'
  | _ => target

/-- The target without host and fragment. -/
def resource (r : Request) : List Char := (behindHost r.target.toList).takeWhile (· ≠ '#')

def path (r : Request) : String := String.ofList (r.resource.takeWhile (· ≠ '?'))

/-- The query, empty if there is none. -/
def query (r : Request) : String :=
  String.ofList (((Lines.splitFirst? '?' r.resource).map Prod.snd).getD [])

end Request

end Agenda.Api
