import Agenda.Api.Form
import Agenda.Api.MediaType
import Agenda.Api.Message
import Agenda.Tasks.Operation
import Agenda.Task.Written

/-!
Answers to requests. Each route has its methods; what it does is one operation on tasks, and the
status of the answer tells how that went. Today is not known if the clock cannot be read. Operations
on tasks are carried out aside, so a sudden end of one is answered for, while one of the handling
itself leaves the request without an answer. That the former poisons the store for later requests is
not told here, where each request stands alone.
-/

namespace Agenda.Api

open Json (literal)

inductive Route where
  | nextDate
  | task
  | tasks
  | done
  deriving DecidableEq, Repr

namespace Route

def ofPath? : String → Option Route
  | "/api/nextdate" => some .nextDate
  | "/api/task" => some .task
  | "/api/tasks" => some .tasks
  | "/api/task/done" => some .done
  | _ => none

def methods : Route → List Method
  | .nextDate | .tasks => [.get, .head]
  | .task => [.delete, .get, .head, .post, .put]
  | .done => [.post]

end Route

structure Context where
  limit : Nat
  today : Option Date

/-- A response, if one is sent, and the directory afterwards. -/
abbrev Reaction := Option Response × Directory

def Reaction.status? (reaction : Reaction) : Option Nat := reaction.1.map Response.status

def json (status : Nat) (body : List Char) : Response :=
  { status, contentType := some "application/json", body := String.ofList body }

def plain (status : Nat) (body : String) : Response :=
  { status, contentType := some "text/plain; charset=utf-8", body }

def record (key : String) (value : List Char) : List Char :=
  '\x7b' :: literal key ++ ':' :: value ++ ['\x7d']

def failure (status : Nat) (message : String) : Response :=
  json status (record "error" (literal message))

def done : Response := json 200 ['\x7b', '\x7d']

def internal : Response := failure 500 "internal server error"

/-- The answer where an operation on tasks fails. -/
def refusal : Tasks.Error → Response
  | .refused fault => failure 400 fault.message
  | .store (.notFound _) => failure 404 "task not found"
  | .store _ => internal
  | .recurrence _ _ => failure 500 "failed to compute next date"

def respond (answer : α → Response) (outcome : Store.Outcome Tasks.Error α) : Reaction :=
  (match outcome.1 with
    | .ok value => some (answer value)
    | .error e => some (refusal e), outcome.2)

/-- The query gives a field twice. -/
def repeatedField (name : String) : Response :=
  plain 400 ("Failed to deserialize query string: duplicate field `" ++ name ++ "`")

/-- The values of the fields with these names, each of which may be given once. -/
def values (fields : List (String × String)) : List String → Except Response (List (Option String))
  | [] => .ok []
  | name :: names =>
      match Form.get? fields name with
      | none => .error (repeatedField name)
      | some value => (values fields names).map (value :: ·)

def identifier (r : Request) : Except Response String :=
  match values (Form.fields r.query) ["id"] with
  | .error response => .error response
  | .ok [some id] => if id = "" then .error (failure 400 "task id is required") else .ok id
  | .ok _ => .error (failure 400 "task id is required")

def maxBody : Nat := 2 * 1024 * 1024

def payload (r : Request) : Except Response Task :=
  if r.contentType.any MediaType.isJson ∧ r.body.length ≤ maxBody then
    match Task.ofGlyphs? (Utf8.decode r.body) with
    | some t => .ok t
    | none => .error (failure 400 "invalid JSON")
  else .error (failure 400 "invalid JSON")

/-- The day from which the next date is asked for: the given one, or today. Where today cannot be
told, the handling comes to a sudden end. -/
def reference (today : Option Date) : Option String → Except (Option Response) Date
  | none | some "" =>
      match today with
      | some day => .ok day
      | none => .error none
  | some text =>
      match Date.ofCompact? text with
      | some day => .ok day
      | none => .error (some (plain 400 "invalid now format"))

/-- The next date, or why there is none. -/
def dateAfter (now : Date) (date rule : String) : Response :=
  match Repeat.nextDate now date rule with
  | .ok next => { status := 200, contentType := some "text/plain", body := next }
  | .error e => plain 400 e.message

def nextDate (context : Context) (r : Request) : Option Response :=
  match values (Form.fields r.query) ["now", "date", "repeat"] with
  | .error response => some response
  | .ok [now, date, rule] =>
      match reference context.today now with
      | .error response => response
      | .ok now => some (dateAfter now (date.getD "") (rule.getD ""))
  | .ok _ => some internal

/-- The members of a task in a list, in the order of their keys. -/
def listed (t : Task) : List Char := Task.recordOf [.comment, .date, .id, .rule, .title] t

def ofTasks (tasks : List Task) : Response :=
  json 200 (record "tasks" ('[' :: [','].intercalate (tasks.map listed) ++ [']']))

/-- Goes on with a part of the request, or answers that it is wrong. -/
def withPart (part : Except Response α) (d : Directory) (go : α → Directory → Reaction) :
    Reaction :=
  match part with
  | .error response => (some response, d)
  | .ok value => go value d

def withToday (context : Context) (d : Directory) (go : Date → Directory → Reaction) : Reaction :=
  match context.today with
  | some today => go today d
  | none => (some internal, d)

def handle (context : Context) (r : Request) (route : Route) (d : Directory) : Reaction :=
  match route, r.method with
  | .nextDate, _ => (nextDate context r, d)
  | .tasks, _ => respond ofTasks (Tasks.list context.limit d)
  | .done, _ =>
      withPart (identifier r) d fun id d =>
        withToday context d fun today d => respond (fun _ => done) (Tasks.complete id today d)
  | .task, .post =>
      withPart (payload r) d fun t d =>
        withToday context d fun today d =>
          respond (fun id => json 200 (record "id" (literal id))) (Tasks.add today t d)
  | .task, .put =>
      withPart (payload r) d fun t d =>
        withToday context d fun today d => respond (fun _ => done) (Tasks.update today t d)
  | .task, .delete =>
      withPart (identifier r) d fun id d => respond (fun _ => done) (Tasks.delete id d)
  | .task, _ =>
      withPart (identifier r) d fun id d =>
        respond (fun t => json 200 t.json) (Tasks.get id d)

/-- A response to HEAD has no body. -/
def Response.withoutBody (response : Response) : Response := { response with body := "" }

def answer (context : Context) (r : Request) (d : Directory) : Reaction :=
  match Route.ofPath? r.path with
  | none => (some { status := 404 }, d)
  | some route =>
      if route.methods.contains r.method then
        let (response, d) := handle context r route d
        (if r.method = .head then response.map Response.withoutBody else response, d)
      else (some { status := 405, allow := some route.methods }, d)

end Agenda.Api
