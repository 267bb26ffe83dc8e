import Agenda.Proofs.Api.Form
import Agenda.Proofs.Api.Status
import Mathlib.Data.List.TakeWhile

/-!
Requests as clients write them. Names and dates stand in the query, tasks are sent in their written
form. Of each of these requests it is known which operation answers it, and on what.
-/

namespace Agenda.Api

namespace Route

def path : Route → String
  | .nextDate => "/api/nextdate"
  | .task => "/api/task"
  | .tasks => "/api/tasks"
  | .done => "/api/task/done"

theorem ofPath?_path (route : Route) : ofPath? route.path = some route := by
  cases route <;> rfl

theorem exists_path_eq (route : Route) : ∃ cs, route.path.toList = '/' :: cs := by
  cases route <;> exact ⟨_, rfl⟩

theorem not_mem_path {c : Char} (h : c = '#' ∨ c = '?') (route : Route) :
    c ∉ route.path.toList := by
  obtain rfl | rfl := h <;> cases route <;> decide

end Route

namespace Request

/-- The body is said to be JSON and is not too large; it is a text that reads as the task. -/
structure Carries (r : Request) (t : Task) : Prop where
  kind : r.contentType.any MediaType.isJson = true
  size : r.body.length ≤ maxBody
  read : ∃ cs, Utf8.decode? r.body = some cs ∧ Task.ofJson? cs = some t

/-- The query gives a date and a rule, and perhaps a day to count from. -/
def Dates (r : Request) (now : Option String) (date rule : String) : Prop :=
  ∃ date' rule' : Option String,
    values (Form.fields r.query) ["now", "date", "repeat"] = .ok [now, date', rule'] ∧
      date'.getD "" = date ∧ rule'.getD "" = rule

/-- A request with these fields in its query. -/
def asking (method : Method) (route : Route) (fields : List (String × String)) : Request :=
  { method, target := route.path ++ "?" ++ Form.write fields }

/-- A request with this task in its body. -/
def sending (method : Method) (t : Task) : Request :=
  { method, target := Route.path .task, contentType := some "application/json",
    body := Utf8.encode t.json }

end Request

/-! Targets. -/

section Targets

variable {r : Request}

theorem takeWhile_ne_eq_self {c : Char} {cs : List Char} (h : c ∉ cs) :
    cs.takeWhile (· ≠ c) = cs := by
  rw [List.takeWhile_eq_self_iff]
  intro d hd
  rw [decide_eq_true_eq]
  rintro rfl
  exact h hd

theorem resource_of_target {route : Route} {rest : List Char}
    (h : r.target.toList = route.path.toList ++ rest) (hrest : '#' ∉ rest) :
    r.resource = route.path.toList ++ rest := by
  obtain ⟨cs, hpath⟩ := route.exists_path_eq
  have hbehind : Request.behindHost ('/' :: cs ++ rest) = '/' :: cs ++ rest := by
    rw [Request.behindHost, List.cons_append, List.dropWhile_cons_of_neg (by decide)]
    rfl
  rw [Request.resource, h, hpath, hbehind, ← hpath, takeWhile_ne_eq_self]
  rw [List.mem_append]
  rintro (hc | hc)
  · exact Route.not_mem_path (.inl rfl) route hc
  · exact hrest hc

theorem path_of_target {route : Route} {rest : List Char}
    (h : r.target.toList = route.path.toList ++ rest) (hrest : '#' ∉ rest)
    (hmark : rest.takeWhile (· ≠ '?') = []) : r.path = route.path := by
  have hpath := Route.not_mem_path (.inr rfl) route
  rw [Request.path, resource_of_target h hrest, List.takeWhile_append, takeWhile_ne_eq_self hpath,
    if_pos rfl, hmark, List.append_nil, String.ofList_toList]

theorem query_of_target {route : Route} {query : List Char}
    (h : r.target.toList = route.path.toList ++ '?' :: query) (hquery : '#' ∉ query) :
    r.query = String.ofList query := by
  have hrest : '#' ∉ '?' :: query := List.not_mem_cons_of_ne_of_not_mem (by decide) hquery
  rw [Request.query, resource_of_target h hrest,
    Lines.splitFirst?_append (Route.not_mem_path (.inr rfl) route)]
  rfl

theorem target_asking (method : Method) (route : Route) (fields : List (String × String)) :
    (Request.asking method route fields).target.toList =
      route.path.toList ++ '?' :: (Form.write fields).toList := by
  simp only [Request.asking, String.toList_append, List.append_assoc]
  rfl

theorem not_mem_write (fields : List (String × String)) : '#' ∉ (Form.write fields).toList :=
  Form.not_mem_write (by decide) (by decide) (by decide) fields

theorem query_asking (method : Method) (route : Route) (fields : List (String × String)) :
    (Request.asking method route fields).query = Form.write fields := by
  rw [query_of_target (target_asking method route fields) (not_mem_write fields),
    String.ofList_toList]

theorem asks_asking (method : Method) (route : Route) (fields : List (String × String)) :
    (Request.asking method route fields).Asks route [method] := by
  have hrest : '#' ∉ '?' :: (Form.write fields).toList :=
    List.not_mem_cons_of_ne_of_not_mem (by decide) (not_mem_write fields)
  have hpath := path_of_target (target_asking method route fields) hrest rfl
  exact ⟨by rw [hpath, Route.ofPath?_path], List.mem_singleton_self method⟩

theorem gives_asking (method : Method) (route : Route) (id : String) :
    (Request.asking method route [("id", id)]).Gives id := by
  refine ⟨some id, ?_, rfl⟩
  rw [query_asking, Form.fields_write]
  rfl

theorem dates_asking (now date rule : String) :
    (Request.asking .get .nextDate [("now", now), ("date", date), ("repeat", rule)]).Dates
      (some now) date rule := by
  refine ⟨some date, some rule, ?_, rfl, rfl⟩
  rw [query_asking, Form.fields_write]
  rfl

theorem asks_sending (method : Method) (t : Task) :
    (Request.sending method t).Asks .task [method] := by
  have hpath : (Request.sending method t).path = Route.path .task :=
    path_of_target (List.append_nil _).symm List.not_mem_nil rfl
  exact ⟨by rw [hpath, Route.ofPath?_path], List.mem_singleton_self method⟩

end Targets

/-! Bodies. -/

section Bodies

variable {r : Request} {t : Task}

theorem payload_of_carries (h : r.Carries t) : payload r = .ok t := by
  obtain ⟨cs, hdecode, hread⟩ := h.read
  rw [payload, if_pos ⟨h.kind, h.size⟩, ← Utf8.map_some_of_decode? hdecode, ← Task.ofJson?, hread]

theorem carries_sending {method : Method} (h : (Utf8.encode t.json).length ≤ maxBody) :
    (Request.sending method t).Carries t := by
  have hkind : (some "application/json").any MediaType.isJson = true := by decide +kernel
  exact ⟨hkind, h, t.json, Utf8.decode?_encode _, t.ofJson?_json⟩

/-- Nothing else is read from a written task, whatever is said about the body. -/
theorem eq_of_payload {u : Task} (hbody : r.body = Utf8.encode t.json) (hp : payload r = .ok u) :
    u = t := by
  rw [payload, hbody, Utf8.decode_encode, ← Task.ofJson?, t.ofJson?_json] at hp
  split at hp <;> cases hp
  rfl

end Bodies

/-! Answers. -/

section Answers

variable {r : Request} {id : String} (context : Context) (d : Directory)

theorem answer_of_asks {route : Route} {method : Method} (h : r.Asks route [method])
    (hmethod : method ∈ route.methods) (hhead : method ≠ .head) :
    answer context r d = handle context r route d := by
  obtain rfl := List.mem_singleton.1 h.2
  rw [answer, h.1]
  simp only [List.contains_iff_mem.2 hmethod, if_true, if_neg hhead]

theorem answer_get (h : r.Asks .task [.get]) (hgives : r.Gives id) :
    id = "" ∧ answer context r d = (some (failure 400 "task id is required"), d) ∨
      id ≠ "" ∧ answer context r d =
        respond (fun t => json 200 t.json) (Tasks.get id d) := by
  rw [answer_of_asks context d h (by decide) (by decide),
    handle_get context d (.inl (List.mem_singleton.1 h.2))]
  obtain ⟨hid, heq⟩ | ⟨hid, heq⟩ := identifier_of_gives hgives
  · exact .inl ⟨hid, by rw [heq, withPart]⟩
  · exact .inr ⟨hid, by rw [heq, withPart]⟩

end Answers

end Agenda.Api
