import Agenda.Proofs.Api.Unchanged
import Agenda.Proofs.Tasks.Healthy

/-!
The statuses of a run of requests to the API. The store stays healthy along the run, so the status
tells what the request asked for and whether the task was there. Besides, an answer is internal
where today is needed and the clock cannot tell it, or where a number is needed and none is left.
There is none at all where a date after today is asked for and the clock cannot tell today.
-/

namespace Agenda.Api

open Store (Represents Full loadTasks)
open Tasks (Healthy Finds Readable DatesRead)

/-- A request and its answer, if it has one, with what the clock read and what was kept before. -/
structure Exchange where
  before : Directory
  reading : Date
  request : Request
  response : Option Response

def Exchange.status? (e : Exchange) : Option Nat := e.response.map Response.status

def exchanges (limit : Nat) : List (Date × Request) → Directory → List Exchange
  | [], _ => []
  | (reading, r) :: requests, d =>
      ⟨d, reading, r, (answer ⟨limit, Clock.today? reading⟩ r d).1⟩ ::
        exchanges limit requests (answer ⟨limit, Clock.today? reading⟩ r d).2

/-! What requests ask for. -/

namespace Request

/-- The request comes to this route by one of these methods. -/
def Asks (r : Request) (route : Route) (methods : List Method) : Prop :=
  Route.ofPath? r.path = some route ∧ r.method ∈ methods

/-- The query can be read and gives this identifier; if it gives none, this is the empty one. -/
def Gives (r : Request) (id : String) : Prop :=
  ∃ value, Form.get? (Form.fields r.query) "id" = some value ∧ value.getD "" = id

/-- The body is none of a task, or the task is not accepted. -/
def Refused (r : Request) (today : Date) : Prop :=
  (∃ response, payload r = .error response) ∨
    ∃ t fault, payload r = .ok t ∧ t.accept today = .error fault

/-- On this route the request comes to a point where today has to be told. -/
def NeedsToday (r : Request) : Route → Prop
  | .nextDate => ∃ now rest, values (Form.fields r.query) ["now", "date", "repeat"] =
      .ok (now :: rest) ∧ now.getD "" = ""
  | .tasks => False
  | .done => ∃ id, identifier r = .ok id
  | .task => (r.method = .post ∨ r.method = .put) ∧ ∃ t, payload r = .ok t

end Request

/-- No task has the identifier. -/
def Missing (id : String) (tasks : List Task) : Prop := ∀ t ∈ tasks, t.id ≠ id

/-- The status is 400 where the request is wrong, else 404 where its task is missing, else 200. -/
structure Graded (wrong missing : Prop) (status : Option Nat) : Prop where
  badRequest : status = some 400 ↔ wrong
  notFound : status = some 404 ↔ ¬ wrong ∧ missing
  ok : status = some 200 ↔ ¬ wrong ∧ ¬ missing

/-- The status is what the request, the tasks that were kept and the clock make it. -/
structure Exact (tasks : List Task) (reading : Date) (r : Request) (status : Option Nat) :
    Prop where
  internal : status = some 500 → Clock.today? reading = none ∧
    ∃ route, route ≠ .nextDate ∧ r.Asks route route.methods ∧ r.NeedsToday route
  silent : status = none ↔
    Clock.today? reading = none ∧ r.Asks .nextDate [.get, .head] ∧ r.NeedsToday .nextDate
  list : r.Asks .tasks [.get, .head] → status = some 200
  task : r.Asks .task [.get, .head, .delete] → ∀ id, r.Gives id →
    Graded (id = "") (Missing id tasks) status
  done : r.Asks .done [.post] → ∀ id, r.Gives id → ∀ today, Clock.today? reading = some today →
    Graded (id = "") (Missing id tasks) status
  add : r.Asks .task [.post] → ∀ today, Clock.today? reading = some today →
    Graded (r.Refused today) False status
  update : r.Asks .task [.put] → ∀ today, Clock.today? reading = some today →
    Graded (r.Refused today ∨ ∃ t, payload r = .ok t ∧ t.id = "")
      (∃ t, payload r = .ok t ∧ Missing t.id tasks) status

section Graded

variable {wrong missing : Prop} {status : Option Nat}

theorem graded_of_wrong (hw : wrong) (hs : status = some 400) : Graded wrong missing status := by
  subst hs
  exact ⟨iff_of_true rfl hw, iff_of_false (by decide) fun h => h.1 hw,
    iff_of_false (by decide) fun h => h.1 hw⟩

theorem graded_of_missing (hw : ¬ wrong) (hm : missing) (hs : status = some 404) :
    Graded wrong missing status := by
  subst hs
  exact ⟨iff_of_false (by decide) hw, iff_of_true rfl ⟨hw, hm⟩,
    iff_of_false (by decide) fun h => h.2 hm⟩

theorem graded_of_done (hw : ¬ wrong) (hm : ¬ missing) (hs : status = some 200) :
    Graded wrong missing status := by
  subst hs
  exact ⟨iff_of_false (by decide) hw, iff_of_false (by decide) fun h => hm h.2,
    iff_of_true rfl ⟨hw, hm⟩⟩

theorem Graded.ne_internal (h : Graded wrong missing status) : status ≠ some 500 := by
  by_cases hw : wrong
  · rw [h.badRequest.2 hw]
    decide
  · by_cases hm : missing
    · rw [h.notFound.2 ⟨hw, hm⟩]
      decide
    · rw [h.ok.2 ⟨hw, hm⟩]
      decide

end Graded

/-! Parts of requests. -/

section Parts

variable {r : Request} {id : String}

theorem identifier_of_gives (h : r.Gives id) :
    id = "" ∧ identifier r = .error (failure 400 "task id is required") ∨
      id ≠ "" ∧ identifier r = .ok id := by
  obtain ⟨value, hvalue, rfl⟩ := h
  have hvalues : values (Form.fields r.query) ["id"] = .ok [value] := by
    simp only [values, hvalue, Except.map]
  unfold identifier
  rw [hvalues]
  cases value with
  | none => exact .inl ⟨rfl, rfl⟩
  | some id =>
      by_cases hid : id = ""
      · exact .inl ⟨hid, if_pos hid⟩
      · exact .inr ⟨hid, if_neg hid⟩

/-- A query that gives no identifier gives several. -/
theorem gives_or_identifier_eq (r : Request) :
    (∃ id, r.Gives id) ∨ identifier r = .error (repeatedField "id") := by
  cases hvalue : Form.get? (Form.fields r.query) "id" with
  | none =>
      refine .inr ?_
      unfold identifier
      rw [values, hvalue]
  | some value => exact .inl ⟨_, value, hvalue, rfl⟩

theorem status_of_identifier {response : Response} (h : identifier r = .error response) :
    response.status = 400 := by
  obtain ⟨id, hid⟩ | heq := gives_or_identifier_eq r
  · obtain ⟨_, heq⟩ | ⟨_, heq⟩ := identifier_of_gives hid
    · cases heq.symm.trans h
      rfl
    · cases heq.symm.trans h
  · cases heq.symm.trans h
    rfl

theorem payload_cases (r : Request) :
    (∃ response, payload r = .error response ∧ response.status = 400) ∨ ∃ t, payload r = .ok t := by
  rw [payload]
  split
  · cases Task.ofGlyphs? (Utf8.decode r.body) with
    | none => exact .inl ⟨_, rfl, rfl⟩
    | some t => exact .inr ⟨t, rfl⟩
  · exact .inl ⟨_, rfl, rfl⟩

theorem exists_payload {t : Task} {P : Task → Prop} (hp : payload r = .ok t) :
    (∃ t, payload r = .ok t ∧ P t) ↔ P t := by
  constructor
  · rintro ⟨t', hp', h⟩
    cases hp.symm.trans hp'
    exact h
  · exact fun h => ⟨t, hp, h⟩

theorem values_cases (fields : List (String × String)) (names : List String) :
    (∃ name, values fields names = .error (repeatedField name)) ∨
      ∃ list, values fields names = .ok list ∧ list.length = names.length := by
  induction names with
  | nil => exact .inr ⟨[], rfl, rfl⟩
  | cons name names ih =>
      rw [values]
      cases Form.get? fields name with
      | none => exact .inl ⟨name, rfl⟩
      | some value =>
          obtain ⟨other, heq⟩ | ⟨list, heq, hlength⟩ := ih
          · exact .inl ⟨other, by rw [heq]; rfl⟩
          · exact .inr ⟨value :: list, by rw [heq]; rfl, congrArg Nat.succ hlength⟩

/-- The day that is given is told without today. -/
theorem reference_cases (today? : Option Date) (now : Option String) :
    now.getD "" = "" ∧ reference today? now = today?.elim (.error none) .ok ∨
      now.getD "" ≠ "" ∧ ((∃ day, reference today? now = .ok day) ∨
        reference today? now = .error (some (plain 400 "invalid now format"))) := by
  unfold reference
  split
  · exact .inl ⟨rfl, by cases today? <;> rfl⟩
  · exact .inl ⟨rfl, by cases today? <;> rfl⟩
  · rename_i text hne
    refine .inr ⟨hne, ?_⟩
    cases Date.ofCompact? text with
    | none => exact .inr rfl
    | some day => exact .inl ⟨day, rfl⟩

section NextDate

variable {context : Context} {now date rule : Option String} {day : Date}

theorem nextDate_of_ok
    (h : values (Form.fields r.query) ["now", "date", "repeat"] = .ok [now, date, rule])
    (href : reference context.today now = .ok day) :
    nextDate context r = some (dateAfter day (date.getD "") (rule.getD "")) := by
  simp only [nextDate, h, href]

theorem nextDate_of_error {response : Option Response}
    (h : values (Form.fields r.query) ["now", "date", "repeat"] = .ok [now, date, rule])
    (href : reference context.today now = .error response) : nextDate context r = response := by
  simp only [nextDate, h, href]

theorem status_dateAfter (now : Date) (date rule : String) :
    (dateAfter now date rule).status = 200 ∨ (dateAfter now date rule).status = 400 := by
  rw [dateAfter]
  cases Repeat.nextDate now date rule with
  | error e => exact .inr rfl
  | ok next => exact .inl rfl

/-- What is said of a next date is never internal, and nothing is said only where today is needed
and cannot be told. -/
theorem nextDate_cases (context : Context) (r : Request) :
    (nextDate context r = none ∧ context.today = none ∧ r.NeedsToday .nextDate) ∨
      (∃ response, nextDate context r = some response ∧
        (response.status = 200 ∨ response.status = 400)) ∧
        ¬ (context.today = none ∧ r.NeedsToday .nextDate) := by
  obtain ⟨name, heq⟩ | ⟨list, heq, hlength⟩ :=
    values_cases (Form.fields r.query) ["now", "date", "repeat"]
  · refine .inr ⟨⟨repeatedField name, by simp only [nextDate, heq], .inr rfl⟩, ?_⟩
    rintro ⟨-, now, rest, hvalues, -⟩
    cases heq.symm.trans hvalues
  · obtain ⟨now, date, rule, rfl⟩ := List.length_eq_three.1 hlength
    have hneeds : r.NeedsToday .nextDate ↔ now.getD "" = "" := by
      constructor
      · rintro ⟨now', rest, hvalues, hempty⟩
        cases heq.symm.trans hvalues
        exact hempty
      · exact fun hempty => ⟨now, _, heq, hempty⟩
    obtain ⟨hempty, href⟩ | ⟨hgiven, ⟨day, href⟩ | href⟩ := reference_cases context.today now
    · cases htoday : context.today with
      | none =>
          rw [htoday] at href
          exact .inl ⟨nextDate_of_error heq (htoday ▸ href), rfl, hneeds.2 hempty⟩
      | some today =>
          rw [htoday] at href
          have hday : reference context.today now = .ok today := by rw [htoday, href]; rfl
          exact .inr ⟨⟨_, nextDate_of_ok heq hday, status_dateAfter _ _ _⟩, nofun⟩
    · exact .inr ⟨⟨_, nextDate_of_ok heq href, status_dateAfter _ _ _⟩,
        fun h => hgiven (hneeds.1 h.2)⟩
    · exact .inr ⟨⟨_, nextDate_of_error heq href, .inr rfl⟩, fun h => hgiven (hneeds.1 h.2)⟩

end NextDate

end Parts

/-! Handlers. -/

section Routes

variable {r : Request} (context : Context) (d : Directory)

theorem handle_tasks : handle context r .tasks d = respond ofTasks (Tasks.list context.limit d) :=
  rfl

theorem handle_done : handle context r .done d = withPart (identifier r) d fun id d =>
    withToday context d fun today d => respond (fun _ => done) (Tasks.complete id today d) :=
  rfl

theorem handle_get (h : r.method = .get ∨ r.method = .head) : handle context r .task d =
    withPart (identifier r) d fun id d => respond (fun t => json 200 t.json) (Tasks.get id d) := by
  unfold handle
  obtain h | h := h <;> rw [h]

theorem handle_delete (h : r.method = .delete) : handle context r .task d =
    withPart (identifier r) d fun id d => respond (fun _ => done) (Tasks.delete id d) := by
  unfold handle
  rw [h]

theorem handle_post (h : r.method = .post) : handle context r .task d =
    withPart (payload r) d fun t d => withToday context d fun today d =>
      respond (fun id => json 200 (record "id" (Json.literal id))) (Tasks.add today t d) := by
  unfold handle
  rw [h]

theorem handle_put (h : r.method = .put) : handle context r .task d =
    withPart (payload r) d fun t d => withToday context d fun today d =>
      respond (fun _ => done) (Tasks.update today t d) := by
  unfold handle
  rw [h]

theorem handle_nextDate : handle context r .nextDate d = (nextDate context r, d) :=
  rfl

end Routes

section Handlers

variable {d : Directory} {s : Store.Table} {r : Request} {limit : Nat} {today : Date} {id : String}

theorem graded_respond {α : Type} {answer : α → Response} {outcome : Store.Outcome Tasks.Error α}
    {wrong : Prop} {tasks : List Task} (hw : ¬ wrong) (hdone : ∀ a, (answer a).status = 200)
    (h : Finds id tasks outcome.1) :
    Graded wrong (Missing id tasks) (respond answer outcome).status? := by
  rw [respond]
  obtain ⟨⟨t, ht, hid⟩, a, heq⟩ | ⟨hmissing, heq⟩ := h
  · rw [heq]
    exact graded_of_done hw (fun hmissing => hmissing t ht hid) (congrArg some (hdone a))
  · rw [heq]
    exact graded_of_missing hw hmissing rfl

/-- A request that names its task in the query. -/
theorem graded_named {go : String → Directory → Reaction} {missing : Prop}
    (hgives : r.Gives id)
    (hgo : id ≠ "" → Graded (id = "") missing (go id d).status?) :
    Graded (id = "") missing (withPart (identifier r) d go).status? := by
  obtain ⟨hid, heq⟩ | ⟨hid, heq⟩ := identifier_of_gives hgives
  · rw [heq]
    exact graded_of_wrong hid rfl
  · rw [heq]
    exact hgo hid

theorem status_tasks (h : Represents d s) (context : Context) :
    (handle context r .tasks d).status? = some 200 := by
  rw [handle_tasks, respond, Tasks.list, Tasks.lift, (h.list context.limit).1]
  rfl

theorem graded_task (h : Represents d s) (context : Context)
    (hmethod : (r.method = .get ∨ r.method = .head) ∨ r.method = .delete) (hgives : r.Gives id) :
    Graded (id = "") (Missing id s.tasks) (handle context r .task d).status? := by
  obtain hget | hdelete := hmethod
  · rw [handle_get context d hget]
    exact graded_named hgives fun hid => graded_respond hid (fun _ => rfl) (Tasks.finds_get h id)
  · rw [handle_delete context d hdelete]
    exact graded_named hgives fun hid => graded_respond hid (fun _ => rfl) (Tasks.finds_delete h id)

theorem graded_done (h : Represents d s) (hs : Healthy s) (hread : Readable s.tasks)
    (htoday : today.year ≤ 9999) (hgives : r.Gives id) :
    Graded (id = "") (Missing id s.tasks) (handle ⟨limit, some today⟩ r .done d).status? := by
  rw [handle_done]
  exact graded_named hgives fun hid =>
    graded_respond hid (fun _ => rfl) (Tasks.finds_complete h hs hread htoday id)

theorem not_refused {t u : Task} (hp : payload r = .ok t) (ha : t.accept today = .ok u) :
    ¬ r.Refused today := by
  rintro (⟨response, hp'⟩ | ⟨t', fault, hp', ha'⟩)
  · cases hp.symm.trans hp'
  · cases hp.symm.trans hp'
    cases ha.symm.trans ha'

theorem graded_add (h : Represents d s) (hroom : s.next ≤ Numeral.max64)
    (hmethod : r.method = .post) :
    Graded (r.Refused today) False (handle ⟨limit, some today⟩ r .task d).status? := by
  rw [handle_post _ d hmethod]
  obtain ⟨response, hp, hstatus⟩ | ⟨t, hp⟩ := payload_cases r
  · rw [hp]
    exact graded_of_wrong (.inl ⟨response, hp⟩) (congrArg some hstatus)
  · simp only [hp, withPart, withToday, Tasks.add]
    cases ha : t.accept today with
    | error fault => exact graded_of_wrong (.inr ⟨t, fault, hp, ha⟩) rfl
    | ok u =>
        refine graded_of_done (not_refused hp ha) not_false ?_
        simp only [respond, Tasks.lift, (h.insert { u with id := "" } hroom).1]
        rfl

theorem graded_update (h : Represents d s) (hmethod : r.method = .put) :
    Graded (r.Refused today ∨ ∃ t, payload r = .ok t ∧ t.id = "")
      (∃ t, payload r = .ok t ∧ Missing t.id s.tasks)
      (handle ⟨limit, some today⟩ r .task d).status? := by
  rw [handle_put _ d hmethod]
  obtain ⟨response, hp, hstatus⟩ | ⟨t, hp⟩ := payload_cases r
  · simp only [hp, withPart]
    exact graded_of_wrong (.inl (.inl ⟨response, hp⟩)) (congrArg some hstatus)
  · rw [exists_payload hp, exists_payload hp]
    simp only [hp, withPart, withToday]
    by_cases hid : t.id = ""
    · refine graded_of_wrong (.inr hid) ?_
      rw [Tasks.update, if_pos hid]
      rfl
    · cases ha : t.accept today with
      | error fault =>
          refine graded_of_wrong (.inl (.inr ⟨t, fault, hp, ha⟩)) ?_
          rw [Tasks.update, if_neg hid, ha]
          rfl
      | ok u =>
          refine graded_respond ?_ (fun _ => rfl) (Tasks.finds_update h hid ha)
          exact not_or.2 ⟨not_refused hp ha, hid⟩

/-! Internal answers. -/

theorem other_not_mem_methods (name : String) (route : Route) :
    Method.other name ∉ route.methods := by
  cases route <;> simp [Route.methods]

theorem ne_internal_respond {α : Type} {answer : α → Response}
    {outcome : Store.Outcome Tasks.Error α} {tasks : List Task}
    (hdone : ∀ a, (answer a).status = 200) (h : Finds id tasks outcome.1) :
    (respond answer outcome).status? ≠ some 500 :=
  (graded_respond not_false hdone h).ne_internal

/-- The query of a request that is answered internally gives an identifier. -/
theorem exists_identifier_of_internal {go : String → Directory → Reaction}
    (h : (withPart (identifier r) d go).status? = some 500) :
    ∃ id, identifier r = .ok id ∧ (go id d).status? = some 500 := by
  cases hid : identifier r with
  | error response =>
      rw [hid] at h
      exact absurd (status_of_identifier hid ▸ Option.some.inj h) (by decide)
  | ok id =>
      rw [hid] at h
      exact ⟨id, rfl, h⟩

theorem exists_payload_of_internal {go : Task → Directory → Reaction}
    (h : (withPart (payload r) d go).status? = some 500) : ∃ t, payload r = .ok t := by
  obtain ⟨response, hp, hstatus⟩ | hp := payload_cases r
  · rw [hp] at h
    exact absurd (hstatus ▸ Option.some.inj h) (by decide)
  · exact hp

/-- An answer is internal only where today is needed and cannot be told. -/
theorem needsToday_of_internal {route : Route} {today? : Option Date} (h : Represents d s)
    (hs : Healthy s) (hread : Readable s.tasks) (hroom : s.next ≤ Numeral.max64)
    (hyear : ∀ today, today? = some today → today.year ≤ 9999) (hmethod : r.method ∈ route.methods)
    (hinternal : (handle ⟨limit, today?⟩ r route d).status? = some 500) :
    today? = none ∧ route ≠ .nextDate ∧ r.NeedsToday route := by
  cases route with
  | nextDate =>
      rw [handle_nextDate] at hinternal
      obtain ⟨heq, -⟩ | ⟨⟨response, heq, hstatus⟩, -⟩ := nextDate_cases ⟨limit, today?⟩ r
      · rw [heq] at hinternal
        cases hinternal
      · rw [heq] at hinternal
        have hsame : response.status = 500 := Option.some.inj hinternal
        omega
  | tasks =>
      rw [status_tasks h] at hinternal
      cases hinternal
  | done =>
      rw [handle_done] at hinternal
      obtain ⟨id, hid, hgo⟩ := exists_identifier_of_internal hinternal
      cases today? with
      | none => exact ⟨rfl, nofun, id, hid⟩
      | some today =>
          have hfinds := Tasks.finds_complete h hs hread (hyear today rfl) id
          exact absurd hgo (ne_internal_respond (fun _ => rfl) hfinds)
  | task =>
      cases hm : r.method with
      | get | head =>
          rw [handle_get _ d (by rw [hm]; decide)] at hinternal
          obtain ⟨id, _, hgo⟩ := exists_identifier_of_internal hinternal
          exact absurd hgo (ne_internal_respond (fun _ => rfl) (Tasks.finds_get h id))
      | delete =>
          rw [handle_delete _ d hm] at hinternal
          obtain ⟨id, _, hgo⟩ := exists_identifier_of_internal hinternal
          exact absurd hgo (ne_internal_respond (fun _ => rfl) (Tasks.finds_delete h id))
      | post =>
          cases today? with
          | none =>
              rw [handle_post _ d hm] at hinternal
              exact ⟨rfl, nofun, .inl hm, exists_payload_of_internal hinternal⟩
          | some today => exact absurd hinternal (graded_add h hroom hm).ne_internal
      | put =>
          cases today? with
          | none =>
              rw [handle_put _ d hm] at hinternal
              exact ⟨rfl, nofun, .inr hm, exists_payload_of_internal hinternal⟩
          | some today => exact absurd hinternal (graded_update h hm).ne_internal
      | other name => exact absurd (hm ▸ hmethod) (other_not_mem_methods name .task)

/-! Requests without an answer. -/

theorem Handled.status?_ne_none {context : Context} {route : Route} {reaction : Reaction}
    (h : Handled context r route d reaction) (hroute : route ≠ .nextDate) :
    reaction.status? ≠ none := by
  have hrespond {α : Type} (answer : α → Response) (outcome : Store.Outcome Tasks.Error α) :
      (respond answer outcome).status? ≠ none := by
    rw [respond]
    cases outcome.1 <;> exact nofun
  cases h with
  | dated asked => exact absurd asked hroute
  | stopped response => exact nofun
  | listed | told _ | completed _ _ _ | added _ _ _ | updated _ _ _ | deleted _ _ =>
      exact hrespond _ _

theorem status?_answer {route : Route} {methods : List Method} (hasks : r.Asks route methods)
    (hmethods : ∀ method ∈ methods, method ∈ route.methods) (context : Context) (d : Directory) :
    (answer context r d).status? = (handle context r route d).status? := by
  have hcontains : route.methods.contains r.method = true :=
    List.contains_iff_mem.2 (hmethods _ hasks.2)
  rw [answer, hasks.1]
  simp only [hcontains, if_true]
  exact status?_withoutBody _ _

/-- Where no route takes the request, that is told. -/
theorem status?_of_not_asks (h : ¬ ∃ route, r.Asks route route.methods) (context : Context)
    (d : Directory) :
    (answer context r d).status? = some 404 ∨ (answer context r d).status? = some 405 := by
  rw [answer]
  split
  · exact .inl rfl
  · rename_i route hroute
    rw [if_neg fun hmethod => h ⟨route, hroute, List.contains_iff_mem.1 hmethod⟩]
    exact .inr rfl

/-- A request stays without an answer only where it asks for a date after today and today cannot be
told. -/
theorem status?_answer_eq_none_iff (context : Context) (r : Request) (d : Directory) :
    (answer context r d).status? = none ↔
      context.today = none ∧ r.Asks .nextDate [.get, .head] ∧ r.NeedsToday .nextDate := by
  by_cases hroute : ∃ route, r.Asks route route.methods
  · obtain ⟨route, hasks⟩ := hroute
    rw [status?_answer hasks fun _ hm => hm]
    by_cases hnext : route = .nextDate
    · subst hnext
      rw [handle_nextDate]
      obtain ⟨heq, htoday, hneeds⟩ | ⟨⟨response, heq, -⟩, hnot⟩ := nextDate_cases context r
      · rw [heq]
        exact iff_of_true rfl ⟨htoday, hasks, hneeds⟩
      · rw [heq]
        exact iff_of_false nofun fun h => hnot ⟨h.1, h.2.2⟩
    · refine iff_of_false ((handled_handle context r route d).status?_ne_none hnext) ?_
      rintro ⟨-, ⟨hpath, -⟩, -⟩
      exact hnext (Option.some.inj (hasks.1.symm.trans hpath))
  · refine iff_of_false ?_ fun h => hroute ⟨.nextDate, h.2.1⟩
    obtain hstatus | hstatus := status?_of_not_asks hroute context d
    · rw [hstatus]
      exact nofun
    · rw [hstatus]
      exact nofun

theorem exact_answer {reading : Date} (h : Represents d s) (hs : Healthy s)
    (hread : Readable s.tasks) (hroom : s.next ≤ Numeral.max64) (hreading : reading.year ≤ 9999)
    (limit : Nat) (r : Request) :
    Exact s.tasks reading r (answer ⟨limit, Clock.today? reading⟩ r d).status? := by
  have hyear : ∀ today, Clock.today? reading = some today → today.year ≤ 9999 := by
    intro today htoday
    rw [Clock.today?] at htoday
    split at htoday <;> cases htoday
    exact hreading
  constructor
  · intro hinternal
    by_cases hroute : ∃ route, r.Asks route route.methods
    · obtain ⟨route, hasks⟩ := hroute
      rw [status?_answer hasks fun _ hm => hm] at hinternal
      obtain ⟨htoday, hnext, hneeds⟩ :=
        needsToday_of_internal h hs hread hroom hyear hasks.2 hinternal
      exact ⟨htoday, route, hnext, hasks, hneeds⟩
    · obtain hstatus | hstatus := status?_of_not_asks hroute ⟨limit, Clock.today? reading⟩ d
      · cases hstatus.symm.trans hinternal
      · cases hstatus.symm.trans hinternal
  · exact status?_answer_eq_none_iff _ r d
  · intro hasks
    rw [status?_answer hasks (by decide)]
    exact status_tasks h _
  · intro hasks id hgives
    rw [status?_answer hasks (by decide)]
    refine graded_task h _ ?_ hgives
    simpa only [List.mem_cons, List.not_mem_nil, or_false, or_assoc] using hasks.2
  · intro hasks id hgives today htoday
    rw [status?_answer hasks (by decide), htoday]
    exact graded_done h hs hread (hyear today htoday) hgives
  · intro hasks today htoday
    rw [status?_answer hasks (by decide), htoday]
    exact graded_add h hroom (List.mem_singleton.1 hasks.2)
  · intro hasks today htoday
    rw [status?_answer hasks (by decide), htoday]
    exact graded_update h (List.mem_singleton.1 hasks.2)

end Handlers

/-! Runs. -/

/-- What one operation on tasks, or none, makes of a directory. -/
inductive Leads (d : Directory) : Directory → Prop where
  | none : Leads d d
  | list (limit : Nat) : Leads d (Tasks.list limit d).2
  | get (id : String) : Leads d (Tasks.get id d).2
  | request (r : Tasks.Request) : Leads d (r.outcome d).2

theorem Handled.leads {context : Context} {r : Request} {route : Route} {d : Directory}
    {reaction : Reaction} (h : Handled context r route d reaction) : Leads d reaction.2 := by
  cases h with
  | dated _ | stopped _ => exact .none
  | listed => exact .list context.limit
  | told id => exact .get id
  | completed _ id today => exact .request (.complete id today)
  | added _ t today => exact .request (.add t today)
  | updated _ t today => exact .request (.update t today)
  | deleted _ id => exact .request (.delete id)

theorem leads_answer (context : Context) (r : Request) (d : Directory) :
    Leads d (answer context r d).2 := by
  rw [answer]
  split
  · exact .none
  · split
    · exact (handled_handle context r _ d).leads
    · exact .none

section Runs

variable {d d' : Directory} {limit k : Nat}

/-- The store is healthy, and so many numbers are taken at most. -/
def HealthyWithin (k : Nat) (d : Directory) : Prop :=
  ∃ s, Represents d s ∧ Healthy s ∧ s.last ≤ k

theorem HealthyWithin.leads (h : HealthyWithin k d) (hleads : Leads d d') :
    HealthyWithin (k + 1) d' := by
  obtain ⟨s, hr, hs, hlast⟩ := h
  cases hleads with
  | none => exact ⟨s, hr, hs, Nat.le_succ_of_le hlast⟩
  | list limit => exact ⟨s, (hr.list limit).2, hs, Nat.le_succ_of_le hlast⟩
  | get id => exact ⟨s, (hr.get id).2, hs, Nat.le_succ_of_le hlast⟩
  | request r =>
      obtain ⟨s', hr', hs', hlast'⟩ := Tasks.exists_healthy_outcome hr hs r
      exact ⟨s', hr', hs', by omega⟩

theorem healthyWithin_exchanges {requests : List (Date × Request)} (h : HealthyWithin k d) {i : Nat}
    {e : Exchange} (he : (exchanges limit requests d)[i]? = some e) :
    HealthyWithin (k + i) e.before := by
  induction requests generalizing d k i with
  | nil => cases he
  | cons request requests ih =>
      cases i with
      | zero =>
          cases he
          exact h
      | succ i =>
          have hrest := ih (h.leads (leads_answer _ _ d)) he
          rw [Nat.add_assoc, Nat.add_comm 1 i] at hrest
          exact hrest

theorem response_of_mem_exchanges {requests : List (Date × Request)} {e : Exchange}
    (he : e ∈ exchanges limit requests d) :
    (e.reading, e.request) ∈ requests ∧
      e.response = (answer ⟨limit, Clock.today? e.reading⟩ e.request e.before).1 := by
  induction requests generalizing d with
  | nil => cases he
  | cons request requests ih =>
      rw [exchanges, List.mem_cons] at he
      obtain rfl | he := he
      · exact ⟨List.mem_cons_self, rfl⟩
      · obtain ⟨hmem, hresponse⟩ := ih he
        exact ⟨List.mem_cons_of_mem _ hmem, hresponse⟩

/-- Whatever is asked of a store that was opened in an empty folder, while the clock reads no day
behind the year 9999: as long as each kept date can be read and a number is left, the statuses are
exact. A number is left for more requests than anybody makes. -/
theorem exact_exchanges (limit : Nat) (requests : List (Date × Request))
    (hreadings : ∀ request ∈ requests, request.1.HasShortYear) :
    (∀ e ∈ exchanges limit requests Store.opened, DatesRead e.before → ¬ Full e.before →
        ∃ tasks, loadTasks e.before = .ok tasks ∧
          Exact tasks e.reading e.request e.status?) ∧
      ∀ i e, (exchanges limit requests Store.opened)[i]? = some e → i < Numeral.max64 →
        ¬ Full e.before := by
  have hopened : HealthyWithin 0 Store.opened :=
    ⟨⟨[], 0⟩, Store.represents_opened, List.forall_mem_nil _, Nat.le_refl 0⟩
  constructor
  · intro e he hdates hroom
    obtain ⟨i, hi⟩ := List.mem_iff_getElem?.1 he
    obtain ⟨s, hr, hs, _⟩ := healthyWithin_exchanges hopened hi
    obtain ⟨hmem, hresponse⟩ := response_of_mem_exchanges he
    refine ⟨s.tasks, hr.tasks, ?_⟩
    rw [Exchange.status?, hresponse]
    refine exact_answer hr hs ((Tasks.datesRead_iff hr).1 hdates) ?_ (hreadings _ hmem).2 limit _
    apply Nat.not_lt.1
    intro hfull
    exact hroom ⟨s.tasks, s.last, hr.tasks, hr.last, by rwa [Store.nextNumber_eq_next]⟩
  · rintro i e hi hlt ⟨tasks, last, htasks, hlast, hfull⟩
    obtain ⟨s, hr, hs, hle⟩ := healthyWithin_exchanges hopened hi
    cases hr.tasks.symm.trans htasks
    cases hr.last.symm.trans hlast
    rw [Store.nextNumber_eq_next, hs.next_eq] at hfull
    omega

/-- A request for a task that has a title and nothing else. -/
def posted : Request :=
  { method := .post, target := "/api/task", contentType := some "application/json",
    body := Utf8.encodeText "\x7b\"title\":\"a\"\x7d" }

theorem payload_posted : payload posted = .ok { title := "a" } := by
  decide +kernel

theorem done_of_posted :
    (∀ request ∈ [((⟨2024, 1, 10, by decide⟩ : Date), posted)], request.1.HasShortYear) ∧
      ∃ e ∈ exchanges 50 [(⟨2024, 1, 10, by decide⟩, posted)] Store.opened,
        e.status? = some 200 := by
  have hreadings : ∀ request ∈ [((⟨2024, 1, 10, by decide⟩ : Date), posted)],
      request.1.HasShortYear := by
    decide
  obtain ⟨hexact, hroom⟩ := exact_exchanges 50 [(⟨2024, 1, 10, by decide⟩, posted)] hreadings
  have hdates : DatesRead Store.opened :=
    ⟨[], Store.represents_opened.tasks, List.forall_mem_nil _⟩
  obtain ⟨tasks, _, hstatus⟩ := hexact _ List.mem_cons_self hdates (hroom 0 _ rfl (by decide))
  have haccept : Task.accept ⟨2024, 1, 10, by decide⟩ { title := "a" } =
      .ok { title := "a", date := "20240110" } := rfl
  have hgraded := hstatus.add ⟨by decide +kernel, by decide⟩ ⟨2024, 1, 10, by decide⟩ rfl
  exact ⟨hreadings, _, List.mem_cons_self,
    hgraded.ok.2 ⟨not_refused payload_posted haccept, not_false⟩⟩

/-- The clock cannot tell a day before 1970, so there the same request is answered internally. -/
theorem internal_of_posted_early :
    ¬ ∀ (limit : Nat) (requests : List (Date × Request)),
      (∀ request ∈ requests, request.1.HasShortYear) →
        ∀ e ∈ exchanges limit requests Store.opened, DatesRead e.before →
          e.status? ≠ some 500 := by
  intro hall
  have hdates : DatesRead Store.opened :=
    ⟨[], Store.represents_opened.tasks, List.forall_mem_nil _⟩
  have hstatus :
      (answer ⟨50, Clock.today? ⟨1, 1, 1, by decide⟩⟩ posted Store.opened).status? = some 500 := by
    decide +kernel
  exact hall 50 [(⟨1, 1, 1, by decide⟩, posted)] (by decide) _ List.mem_cons_self hdates hstatus

end Runs

end Agenda.Api
