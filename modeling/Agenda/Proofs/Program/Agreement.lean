import Agenda.Program.Dispatch
import Agenda.Proofs.Api.Requests

/-!
The command line and the API. They are told in different ways what to do, and tell in different ways
how it went; in between both make the same operations on tasks. Hence a command and its counterpart
leave the same directory behind, and one succeeds where the other does.
-/

namespace Agenda.Program

open Api (Reaction Request Response answer respond refusal)
open Usage (Command Fields)

/-- The request that asks the API for what a command does. -/
inductive Counterpart : Command → Request → Prop where
  | add {title : String} {fields : Fields} {r : Request} (asks : r.Asks .task [.post])
      (carries : r.Carries (fields.task title)) : Counterpart (.add title fields) r
  | done {id : String} {r : Request} (named : id ≠ "") (asks : r.Asks .done [.post])
      (gives : r.Gives id) : Counterpart (.done id) r
  | delete {id : String} {r : Request} (named : id ≠ "") (asks : r.Asks .task [.delete])
      (gives : r.Gives id) : Counterpart (.delete id) r
  | info {id : String} {r : Request} (named : id ≠ "") (asks : r.Asks .task [.get])
      (gives : r.Gives id) : Counterpart (.info id) r
  | nextDate {date rule : String} {now : Option String} {r : Request} (told : now ≠ some "")
      (asks : r.Asks .nextDate [.get]) (dates : r.Dates now date rule) :
      Counterpart (.nextDate date rule now) r

/-- A task is asked for and, if it is told, a second request is made. -/
def inTurn (context : Api.Context) (first second : Request) (d : Directory) :
    Reaction :=
  if (answer context first d).status? = some 200 then
    answer context second (answer context first d).2
  else answer context first d

/-- The two requests that ask the API for what a modification does: the task is told, and sent back
with the new parts in the place of its own. -/
structure Overwrites (context : Api.Context) (d : Directory) (id : String) (title : Option String)
    (fields : Fields) (first second : Request) : Prop where
  named : id ≠ ""
  asks : first.Asks .task [.get]
  gives : first.Gives id
  puts : second.Asks .task [.put]
  carries : ∀ response, (answer context first d).1 = some response → response.status = 200 →
    ∀ t, Task.ofJson? response.body.toList = some t → second.Carries (fields.revise title t)

/-- Both have left the same directory, and both have succeeded or neither has. -/
structure Alike (outcome : Store.Outcome Failure Answer) (reaction : Reaction) : Prop where
  directory : outcome.2 = reaction.2
  status : (∃ a, outcome.1 = .ok a) ↔ reaction.status? = some 200

section Outcomes

variable {α : Type} {context : Context}

theorem status_refusal_ne (e : Tasks.Error) : (refusal e).status ≠ 200 := by
  unfold refusal
  split
  · exact show (400 : Nat) ≠ 200 by decide
  · exact show (404 : Nat) ≠ 200 by decide
  · exact show (500 : Nat) ≠ 200 by decide
  · exact show (500 : Nat) ≠ 200 by decide

theorem alike_report {text : α → String} {told : α → Response}
    (htold : ∀ a, (told a).status = 200) (outcome : Store.Outcome Tasks.Error α) :
    Alike (report context text outcome) (respond told outcome) := by
  obtain ⟨result, d⟩ := outcome
  refine ⟨rfl, ?_⟩
  cases result with
  | ok a => exact iff_of_true ⟨_, rfl⟩ (congrArg some (htold a))
  | error e => exact iff_of_false nofun fun h => status_refusal_ne e (Option.some.inj h)

theorem alike_failed {e : Failure} {response : Response} (h : response.status ≠ 200)
    (d : Directory) : Alike (.error e, d) (some response, d) :=
  ⟨rfl, iff_of_false nofun fun hok => h (Option.some.inj hok)⟩

theorem identifier_of_named {r : Request} {id : String} (hgives : r.Gives id) (hid : id ≠ "") :
    Api.identifier r = .ok id := by
  obtain ⟨hempty, _⟩ | ⟨_, heq⟩ := Api.identifier_of_gives hgives
  · exact absurd hempty hid
  · exact heq

end Outcomes

section Agreement

variable {context : Context} {limit : Nat} {r : Request} {d : Directory}

/-- An empty day counts as today for the API, while a command refuses it. -/
theorem reference_agrees {now : Option String} (htold : now ≠ some "") (today : Date) :
    (∃ day, reference today now = .ok day ∧ Api.reference (some today) now = .ok day) ∨
      (∃ e, reference today now = .error e) ∧
        Api.reference (some today) now = .error (some (Api.plain 400 "invalid now format")) := by
  cases now with
  | none => exact .inl ⟨today, rfl, rfl⟩
  | some text =>
      have htext : text ≠ "" := fun hempty => htold (congrArg some hempty)
      rw [reference, Api.reference]
      · cases Date.ofCompact? text with
        | none => exact .inr ⟨⟨_, rfl⟩, rfl⟩
        | some day => exact .inl ⟨day, rfl, rfl⟩
      · exact htext

theorem answer_nextDate (hasks : r.Asks .nextDate [.get]) (context : Api.Context)
    (d : Directory) : answer context r d = (Api.nextDate context r, d) := by
  rw [Api.answer_of_asks context d hasks (by decide) (by decide), Api.handle_nextDate]

/-- The date is printed on a line, and is the body of the answer. -/
theorem nextDate_agrees {date rule : String} {now : Option String} (htold : now ≠ some "")
    (hasks : r.Asks .nextDate [.get]) (hdates : r.Dates now date rule) :
    Alike (nextDate context.today date rule now, d) (answer ⟨limit, some context.today⟩ r d) ∧
      ∀ text, nextDate context.today date rule now = .ok (.text text) →
        ∃ response, (answer ⟨limit, some context.today⟩ r d).1 = some response ∧
          text = line response.body := by
  obtain ⟨date', rule', hvalues, rfl, rfl⟩ := hdates
  rw [answer_nextDate hasks, nextDate]
  obtain ⟨day, hcommand, hapi⟩ | ⟨⟨e, hcommand⟩, hapi⟩ := reference_agrees htold context.today
  · rw [Api.nextDate_of_ok hvalues hapi, Api.dateAfter]
    simp only [hcommand]
    cases Repeat.nextDate day (date'.getD "") (rule'.getD "") with
    | error e =>
        refine ⟨alike_failed (show (400 : Nat) ≠ 200 by decide) d, ?_⟩
        rintro text ⟨⟩
    | ok next =>
        refine ⟨⟨rfl, iff_of_true ⟨_, rfl⟩ rfl⟩, ?_⟩
        rintro text ⟨⟩
        exact ⟨_, rfl, rfl⟩
  · rw [Api.nextDate_of_error hvalues hapi]
    simp only [hcommand]
    refine ⟨alike_failed (show (400 : Nat) ≠ 200 by decide) d, ?_⟩
    rintro text ⟨⟩

theorem alike_of_counterpart {command : Command} (h : Counterpart command r) :
    Alike (dispatch context command d) (answer ⟨limit, some context.today⟩ r d) := by
  cases h with
  | add asks carries =>
      rw [Api.answer_of_asks _ d asks (by decide) (by decide),
        Api.handle_post _ d (List.mem_singleton.1 asks.2), Api.payload_of_carries carries]
      exact alike_report (fun _ => rfl) _
  | done named asks gives =>
      rw [Api.answer_of_asks _ d asks (by decide) (by decide), Api.handle_done,
        identifier_of_named gives named]
      exact alike_report (fun _ => rfl) _
  | delete named asks gives =>
      rw [Api.answer_of_asks _ d asks (by decide) (by decide),
        Api.handle_delete _ d (List.mem_singleton.1 asks.2), identifier_of_named gives named]
      exact alike_report (fun _ => rfl) _
  | info named asks gives =>
      rw [Api.answer_of_asks _ d asks (by decide) (by decide),
        Api.handle_get _ d (.inl (List.mem_singleton.1 asks.2)), identifier_of_named gives named]
      exact alike_report (fun _ => rfl) _
  | nextDate told asks dates => exact (nextDate_agrees told asks dates).1

section InTurn

variable {apiContext : Api.Context} {first second : Request} {d' : Directory} {response : Response}

theorem inTurn_of_ok (h : answer apiContext first d = (some response, d'))
    (hok : response.status = 200) :
    inTurn apiContext first second d = answer apiContext second d' := by
  have hstatus : (answer apiContext first d).status? = some 200 := by
    rw [h]
    exact congrArg some hok
  rw [inTurn, if_pos hstatus, h]

theorem inTurn_of_ne (h : answer apiContext first d = (some response, d'))
    (hne : response.status ≠ 200) :
    inTurn apiContext first second d = (some response, d') := by
  have hstatus : (answer apiContext first d).status? ≠ some 200 := by
    rw [h]
    exact fun hok => hne (Option.some.inj hok)
  rw [inTurn, if_neg hstatus, h]

end InTurn

/-- A modification goes through the body of a response, where the task is read as it was told. -/
theorem alike_of_overwrites {id : String} {title : Option String} {fields : Fields}
    {first second : Request}
    (h : Overwrites ⟨limit, some context.today⟩ d id title fields first second) :
    Alike (dispatch context (.modify id title fields) d)
      (inTurn ⟨limit, some context.today⟩ first second d) := by
  have hfirst : answer ⟨limit, some context.today⟩ first d =
      respond (fun t => Api.json 200 t.json) (Tasks.get id d) := by
    rw [Api.answer_of_asks _ d h.asks (by decide) (by decide),
      Api.handle_get _ d (.inl (List.mem_singleton.1 h.asks.2)),
      identifier_of_named h.gives h.named, Api.withPart]
  rw [dispatch, Tasks.revise]
  cases hget : Tasks.get id d with
  | mk result d' =>
      rw [hget] at hfirst
      cases result with
      | error e =>
          rw [inTurn_of_ne hfirst (status_refusal_ne e)]
          exact alike_failed (status_refusal_ne e) d'
      | ok t =>
          have hread : Task.ofJson? (Api.json 200 t.json).body.toList = some t :=
            (congrArg Task.ofJson? String.toList_ofList).trans t.ofJson?_json
          have hpayload := Api.payload_of_carries (h.carries _ (by rw [hfirst]; rfl) rfl t hread)
          rw [inTurn_of_ok hfirst rfl, Api.answer_of_asks _ _ h.puts (by decide) (by decide),
            Api.handle_put _ _ (List.mem_singleton.1 h.puts.2), hpayload]
          exact alike_report (fun _ => rfl) _

/-- Whatever the directory holds and whichever day it is: a command and its counterpart leave the
same directory, and one succeeds exactly if the other does. A next date is the same in both. To
modify a task, it is asked for and put back with new parts. -/
theorem command_line_agrees_with_api (context : Context) (limit : Nat) (d : Directory) :
    (∀ command r, Counterpart command r →
        Alike (dispatch context command d) (answer ⟨limit, some context.today⟩ r d)) ∧
      (∀ date rule now r text, Counterpart (.nextDate date rule now) r →
        (dispatch context (.nextDate date rule now) d).1 = .ok (.text text) →
          ∃ response, (answer ⟨limit, some context.today⟩ r d).1 = some response ∧
            text = line response.body) ∧
      ∀ id title fields first second,
        Overwrites ⟨limit, some context.today⟩ d id title fields first second →
          Alike (dispatch context (.modify id title fields) d)
            (inTurn ⟨limit, some context.today⟩ first second d) := by
  refine ⟨fun _ _ h => alike_of_counterpart h, ?_, fun _ _ _ _ _ h => alike_of_overwrites h⟩
  rintro date rule now r text ⟨⟩ htext
  exact (nextDate_agrees ‹_› ‹_› ‹_›).2 text htext

def onDesk : Context :=
  { settings := Settings.defaults, colored := false, today := ⟨2024, 2, 1, by decide⟩,
    folder := "." }

/-- A directory with one task. -/
def onlyTask : Directory :=
  { tasks := .file (Store.Rows.encode [{ id := "1", date := "20240101", title := "a" }]),
    sequence := .file [] }

/-- The request for a date after the first of February. -/
def askedNext : Request :=
  Request.asking .get .nextDate [("now", "20240201"), ("date", "20240101"), ("repeat", "d 7")]

theorem agrees_on_only_task :
    Counterpart (.nextDate "20240101" "d 7" (some "20240201")) askedNext ∧
      Alike (dispatch onDesk (.nextDate "20240101" "d 7" (some "20240201")) onlyTask)
        (answer ⟨50, some onDesk.today⟩ askedNext onlyTask) ∧
      Counterpart (.add "b" {}) (Request.sending .post { title := "b" }) ∧
      Alike (dispatch onDesk (.add "b" {}) onlyTask)
        (answer ⟨50, some onDesk.today⟩ (Request.sending .post { title := "b" }) onlyTask) ∧
      Overwrites ⟨50, some onDesk.today⟩ onlyTask "1" (some "c") {}
        (Request.asking .get .task [("id", "1")])
        (Request.sending .put { id := "1", date := "20240101", title := "c" }) ∧
      Alike (dispatch onDesk (.modify "1" (some "c") {}) onlyTask)
        (inTurn ⟨50, some onDesk.today⟩ (Request.asking .get .task [("id", "1")])
          (Request.sending .put { id := "1", date := "20240101", title := "c" }) onlyTask) := by
  obtain ⟨hcounterpart, _, hmodify⟩ := command_line_agrees_with_api onDesk 50 onlyTask
  have hnext : Counterpart (.nextDate "20240101" "d 7" (some "20240201")) askedNext :=
    .nextDate (by decide) (Api.asks_asking _ _ _) (Api.dates_asking _ _ _)
  have hadd : Counterpart (.add "b" {}) (Request.sending .post { title := "b" }) :=
    .add (Api.asks_sending _ _) (Api.carries_sending (by decide +kernel))
  have hoverwrites : Overwrites ⟨50, some onDesk.today⟩ onlyTask "1" (some "c") {}
      (Request.asking .get .task [("id", "1")])
      (Request.sending .put { id := "1", date := "20240101", title := "c" }) := by
    refine ⟨by decide, Api.asks_asking _ _ _, Api.gives_asking _ _ _, Api.asks_sending _ _, ?_⟩
    intro response hresponse _ t ht
    have htold : ((answer ⟨50, some onDesk.today⟩ (Request.asking .get .task [("id", "1")])
        onlyTask).1.bind fun response => Task.ofJson? response.body.toList) =
          some { id := "1", date := "20240101", title := "a" } := by
      decide +kernel
    rw [hresponse] at htold
    cases htold.symm.trans ht
    exact Api.carries_sending (by decide +kernel)
  exact ⟨hnext, hcounterpart _ _ hnext, hadd, hcounterpart _ _ hadd, hoverwrites,
    hmodify _ _ _ _ _ hoverwrites⟩

end Agreement

end Agenda.Program
