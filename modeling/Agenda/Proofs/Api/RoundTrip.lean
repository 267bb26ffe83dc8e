import Agenda.Proofs.Api.Requests

/-!
A task that is sent is what is told of it afterwards. It passes through the body of a request, the
file of tasks and the body of a response, and is written and read in each of them. The identifier is
the new one, whatever was sent, and what is told of other tasks stays as it was.
-/

namespace Agenda

/-! The store. -/

namespace Store

variable {d : Directory} {t : Task} {id other : String}

theorem represents_of_insert (h : (Store.insert t d).1 = .ok id) :
    ∃ s, Represents d s ∧ s.next ≤ Numeral.max64 := by
  have hlock : d.lock ≠ .folder := by
    intro hfolder
    rw [Store.insert, perform_of_lock_folder hfolder] at h
    cases h
  obtain ⟨e, d', heq, _⟩ | ⟨locked, change, d', hsame, hplan, _, _⟩ :=
    perform_cases (Plan.writable_insert t) d
  · rw [Store.insert, heq] at h
    cases h
  · obtain ⟨tasks, last, htasks, hlast, hroom, _⟩ := Plan.insert_eq_ok hplan
    rw [hsame.loadTasks] at htasks
    rw [hsame.loadSequence] at hlast
    exact ⟨⟨tasks, last⟩, ⟨htasks, hlast, hlock⟩, by rwa [← nextNumber_eq_next]⟩

theorem get_append_of_ne {s : Table} {n : Nat} (h : t.id ≠ other) :
    Table.get other ⟨s.tasks ++ [t], n⟩ = s.get other := by
  rw [Table.get, Table.get, List.find?_append, List.find?_cons, decide_eq_false h, List.find?_nil,
    Option.or_none]

/-- The new task has the identifier that was given out, which no task had; the others are found as
before. -/
theorem get_of_insert (h : (Store.insert t d).1 = .ok id) :
    id ≠ "" ∧ (Store.get id d).1 = .error (.notFound id) ∧
      (Store.get id (Store.insert t d).2).1 = .ok { t with id } ∧
      ∀ other, other ≠ id → (Store.get other (Store.insert t d).2).1 = (Store.get other d).1 := by
  obtain ⟨s, hs, hroom⟩ := represents_of_insert h
  obtain ⟨hanswer, hafter⟩ := hs.insert t hroom
  obtain rfl : Numeral.text s.next = id := Except.ok.inj (hanswer.symm.trans h)
  have hnew : ∀ u ∈ s.tasks, u.id ≠ Numeral.text s.next := by
    intro u hu
    rw [← nextNumber_eq_next] at hroom ⊢
    exact id_ne_text_nextNumber hu hroom
  refine ⟨?_, ?_, ?_, ?_⟩
  · intro hempty
    have hnumber := number?_text hroom
    rw [hempty] at hnumber
    cases hnumber
  · rw [(hs.get _).1, ← find_eq_get, find_of_not_any]
    intro hany
    obtain ⟨u, hu, hid⟩ := List.any_eq_true.1 hany
    exact hnew u hu (of_decide_eq_true hid)
  · rw [(hafter.get _).1, ← find_eq_get]
    exact @find_append s.tasks [] { t with id := Numeral.text s.next } hnew
  · intro other hne
    rw [(hafter.get _).1, (hs.get _).1]
    exact get_append_of_ne hne.symm

end Store

/-! The API. -/

namespace Api

open Json (literal)

variable {r : Request} {t : Task} {d : Directory} {limit : Nat} {today : Date}

/-- A request that carries a task and is answered with 200 has had it accepted and kept. -/
theorem insert_of_posted (hasks : r.Asks .task [.post]) (hbody : r.body = Utf8.encode t.json)
    (hok : (answer ⟨limit, some today⟩ r d).status? = some 200) :
    ∃ u id, t.accept today = .ok u ∧ (Store.insert { u with id := "" } d).1 = .ok id ∧
      answer ⟨limit, some today⟩ r d =
        (some (json 200 (record "id" (literal id))), (Store.insert { u with id := "" } d).2) := by
  have heq := answer_of_asks ⟨limit, some today⟩ d hasks (by decide) (by decide)
  rw [handle_post _ d (List.mem_singleton.1 hasks.2)] at heq
  obtain ⟨response, hp, hstatus⟩ | ⟨t', hp⟩ := payload_cases r
  · rw [heq, hp] at hok
    exact absurd (hstatus ▸ Option.some.inj hok) (by decide)
  · obtain rfl := eq_of_payload hbody hp
    simp only [hp, withPart, withToday, Tasks.add] at heq
    cases ha : t'.accept today with
    | error fault =>
        rw [heq, ha] at hok
        cases hok
    | ok u =>
        rw [ha] at heq
        simp only [respond, Tasks.lift] at heq
        cases hi : (Store.insert { u with id := "" } d).1 with
        | error e =>
            rw [heq, hi] at hok
            cases e <;> cases hok
        | ok id => exact ⟨u, id, rfl, hi, by rw [heq, hi]; rfl⟩

theorem answer_get_of_ok {context : Context} {id : String} (hasks : r.Asks .task [.get])
    (hgives : r.Gives id) (hid : id ≠ "") (hget : (Store.get id d).1 = .ok t) :
    (answer context r d).1 = some (json 200 t.json) := by
  obtain ⟨hempty, _⟩ | ⟨_, heq⟩ := answer_get context d hasks hgives
  · exact absurd hempty hid
  · rw [heq, respond, Tasks.get, Tasks.lift, hget]
    rfl

theorem status_get_of_notFound {context : Context} {id : String} (hasks : r.Asks .task [.get])
    (hgives : r.Gives id) (hget : (Store.get id d).1 = .error (.notFound id)) :
    (answer context r d).status? ≠ some 200 := by
  obtain ⟨_, heq⟩ | ⟨_, heq⟩ := answer_get context d hasks hgives
  · rw [heq]
    exact show some 400 ≠ some 200 by decide
  · rw [heq, respond, Tasks.get, Tasks.lift, hget]
    exact show some 404 ≠ some 200 by decide

theorem answer_get_congr {context : Context} {d' : Directory} {id : String}
    (hasks : r.Asks .task [.get]) (hgives : r.Gives id)
    (hget : (Store.get id d').1 = (Store.get id d).1) :
    (answer context r d').1 = (answer context r d).1 := by
  obtain ⟨hid, heq⟩ | ⟨hid, heq⟩ := answer_get context d hasks hgives
  · obtain ⟨_, heq'⟩ | ⟨hne, _⟩ := answer_get context d' hasks hgives
    · rw [heq, heq']
    · exact absurd hid hne
  · obtain ⟨hempty, _⟩ | ⟨_, heq'⟩ := answer_get context d' hasks hgives
    · exact absurd hempty hid
    · rw [heq, heq']
      simp only [respond, Tasks.get, Tasks.lift, hget]

/-- A task that was sent and taken is told as it was accepted, under the identifier of the answer,
whatever identifier it came with. What could be told before, and what is told of any other
identifier, stays as it was. -/
theorem told_of_posted (hasks : r.Asks .task [.post]) (hbody : r.body = Utf8.encode t.json)
    (hok : (answer ⟨limit, some today⟩ r d).status? = some 200) :
    ∃ id u, (answer ⟨limit, some today⟩ r d).1 = some (json 200 (record "id" (literal id))) ∧
      t.accept today = .ok u ∧
      u.title = t.title ∧ u.comment = t.comment ∧ u.rule = t.rule ∧
      (∀ (context : Context) (asked : Request), asked.Asks .task [.get] → asked.Gives id →
        ∃ body, (answer context asked (answer ⟨limit, some today⟩ r d).2).1 =
            some (json 200 body) ∧
          Task.ofJson? body = some { u with id }) ∧
      ∀ (context : Context) (asked : Request) (other : String), asked.Asks .task [.get] →
        asked.Gives other → other ≠ id ∨ (answer context asked d).status? = some 200 →
        (answer context asked (answer ⟨limit, some today⟩ r d).2).1 =
          (answer context asked d).1 := by
  obtain ⟨u, id, haccept, hinsert, heq⟩ := insert_of_posted hasks hbody hok
  obtain ⟨hid, hbefore, hafter, hothers⟩ := Store.get_of_insert hinsert
  obtain ⟨_, _, _, _, _, hu⟩ := Task.accept_eq_ok_iff.1 haccept
  rw [heq]
  refine ⟨id, u, rfl, haccept, by rw [hu], by rw [hu], by rw [hu], ?_, ?_⟩
  · intro context asked hget hgives
    exact ⟨_, answer_get_of_ok hget hgives hid hafter, Task.ofJson?_json _⟩
  · rintro context asked other hget hgives hother
    refine answer_get_congr hget hgives (hothers other ?_)
    rintro rfl
    obtain hne | hstatus := hother
    · exact hne rfl
    · exact status_get_of_notFound hget hgives hbefore hstatus

/-- A task with an identifier of its own, and with texts that have to be escaped. -/
def noted : Task := { id := "7", title := "café \"\\\n", comment := "\t" }

/-- What is answered where this task is sent to a store that was just opened. -/
def answerOfNoted : Reaction :=
  answer ⟨50, some ⟨2024, 1, 10, by decide⟩⟩ (Request.sending .post noted) Store.opened

theorem told_of_noted :
    (Request.sending .post noted).Asks .task [.post] ∧ answerOfNoted.status? = some 200 ∧
      ∃ id u, answerOfNoted.1 = some (json 200 (record "id" (literal id))) ∧
        noted.accept ⟨2024, 1, 10, by decide⟩ = .ok u ∧
        ∃ body, (answer ⟨50, none⟩ (Request.asking .get .task [("id", id)]) answerOfNoted.2).1 =
            some (json 200 body) ∧
          Task.ofJson? body = some { u with id } := by
  have hasks := asks_sending .post noted
  have hok : answerOfNoted.status? = some 200 := by decide +kernel
  obtain ⟨id, u, heq, haccept, _, _, _, htold, _⟩ := told_of_posted hasks rfl hok
  exact ⟨hasks, hok, id, u, heq, haccept,
    htold _ _ (asks_asking .get .task _) (gives_asking .get .task id)⟩

end Api

end Agenda
