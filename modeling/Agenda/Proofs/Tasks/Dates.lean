import Agenda.Proofs.Task.Acceptance
import Agenda.Proofs.Tasks.Run

/-!
Which runs leave only dates that can be read again. A kept date and a date moved to today always
can; the next date of a repeating task can unless it lies behind the year 9999, for the written
form of a date has no end while the reader's has.
-/

namespace Agenda

namespace Tasks

open Store

/-- Every date can be read. -/
def Readable (tasks : List Task) : Prop := ∀ t ∈ tasks, (Date.ofCompact? t.date).isSome

/-- The tasks can be read, and so can the date of each. -/
def DatesRead (d : Directory) : Prop := ∃ tasks, loadTasks d = .ok tasks ∧ Readable tasks

theorem datesRead_iff {d : Directory} {s : Table} (h : Represents d s) :
    DatesRead d ↔ Readable s.tasks := by
  constructor
  · rintro ⟨tasks, htasks, hread⟩
    cases h.tasks.symm.trans htasks
    exact hread
  · intro hread
    exact ⟨s.tasks, h.tasks, hread⟩

/-- A request computes this day from the rule of its task. -/
def Request.Computes (d : Directory) (day : Date) : Request → Prop
  | add t now | update t now => t.MovesTo now day
  | complete id now =>
      ∃ t, (Tasks.get id d).1 = .ok t ∧ Repeat.NextOn now t.date t.rule day
  | delete _ => False

/-- A step moves its task to this day, the next one of the task's rule. -/
def Step.Moves (step : Step) (day : Date) : Prop :=
  (∃ answer, (step.request.outcome step.before).1 = .ok answer) ∧ step.request.Computes step.before day

theorem readable_modify {tasks : List Task} {i : Nat} {t : Task} {f : Task → Task}
    (hread : Readable tasks) (ht : tasks[i]? = some t) :
    Readable (tasks.modify i f) ↔ (Date.ofCompact? (f t).date).isSome := by
  constructor
  · intro h
    apply h
    refine List.mem_of_getElem? (i := i) ?_
    rw [List.getElem?_modify_eq, ht]
    rfl
  · intro h u hu
    obtain ⟨j, hj⟩ := List.mem_iff_getElem?.1 hu
    by_cases hij : i = j
    · subst hij
      rw [List.getElem?_modify_eq, ht] at hj
      cases hj
      exact h
    · rw [List.getElem?_modify_ne f _ hij] at hj
      exact hread u (List.mem_of_getElem? hj)

theorem readable_change {s s' : Table} {id : String} {t : Task} {f : Task → Task}
    (hread : Readable s.tasks) (ht : s.get id = .ok t) (h : s.change id f = (.ok (), s')) :
    Readable s'.tasks ↔ (Date.ofCompact? (f t).date).isSome := by
  obtain ⟨_, _, rfl⟩ := Table.change_eq_ok h
  exact readable_modify hread (Table.getElem?_findIdx_of_find? (Table.get_eq_ok_iff.1 ht)).1

theorem readable_delete {s s' : Table} {id : String} (hread : Readable s.tasks)
    (h : s.delete id = (.ok (), s')) : Readable s'.tasks := by
  obtain ⟨_, rfl⟩ := Table.ifHeld_eq_ok h
  intro t ht
  exact hread t (List.mem_of_mem_filter ht)

theorem get_of_represents {d : Directory} {s : Table} {id : String} {t u : Task}
    (h : Represents d s) (ht : s.get id = .ok t) (hu : (Tasks.get id d).1 = .ok u) : u = t := by
  rw [(agrees_get h id).1, ht] at hu
  cases hu
  rfl

/-- What a request does leaves dates that can be read, unless it moved its task behind the year
9999. -/
theorem readable_effect {d : Directory} {s s' : Table} {r : Request} {answer : Answer}
    (h : Represents d s) (hread : Readable s.tasks) (hnow : ∀ now ∈ r.today?, now.HasShortYear)
    (heffect : Effect s r answer s') :
    Readable s'.tasks ↔ ∀ day, r.Computes d day → day.year ≤ 9999 := by
  cases heffect with
  | @add t u now accepted =>
      refine Iff.trans ?_ (Task.isSome_ofCompact?_accept (hnow _ rfl) accepted)
      constructor
      · intro hall
        exact hall { u with id := Numeral.text s.next }
          (List.mem_append_right _ (List.mem_singleton.2 rfl))
      · intro hu v hv
        obtain ht | ht := List.mem_append.1 hv
        · exact hread v ht
        · cases List.mem_singleton.1 ht
          exact hu
  | update accepted changed =>
      obtain ⟨t, ht, _⟩ := Table.change_eq_ok changed
      rw [readable_change hread ht changed, Task.isSome_ofCompact?_accept (hnow _ rfl) accepted]
      rfl
  | reschedule found computed changed =>
      obtain ⟨day, hday, rfl⟩ := Repeat.nextDate_eq_ok_iff.1 computed
      rw [readable_change hread found changed, Task.isSome_ofCompact?_next hday]
      constructor
      · rintro hyear day' ⟨u, hu, hday'⟩
        cases get_of_represents h found hu
        rwa [hday'.unique hday]
      · intro hall
        refine hall day ⟨_, ?_, hday⟩
        rw [(agrees_get h _).1, found]
        rfl
  | finish found once deleted =>
      refine iff_of_true (readable_delete hread deleted) ?_
      rintro day ⟨u, hu, hday⟩
      cases get_of_represents h found hu
      exact absurd hday (Repeat.not_nextOn_of_rule_eq_empty (Task.repeats_eq_false_iff.1 once))
  | delete deleted => exact iff_of_true (readable_delete hread deleted) fun _ => False.elim

theorem datesRead_outcome {d : Directory} {s : Table} {r : Request} (h : Represents d s)
    (hread : Readable s.tasks) (hnow : ∀ now ∈ r.today?, now.HasShortYear) :
    DatesRead (r.outcome d).2 ↔ ∀ day, Step.Moves ⟨d, r, (r.outcome d).2⟩ day → day.year ≤ 9999 := by
  obtain ⟨⟨e, he⟩, hr⟩ | ⟨answer, s', hok, hr, heffect⟩ := outcome_follows h r
  · refine iff_of_true ((datesRead_iff hr).2 hread) ?_
    rintro day ⟨⟨_, hok⟩, _⟩
    cases he.symm.trans hok
  · rw [datesRead_iff hr, readable_effect h hread hnow heffect]
    constructor
    · intro hall day hday
      exact hall day hday.2
    · intro hall day hday
      exact hall day ⟨⟨answer, hok⟩, hday⟩

theorem datesRead_steps {d : Directory} {s : Table} {requests : List Request} (h : Represents d s)
    (hread : Readable s.tasks) (hnow : ∀ r ∈ requests, ∀ now ∈ r.today?, now.HasShortYear) :
    (∀ step ∈ steps requests d, DatesRead step.after) ↔
      ∀ step ∈ steps requests d, ∀ day, step.Moves day → day.year ≤ 9999 := by
  induction requests generalizing d s with
  | nil => exact iff_of_true (List.forall_mem_nil _) (List.forall_mem_nil _)
  | cons r requests ih =>
      rw [List.forall_mem_cons] at hnow
      rw [steps, List.forall_mem_cons, List.forall_mem_cons, datesRead_outcome h hread hnow.1]
      -- The rest of the run starts from dates that can be read, since its first step left them.
      refine and_congr_right fun hmoves => ?_
      obtain ⟨s', hr⟩ := exists_represents_outcome h r
      exact ih hr ((datesRead_iff hr).1 ((datesRead_outcome h hread hnow.1).2 hmoves)) hnow.2

/-- Starting without tasks, a run keeps dates that can be read exactly as long as it moves no
task behind the year 9999. -/
theorem datesRead_steps_opened {requests : List Request}
    (hnow : ∀ r ∈ requests, ∀ now ∈ r.today?, now.HasShortYear) :
    (∀ step ∈ steps requests opened, DatesRead step.after) ↔
      ∀ step ∈ steps requests opened, ∀ day, step.Moves day → day.year ≤ 9999 :=
  datesRead_steps represents_opened (List.forall_mem_nil _) hnow

theorem not_datesRead_of_last_day :
    ¬ ∀ step ∈ steps [.add { title := "a", date := "99991231", rule := "y" }
      ⟨9999, 12, 31, by decide⟩] opened, DatesRead step.after := by
  intro h
  have hmoves := (datesRead_steps_opened (by decide)).1 h _ List.mem_cons_self
    ⟨10000, 12, 31, by decide⟩
  have haccept : Task.accept ⟨9999, 12, 31, by decide⟩
      { title := "a", date := "99991231", rule := "y" } =
        .ok { title := "a", date := "+100001231", rule := "y" } := rfl
  have hok := (outcome_add represents_opened haccept (by decide)).1
  exact absurd (hmoves ⟨⟨_, hok⟩, ⟨_, rfl, rfl⟩, _, .yearly, rfl, rfl, rfl⟩) (by decide)

end Tasks

end Agenda
