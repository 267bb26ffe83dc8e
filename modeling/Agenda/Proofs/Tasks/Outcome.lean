import Agenda.Proofs.Repeat.Order
import Agenda.Proofs.Task.Sound
import Agenda.Proofs.Tasks.Conclusion

/-!
What a completion and a revision answer and leave, whatever the tasks are: there can be several with
one identifier, and dates and rules that make no sense. The first task with the identifier decides.
All that either can do is said once, and the rest is read from it.
-/

namespace Agenda.Tasks

open Store

theorem get_of_lock_folder {d : Directory} (hlock : d.lock = .folder) (id : String) :
    Tasks.get id d = (.error (.store (.file .lock .isFolder)), d) := by
  rw [Tasks.get, lift, Store.get, perform_of_lock_folder hlock]
  rfl

section Completions

variable {d : Directory} {tasks : List Task} {id : String} {now : Date} {t : Task}

theorem conclusion_of_once (h : t.rule = "") (now : Date) : conclusion now t = .ok none := by
  rw [conclusion, Task.repeats_eq_false_iff.2 h]
  rfl

theorem conclusion_of_nextDate {next : String} (h : Repeat.nextDate now t.date t.rule = .ok next) :
    conclusion now t = .ok (some next) := by
  obtain ⟨day, hday, rfl⟩ := Repeat.nextDate_eq_ok_iff.1 h
  exact conclusion_of_nextOn hday

theorem conclusion_of_no_date {cause : Repeat.Error} (hrule : t.rule ≠ "")
    (h : Repeat.nextDate now t.date t.rule = .error cause) : conclusion now t = .error cause := by
  rw [conclusion, if_pos (Task.repeats_eq_true_iff.2 hrule), h]
  rfl

/-- All that a completion can do once the lock is taken. -/
inductive Completion (tasks : List Task) (id : String) (now : Date) (d : Directory) :
    Outcome Error Unit → Prop where
  | missing (missing : find id tasks = .error (.notFound id)) :
      Completion tasks id now d (.error (.store (.notFound id)), d)
  | stuck {t : Task} {cause : Repeat.Error} (found : find id tasks = .ok t)
      (none : conclusion now t = .error cause) :
      Completion tasks id now d (.error (.recurrence id cause), d)
  | finished {t : Task} {c : Option String} (found : find id tasks = .ok t)
      (reached : conclusion now t = .ok c) :
      Completion tasks id now d (.ok (), put (concluded id tasks c) d)

theorem completion (h : Ready d tasks) (id : String) (now : Date) :
    Completion tasks id now d (Tasks.complete id now d) := by
  obtain hmissing | ⟨t, hfind⟩ := find_cases id tasks
  · rw [complete_of_missing h hmissing]
    exact .missing hmissing
  · cases hc : conclusion now t with
    | error cause =>
        rw [complete_of_no_conclusion h hfind hc]
        exact .stuck hfind hc
    | ok c =>
        rw [complete_of_conclusion h hfind hc]
        exact .finished hfind hc

namespace Completion

variable {outcome : Outcome Error Unit}

theorem notFound_iff (h : Completion tasks id now d outcome) :
    outcome.1 = .error (.store (.notFound id)) ↔ ∀ t ∈ tasks, t.id ≠ id := by
  rw [← find_eq_error_iff]
  cases h with
  | missing missing => exact iff_of_true rfl missing
  | stuck found none | finished found reached => exact iff_of_false nofun (found ▸ nofun)

theorem sequence (h : Completion tasks id now d outcome) : outcome.2.sequence = d.sequence := by
  cases h with
  | missing _ | stuck _ _ | finished _ _ => rfl

theorem of_error {e : Error} (h : Completion tasks id now d outcome) (he : outcome.1 = .error e) :
    outcome.2 = d := by
  cases h with
  | missing _ | stuck _ _ => rfl
  | finished _ _ => cases he

end Completion

/-- What is to be seen of a completion: it finds no task with the identifier; or the first one is
done for good, and goes with all others of that identifier; or it alone is moved, to a day behind
today and behind the day so far; or it has no next date. -/
structure Completed (tasks : List Task) (id : String) (now : Date) (d : Directory)
    (outcome : Outcome Error Unit) : Prop where
  missing : outcome.1 = .error (.store (.notFound id)) ↔ ∀ t ∈ tasks, t.id ≠ id
  once : ∀ pre t post, FirstWith id tasks pre t post → t.rule = "" →
    outcome.1 = .ok () ∧ loadTasks outcome.2 = .ok (tasks.filter fun u => u.id ≠ id)
  moved : ∀ pre t post next, FirstWith id tasks pre t post → t.rule ≠ "" →
    Repeat.nextDate now t.date t.rule = .ok next →
      outcome.1 = .ok () ∧ loadTasks outcome.2 = .ok (pre ++ { t with date := next } :: post) ∧
        ∃ start day, Date.ofCompact? t.date = some start ∧ next = day.compact ∧
          (day.year ≤ 9999 → Date.ofCompact? next = some day) ∧
          day.isAfter now = true ∧ day.isAfter start = true
  stuck : ∀ pre t post cause, FirstWith id tasks pre t post → t.rule ≠ "" →
    Repeat.nextDate now t.date t.rule = .error cause → outcome.1 = .error (.recurrence id cause)
  failed : ∀ e, outcome.1 = .error e → SameFiles d outcome.2
  sequence : outcome.2.sequence = d.sequence

theorem completed_of_lock (htasks : loadTasks d = .ok tasks) (hlock : d.lock ≠ .folder)
    (id : String) (now : Date) : Completed tasks id now d (Tasks.complete id now d) := by
  have hready := ready_taken htasks hlock
  have hsame := sameFiles_taken d
  have h := completion hready id now
  rw [← complete_taken]
  refine ⟨h.notFound_iff, ?_, ?_, ?_, ?_, h.sequence.trans hsame.sequence⟩
  · intro pre t post hfirst hrule
    rw [complete_of_conclusion hready hfirst.find (conclusion_of_once hrule now)]
    exact ⟨rfl, loadTasks_set_encode _ _⟩
  · intro pre t post next hfirst _ hnext
    rw [complete_of_conclusion hready hfirst.find (conclusion_of_nextDate hnext), concluded,
      hfirst.modifyFirst]
    obtain ⟨rfl, rfl, _⟩ := hfirst
    exact ⟨rfl, loadTasks_set_encode _ _, Repeat.exists_later_of_nextDate hnext⟩
  · intro pre t post cause hfirst hrule hcause
    rw [complete_of_no_conclusion hready hfirst.find (conclusion_of_no_date hrule hcause)]
  · intro e he
    rw [h.of_error he]
    exact hsame

/-- Completing a task does what is to be seen of a completion, unless a folder lies in the place of
the lock: then it fails at once and changes nothing. -/
theorem completed_or_locked_out (htasks : loadTasks d = .ok tasks) (id : String) (now : Date) :
    d.lock ≠ .folder ∧ Completed tasks id now d (Tasks.complete id now d) ∨
      d.lock = .folder ∧
        Tasks.complete id now d = (.error (.store (.file .lock .isFolder)), d) := by
  by_cases hlock : d.lock = .folder
  · refine .inr ⟨hlock, ?_⟩
    rw [Tasks.complete, get_of_lock_folder hlock]
  · exact .inl ⟨hlock, completed_of_lock htasks hlock id now⟩

/-- A task that comes back every week, and one that happens once, under one identifier. -/
def twins (date : String) : List Task :=
  [{ id := "1", date, title := "a", rule := "d 7" }, { id := "1", date := "soon", title := "b" }]

theorem completed_of_twins :
    loadTasks (put (twins "20240110") opened) = .ok (twins "20240110") ∧
      (Tasks.complete "1" ⟨2024, 1, 3, by decide⟩ (put (twins "20240110") opened)).1 = .ok () ∧
      loadTasks (Tasks.complete "1" ⟨2024, 1, 3, by decide⟩ (put (twins "20240110") opened)).2 =
        .ok (twins "20240117") := by
  have htasks : loadTasks (put (twins "20240110") opened) = .ok (twins "20240110") :=
    loadTasks_set_encode _ _
  obtain ⟨_, h⟩ | ⟨hlock, _⟩ := completed_or_locked_out htasks "1" ⟨2024, 1, 3, by decide⟩
  · obtain ⟨hdone, hleft, _⟩ := h.moved [] _ _ "20240117" ⟨rfl, rfl, nofun⟩ nofun rfl
    exact ⟨htasks, hdone, hleft⟩
  · cases hlock

/-- With a folder in the place of the lock it is not told that a task is missing. -/
theorem not_notFound_of_lock_folder :
    ¬ ∀ (d : Directory) (tasks : List Task) (id : String) (now : Date), loadTasks d = .ok tasks →
      ((Tasks.complete id now d).1 = .error (.store (.notFound id)) ↔ ∀ t ∈ tasks, t.id ≠ id) := by
  intro h
  have hmissing := (h { opened with lock := .folder } [] "1" ⟨2024, 1, 10, by decide⟩
    represents_opened.tasks).2 nofun
  cases hmissing

end Completions

section Revisions

variable {d : Directory} {tasks : List Task} {id : String} {now : Date} {change : Task → Task}
  {outcome : Outcome Error Unit}

/-- All that a revision can do once the lock is taken. -/
inductive Revision (tasks : List Task) (id : String) (now : Date) (change : Task → Task)
    (d : Directory) : Outcome Error Unit → Prop where
  | missing (missing : find id tasks = .error (.notFound id)) :
      Revision tasks id now change d (.error (.store (.notFound id)), d)
  | unnamed {t : Task} (found : find id tasks = .ok t) (unnamed : id = "") :
      Revision tasks id now change d (.error (.refused .missingId), d)
  | refused {t : Task} {fault : Task.Fault} (found : find id tasks = .ok t) (named : id ≠ "")
      (refused : (change t).accept now = .error fault) :
      Revision tasks id now change d (.error (.refused fault), d)
  | accepted {t u : Task} (found : find id tasks = .ok t) (named : id ≠ "")
      (accepted : (change t).accept now = .ok u) :
      Revision tasks id now change d (.ok (), put (Store.modifyFirst id (fun _ => u) tasks) d)

theorem revise_taken (id : String) (now : Date) (change : Task → Task) (d : Directory) :
    Tasks.revise id now change (Store.taken d) = Tasks.revise id now change d := by
  rw [Tasks.revise, Tasks.revise, get_taken]

theorem revision (h : Ready d tasks) (hchange : ∀ t : Task, (change t).id = t.id) (id : String)
    (now : Date) : Revision tasks id now change d (Tasks.revise id now change d) := by
  rw [Tasks.revise, Tasks.get, lift, h.get]
  obtain hmissing | ⟨t, hfind⟩ := find_cases id tasks
  · rw [hmissing]
    exact .missing hmissing
  · rw [hfind]
    obtain ⟨_, hid⟩ := find_eq_ok hfind
    have hsame : (change t).id = id := (hchange t).trans hid
    simp only [Except.mapError, Tasks.update, hsame]
    by_cases hempty : id = ""
    · rw [if_pos hempty]
      exact .unnamed hfind hempty
    · rw [if_neg hempty]
      cases haccept : (change t).accept now with
      | error fault => exact .refused hfind hempty haccept
      | ok u =>
          have hu : u.id = id := by
            obtain ⟨_, _, _, _, _, rfl⟩ := Task.accept_eq_ok_iff.1 haccept
            exact hsame
          have hfound : find u.id tasks = .ok t := hu.symm ▸ hfind
          simp only [h.update_found hfound, hu]
          exact .accepted hfind hempty haccept

/-- A revision that succeeds puts an accepted task in the place of the first one. -/
theorem Revision.of_ok (h : Revision tasks id now change d outcome) (hok : outcome.1 = .ok ()) :
    ∃ pre t post u, FirstWith id tasks pre t post ∧ (change t).accept now = .ok u ∧
      outcome.2 = put (pre ++ u :: post) d := by
  cases h with
  | missing _ | unnamed _ _ | refused _ _ _ => cases hok
  | accepted found named accepted =>
      obtain ⟨pre, post, hfirst⟩ := FirstWith.of_find found
      exact ⟨pre, _, post, _, hfirst, accepted, by rw [hfirst.modifyFirst]⟩

end Revisions

end Agenda.Tasks
