import Agenda.Proofs.Store.Taken
import Agenda.Proofs.Tasks.Run

/-!
What a completion comes to. From the task that is found it is known what is to become of it, before
the store is asked again: it goes, or it gets another date, or its next date cannot be told. The
tasks that are left then are those of before with this one concluded.
-/

namespace Agenda.Tasks

open Store (Ready find put)

/-- What is to become of a task that is done: it goes, or it gets this date. -/
def conclusion (now : Date) (t : Task) : Except Repeat.Error (Option String) :=
  if t.repeats then (Repeat.nextDate now t.date t.rule).map some else .ok none

/-- The tasks once the first one with this identifier was concluded. -/
def concluded (id : String) (tasks : List Task) : Option String → List Task
  | none => tasks.filter fun t => t.id ≠ id
  | some date => Store.modifyFirst id (fun t => { t with date, id }) tasks

section Conclusions

variable {d : Directory} {tasks : List Task} {id id' : String} {now : Date} {t u : Task}
  {c c' : Option String}

theorem conclude_of_error {cause : Repeat.Error} (hc : conclusion now t = .error cause)
    (id : String) (d : Directory) : conclude id now t d = (.error (.recurrence id cause), d) := by
  rw [conclusion] at hc
  rw [conclude]
  split at hc
  · rename_i hrepeats
    rw [if_pos hrepeats]
    cases hn : Repeat.nextDate now t.date t.rule with
    | error e => rw [hn] at hc; cases hc; rfl
    | ok next => rw [hn] at hc; cases hc
  · cases hc

/-- Once a conclusion is reached, what is left is one change of the tasks. -/
theorem conclude_of_ok (hc : conclusion now t = .ok c) (id : String) (d : Directory) :
    conclude id now t d = lift (match c with
      | none => Store.delete id d
      | some date => Store.updateDate id date d) := by
  rw [conclusion] at hc
  rw [conclude]
  split at hc
  · rename_i hrepeats
    rw [if_pos hrepeats]
    cases hn : Repeat.nextDate now t.date t.rule with
    | error e => rw [hn] at hc; cases hc
    | ok next => rw [hn] at hc; cases hc; rfl
  · rename_i honce
    cases hc
    rw [if_neg honce]

theorem conclude_of_found (h : Ready d tasks) (hfind : find id tasks = .ok u)
    (hc : conclusion now t = .ok c) :
    conclude id now t d = (.ok (), put (concluded id tasks c) d) := by
  rw [conclude_of_ok hc]
  cases c with
  | none =>
      simp only [h.delete_found hfind]
      rfl
  | some date =>
      simp only [Store.updateDate, h.modify_found hfind]
      rfl

theorem conclude_of_missing (h : Ready d tasks) {e : Store.Error} (hfind : find id tasks = .error e)
    (hc : conclusion now t = .ok c) : conclude id now t d = (.error (.store e), d) := by
  rw [conclude_of_ok hc]
  cases c with
  | none =>
      simp only [h.delete_missing hfind]
      rfl
  | some date =>
      simp only [Store.updateDate, h.modify_missing hfind]
      rfl

theorem get_taken (id : String) (d : Directory) :
    Tasks.get id (Store.taken d) = Tasks.get id d := by
  rw [Tasks.get, Tasks.get, Store.get, Store.perform_taken]

theorem complete_taken (id : String) (now : Date) (d : Directory) :
    Tasks.complete id now (Store.taken d) = Tasks.complete id now d := by
  rw [Tasks.complete, Tasks.complete, get_taken]

theorem complete_of_found (h : Ready d tasks) (hfind : find id tasks = .ok t) (now : Date) :
    Tasks.complete id now d = conclude id now t d := by
  rw [Tasks.complete, Tasks.get, lift, h.get, hfind]
  rfl

theorem complete_of_missing (h : Ready d tasks) {e : Store.Error} (hfind : find id tasks = .error e)
    (now : Date) : Tasks.complete id now d = (.error (.store e), d) := by
  rw [Tasks.complete, Tasks.get, lift, h.get, hfind]
  rfl

theorem complete_of_conclusion (h : Ready d tasks) (hfind : find id tasks = .ok t)
    (hc : conclusion now t = .ok c) :
    Tasks.complete id now d = (.ok (), put (concluded id tasks c) d) := by
  rw [complete_of_found h hfind, conclude_of_found h hfind hc]

theorem complete_of_no_conclusion (h : Ready d tasks) (hfind : find id tasks = .ok t)
    {cause : Repeat.Error} (hc : conclusion now t = .error cause) :
    Tasks.complete id now d = (.error (.recurrence id cause), d) := by
  rw [complete_of_found h hfind, conclude_of_error hc]

theorem find_concluded (hfind : find id tasks = .ok t) (date : String) :
    find id (concluded id tasks (some date)) = .ok { t with date, id } :=
  Store.find_modifyFirst hfind rfl

theorem find_concluded_none (id : String) (tasks : List Task) :
    find id (concluded id tasks none) = .error (.notFound id) :=
  Store.find_filter_self id tasks

theorem find_concluded_of_ne (hne : id ≠ id') (tasks : List Task) (c : Option String) :
    find id (concluded id' tasks c) = find id tasks := by
  cases c with
  | none => exact Store.find_filter_of_ne hne tasks
  | some date => exact Store.find_modifyFirst_of_ne hne (fun _ _ => rfl) tasks

/-- Different conclusions leave different tasks. -/
theorem concluded_injective (hfind : find id tasks = .ok t)
    (h : concluded id tasks c = concluded id tasks c') : c = c' := by
  have hfound := congrArg (find id) h
  cases c with
  | none =>
      cases c' with
      | none => rfl
      | some date' =>
          rw [find_concluded_none, find_concluded hfind] at hfound
          cases hfound
  | some date =>
      cases c' with
      | none =>
          rw [find_concluded_none, find_concluded hfind] at hfound
          cases hfound
      | some date' =>
          rw [find_concluded hfind, find_concluded hfind] at hfound
          cases hfound
          rfl

theorem concluded_concluded (id : String) (tasks : List Task) (date date' : String) :
    concluded id (concluded id tasks (some date)) (some date') =
      concluded id tasks (some date') := by
  refine Store.modifyFirst_modifyFirst ?_ _ tasks
  exact fun _ _ => rfl

theorem get_eq_ok_iff : (Tasks.get id d).1 = .ok t ↔ (Store.get id d).1 = .ok t := by
  rw [Tasks.get, lift]
  cases (Store.get id d).1 with
  | error e =>
      constructor
      · intro h
        cases h
      · intro h
        cases h
  | ok u =>
      constructor
      · intro h
        cases h
        rfl
      · intro h
        cases h
        rfl

theorem conclusion_of_nextOn {day : Date} (hday : Repeat.NextOn now t.date t.rule day) :
    conclusion now t = .ok (some day.compact) := by
  rw [conclusion, if_pos (repeats_of_nextOn hday), Repeat.nextDate_eq_ok_iff.2 ⟨day, hday, rfl⟩]
  rfl

/-- A task that is found and has a conclusion is concluded. -/
theorem exists_complete_eq (hget : (Tasks.get id d).1 = .ok t) (hc : conclusion now t = .ok c) :
    ∃ tasks, Ready (Store.taken d) tasks ∧ find id tasks = .ok t ∧
      Tasks.complete id now d = (.ok (), put (concluded id tasks c) (Store.taken d)) := by
  obtain ⟨tasks, hready, hfind⟩ := Store.ready_of_get (get_eq_ok_iff.1 hget)
  refine ⟨tasks, hready, hfind, ?_⟩
  rw [← complete_taken, complete_of_conclusion hready hfind hc]

/-- A task that is found and has a next day is moved to it, and it is found again. -/
theorem complete_of_nextOn {day : Date} (hget : (Tasks.get id d).1 = .ok t)
    (hday : Repeat.NextOn now t.date t.rule day) :
    (Tasks.complete id now d).1 = .ok () ∧
      (Tasks.get id (Tasks.complete id now d).2).1 = .ok { t with date := day.compact } := by
  obtain ⟨tasks, hready, hfind, heq⟩ := exists_complete_eq hget (conclusion_of_nextOn hday)
  rw [heq]
  refine ⟨rfl, get_eq_ok_iff.2 ?_⟩
  obtain ⟨_, rfl⟩ := Store.find_eq_ok hfind
  rw [(hready.put _).get, find_concluded hfind]

end Conclusions

end Agenda.Tasks
