import Agenda.Proofs.Repeat.Occurrence
import Agenda.Proofs.Store.TasksFile
import Agenda.Proofs.Tasks.Run

/-!
What becomes of the tasks when one is done. A completion counts from the written date and moves
only the first task with its identifier. A file can hold several tasks with one identifier, so a
task is told by its place.
-/

namespace Agenda.Tasks

open Store

variable {d : Directory} {tasks : List Task} {place : Nat} {id : String}

/-- Completing a task leaves the tasks alone, moves the first one with the identifier to its next
day, or takes all of them away if that one happens once. -/
theorem loadTasks_complete (h : loadTasks d = .ok tasks) (id : String) (now : Date) :
    loadTasks (Tasks.complete id now d).2 = .ok tasks ∨
      ∃ t, find id tasks = .ok t ∧
        ((∃ day, Repeat.NextOn now t.date t.rule day ∧
            loadTasks (Tasks.complete id now d).2 =
              .ok (modifyFirst id (fun t => { t with date := day.compact, id }) tasks)) ∨
          t.repeats = false ∧ loadTasks (Tasks.complete id now d).2 =
            .ok (tasks.filter fun t => t.id ≠ id)) := by
  have hgot := loadTasks_get h id
  rw [Tasks.complete, Tasks.get, Tasks.lift]
  cases hg : Store.get id d with
  | mk answer d' =>
      rw [hg] at hgot
      cases answer with
      | error e => exact .inl hgot
      | ok t =>
          have hfound : find id tasks = .ok t := find_of_get h (by rw [hg])
          simp only [Except.mapError, conclude]
          -- The change is an operation of its own, which can still fail where looking up did not.
          split
          · cases hn : Repeat.nextDate now t.date t.rule with
            | error cause => exact .inl hgot
            | ok next =>
                obtain ⟨day, hday, rfl⟩ := Repeat.nextDate_eq_ok_iff.1 hn
                obtain hleft | hleft := loadTasks_modify hgot id fun t =>
                  { t with date := day.compact }
                · exact .inl hleft
                · exact .inr ⟨t, hfound, .inl ⟨day, hday, hleft⟩⟩
          · rename_i honce
            obtain hleft | hleft := loadTasks_delete hgot id
            · exact .inl hleft
            · exact .inr ⟨t, hfound, .inr ⟨Bool.eq_false_iff.2 honce, hleft⟩⟩

/-- The task with this identifier that is kept at this place. -/
def Kept (d : Directory) (place : Nat) (id : String) (t : Task) : Prop :=
  ∃ tasks, loadTasks d = .ok tasks ∧ tasks[place]? = some t ∧ t.id = id

def FallsOn (d : Directory) (place : Nat) (id : String) (day : Date) : Prop :=
  ∃ t, Kept d place id t ∧ Date.ofCompact? t.date = some day

theorem Kept.unique {t u : Task} (ht : Kept d place id t) (hu : Kept d place id u) : t = u := by
  obtain ⟨tasks, htasks, ht, _⟩ := ht
  obtain ⟨tasks', htasks', hu, _⟩ := hu
  cases htasks.symm.trans htasks'
  cases ht.symm.trans hu
  rfl

theorem FallsOn.unique {a b : Date} (ha : FallsOn d place id a) (hb : FallsOn d place id b) :
    a = b := by
  obtain ⟨t, ht, ha⟩ := ha
  obtain ⟨u, hu, hb⟩ := hb
  cases ht.unique hu
  cases ha.symm.trans hb
  rfl

/-- A task that is kept after a completion was kept at its place before, on the same day or on the
day before that in its rule. -/
theorem kept_complete {now : Date} {u : Task} (h : loadTasks d = .ok tasks)
    (hu : Kept (Tasks.complete id now d).2 place id u) :
    ∃ t, Kept d place id t ∧
      (u = t ∨ ∃ day, Repeat.NextOn now t.date t.rule day ∧ u = { t with date := day.compact }) := by
  obtain ⟨after, hafter, hplace, hid⟩ := hu
  obtain hleft | ⟨t, hfound, ⟨day, hday, hleft⟩ | ⟨_, hleft⟩⟩ := loadTasks_complete h id now
  · cases hafter.symm.trans hleft
    exact ⟨u, ⟨tasks, h, hplace, hid⟩, .inl rfl⟩
  · cases hafter.symm.trans hleft
    obtain ⟨v, hv, rfl | ⟨hfound', rfl, rfl⟩⟩ := getElem?_modifyFirst hplace
    · exact ⟨u, ⟨tasks, h, hv, hid⟩, .inl rfl⟩
    · cases hfound.symm.trans hfound'
      exact ⟨t, ⟨tasks, h, hv, rfl⟩, .inr ⟨day, hday, rfl⟩⟩
  · cases hafter.symm.trans hleft
    have hne := List.of_mem_filter (List.mem_of_getElem? hplace)
    exact absurd hid (of_decide_eq_true hne)

/-! The first task with an identifier, and nothing else, is what a completion moves. -/

theorem exists_date_of_complete {pre post : List Task} {t : Task}
    (h : loadTasks d = .ok (pre ++ t :: post)) (hfirst : ∀ u ∈ pre, u.id ≠ t.id)
    (hrepeats : t.repeats = true) (now : Date) :
    ∃ date, loadTasks (Tasks.complete t.id now d).2 = .ok (pre ++ { t with date } :: post) := by
  obtain hleft | ⟨u, hu, ⟨day, _, hleft⟩ | ⟨honce, _⟩⟩ := loadTasks_complete h t.id now
  · exact ⟨t.date, hleft⟩
  · rw [modifyFirst_append hfirst] at hleft
    exact ⟨day.compact, hleft⟩
  · rw [find_append hfirst] at hu
    cases hu
    rw [hrepeats] at honce
    cases honce

theorem exists_date_of_steps {pre post : List Task} {t : Task} {nows : List Date}
    (h : loadTasks d = .ok (pre ++ t :: post)) (hfirst : ∀ u ∈ pre, u.id ≠ t.id)
    (hrepeats : t.repeats = true) :
    ∀ step ∈ steps (nows.map (Request.complete t.id)) d,
      ∃ date, loadTasks step.after = .ok (pre ++ { t with date } :: post) := by
  induction nows generalizing d t with
  | nil => exact List.forall_mem_nil _
  | cons now nows ih =>
      obtain ⟨date, hafter⟩ := exists_date_of_complete h hfirst hrepeats now
      rw [List.map_cons, steps, List.forall_mem_cons]
      exact ⟨⟨date, hafter⟩, ih (t := { t with date }) hafter hfirst hrepeats⟩

end Agenda.Tasks
