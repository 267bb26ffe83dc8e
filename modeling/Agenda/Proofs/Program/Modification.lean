import Agenda.Program.Dispatch
import Agenda.Proofs.Task.Acceptance
import Agenda.Proofs.Tasks.Outcome
import Agenda.Proofs.Tasks.Unchanged

/-!
What a modification keeps. The parts of a task that are not given stay as they are, letter by
letter, except for the date: it is looked at again like that of a new task, so it can move although
nothing was said about it.
-/

namespace Agenda

namespace Task

variable {now start : Date} {t u : Task}

/-- The day from which a task with this date counts; without a date it is today. -/
def StartsOn (now : Date) (date : String) (start : Date) : Prop :=
  date = "" ∧ start = now ∨ Date.ofCompact? date = some start

/-- The date of an accepted task, by the date and the rule that it had: a later date stays, and any
other gives way to today, or to the first occurrence after today of a rule that counts from it. -/
inductive Redated (now : Date) (date rule : String) : String → Prop where
  | kept {start : Date} (starts : StartsOn now date start) (later : start.isAfter now = true) :
      Redated now date rule date
  | once {start : Date} (starts : StartsOn now date start) (reached : start.isAfter now = false)
      (once : rule = "") : Redated now date rule now.compact
  | next {start day : Date} {r : Repeat.Rule} {k : Nat} (starts : StartsOn now date start)
      (reached : start.isAfter now = false) (reads : Repeat.Rule.ofText rule = .ok r)
      (first : r.IsFirstAfter start now k day) : Redated now date rule day.compact

theorem startsOn_of_startText (h : Date.ofCompact? (t.startText now) = some start) :
    StartsOn now t.date start := by
  rw [startText] at h
  split at h
  · rename_i hempty
    have hshort : now.HasShortYear := Date.isSome_ofCompact?_compact.1 (Option.isSome_of_eq_some h)
    cases h.symm.trans (Date.ofCompact?_compact hshort)
    exact .inl ⟨hempty, rfl⟩
  · exact .inr h

theorem startText_of_isAfter (hstart : Date.ofCompact? (t.startText now) = some start)
    (hafter : start.isAfter now = true) : t.startText now = t.date := by
  obtain ⟨_, rfl⟩ | hread := startsOn_of_startText hstart
  · rw [Date.isAfter_self] at hafter
    cases hafter
  · exact startText_of_readable hread

theorem redated_of_accept (h : t.accept now = .ok u) :
    u = { t with date := u.date } ∧ Redated now t.date t.rule u.date := by
  obtain ⟨start, hstart, hcases⟩ := accept_eq_ok h
  obtain ⟨_, _, _, _, _, rfl⟩ := accept_eq_ok_iff.1 h
  refine ⟨rfl, ?_⟩
  have hstarts := startsOn_of_startText hstart
  obtain ⟨hafter, hdate⟩ | ⟨hafter, hrule, hdate⟩ | ⟨day, ⟨hreached, hnext⟩, hdate⟩ := hcases
  · rw [hdate, startText_of_isAfter hstart hafter]
    exact .kept hstarts hafter
  · rw [hdate]
    exact .once hstarts hafter hrule
  · obtain ⟨start', hstart', hafter⟩ := hreached
    obtain ⟨start'', r, hstart'', hr, hday⟩ := hnext
    cases hstart.symm.trans hstart'
    cases hstart.symm.trans hstart''
    obtain ⟨k, hfirst⟩ := Repeat.Rule.nextAfter_eq_ok_iff.1 hday
    rw [hdate]
    exact .next hstarts hafter hr hfirst

end Task

namespace Program

open Store (Outcome FirstWith SameFiles loadTasks)
open Usage (Fields)

section Modification

variable {context : Context} {d : Directory} {tasks : List Task} {id : String}

/-- What becomes of a task by a modification: what is given takes the place of its own parts, what
is not given stays, and then the date is looked at again. -/
structure Modified (today : Date) (title : Option String) (fields : Fields) (t u : Task) :
    Prop where
  id : u.id = t.id
  title : u.title = title.getD t.title
  comment : u.comment = fields.comment.getD t.comment
  rule : u.rule = fields.rule.getD t.rule
  date : Task.Redated today (fields.date.getD t.date) u.rule u.date

theorem modified_of_accept {today : Date} {title : Option String} {fields : Fields} {t u : Task}
    (h : (fields.revise title t).accept today = .ok u) : Modified today title fields t u := by
  obtain ⟨hu, hdate⟩ := Task.redated_of_accept h
  have hrule : u.rule = fields.rule.getD t.rule := by rw [hu]; rfl
  refine ⟨by rw [hu]; rfl, by rw [hu]; rfl, by rw [hu]; rfl, hrule, ?_⟩
  rw [hrule]
  exact hdate

theorem ok_of_report {α : Type} {text : α → String} {outcome : Outcome Tasks.Error α}
    {answer : Answer} (h : (report context text outcome).1 = .ok answer) :
    ∃ a, outcome.1 = .ok a := by
  rw [report] at h
  cases ho : outcome.1 with
  | ok a => exact ⟨a, rfl⟩
  | error e =>
      rw [ho] at h
      cases h

theorem unchanged_report {α : Type} {outcome : Outcome Tasks.Error α}
    (h : Store.UnchangedOnError d outcome) (context : Context) (text : α → String) :
    Store.UnchangedOnError d (report context text outcome) := by
  obtain ⟨answer, d'⟩ := outcome
  intro e he
  cases answer with
  | error e' => exact h e' rfl
  | ok _ => cases he

/-- A modification that fails leaves both files alone. One that succeeds puts in the place of the
first task with the identifier what is to become of it, and leaves all other tasks and the last
number alone. -/
theorem modify_keeps_rest (htasks : loadTasks d = .ok tasks) (context : Context) (id : String)
    (title : Option String) (fields : Fields) :
    (∀ answer, (dispatch context (.modify id title fields) d).1 = .ok answer →
      ∃ pre t post u, FirstWith id tasks pre t post ∧ Modified context.today title fields t u ∧
        loadTasks (dispatch context (.modify id title fields) d).2 = .ok (pre ++ u :: post) ∧
        (dispatch context (.modify id title fields) d).2.sequence = d.sequence) ∧
    ∀ e, (dispatch context (.modify id title fields) d).1 = .error e →
      SameFiles d (dispatch context (.modify id title fields) d).2 := by
  constructor
  · intro answer hanswer
    obtain ⟨_, hok⟩ := ok_of_report hanswer
    have hlock : d.lock ≠ .folder := by
      intro hlock
      rw [Tasks.revise, Tasks.get_of_lock_folder hlock] at hok
      cases hok
    have hkept (t : Task) : (fields.revise title t).id = t.id := rfl
    have hrevision := Tasks.revision (Store.ready_taken htasks hlock) hkept id context.today
    rw [Tasks.revise_taken] at hrevision
    obtain ⟨pre, t, post, u, hfirst, haccept, hleft⟩ := hrevision.of_ok hok
    refine ⟨pre, t, post, u, hfirst, modified_of_accept haccept, ?_, ?_⟩
    · exact (congrArg loadTasks hleft).trans (Store.loadTasks_set_encode _ _)
    · exact (congrArg Directory.sequence hleft).trans (Store.sameFiles_taken d).sequence
  · exact unchanged_report (Tasks.unchanged_revise id context.today _ d) context _

def gardening : Context :=
  { settings := Settings.defaults, colored := false, today := ⟨2024, 2, 5, by decide⟩,
    folder := "." }

def watering : Task := { id := "1", date := "20240110", title := "water", comment := "roses" }

def garden : Directory :=
  { tasks := .file (Store.Rows.encode [watering]), sequence := .file (Store.Sequence.encode 1) }

/-- Told to come back every week, the task is moved as well, and keeps its title and its comment. -/
theorem modify_keeps_watering :
    loadTasks garden = .ok [watering] ∧
      (dispatch gardening (.modify "1" none { rule := some "d 7" }) garden).1 =
        .ok (.text "Modified task 1.\n") ∧
      ∃ pre t post u, FirstWith "1" [watering] pre t post ∧
        Modified gardening.today none { rule := some "d 7" } t u ∧
        loadTasks (dispatch gardening (.modify "1" none { rule := some "d 7" }) garden).2 =
          .ok (pre ++ u :: post) ∧
        (dispatch gardening (.modify "1" none { rule := some "d 7" }) garden).2.sequence =
          garden.sequence := by
  have htasks : loadTasks garden = .ok [watering] := Store.Rows.decode_encode _
  have hanswer : (dispatch gardening (.modify "1" none { rule := some "d 7" }) garden).1 =
      .ok (.text "Modified task 1.\n") := by
    decide +kernel
  exact ⟨htasks, hanswer, (modify_keeps_rest htasks gardening "1" none _).1 _ hanswer⟩

end Modification

end Program

end Agenda
