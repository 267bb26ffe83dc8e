import Agenda.Proofs.Store.Removal
import Agenda.Proofs.Task.Acceptance
import Agenda.Proofs.Tasks.Run

/-!
Identifiers and dates along a run. A task that is kept has neither of them from whoever asked for
it: its identifier writes a number that was given out, and its date a day of the calendar. All its
other texts are as they came.
-/

namespace Agenda.Tasks

open Store

/-- The identifier writes a number up to this one, and the date a day. -/
structure Labelled (last : Nat) (t : Task) : Prop where
  id : ∃ n ≤ last, t.id = Numeral.text n
  date : ∃ day : Date, t.date = day.compact

namespace Labelled

variable {last last' : Nat} {t : Task}

theorem mono (h : Labelled last t) (hle : last ≤ last') : Labelled last' t := by
  obtain ⟨n, hn, hid⟩ := h.id
  exact ⟨⟨n, Nat.le_trans hn hle, hid⟩, h.date⟩

end Labelled

section Effects

variable {s s' : Table} {r : Request} {answer : Answer} {id : String}

theorem labelled_change {f : Task → Task} (h : ∀ t ∈ s.tasks, Labelled s.last t)
    (hchange : s.change id f = (.ok (), s'))
    (hf : ∀ t, t.id = id → Labelled s.last t → Labelled s.last (f t)) :
    ∀ t ∈ s'.tasks, Labelled s'.last t := by
  obtain ⟨_, _, rfl⟩ := Table.change_eq_ok hchange
  rw [← modifyFirst_eq_modify]
  exact forall_mem_modifyFirst h hf

theorem labelled_delete (h : ∀ t ∈ s.tasks, Labelled s.last t)
    (hdelete : s.delete id = (.ok (), s')) : ∀ t ∈ s'.tasks, Labelled s'.last t := by
  obtain ⟨_, rfl⟩ := Table.ifHeld_eq_ok hdelete
  exact fun t ht => h t (List.mem_of_mem_filter ht)

/-- What a request does labels the task that it adds or changes. -/
theorem labelled_effect (h : ∀ t ∈ s.tasks, Labelled s.last t) (heffect : Effect s r answer s') :
    ∀ t ∈ s'.tasks, Labelled s'.last t := by
  cases heffect with
  | add accepted =>
      have hlast : s.last ≤ s.next := by
        rw [← nextNumber_eq_next]
        exact Nat.le_of_lt (lt_nextNumber s.last s.tasks)
      obtain ⟨day, hday, _⟩ := Task.settled_of_accept accepted
      intro t ht
      obtain ht | ht := List.mem_append.1 ht
      · exact (h t ht).mono hlast
      · cases List.mem_singleton.1 ht
        exact ⟨⟨s.next, Nat.le_refl _, rfl⟩, day, hday.written⟩
  | update accepted changed =>
      obtain ⟨day, hday, _⟩ := Task.settled_of_accept accepted
      exact labelled_change h changed fun t hid ht => ⟨hid ▸ ht.id, day, hday.written⟩
  | reschedule _ computed changed =>
      obtain ⟨day, _, rfl⟩ := Repeat.nextDate_eq_ok_iff.1 computed
      exact labelled_change h changed fun t _ ht => ⟨ht.id, day, rfl⟩
  | finish _ _ deleted | delete deleted => exact labelled_delete h deleted

end Effects

theorem labelled_outcome {d : Directory} {s : Table} (h : Represents d s)
    (hs : ∀ t ∈ s.tasks, Labelled s.last t) (r : Request) :
    ∃ s', Represents (r.outcome d).2 s' ∧ ∀ t ∈ s'.tasks, Labelled s'.last t := by
  obtain ⟨_, hr⟩ | ⟨_, s', _, hr, heffect⟩ := outcome_follows h r
  · exact ⟨s, hr, hs⟩
  · exact ⟨s', hr, labelled_effect hs heffect⟩

theorem labelled_steps {requests : List Request} {d : Directory} {s : Table} (h : Represents d s)
    (hs : ∀ t ∈ s.tasks, Labelled s.last t) :
    ∀ step ∈ steps requests d,
      ∃ s', Represents step.after s' ∧ ∀ t ∈ s'.tasks, Labelled s'.last t := by
  induction requests generalizing d s with
  | nil => exact List.forall_mem_nil _
  | cons r requests ih =>
      obtain ⟨s', hr, hs'⟩ := labelled_outcome h hs r
      exact List.forall_mem_cons.2 ⟨⟨s', hr, hs'⟩, ih hr hs'⟩

/-- The tasks are what a step of a run leaves that started without tasks. -/
def Stored (requests : List Request) (tasks : List Task) : Prop :=
  ∃ step ∈ steps requests opened, loadTasks step.after = .ok tasks

theorem labelled_of_stored {requests : List Request} {stored tasks : List Task}
    (h : Stored requests stored) (hlisted : tasks ⊆ stored) :
    ∀ t ∈ tasks, Labelled Numeral.max64 t := by
  obtain ⟨step, hstep, htasks⟩ := h
  obtain ⟨s, hr, hs⟩ := labelled_steps represents_opened (List.forall_mem_nil _) step hstep
  cases hr.tasks.symm.trans htasks
  exact fun t ht => (hs t (hlisted ht)).mono (loadSequence_le hr.last)

theorem stored_add {t u : Task} {now : Date} (accepted : t.accept now = .ok u) :
    Stored [.add t now] [{ u with id := "1" }] :=
  ⟨_, List.mem_singleton_self _, (outcome_add represents_opened accepted (by decide)).2.tasks⟩

end Agenda.Tasks
