import Agenda.Proofs.Store.Effect
import Agenda.Proofs.Tasks.Run

/-!
Failures leave both files as they were, whatever these and the lock are: the operations of a store,
since they write only what can be written, and the operations on tasks, since all they do before
their last step is to look.
-/

namespace Agenda

namespace Store

/-- Where there is an error, both files are as they were. -/
def UnchangedOnError {ε α : Type} (d : Directory) (outcome : Outcome ε α) : Prop :=
  ∀ e, outcome.1 = .error e → SameFiles d outcome.2

theorem UnchangedOnError.failed {ε α : Type} (d : Directory) (e : ε) :
    UnchangedOnError d ((.error e, d) : Outcome ε α) :=
  fun _ _ => .refl d

theorem UnchangedOnError.behind {ε α : Type} {d d' : Directory} {outcome : Outcome ε α}
    (h : SameFiles d d') (h' : UnchangedOnError d' outcome) : UnchangedOnError d outcome :=
  fun e he => h.trans (h' e he)

theorem unchanged_perform {α : Type} {plan : Plan α} (h : plan.Writable) (d : Directory) :
    UnchangedOnError d (perform plan d) := by
  intro e he
  obtain ⟨_, d', heq, hsame⟩ | ⟨locked, change, d', _, _, _, heq⟩ := perform_cases h d
  · rw [heq]
    exact hsame
  · rw [heq] at he
    cases he

theorem unchanged_onFiles {r : Request} (hr : r ≠ .reopen) (d : Directory) :
    UnchangedOnError d (r.onFiles d) :=
  fun _ he => (effect_onFiles r d).sameFiles_of_error hr he

theorem unchanged_reply {ε α : Type} {answer : α → Answer} {d : Directory} {outcome : Outcome ε α}
    (h : UnchangedOnError d outcome) : UnchangedOnError d (reply answer outcome) := by
  obtain ⟨result, d'⟩ := outcome
  intro e he
  cases result with
  | error e' => exact h e' rfl
  | ok _ => cases he

end Store

namespace Tasks

open Store

theorem unchanged_lift {α : Type} {d : Directory} {outcome : Outcome Store.Error α}
    (h : UnchangedOnError d outcome) : UnchangedOnError d (Tasks.lift outcome) := by
  obtain ⟨answer, d'⟩ := outcome
  intro e he
  cases answer with
  | error e' => exact h e' rfl
  | ok _ => cases he

theorem unchanged_add (now : Date) (t : Task) (d : Directory) :
    UnchangedOnError d (Tasks.add now t d) := by
  rw [Tasks.add]
  split
  · exact .failed d _
  · exact unchanged_lift (unchanged_perform (Plan.writable_insert _) d)

theorem unchanged_update (now : Date) (t : Task) (d : Directory) :
    UnchangedOnError d (Tasks.update now t d) := by
  rw [Tasks.update]
  split
  · exact .failed d _
  · split
    · exact .failed d _
    · exact unchanged_lift (unchanged_perform (Plan.writable_modify _ _) d)

theorem unchanged_delete (id : String) (d : Directory) :
    UnchangedOnError d (Tasks.delete id d) :=
  unchanged_lift (unchanged_perform (Plan.writable_delete id) d)

theorem unchanged_conclude (id : String) (now : Date) (t : Task) (d : Directory) :
    UnchangedOnError d (conclude id now t d) := by
  rw [conclude]
  split
  · split
    · exact .failed d _
    · exact unchanged_lift (unchanged_perform (Plan.writable_modify _ _) d)
  · exact unchanged_delete id d

theorem sameFiles_get (id : String) (d : Directory) : SameFiles d (Tasks.get id d).2 :=
  Store.sameFiles_get id d

theorem sameFiles_list (limit : Nat) (d : Directory) : SameFiles d (Tasks.list limit d).2 :=
  Store.sameFiles_list limit d

theorem unchanged_complete (id : String) (now : Date) (d : Directory) :
    UnchangedOnError d (Tasks.complete id now d) := by
  have hgot := sameFiles_get id d
  rw [Tasks.complete]
  cases hg : Tasks.get id d with
  | mk answer d' =>
      rw [hg] at hgot
      cases answer with
      | error e => exact fun _ _ => hgot
      | ok t => exact (unchanged_conclude id now t d').behind hgot

theorem unchanged_revise (id : String) (now : Date) (change : Task → Task) (d : Directory) :
    UnchangedOnError d (Tasks.revise id now change d) := by
  have hgot := sameFiles_get id d
  rw [Tasks.revise]
  cases hg : Tasks.get id d with
  | mk answer d' =>
      rw [hg] at hgot
      cases answer with
      | error e => exact fun _ _ => hgot
      | ok t => exact (unchanged_update now (change t) d').behind hgot

theorem unchanged_outcome (r : Request) (d : Directory) : UnchangedOnError d (r.outcome d) := by
  cases r with
  | add t now => exact unchanged_reply (unchanged_add now t d)
  | update t now => exact unchanged_reply (unchanged_update now t d)
  | complete id now => exact unchanged_reply (unchanged_complete id now d)
  | delete id => exact unchanged_reply (unchanged_delete id d)

end Tasks

end Agenda
