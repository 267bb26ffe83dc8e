import Agenda.Api.Answer
import Agenda.Proofs.Tasks.Unchanged

/-!
Requests to the API that leave both files as they were: those that are not answered with status 200,
and those that ask by a method that only reads.
-/

namespace Agenda.Api

open Store (SameFiles UnchangedOnError)

section Parts

variable {α : Type} {context : Context} {d : Directory} {P : Reaction → Prop}

/-- What holds where a part of the request is wrong, and where the answer goes on with it, holds. -/
theorem withPart_cases {part : Except Response α} {go : α → Directory → Reaction}
    (hstop : ∀ response : Response, P (some response, d)) (hgo : ∀ value, P (go value d)) :
    P (withPart part d go) := by
  cases part with
  | error response => exact hstop response
  | ok value => exact hgo value

theorem withToday_cases {go : Date → Directory → Reaction}
    (hstop : ∀ response : Response, P (some response, d)) (hgo : ∀ today, P (go today d)) :
    P (withToday context d go) := by
  rw [withToday]
  split
  · exact hgo _
  · exact hstop _

end Parts

/-- All that the handling of a request comes to: a next date, a response before anything is done, or
one operation and what is said of its outcome. -/
inductive Handled (context : Context) (r : Request) (route : Route) (d : Directory) :
    Reaction → Prop where
  | dated (asked : route = .nextDate) : Handled context r route d (nextDate context r, d)
  | stopped (response : Response) : Handled context r route d (some response, d)
  | listed : Handled context r route d (respond ofTasks (Tasks.list context.limit d))
  | told (id : String) :
      Handled context r route d (respond (fun t => json 200 t.json) (Tasks.get id d))
  | completed (asked : route = .done) (id : String) (today : Date) :
      Handled context r route d (respond (fun _ => done) (Tasks.complete id today d))
  | added (asked : r.method = .post) (t : Task) (today : Date) :
      Handled context r route d
        (respond (fun id => json 200 (record "id" (Json.literal id))) (Tasks.add today t d))
  | updated (asked : r.method = .put) (t : Task) (today : Date) :
      Handled context r route d (respond (fun _ => done) (Tasks.update today t d))
  | deleted (asked : r.method = .delete) (id : String) :
      Handled context r route d (respond (fun _ => done) (Tasks.delete id d))

theorem handled_handle (context : Context) (r : Request) (route : Route) (d : Directory) :
    Handled context r route d (handle context r route d) := by
  unfold handle
  split
  · exact .dated rfl
  · exact .listed
  · exact withPart_cases .stopped fun id => withToday_cases .stopped (.completed rfl id)
  · rename_i hpost
    exact withPart_cases .stopped fun t => withToday_cases .stopped (.added hpost t)
  · rename_i hput
    exact withPart_cases .stopped fun t => withToday_cases .stopped (.updated hput t)
  · rename_i hdelete
    exact withPart_cases .stopped (.deleted hdelete)
  · exact withPart_cases .stopped .told

/-- Where the status is another one than 200, both files are as they were. -/
def UnchangedUnlessDone (d : Directory) (reaction : Reaction) : Prop :=
  reaction.status? ≠ some 200 → SameFiles d reaction.2

theorem unchangedUnlessDone_same (d : Directory) (response : Option Response) :
    UnchangedUnlessDone d (response, d) :=
  fun _ => .refl d

theorem unchangedUnlessDone_respond {α : Type} {d : Directory} {answer : α → Response}
    {outcome : Store.Outcome Tasks.Error α} (hdone : ∀ value, (answer value).status = 200)
    (h : UnchangedOnError d outcome) : UnchangedUnlessDone d (respond answer outcome) := by
  obtain ⟨result, d'⟩ := outcome
  intro hstatus
  cases result with
  | error e => exact h e rfl
  | ok value => exact absurd (congrArg some (hdone value)) hstatus

section Handled

variable {context : Context} {r : Request} {route : Route} {d : Directory} {reaction : Reaction}

theorem Handled.unchangedUnlessDone (h : Handled context r route d reaction) :
    UnchangedUnlessDone d reaction := by
  cases h with
  | dated _ | stopped _ => exact unchangedUnlessDone_same d _
  | listed => exact fun _ => Tasks.sameFiles_list context.limit d
  | told id => exact fun _ => Tasks.sameFiles_get id d
  | completed _ id today =>
      exact unchangedUnlessDone_respond (fun _ => rfl) (Tasks.unchanged_complete id today d)
  | added _ t today =>
      exact unchangedUnlessDone_respond (fun _ => rfl) (Tasks.unchanged_add today t d)
  | updated _ t today =>
      exact unchangedUnlessDone_respond (fun _ => rfl) (Tasks.unchanged_update today t d)
  | deleted _ id =>
      exact unchangedUnlessDone_respond (fun _ => rfl) (Tasks.unchanged_delete id d)

/-- A method that asks and changes nothing. -/
def Method.Reads (method : Method) : Prop := method = .get ∨ method = .head

instance (method : Method) : Decidable method.Reads := inferInstanceAs (Decidable (_ ∨ _))

theorem Handled.sameFiles (h : Handled context r route d reaction) (hr : r.method.Reads)
    (hroute : route.methods.contains r.method = true) : SameFiles d reaction.2 := by
  cases h with
  | dated _ | stopped _ => exact .refl d
  | listed => exact Tasks.sameFiles_list context.limit d
  | told id => exact Tasks.sameFiles_get id d
  | completed asked _ _ =>
      subst asked
      obtain hr | hr := hr <;> rw [hr] at hroute <;> cases hroute
  | added asked _ _ | updated asked _ _ | deleted asked _ =>
      exact absurd (asked ▸ hr) (by decide)

end Handled

theorem status?_withoutBody (head : Prop) [Decidable head] (reaction : Reaction) :
    Reaction.status?
        (if head then reaction.1.map Response.withoutBody else reaction.1, reaction.2) =
      reaction.status? := by
  obtain ⟨response, d⟩ := reaction
  cases response <;> split <;> rfl

theorem unchangedUnlessDone_answer (context : Context) (r : Request) (d : Directory) :
    UnchangedUnlessDone d (answer context r d) := by
  rw [answer]
  split
  · exact unchangedUnlessDone_same d _
  · rename_i route _
    split
    · intro hstatus
      apply (handled_handle context r route d).unchangedUnlessDone
      rwa [status?_withoutBody] at hstatus
    · exact unchangedUnlessDone_same d _

theorem sameFiles_answer {r : Request} (hr : r.method.Reads) (context : Context) (d : Directory) :
    SameFiles d (answer context r d).2 := by
  rw [answer]
  split
  · exact .refl d
  · split
    · rename_i hroute
      exact (handled_handle context r _ d).sameFiles hr hroute
    · exact .refl d

/-- Whatever the directory holds: an operation of the store or on tasks that fails leaves both files
as they were, and one that looks up or lists does so always. Hence a request to the API changes
them only by another method than GET and HEAD, and only where it is answered with 200. -/
theorem files_unchanged (d : Directory) :
    (∀ r : Store.Request, r ≠ .reopen → UnchangedOnError d (r.onFiles d)) ∧
      (∀ id, SameFiles d (Store.get id d).2) ∧ (∀ limit, SameFiles d (Store.list limit d).2) ∧
      (∀ r : Tasks.Request, UnchangedOnError d (r.outcome d)) ∧
      (∀ id, SameFiles d (Tasks.get id d).2) ∧ (∀ limit, SameFiles d (Tasks.list limit d).2) ∧
      ∀ context r, (answer context r d).status? ≠ some 200 ∨ r.method.Reads →
        SameFiles d (answer context r d).2 := by
  refine ⟨fun r hr => Store.unchanged_onFiles hr d, fun id => Store.sameFiles_get id d,
    fun limit => Store.sameFiles_list limit d, fun r => Tasks.unchanged_outcome r d,
    fun id => Tasks.sameFiles_get id d, fun limit => Tasks.sameFiles_list limit d, ?_⟩
  rintro context r (hstatus | hreads)
  · exact unchangedUnlessDone_answer context r d hstatus
  · exact sameFiles_answer hreads context d

end Agenda.Api
