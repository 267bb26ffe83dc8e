import Agenda.Proofs.Store.Table

/-!
Runs of a store. Handles keep nothing between their operations, so the operations of all handles
form one sequence, in which it does not matter whose turn it is. The reports on such a sequence
are those of a table in memory, up to an insertion for which no number of 64 bits is left.
-/

namespace Agenda.Store

inductive Request where
  | list (limit : Nat)
  | get (id : String)
  | insert (t : Task)
  | update (t : Task)
  | updateDate (id date : String)
  | delete (id : String)
  | reopen

inductive Answer where
  | tasks (tasks : List Task)
  | task (t : Task)
  | id (id : String)
  | done

/-- An outcome, its value taken as an answer. -/
def reply {ε α σ : Type} (answer : α → Answer) (r : Except ε α × σ) : Except ε Answer × σ :=
  (r.1.map answer, r.2)

namespace Request

/-- Carries out a request on the files. -/
def onFiles : Request → Directory → Outcome Error Answer
  | list limit, d => reply .tasks (Store.list limit d)
  | get id, d => reply .task (Store.get id d)
  | insert t, d => reply .id (Store.insert t d)
  | update t, d => reply (fun _ => .done) (Store.update t d)
  | updateDate id date, d => reply (fun _ => .done) (Store.updateDate id date d)
  | delete id, d => reply (fun _ => .done) (Store.delete id d)
  | reopen, d => reply (fun _ => .done) (establish d)

/-- Carries out a request on a table. -/
def onTable : Request → Table → Except Error Answer × Table
  | list limit, s => (.ok (.tasks (s.list limit)), s)
  | get id, s => ((s.get id).map .task, s)
  | insert t, s => (.ok (.id (s.insert t).1), (s.insert t).2)
  | update t, s => reply (fun _ => .done) (s.change t.id fun _ => t)
  | updateDate id date, s => reply (fun _ => .done) (s.change id fun t => { t with date })
  | delete id, s => reply (fun _ => .done) (s.delete id)
  | reopen, s => (.ok .done, s)

/-- There is a number left, if the request needs one. -/
def FitsIn : Request → Table → Prop
  | insert _, s => s.next ≤ Numeral.max64
  | _, _ => True

/-- The answer to a request where a folder lies in the place of the lock: only opening the files
does not need it. -/
def underFolder : Request → Except Error Answer
  | reopen => .ok .done
  | list _ | get _ | insert _ | update _ | updateDate _ _ | delete _ => .error (.file .lock .isFolder)

instance : (r : Request) → (s : Table) → Decidable (r.FitsIn s)
  | insert _, _ => inferInstanceAs (Decidable (_ ≤ _))
  | list _, _ | get _, _ | update _, _ | updateDate _ _, _ | delete _, _ | reopen, _ =>
      isTrue trivial

end Request

/-- What is seen of a step: its answer, and both files as they are read after it. -/
structure Report where
  answer : Except Error Answer
  tasks : Except Error (List Task)
  last : Except Error Nat

section Runs

variable {Handle : Type}

/-- The reports on a sequence of requests, each made through some handle. -/
def reportsOfFiles : List (Handle × Request) → Directory → List Report
  | [], _ => []
  | (_, r) :: schedule, d =>
      let (answer, d) := r.onFiles d
      ⟨answer, loadTasks d, loadSequence d⟩ :: reportsOfFiles schedule d

def reportsOfTable : List (Handle × Request) → Table → List Report
  | [], _ => []
  | (_, r) :: schedule, s =>
      let (answer, s) := r.onTable s
      ⟨answer, .ok s.tasks, .ok s.last⟩ :: reportsOfTable schedule s

/-- No insertion of the sequence needs a number behind the largest one. -/
def NumbersLast : List (Handle × Request) → Table → Prop
  | [], _ => True
  | (_, r) :: schedule, s => r.FitsIn s ∧ NumbersLast schedule (r.onTable s).2

instance : (schedule : List (Handle × Request)) → (s : Table) → Decidable (NumbersLast schedule s)
  | [], _ => isTrue trivial
  | (_, r) :: schedule, s =>
      have := instDecidableNumbersLast schedule (r.onTable s).2
      inferInstanceAs (Decidable (_ ∧ _))

theorem Agrees.reply {α : Type} {r : Outcome Error α} {q : Except Error α × Table}
    (h : Agrees r q) (answer : α → Answer) : Agrees (reply answer r) (reply answer q) := by
  refine ⟨?_, h.2⟩
  simp only [Store.reply, h.1]

theorem agrees_onFiles {d : Directory} {s : Table} (h : Represents d s) (r : Request)
    (hfit : r.FitsIn s) : Agrees (r.onFiles d) (r.onTable s) := by
  cases r with
  | list limit => exact (h.list limit).reply _
  | get id => exact (h.get id).reply _
  | insert t => exact (h.insert t hfit).reply _
  | update t => exact (h.update t).reply _
  | updateDate id date => exact (h.updateDate id date).reply _
  | delete id => exact (h.delete id).reply _
  | reopen =>
      rw [Request.onFiles, h.reopen]
      exact ⟨rfl, h⟩

/-- A request changes nothing where a folder lies in the place of the lock. -/
theorem onFiles_of_lock_folder {d : Directory} {tasks : List Task} {last : Nat}
    (hlock : d.lock = .folder) (htasks : loadTasks d = .ok tasks)
    (hlast : loadSequence d = .ok last) (r : Request) : r.onFiles d = (r.underFolder, d) := by
  cases r with
  | reopen =>
      rw [Request.onFiles, establish_of_loaded htasks hlast]
      rfl
  | list _ | get _ | insert _ | update _ | updateDate _ _ | delete _ =>
      exact congrArg (reply _) (perform_of_lock_folder hlock _)

theorem Represents.reports {d : Directory} {s : Table} (h : Represents d s)
    (schedule : List (Handle × Request)) (hnumbers : NumbersLast schedule s) :
    reportsOfFiles schedule d = reportsOfTable schedule s := by
  induction schedule generalizing d s with
  | nil => rfl
  | cons step schedule ih =>
      obtain ⟨answer, hr⟩ := agrees_onFiles h step.2 hnumbers.1
      simp only [reportsOfFiles, reportsOfTable, answer, hr.tasks, hr.last, ih hr hnumbers.2]

theorem reports_of_lock_folder {d : Directory} {tasks : List Task} {last : Nat}
    (hlock : d.lock = .folder) (htasks : loadTasks d = .ok tasks)
    (hlast : loadSequence d = .ok last) (schedule : List (Handle × Request)) :
    reportsOfFiles schedule d =
      schedule.map fun step => ⟨step.2.underFolder, .ok tasks, .ok last⟩ := by
  induction schedule with
  | nil => rfl
  | cons step schedule ih =>
      simp only [reportsOfFiles, onFiles_of_lock_folder hlock htasks hlast, htasks, hlast, ih,
        List.map_cons]

/-- Files that can be read behave like a table in memory, unless a folder lies in the place of the
lock: then no request but opening them is carried out, and they stay as they are. -/
theorem reportsOfFiles_eq_reportsOfTable {d : Directory} {s : Table}
    (htasks : loadTasks d = .ok s.tasks) (hlast : loadSequence d = .ok s.last)
    (schedule : List (Handle × Request)) :
    (d.lock ≠ .folder → NumbersLast schedule s →
      reportsOfFiles schedule d = reportsOfTable schedule s) ∧
    (d.lock = .folder → reportsOfFiles schedule d =
      schedule.map fun step => ⟨step.2.underFolder, .ok s.tasks, .ok s.last⟩) :=
  ⟨fun hlock hnumbers => Represents.reports ⟨htasks, hlast, hlock⟩ schedule hnumbers,
    fun hlock => reports_of_lock_folder hlock htasks hlast schedule⟩

end Runs

theorem reports_of_opened :
    loadTasks opened = .ok [] ∧ loadSequence opened = .ok 0 ∧
      reportsOfFiles [(0, .insert { title := "a" }), (1, .delete "1"), (0, .insert { title := "b" }),
        (1, .get "1")] opened =
      reportsOfTable [(0, .insert { title := "a" }), (1, .delete "1"), (0, .insert { title := "b" }),
        (1, .get "1")] ⟨[], 0⟩ := by
  have hs := represents_opened
  obtain ⟨hreports, -⟩ := reportsOfFiles_eq_reportsOfTable hs.tasks hs.last
    [(0, .insert { title := "a" }), (1, .delete "1"), (0, .insert { title := "b" }), (1, .get "1")]
  exact ⟨hs.tasks, hs.last, hreports hs.lock (by decide)⟩

/-- With a folder in the place of the lock the table would still answer. -/
theorem reports_ne_of_lock_folder :
    ¬ ∀ (d : Directory) (s : Table) (schedule : List (Nat × Request)),
      loadTasks d = .ok s.tasks → loadSequence d = .ok s.last → NumbersLast schedule s →
        reportsOfFiles schedule d = reportsOfTable schedule s := by
  intro h
  have hs := represents_opened
  have hreports := h { opened with lock := .folder } ⟨[], 0⟩ [(0, .list 1)] hs.tasks hs.last
    ⟨trivial, trivial⟩
  cases hreports

end Agenda.Store
