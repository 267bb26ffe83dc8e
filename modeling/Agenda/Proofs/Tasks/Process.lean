import Agenda.Proofs.Store.Taken
import Agenda.Proofs.Tasks.Run

/-!
Operations on tasks as the calls of the store that they make one after the other. Between two calls
the store is free, and an operation goes on with the task that it found, not with the one that is
kept by then. A process that has the store for itself comes to the outcome of its operation. Of two
processes that look up at most one task each, one comes before the other, or all of it between the
look-up of the other and what this goes on with; a look-up makes no difference to anybody else.
-/

namespace Agenda.Tasks

open Store (Answer Outcome reply)

/-- What is left to do of an operation. -/
inductive Process where
  | done (answer : Except Error Answer)
  /-- A task is looked up; what is found decides how to go on. -/
  | lookUp (id : String) (next : Except Store.Error Task → Process)
  /-- The last call, whose answer is that of the operation. -/
  | last (r : Store.Request)

namespace Process

/-- The answer of a last call, as that of the operation. -/
def verdict (answer : Except Store.Error Answer) : Except Error Answer := answer.mapError .store

/-- The call that comes next. -/
def call? : Process → Option Store.Request
  | done _ => none
  | lookUp id _ => some (.get id)
  | last r => some r

/-- Makes the next call. -/
def advance : Process → Directory → Process × Directory
  | done answer, d => (done answer, d)
  | lookUp id next, d => (next (Store.get id d).1, (Store.get id d).2)
  | last r, d => (done (verdict (r.onFiles d).1), (r.onFiles d).2)

/-- Makes all calls, with nobody else at the store. -/
def alone : Process → Directory → Outcome Error Answer
  | done answer, d => (answer, d)
  | lookUp id next, d => (next (Store.get id d).1).alone (Store.get id d).2
  | last r, d => (verdict (r.onFiles d).1, (r.onFiles d).2)

/-- Goes on with a task if it was found. -/
def ifFound (next : Task → Process) : Except Store.Error Task → Process
  | .error e => done (.error (.store e))
  | .ok t => next t

/-- Puts a task, once it is accepted, in the place of the kept one. -/
def updating (now : Date) (t : Task) : Process :=
  if t.id = "" then done (.error (.refused .missingId))
  else
    match t.accept now with
    | .error fault => done (.error (.refused fault))
    | .ok t => last (.update t)

/-- What becomes of a task that was found and is done. -/
def concluding (id : String) (now : Date) (t : Task) : Process :=
  if t.repeats then
    match Repeat.nextDate now t.date t.rule with
    | .error cause => done (.error (.recurrence id cause))
    | .ok next => last (.updateDate id next)
  else last (.delete id)

/-- No call is left, or one. -/
inductive Brief : Process → Prop where
  | done (answer : Except Error Answer) : Brief (.done answer)
  | last {r : Store.Request} (operation : r ≠ .reopen) : Brief (.last r)

theorem snd_advance {p : Process} {r : Store.Request} (h : p.call? = some r) (d : Directory) :
    (p.advance d).2 = (r.onFiles d).2 := by
  cases p with
  | done _ => cases h
  | lookUp _ _ | last _ => cases h; rfl

theorem verdict_map {α : Type} (answer : α → Answer) (x : Except Store.Error α) :
    verdict (x.map answer) = (x.mapError .store).map answer := by
  cases x <;> rfl

theorem alone_last {α : Type} {answer : α → Answer} {r : Store.Request} {d : Directory}
    {outcome : Outcome Store.Error α} (h : r.onFiles d = reply answer outcome) :
    (last r).alone d = reply answer (Tasks.lift outcome) := by
  rw [alone, h, reply, reply, verdict_map, Tasks.lift]

theorem alone_updating (now : Date) (t : Task) (d : Directory) :
    (updating now t).alone d = acknowledged (Tasks.update now t d) := by
  rw [updating, Tasks.update]
  split
  · rfl
  · cases t.accept now with
    | error fault => rfl
    | ok u => exact alone_last rfl

theorem alone_concluding (id : String) (now : Date) (t : Task) (d : Directory) :
    (concluding id now t).alone d = acknowledged (Tasks.conclude id now t d) := by
  rw [concluding, Tasks.conclude]
  split
  · cases Repeat.nextDate now t.date t.rule with
    | error cause => rfl
    | ok next => exact alone_last rfl
  · exact alone_last rfl

theorem alone_completing (id : String) (now : Date) (d : Directory) :
    (lookUp id (ifFound (concluding id now))).alone d = acknowledged (Tasks.complete id now d) := by
  rw [alone, Tasks.complete, Tasks.get, Tasks.lift]
  cases Store.get id d with
  | mk answer d' =>
      cases answer with
      | error e => rfl
      | ok t => exact alone_concluding id now t d'

end Process

/-- The calls of a request. -/
def Request.process : Request → Process
  | add t now =>
      match t.accept now with
      | .error fault => .done (.error (.refused fault))
      | .ok t => .last (.insert { t with id := "" })
  | update t now => .updating now t
  | complete id now => .lookUp id (.ifFound (.concluding id now))
  | delete id => .last (.delete id)

theorem alone_process (r : Request) (d : Directory) : r.process.alone d = r.outcome d := by
  cases r with
  | add t now =>
      simp only [Request.process, Request.outcome, Tasks.add]
      cases t.accept now with
      | error fault => rfl
      | ok u => exact Process.alone_last rfl
  | update t now => exact Process.alone_updating now t d
  | complete id now => exact Process.alone_completing id now d
  | delete id => exact Process.alone_last rfl

/-! Two processes at one store. -/

/-- The answers of two processes, and the directory that they leave. -/
structure Joint where
  first : Except Error Answer
  second : Except Error Answer
  left : Directory

def Joint.swap (j : Joint) : Joint := ⟨j.second, j.first, j.left⟩

/-- What two processes can come to whose calls are made in any order. -/
inductive Overlap : Process → Process → Directory → Joint → Prop where
  | done (a b : Except Error Answer) (d : Directory) : Overlap (.done a) (.done b) d ⟨a, b, d⟩
  | first {p q : Process} {d : Directory} {r : Store.Request} {j : Joint} (call : p.call? = some r)
      (rest : Overlap (p.advance d).1 q (p.advance d).2 j) : Overlap p q d j
  | second {p q : Process} {d : Directory} {r : Store.Request} {j : Joint}
      (call : q.call? = some r) (rest : Overlap p (q.advance d).1 (q.advance d).2 j) :
      Overlap p q d j

namespace Process

/-- The second process begins when the first one has ended. -/
def inTurn (p q : Process) (d : Directory) : Joint :=
  ⟨(p.alone d).1, (q.alone (p.alone d).2).1, (q.alone (p.alone d).2).2⟩

/-- One process behind the other, in either order. -/
def InTurn (p q : Process) (d : Directory) (j : Joint) : Prop :=
  j = p.inTurn q d ∨ j = (q.inTurn p d).swap

/-- The second process comes between the look-up of the first and what this goes on with. -/
def between (id : String) (next : Except Store.Error Task → Process) (q : Process) (d : Directory) :
    Joint :=
  (q.inTurn (next (Store.get id d).1) (Store.get id d).2).swap

end Process

section Overlap

open Process

variable {p q : Process} {d : Directory} {j : Joint} {id id' : String}
  {next next' : Except Store.Error Task → Process}

theorem Overlap.swap (h : Overlap p q d j) : Overlap q p d j.swap := by
  induction h with
  | done a b d => exact .done b a d
  | first call _ ih => exact .second call ih
  | second call _ ih => exact .first call ih

theorem overlap_done_inTurn (a : Except Error Answer) (q : Process) (d : Directory) :
    Overlap (.done a) q d ((Process.done a).inTurn q d) := by
  induction q generalizing d with
  | done b => exact .done a b d
  | lookUp id next ih => exact .second rfl (ih _ _)
  | last r => exact .second rfl (.done _ _ _)

theorem overlap_inTurn (p q : Process) (d : Directory) : Overlap p q d (p.inTurn q d) := by
  induction p generalizing d with
  | done a => exact overlap_done_inTurn a q d
  | lookUp id next ih => exact .first rfl (ih _ _)
  | last r => exact .first rfl (overlap_done_inTurn _ q _)

theorem overlap_between (id : String) (next : Except Store.Error Task → Process) (q : Process)
    (d : Directory) : Overlap (.lookUp id next) q d (between id next q d) :=
  .first rfl (overlap_inTurn q _ _).swap

theorem eq_inTurn_of_done {a : Except Error Answer} (h : Overlap (.done a) q d j) :
    j = (Process.done a).inTurn q d := by
  induction q generalizing d with
  | done b =>
      cases h with
      | done => rfl
      | first call _ | second call _ => cases call
  | lookUp id next ih =>
      cases h with
      | first call _ => cases call
      | second _ rest => exact ih _ rest
  | last r =>
      cases h with
      | first call _ => cases call
      | second _ rest =>
          cases rest with
          | done => rfl
          | first call _ | second call _ => cases call

theorem eq_swap_of_swap_eq {j' : Joint} (h : j.swap = j') : j = j'.swap := by
  rw [← h]
  rfl

/-- Where no process looks up, one comes behind the other. -/
theorem inTurn_of_brief (hp : Brief p) (hq : Brief q) (h : Overlap p q d j) : p.InTurn q d j := by
  cases h with
  | done => exact .inl rfl
  | first call rest =>
      cases hp with
      | done => cases call
      | last _ => exact .inl (eq_inTurn_of_done rest)
  | second call rest =>
      cases hq with
      | done => cases call
      | last _ => exact .inr (eq_swap_of_swap_eq (eq_inTurn_of_done rest.swap))

/-- Where only the first process looks up, the second comes before it, behind it or between. -/
theorem inTurn_or_between_of_brief (hnext : ∀ answer, Brief (next answer)) (hq : Brief q)
    (h : Overlap (.lookUp id next) q d j) :
    (Process.lookUp id next).InTurn q d j ∨ j = between id next q d := by
  cases h with
  | first _ rest =>
      obtain rfl | rfl := inTurn_of_brief (hnext _) hq rest
      · exact .inl (.inl rfl)
      · exact .inr rfl
  | second call rest =>
      cases hq with
      | done => cases call
      | last _ => exact .inl (.inr (eq_swap_of_swap_eq (eq_inTurn_of_done rest.swap)))

/-- It does not matter when the other process looks up. -/
theorem between_of_lookUp (id id' : String) (next next' : Except Store.Error Task → Process)
    (d : Directory) :
    between id' next' (next (Store.get id d).1) (Store.get id d).2 =
      between id' next' (.lookUp id next) d := by
  have htaken (id : String) : Store.get id (Store.taken d) = Store.get id d :=
    Store.perform_taken _ d
  simp only [between, inTurn, Process.alone, Store.snd_get, htaken]

/-- Where both processes look up, one comes before the other or between. -/
theorem inTurn_or_between (hnext : ∀ answer, Brief (next answer))
    (hnext' : ∀ answer, Brief (next' answer))
    (h : Overlap (.lookUp id next) (.lookUp id' next') d j) :
    (Process.lookUp id next).InTurn (.lookUp id' next') d j ∨
      j = between id next (.lookUp id' next') d ∨
      j = (between id' next' (.lookUp id next) d).swap := by
  cases h with
  | first _ rest =>
      obtain (hj | hj) | hj := inTurn_or_between_of_brief hnext' (hnext _) rest.swap
      · exact .inr (.inl (eq_swap_of_swap_eq hj))
      · exact .inl (.inl (eq_swap_of_swap_eq hj))
      · have hbetween := hj.trans (between_of_lookUp id id' next next' d)
        exact .inr (.inr (eq_swap_of_swap_eq hbetween))
  | second _ rest =>
      obtain (hj | hj) | hj := inTurn_or_between_of_brief hnext (hnext' _) rest
      · exact .inr (.inr hj)
      · exact .inl (.inr hj)
      · exact .inr (.inl (hj.trans (between_of_lookUp id' id next' next d)))

end Overlap

end Agenda.Tasks
