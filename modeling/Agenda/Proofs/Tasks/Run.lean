import Agenda.Proofs.Repeat.Occurrence
import Agenda.Proofs.Store.Refinement
import Agenda.Tasks.Operation

/-!
Runs of the operations that change tasks. What one step can do to a table is said once, with all
that the step found out before it wrote; a run is the list of its steps.
-/

namespace Agenda.Tasks

open Store

inductive Request where
  | add (t : Task) (now : Date)
  | update (t : Task) (now : Date)
  | complete (id : String) (now : Date)
  | delete (id : String)

/-- An outcome that tells nothing if all went well. -/
def acknowledged (outcome : Outcome Error Unit) : Outcome Error Answer :=
  reply (fun _ => .done) outcome

theorem acknowledged_of_ok {outcome : Outcome Error Unit} (h : outcome.1 = .ok ()) :
    (acknowledged outcome).1 = .ok .done := by
  rw [acknowledged, reply, h]
  rfl

theorem acknowledged_of_error {outcome : Outcome Error Unit} {e : Error}
    (h : outcome.1 = .error e) : (acknowledged outcome).1 = .error e := by
  rw [acknowledged, reply, h]
  rfl

namespace Request

/-- The outcome of a request; a new task is answered with its identifier. -/
def outcome : Request → Directory → Outcome Error Answer
  | add t now, d => reply .id (Tasks.add now t d)
  | update t now, d => acknowledged (Tasks.update now t d)
  | complete id now, d => acknowledged (Tasks.complete id now d)
  | delete id, d => acknowledged (Tasks.delete id d)

/-- The day on which a request is made, where it needs one. -/
def today? : Request → Option Date
  | add _ now | update _ now | complete _ now => some now
  | delete _ => none

end Request

structure Step where
  before : Directory
  request : Request
  after : Directory

/-- The steps of a run, each from where the one before it ended. -/
def steps : List Request → Directory → List Step
  | [], _ => []
  | r :: requests, d => ⟨d, r, (r.outcome d).2⟩ :: steps requests (r.outcome d).2

/-- What a request that succeeds answers, and what it does to a table. -/
inductive Effect (s : Table) : Request → Answer → Table → Prop where
  | add {t u : Task} {now : Date} (accepted : t.accept now = .ok u) :
      Effect s (.add t now) (.id (s.insert u).1) (s.insert u).2
  | update {t u : Task} {now : Date} {s' : Table} (accepted : t.accept now = .ok u)
      (changed : s.change u.id (fun _ => u) = (.ok (), s')) : Effect s (.update t now) .done s'
  | reschedule {t : Task} {id next : String} {now : Date} {s' : Table} (found : s.get id = .ok t)
      (computed : Repeat.nextDate now t.date t.rule = .ok next)
      (changed : s.change id (fun t => { t with date := next }) = (.ok (), s')) :
      Effect s (.complete id now) .done s'
  | finish {t : Task} {id : String} {now : Date} {s' : Table} (found : s.get id = .ok t)
      (once : t.repeats = false) (deleted : s.delete id = (.ok (), s')) :
      Effect s (.complete id now) .done s'
  | delete {id : String} {s' : Table} (deleted : s.delete id = (.ok (), s')) :
      Effect s (.delete id) .done s'

/-- An outcome of a request on files that hold a table: it failed and changed nothing, or it had
its effect. -/
def Follows (s : Table) (r : Request) (outcome : Outcome Error Answer) : Prop :=
  (∃ e, outcome.1 = .error e) ∧ Represents outcome.2 s ∨
    ∃ answer s', outcome.1 = .ok answer ∧ Represents outcome.2 s' ∧ Effect s r answer s'

theorem Follows.failed {s : Table} {r : Request} {e : Error} {d : Directory}
    (h : Represents d s) : Follows s r (.error e, d) :=
  .inl ⟨⟨e, rfl⟩, h⟩

/-- An operation of the store that changes the tasks only if it finds one. -/
theorem Follows.lift {s : Table} {r : Request} {outcome : Outcome Store.Error Unit} {id : String}
    {tasks : List Task} (h : Agrees outcome (s.ifHeld id tasks))
    (heffect : ∀ s', s.ifHeld id tasks = (.ok (), s') → Effect s r .done s') :
    Follows s r (acknowledged (lift outcome)) := by
  obtain ⟨hanswer, hr⟩ := h
  cases hq : s.ifHeld id tasks with
  | mk answer s' =>
      rw [hq] at hanswer hr
      cases answer with
      | error e =>
          refine .inl ⟨⟨.store e, acknowledged_of_error ?_⟩, ?_⟩
          · rw [Tasks.lift, hanswer]; rfl
          · rw [Table.ifHeld_eq_error hq] at hr
            exact hr
      | ok _ =>
          refine .inr ⟨.done, s', acknowledged_of_ok ?_, hr, heffect s' hq⟩
          rw [Tasks.lift, hanswer]; rfl

theorem agrees_get {d : Directory} {s : Table} (h : Represents d s) (id : String) :
    Agrees (Tasks.get id d) ((s.get id).mapError .store, s) := by
  obtain ⟨hanswer, hr⟩ := h.get id
  exact ⟨by rw [Tasks.get, Tasks.lift, hanswer], hr⟩

theorem outcome_add {d : Directory} {s : Table} {t u : Task} {now : Date} (h : Represents d s)
    (accepted : t.accept now = .ok u) (hroom : s.next ≤ Numeral.max64) :
    (Request.outcome (.add t now) d).1 = .ok (.id (s.insert u).1) ∧
      Represents (Request.outcome (.add t now) d).2 (s.insert u).2 := by
  obtain ⟨hanswer, hr⟩ := h.insert { u with id := "" } hroom
  simp only [Request.outcome, reply, Tasks.add, accepted, Tasks.lift, hanswer]
  exact ⟨rfl, hr⟩

theorem complete_eq_conclude {d : Directory} {s : Table} {id : String} {t : Task}
    (h : Represents d s) (found : s.get id = .ok t) (now : Date) :
    ∃ d', Tasks.complete id now d = conclude id now t d' ∧ Represents d' s := by
  obtain ⟨hanswer, hr⟩ := agrees_get h id
  refine ⟨(Tasks.get id d).2, ?_, hr⟩
  rw [Tasks.complete]
  cases hg : Tasks.get id d with
  | mk answer d' =>
      rw [hg, found] at hanswer
      cases hanswer
      rfl

theorem complete_eq_error {d : Directory} {s : Table} {id : String} {e : Store.Error}
    (h : Represents d s) (missing : s.get id = .error e) (now : Date) :
    ∃ d', Tasks.complete id now d = (.error (.store e), d') ∧ Represents d' s := by
  obtain ⟨hanswer, hr⟩ := agrees_get h id
  refine ⟨(Tasks.get id d).2, ?_, hr⟩
  rw [Tasks.complete]
  cases hg : Tasks.get id d with
  | mk answer d' =>
      rw [hg, missing] at hanswer
      cases hanswer
      rfl

theorem repeats_of_nextOn {t : Task} {now day : Date} {date : String}
    (h : Repeat.NextOn now date t.rule day) : t.repeats = true := by
  rw [Task.repeats, decide_eq_true_iff]
  exact fun hempty => Repeat.not_nextOn_of_rule_eq_empty hempty h

theorem represents_complete {d : Directory} {s : Table} {id : String} {t : Task} {now day : Date}
    (h : Represents d s) (found : s.get id = .ok t) (hday : Repeat.NextOn now t.date t.rule day) :
    Represents (Tasks.complete id now d).2
      (s.change id fun t => { t with date := day.compact }).2 := by
  obtain ⟨d', heq, hr⟩ := complete_eq_conclude h found now
  rw [heq, conclude, if_pos (repeats_of_nextOn hday), Repeat.nextDate_eq_ok_iff.2 ⟨day, hday, rfl⟩]
  exact (hr.updateDate id day.compact).2

theorem outcome_follows {d : Directory} {s : Table} (h : Represents d s) (r : Request) :
    Follows s r (r.outcome d) := by
  cases r with
  | add t now =>
      cases ha : t.accept now with
      | error fault =>
          simp only [Request.outcome, Tasks.add, ha]
          exact .failed h
      | ok u =>
          by_cases hroom : s.next ≤ Numeral.max64
          · obtain ⟨hok, hr⟩ := outcome_add h ha hroom
            exact .inr ⟨_, _, hok, hr, .add ha⟩
          · obtain ⟨hanswer, hr⟩ := h.insert_overflow { u with id := "" } hroom
            refine .inl ⟨⟨.store .overflow, ?_⟩, ?_⟩
            · simp only [Request.outcome, reply, Tasks.add, ha, Tasks.lift, hanswer]
              rfl
            · simp only [Request.outcome, Tasks.add, ha]
              exact hr
  | update t now =>
      simp only [Request.outcome, Tasks.update]
      split
      · exact .failed h
      · cases ha : t.accept now with
        | error fault => exact .failed h
        | ok u => exact .lift (h.update u) fun s' => .update ha
  | complete id now =>
      rw [Request.outcome]
      cases hg : s.get id with
      | error e =>
          obtain ⟨d', heq, hr⟩ := complete_eq_error h hg now
          rw [heq]
          exact .failed hr
      | ok t =>
          obtain ⟨d', heq, hr⟩ := complete_eq_conclude h hg now
          rw [heq, conclude]
          split
          · cases hn : Repeat.nextDate now t.date t.rule with
            | error cause => exact .failed hr
            | ok next => exact .lift (hr.updateDate id next) fun s' => .reschedule hg hn
          · rename_i hrepeats
            exact .lift (hr.delete id) fun s' => .finish hg (Bool.eq_false_iff.2 hrepeats)
  | delete id => exact .lift (h.delete id) fun s' => .delete

theorem exists_represents_outcome {d : Directory} {s : Table} (h : Represents d s) (r : Request) :
    ∃ s', Represents (r.outcome d).2 s' := by
  obtain ⟨_, hr⟩ | ⟨_, s', _, hr, _⟩ := outcome_follows h r
  · exact ⟨s, hr⟩
  · exact ⟨s', hr⟩

end Agenda.Tasks
