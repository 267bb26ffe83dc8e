import Agenda.Proofs.Store.Removal
import Agenda.Proofs.Tasks.Process

/-!
Any number of clients at one store. Each has operations to carry out one after the other, and it is
anybody's turn after every call. Whatever a client read before, all that it can put into the store
was accepted or comes from there, so the store holds nothing but sound tasks; and what was deleted
stays away, also from a client that holds a copy.
-/

namespace Agenda.Tasks

open Store (Answer Outcome reply)

/-- What a client can ask for. -/
inductive Operation where
  | request (r : Request)
  | get (id : String)
  | list (limit : Nat)
  /-- Looks up a task and updates it with what the change makes of it. -/
  | revise (id : String) (now : Date) (change : Task → Task)
  | reopen

namespace Operation

/-- The outcome of an operation. -/
def outcome : Operation → Directory → Outcome Error Answer
  | request r, d => r.outcome d
  | get id, d => reply .task (Tasks.get id d)
  | list limit, d => reply .tasks (Tasks.list limit d)
  | revise id now change, d => acknowledged (Tasks.revise id now change d)
  | reopen, d => acknowledged (Tasks.lift (Store.establish d))

/-- The calls of an operation. -/
def process : Operation → Process
  | request r => r.process
  | get id => .last (.get id)
  | list limit => .last (.list limit)
  | revise id now change => .lookUp id (.ifFound fun t => .updating now (change t))
  | reopen => .last .reopen

theorem alone_process (o : Operation) (d : Directory) : o.process.alone d = o.outcome d := by
  cases o with
  | request r => exact Tasks.alone_process r d
  | get _ | list _ | reopen => exact Process.alone_last rfl
  | revise id now change =>
      simp only [process, outcome, Process.alone, Tasks.revise, Tasks.get, Tasks.lift]
      cases Store.get id d with
      | mk answer d' =>
          cases answer with
          | error e => rfl
          | ok t => exact Process.alone_updating now (change t) d'

end Operation

/-! What a process can carry into the store. -/

namespace Process

/-- Whatever is found, each task that is put is sound. -/
def Sound : Process → Prop
  | done _ => True
  | lookUp _ next => ∀ answer, (next answer).Sound
  | last r => r.Sound

theorem Sound.advance {p : Process} (h : p.Sound) (d : Directory) : (p.advance d).1.Sound := by
  cases p with
  | done _ | last _ => trivial
  | lookUp id next => exact h _

theorem Sound.call {p : Process} {r : Store.Request} (h : p.Sound) (hr : p.call? = some r) :
    r.Sound := by
  cases p with
  | done _ => cases hr
  | lookUp _ _ => cases hr; trivial
  | last _ => cases hr; exact h

theorem sound_ifFound {next : Task → Process} (h : ∀ t, (next t).Sound)
    (answer : Except Store.Error Task) : (ifFound next answer).Sound := by
  cases answer with
  | error e => trivial
  | ok t => exact h t

theorem sound_updating (now : Date) (t : Task) : (updating now t).Sound := by
  rw [updating]
  split
  · trivial
  · cases ha : t.accept now with
    | error fault => trivial
    | ok u => exact Task.sound_of_accept ha

theorem sound_concluding (id : String) (now : Date) (t : Task) : (concluding id now t).Sound := by
  rw [concluding]
  split
  · cases Repeat.nextDate now t.date t.rule <;> trivial
  · trivial

end Process

theorem Request.sound_process (r : Request) : r.process.Sound := by
  cases r with
  | add t now =>
      rw [Request.process]
      cases ha : t.accept now with
      | error fault => trivial
      | ok u => exact (Task.sound_of_accept ha).congr rfl rfl
  | update t now => exact Process.sound_updating now t
  | complete id now => exact Process.sound_ifFound (Process.sound_concluding id now)
  | delete id => trivial

theorem Operation.sound_process (o : Operation) : o.process.Sound := by
  cases o with
  | request r => exact r.sound_process
  | revise id now change =>
      exact Process.sound_ifFound fun t => Process.sound_updating now (change t)
  | get _ | list _ | reopen => trivial

/-! Clients. -/

/-- What is left of the operation that a client carries out, and the operations behind it. -/
structure Client where
  current : Process
  todo : List Operation

namespace Client

/-- A client that has not begun. -/
def idle (todo : List Operation) : Client := ⟨.done (.ok .done), todo⟩

/-- Takes up the next operation if none is going on. -/
def takeUp (c : Client) : Client :=
  match c.current, c.todo with
  | .done _, o :: todo => ⟨o.process, todo⟩
  | _, _ => c

/-- Makes the next call of the operation that is going on. -/
def advance (c : Client) (d : Directory) : Client := { c with current := (c.current.advance d).1 }

end Client

section Run

variable {Name : Type} [DecidableEq Name]

/-- The calls that clients make when they have their turns in this order. Taking up an operation is
no call, so a turn makes none if the operation ends without any. -/
def run : List Name → (Name → Client) → Directory → List Store.Event
  | [], _, _ => []
  | name :: turns, clients, d =>
      let client := (clients name).takeUp
      match client.current.call? with
      | none => run turns (Function.update clients name client) d
      | some r =>
          ⟨d, r, (r.onFiles d).1, (r.onFiles d).2⟩ ::
            run turns (Function.update clients name (client.advance d)) (client.current.advance d).2

variable {clients : Name → Client}

theorem Client.sound_takeUp {c : Client} (h : c.current.Sound) : c.takeUp.current.Sound := by
  rw [takeUp]
  split
  · rename_i o _ _ _
    exact o.sound_process
  · exact h

theorem Client.sound_advance {c : Client} (h : c.current.Sound) (d : Directory) :
    (c.advance d).current.Sound :=
  h.advance d

theorem sound_update {c : Client} (h : ∀ name, (clients name).current.Sound) (name : Name)
    (hc : c.current.Sound) : ∀ name', (Function.update clients name c name').current.Sound :=
  (Function.forall_update_iff clients fun _ c => c.current.Sound).2 ⟨hc, fun name' _ => h name'⟩

/-- The calls of all clients form one history, in which every task that is carried is sound. -/
theorem exists_history (turns : List Name) (h : ∀ name, (clients name).current.Sound)
    (d : Directory) :
    ∃ schedule : List (Name × Store.Request),
      run turns clients d = Store.history schedule d ∧ ∀ step ∈ schedule, step.2.Sound := by
  induction turns generalizing clients d with
  | nil => exact ⟨[], rfl, List.forall_mem_nil _⟩
  | cons name turns ih =>
      have hclient := Client.sound_takeUp (h name)
      simp only [run]
      cases hcall : (clients name).takeUp.current.call? with
      | none => exact ih (sound_update h name hclient) d
      | some r =>
          have hnext := sound_update h name (Client.sound_advance hclient d)
          obtain ⟨schedule, heq, hschedule⟩ := ih hnext (r.onFiles d).2
          refine ⟨(name, r) :: schedule, ?_, ?_⟩
          · simp only [Process.snd_advance hcall, Store.history, heq]
          · exact List.forall_mem_cons.2 ⟨hclient.call hcall, hschedule⟩

/-- Whatever clients ask of a store that was opened in an empty folder, in whatever order they get
their turns: before and after every call all tasks are sound, and once the tasks with an identifier
are deleted, there is none with it any more. -/
theorem clients_keep_sound_and_deleted (turns : List Name) (todo : Name → List Operation) :
    (∀ e ∈ run turns (fun name => .idle (todo name)) Store.opened,
        Store.AllSound e.before ∧ Store.AllSound e.after ∧
          ∀ id, e.deleted? = some id → Store.Absent id e.after) ∧
      (run turns (fun name => .idle (todo name)) Store.opened).Pairwise
        fun a b => ∀ id, a.deleted? = some id → Store.Absent id b.after := by
  have hidle : ∀ name, (Client.idle (todo name)).current.Sound := fun _ => trivial
  obtain ⟨schedule, heq, hschedule⟩ := exists_history turns hidle Store.opened
  have hfiles : Store.loadTasks Store.opened = .ok [] := Store.represents_opened.tasks
  have hcovered : Store.FilesCovered Store.opened :=
    ⟨[], 0, hfiles, Store.represents_opened.last, List.forall_mem_nil _⟩
  have hsound : Store.AllSound Store.opened := ⟨[], hfiles, List.forall_mem_nil _⟩
  obtain ⟨hafter, hlater⟩ := Store.absent_behind_deletion hcovered schedule
  rw [heq]
  refine ⟨fun e he => ?_, hlater⟩
  obtain ⟨hbefore, hleft⟩ := Store.allSound_of_mem_history hsound hschedule he
  exact ⟨hbefore, hleft, hafter e he⟩

end Run

end Agenda.Tasks
