import Agenda.Proofs.Store.Rows
import Agenda.Store.Operation

/-!
A table of tasks in memory, and what it means that the files of a directory hold it. Each operation
of the store does to the files what the table does to its tasks and its last number, so whoever
uses a store may think of the table. Entries that no operation could read are left out: the relation
asks for two readable files and a lock that can be taken.
-/

namespace Agenda.Store

/-- Tasks in the order in which they are kept, and the last number given out. -/
structure Table where
  tasks : List Task
  last : Nat

namespace Table

/-- The largest number that an identifier writes, zero if none writes one. -/
def highest (s : Table) : Nat := (s.tasks.filterMap fun t => number? t.id).max?.getD 0

/-- The number of the next task. -/
def next (s : Table) : Nat := max s.last s.highest + 1

def list (limit : Nat) (s : Table) : List Task := (sorted s.tasks).take limit

def get (id : String) (s : Table) : Except Error Task :=
  (s.tasks.find? fun t => t.id = id).elim (.error (.notFound id)) .ok

def insert (t : Task) (s : Table) : String × Table :=
  (Numeral.text s.next,
    { tasks := s.tasks ++ [{ t with id := Numeral.text s.next }], last := s.next })

/-- An answer and a new list of tasks, if there is a task with this identifier. -/
def ifHeld (id : String) (tasks : List Task) (s : Table) : Except Error Unit × Table :=
  if s.tasks.any fun t => t.id = id then (.ok (), { s with tasks })
  else (.error (.notFound id), s)

/-- Changes the first task with this identifier. -/
def change (id : String) (f : Task → Task) (s : Table) : Except Error Unit × Table :=
  s.ifHeld id (s.tasks.modify (s.tasks.findIdx fun t => t.id = id) f)

def delete (id : String) (s : Table) : Except Error Unit × Table :=
  s.ifHeld id (s.tasks.filter fun t => t.id ≠ id)

end Table

/-- The files hold the table, and the lock can be taken. -/
structure Represents (d : Directory) (s : Table) : Prop where
  tasks : loadTasks d = .ok s.tasks
  last : loadSequence d = .ok s.last
  lock : d.lock ≠ .folder

/-- Where a folder lies in the place of the lock, nothing is carried out. -/
theorem perform_of_lock_folder {α : Type} {d : Directory} (h : d.lock = .folder) (plan : Plan α) :
    perform plan d = (.error (.file .lock .isFolder), d) := by
  simp only [perform, Directory.create, Directory.get, h]

/-- Where both files are there, opening them changes nothing. -/
theorem establish_of_loaded {d : Directory} {tasks : List Task} {last : Nat}
    (htasks : loadTasks d = .ok tasks) (hlast : loadSequence d = .ok last) :
    establish d = (.ok (), d) := by
  obtain ⟨_, ht⟩ := read_of_load htasks
  obtain ⟨_, hl⟩ := read_of_load hlast
  simp only [establish, Directory.create, ht, hl]

/-- An outcome on files that is the table's. -/
def Agrees {ε α : Type} (r : Outcome ε α) (q : Except ε α × Table) : Prop :=
  r.1 = q.1 ∧ Represents r.2 q.2

namespace Represents

variable {d : Directory} {s : Table}

theorem takeLock (h : Represents d s) : ∃ d', d.create .lock = .ok d' ∧ Represents d' s := by
  rw [Directory.create]
  cases hl : d.get .lock with
  | absent =>
      refine ⟨_, rfl, ?_, ?_, ?_⟩
      · rw [loadTasks, load_set_of_ne _ _ _ (by decide)]
        exact h.tasks
      · rw [loadSequence, load_set_of_ne _ _ _ (by decide)]
        exact h.last
      · exact Slot.noConfusion
  | folder => exact absurd hl h.lock
  | file content => exact ⟨d, rfl, h⟩

theorem replaceTasks (h : Represents d s) (tasks : List Task) :
    ∃ d', d.replace .tasks (Rows.encode tasks) = .ok d' ∧ Represents d' { s with tasks } := by
  obtain ⟨content, hc⟩ := read_of_load h.tasks
  refine ⟨_, replace_of_ne_folder (by rw [hc]; exact Slot.noConfusion) _, ?_, ?_, h.lock⟩
  · exact loadTasks_set_encode d tasks
  · rw [loadSequence, load_set_of_ne _ _ _ (by decide)]
    exact h.last

theorem replaceSequence (h : Represents d s) {last : Nat} (hlast : last ≤ Numeral.max64) :
    ∃ d', d.replace .sequence (Sequence.encode last) = .ok d' ∧
      Represents d' { s with last } := by
  obtain ⟨content, hc⟩ := read_of_load h.last
  refine ⟨_, replace_of_ne_folder (by rw [hc]; exact Slot.noConfusion) _, ?_, ?_, h.lock⟩
  · rw [loadTasks, load_set_of_ne _ _ _ (by decide)]
    exact h.tasks
  · rw [loadSequence, load_set_file, Sequence.decode_encode hlast]

/-- A plan that fails whenever the files hold the table changes nothing. -/
theorem perform_error {α : Type} (h : Represents d s) {plan : Plan α} {e : Error}
    (hplan : ∀ d', Represents d' s → plan d' = .error e) :
    Agrees (perform plan d) (.error e, s) := by
  obtain ⟨d', hd, hr⟩ := h.takeLock
  simp only [perform, hd, hplan d' hr]
  exact ⟨rfl, hr⟩

theorem perform_change {α : Type} (h : Represents d s) {plan : Plan α} {change : Change α}
    {s' : Table} (hplan : ∀ d', Represents d' s → plan d' = .ok change)
    (hcommit : ∀ d', Represents d' s →
      ∃ d'', commit change.writes d' = (.ok (), d'') ∧ Represents d'' s') :
    Agrees (perform plan d) (.ok change.answer, s') := by
  obtain ⟨d', hd, hr⟩ := h.takeLock
  obtain ⟨d'', hc, hr'⟩ := hcommit d' hr
  simp only [perform, hd, hplan d' hr, hc]
  exact ⟨rfl, hr'⟩

theorem perform_answer {α : Type} (h : Represents d s) {plan : Plan α} {a : α}
    (hplan : ∀ d', Represents d' s → plan d' = .ok (.none a)) :
    Agrees (perform plan d) (.ok a, s) :=
  h.perform_change hplan fun d' hr => ⟨d', rfl, hr⟩

theorem perform_replaceTasks {α : Type} (h : Represents d s) {plan : Plan α} {a : α}
    {tasks : List Task}
    (hplan : ∀ d', Represents d' s → plan d' = .ok ⟨[(.tasks, Rows.encode tasks)], a⟩) :
    Agrees (perform plan d) (.ok a, { s with tasks }) := by
  apply h.perform_change hplan
  intro d' hr
  obtain ⟨d'', hd, hr'⟩ := hr.replaceTasks tasks
  exact ⟨d'', by simp only [commit, hd], hr'⟩

end Represents

/-- The directory of a store that was opened in an empty folder. -/
def opened : Directory := { tasks := .file [], sequence := .file [] }

example : establish {} = (.ok (), opened) := rfl

theorem represents_opened : Represents opened ⟨[], 0⟩ := by
  refine ⟨Rows.decode_encode [], ?_, Slot.noConfusion⟩
  simp only [loadSequence, load, Directory.read, Directory.get, opened, Sequence.decode,
    Utf8.decode?, Utf8.decode]
  rfl

/-! Lists of tasks. -/

theorem foldl_max_eq_max (numbers : List Nat) (n : Nat) :
    numbers.foldl max n = max n (numbers.max?.getD 0) := by
  induction numbers generalizing n with
  | nil => rw [List.foldl_nil, List.max?_nil, Option.getD_none, Nat.max_zero]
  | cons m numbers ih =>
      rw [List.foldl_cons, ih, List.max?_cons', ih, Option.getD_some, Nat.max_assoc]

theorem nextNumber_eq_next (s : Table) : nextNumber s.last s.tasks = s.next := by
  rw [nextNumber, largest, foldl_max_eq_max, Nat.zero_max, Table.next, Table.highest]

theorem find_eq_get (id : String) (s : Table) : find id s.tasks = s.get id := by
  rw [find, Table.get]
  cases s.tasks.find? fun t => t.id = id <;> rfl

theorem find_of_any {id : String} {tasks : List Task} (h : tasks.any fun t => t.id = id) :
    ∃ t, find id tasks = .ok t := by
  obtain ⟨t, ht, hid⟩ := List.any_eq_true.1 h
  have hsome : (tasks.find? fun t => t.id = id).isSome := List.find?_isSome.2 ⟨t, ht, hid⟩
  obtain ⟨u, hu⟩ := Option.isSome_iff_exists.1 hsome
  exact ⟨u, by rw [find, hu]⟩

theorem find_of_not_any {id : String} {tasks : List Task} (h : ¬ tasks.any fun t => t.id = id) :
    find id tasks = .error (.notFound id) := by
  have hnone : (tasks.find? fun t => t.id = id) = none := by
    rw [List.find?_eq_none]
    intro t ht hid
    exact h (List.any_eq_true.2 ⟨t, ht, hid⟩)
  rw [find, hnone]

theorem find_eq_ok {id : String} {tasks : List Task} {t : Task} (h : find id tasks = .ok t) :
    t ∈ tasks ∧ t.id = id := by
  rw [find] at h
  split at h
  · rename_i u hu
    cases h
    have hid := List.find?_some hu
    exact ⟨List.mem_of_find?_eq_some hu, of_decide_eq_true hid⟩
  · cases h

theorem modifyFirst_eq_modify (id : String) (f : Task → Task) (tasks : List Task) :
    modifyFirst id f tasks = tasks.modify (tasks.findIdx fun t => t.id = id) f := by
  induction tasks with
  | nil => rfl
  | cons t tasks ih =>
      rw [modifyFirst, List.findIdx_cons]
      by_cases h : t.id = id
      · rw [if_pos h, decide_eq_true h, cond_true, List.modify_zero_cons]
      · rw [if_neg h, decide_eq_false h, cond_false, List.modify_succ_cons, ih]

theorem modifyFirst_congr {id : String} {f g : Task → Task} (h : ∀ t : Task, t.id = id → f t = g t)
    (tasks : List Task) : modifyFirst id f tasks = modifyFirst id g tasks := by
  induction tasks with
  | nil => rfl
  | cons t tasks ih =>
      rw [modifyFirst, modifyFirst]
      split
      · rename_i ht
        rw [h t ht]
      · rw [ih]

theorem getElem?_modifyFirst {f : Task → Task} {tasks : List Task} {id : String} {place : Nat} {u : Task}
    (h : (modifyFirst id f tasks)[place]? = some u) :
    ∃ t, tasks[place]? = some t ∧ (u = t ∨ find id tasks = .ok t ∧ t.id = id ∧ u = f t) := by
  induction tasks generalizing place with
  | nil => cases h
  | cons t tasks ih =>
      rw [modifyFirst] at h
      by_cases ht : t.id = id
      · rw [if_pos ht] at h
        cases place with
        | zero =>
            cases h
            refine ⟨t, rfl, .inr ⟨?_, ht, rfl⟩⟩
            rw [find, List.find?_cons, decide_eq_true ht]
        | succ place => exact ⟨u, h, .inl rfl⟩
      · rw [if_neg ht] at h
        cases place with
        | zero => exact ⟨u, h, .inl rfl⟩
        | succ place =>
            rw [find, List.find?_cons, decide_eq_false ht]
            exact ih h

theorem find_append {pre post : List Task} {t : Task} (h : ∀ u ∈ pre, u.id ≠ t.id) :
    find t.id (pre ++ t :: post) = .ok t := by
  have hnone : (pre.find? fun u => u.id = t.id) = none := by
    rw [List.find?_eq_none]
    intro u hu hid
    exact h u hu (of_decide_eq_true hid)
  rw [find, List.find?_append, hnone, Option.none_or, List.find?_cons, decide_eq_true rfl]

theorem modifyFirst_append {pre post : List Task} {t : Task} {f : Task → Task}
    (h : ∀ u ∈ pre, u.id ≠ t.id) :
    modifyFirst t.id f (pre ++ t :: post) = pre ++ f t :: post := by
  induction pre with
  | nil => exact if_pos rfl
  | cons u pre ih =>
      rw [List.forall_mem_cons] at h
      rw [List.cons_append, modifyFirst, if_neg h.1, ih h.2, List.cons_append]

namespace Table

variable {s s' : Table} {id : String}

theorem ifHeld_eq_ok {tasks : List Task} (h : s.ifHeld id tasks = (.ok (), s')) :
    (s.tasks.any fun t => t.id = id) ∧ s' = { s with tasks } := by
  rw [ifHeld] at h
  split at h
  · rename_i ha
    cases h
    exact ⟨ha, rfl⟩
  · cases h

theorem ifHeld_eq_error {tasks : List Task} {e : Error}
    (h : s.ifHeld id tasks = (.error e, s')) : s' = s := by
  rw [ifHeld] at h
  split at h <;> cases h
  rfl

theorem getElem?_findIdx_of_find? {t : Task} {tasks : List Task}
    (h : (tasks.find? fun t => t.id = id) = some t) :
    tasks[tasks.findIdx fun t => t.id = id]? = some t ∧ t.id = id := by
  induction tasks with
  | nil => cases h
  | cons u tasks ih =>
      rw [List.findIdx_cons]
      by_cases hu : u.id = id
      · rw [List.find?_cons, decide_eq_true hu] at h
        cases h
        rw [decide_eq_true hu]
        exact ⟨rfl, hu⟩
      · rw [List.find?_cons, decide_eq_false hu] at h
        rw [decide_eq_false hu]
        exact ih h

theorem get_eq_ok_iff {t : Task} :
    s.get id = .ok t ↔ (s.tasks.find? fun t => t.id = id) = some t := by
  rw [get]
  cases hf : s.tasks.find? fun t => t.id = id with
  | none => exact ⟨nofun, nofun⟩
  | some u =>
      constructor
      · rintro ⟨⟩
        rfl
      · rintro ⟨⟩
        rfl

theorem change_eq_ok {f : Task → Task} (h : s.change id f = (.ok (), s')) :
    ∃ t, s.get id = .ok t ∧
      s' = { s with tasks := s.tasks.modify (s.tasks.findIdx fun t => t.id = id) f } := by
  obtain ⟨ha, rfl⟩ := ifHeld_eq_ok h
  obtain ⟨t, ht⟩ := find_of_any ha
  exact ⟨t, by rw [← find_eq_get, ht], rfl⟩

end Table

/-! The operations. -/

namespace Represents

variable {d : Directory} {s : Table}

theorem list (h : Represents d s) (limit : Nat) :
    Agrees (Store.list limit d) (.ok (s.list limit), s) := by
  apply h.perform_answer
  intro d' hr
  simp only [Plan.list, hr.tasks, bind, Except.bind, pure, Except.pure, Table.list]

theorem get (h : Represents d s) (id : String) : Agrees (Store.get id d) (s.get id, s) := by
  cases hg : s.get id with
  | error e =>
      apply h.perform_error
      intro d' hr
      simp only [Plan.get, hr.tasks, bind, Except.bind, find_eq_get, hg]
  | ok t =>
      apply h.perform_answer
      intro d' hr
      simp only [Plan.get, hr.tasks, bind, Except.bind, pure, Except.pure, find_eq_get, hg]

theorem insert (h : Represents d s) (t : Task) (hroom : s.next ≤ Numeral.max64) :
    Agrees (Store.insert t d) (.ok (s.insert t).1, (s.insert t).2) := by
  have hplan : ∀ d', Represents d' s → Plan.insert t d' =
      .ok ⟨[(.sequence, Sequence.encode s.next), (.tasks, Rows.encode (s.insert t).2.tasks)],
        (s.insert t).1⟩ := by
    intro d' hr
    simp only [Plan.insert, Plan.insertWith, hr.tasks, hr.last, bind, Except.bind, pure, Except.pure,
      nextNumber_eq_next, Arithmetic.fit_of_le hroom]
    rfl
  refine h.perform_change hplan ?_
  intro d' hr
  obtain ⟨d₁, hd₁, hr₁⟩ := hr.replaceSequence hroom
  obtain ⟨d₂, hd₂, hr₂⟩ := hr₁.replaceTasks (s.insert t).2.tasks
  exact ⟨d₂, by simp only [commit, hd₁, hd₂], hr₂⟩

theorem insert_overflow (h : Represents d s) (t : Task) (hroom : ¬ s.next ≤ Numeral.max64) :
    Agrees (Store.insert t d) (.error .overflow, s) := by
  apply h.perform_error
  intro d' hr
  simp only [Plan.insert, Plan.insertWith, hr.tasks, hr.last, bind, Except.bind, nextNumber_eq_next,
    Arithmetic.fit_checked_of_lt (Nat.not_le.1 hroom)]

/-- An operation that changes the tasks if it finds one with the identifier it was given. -/
theorem perform_ifHeld (h : Represents d s) {plan : Plan Unit} {id : String} {tasks : List Task}
    (hplan : ∀ d', Represents d' s → plan d' =
      (find id s.tasks).map fun _ => ⟨[(.tasks, Rows.encode tasks)], ()⟩) :
    Agrees (perform plan d) (s.ifHeld id tasks) := by
  rw [Table.ifHeld]
  split
  · rename_i ha
    obtain ⟨t, ht⟩ := find_of_any ha
    apply h.perform_replaceTasks
    intro d' hr
    rw [hplan d' hr, ht]
    rfl
  · rename_i ha
    apply h.perform_error
    intro d' hr
    rw [hplan d' hr, find_of_not_any ha]
    rfl

theorem modify (h : Represents d s) {id : String} {f g : Task → Task}
    (hfg : ∀ t : Task, t.id = id → { f t with id } = g t) :
    Agrees (perform (Plan.modify id f) d) (s.change id g) := by
  rw [Table.change, ← modifyFirst_eq_modify, ← modifyFirst_congr hfg]
  apply h.perform_ifHeld
  intro d' hr
  simp only [Plan.modify, hr.tasks, bind, Except.bind]
  cases find id s.tasks <;> rfl

theorem update (h : Represents d s) (t : Task) :
    Agrees (Store.update t d) (s.change t.id fun _ => t) :=
  h.modify fun _ _ => rfl

theorem updateDate (h : Represents d s) (id date : String) :
    Agrees (Store.updateDate id date d) (s.change id fun t => { t with date }) := by
  apply h.modify
  rintro t rfl
  rfl

theorem delete (h : Represents d s) (id : String) :
    Agrees (Store.delete id d) (s.delete id) := by
  apply h.perform_ifHeld
  intro d' hr
  simp only [Plan.delete, hr.tasks, bind, Except.bind]
  cases find id s.tasks <;> rfl

theorem reopen (h : Represents d s) : establish d = (.ok (), d) :=
  establish_of_loaded h.tasks h.last

end Represents

end Agenda.Store
