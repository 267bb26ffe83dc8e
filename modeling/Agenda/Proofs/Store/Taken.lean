import Agenda.Proofs.Store.Effect

/-!
The store between the calls of an operation. The first call has taken the lock, and from then on a
call that only looks leaves every entry as it is. If the tasks can be read as well, a call is what
it does to a list of tasks; the last number plays no part unless one is given out.
-/

namespace Agenda.Store

/-- The directory once a call has taken the lock. A folder in its place stays. -/
def taken (d : Directory) : Directory :=
  match d.lock with
  | .absent => d.set .lock (.file [])
  | .folder | .file _ => d

section Taken

variable {α : Type}

theorem create_lock (d : Directory) :
    (d.create .lock = .ok (taken d) ∧ ∃ content, (taken d).lock = .file content) ∨
      d.create .lock = .error .isFolder ∧ taken d = d := by
  rw [Directory.create, taken, Directory.get]
  cases hl : d.lock with
  | absent => exact .inl ⟨rfl, [], rfl⟩
  | folder => exact .inr ⟨rfl, rfl⟩
  | file content => exact .inl ⟨rfl, content, hl⟩

theorem create_lock_taken (d : Directory) : (taken d).create .lock = d.create .lock := by
  rw [Directory.create, Directory.create, taken, Directory.get, Directory.get]
  cases hl : d.lock with
  | absent => rfl
  | folder | file _ => simp only [hl]

theorem perform_taken (plan : Plan α) (d : Directory) :
    perform plan (taken d) = perform plan d := by
  obtain ⟨h, _⟩ | ⟨_, h⟩ := create_lock d
  · simp only [perform, create_lock_taken, h]
  · rw [h]

theorem snd_get (id : String) (d : Directory) : (Store.get id d).2 = taken d := by
  rw [Store.get, perform]
  obtain ⟨h, _⟩ | ⟨h, htaken⟩ := create_lock d
  · rw [h]
    simp only
    cases hp : Plan.get id (taken d) with
    | error e => rfl
    | ok change =>
        obtain ⟨_, _, _, _, rfl⟩ := Plan.get_eq_ok hp
        rfl
  · rw [h]
    exact htaken.symm

theorem sameFiles_taken (d : Directory) : SameFiles d (taken d) := by
  obtain ⟨h, _⟩ | ⟨_, h⟩ := create_lock d
  · exact .of_create_lock h
  · rw [h]
    exact .refl d

end Taken

/-! Tasks that can be read. -/

/-- The lock is there, and these are the tasks. -/
structure Ready (d : Directory) (tasks : List Task) : Prop where
  lock : ∃ content, d.lock = .file content
  loaded : loadTasks d = .ok tasks

/-- The directory with these tasks written. -/
def put (tasks : List Task) (d : Directory) : Directory :=
  d.set .tasks (.file (Rows.encode tasks))

theorem put_put (tasks tasks' : List Task) (d : Directory) :
    put tasks (put tasks' d) = put tasks d := rfl

theorem eq_of_put_eq {tasks tasks' : List Task} {d : Directory} (h : put tasks d = put tasks' d) :
    tasks = tasks' := by
  have hloaded := congrArg loadTasks h
  rw [put, put, loadTasks_set_encode, loadTasks_set_encode] at hloaded
  cases hloaded
  rfl

theorem ready_of_get {d : Directory} {id : String} {t : Task} (h : (Store.get id d).1 = .ok t) :
    ∃ tasks, Ready (taken d) tasks ∧ find id tasks = .ok t := by
  rw [Store.get, perform] at h
  obtain ⟨hl, hlock⟩ | ⟨hl, _⟩ := create_lock d
  · simp only [hl] at h
    cases hp : Plan.get id (taken d) with
    | error e => rw [hp] at h; cases h
    | ok change =>
        obtain ⟨tasks, u, htasks, hu, rfl⟩ := Plan.get_eq_ok hp
        rw [hp] at h
        cases h
        exact ⟨tasks, ⟨hlock, htasks⟩, hu⟩
  · simp only [hl] at h
    cases h

theorem ready_taken {d : Directory} {tasks : List Task} (h : loadTasks d = .ok tasks)
    (hlock : d.lock ≠ .folder) : Ready (taken d) tasks := by
  rw [taken]
  cases hl : d.lock with
  | absent => exact ⟨⟨[], rfl⟩, (load_set_of_ne _ _ _ (by decide)).trans h⟩
  | folder => exact absurd hl hlock
  | file content => exact ⟨⟨content, hl⟩, h⟩

namespace Ready

variable {d : Directory} {tasks : List Task} {id : String}

theorem create (h : Ready d tasks) : d.create .lock = .ok d := by
  obtain ⟨content, hl⟩ := h.lock
  rw [Directory.create, Directory.get, hl]

theorem put (h : Ready d tasks) (tasks' : List Task) : Ready (Store.put tasks' d) tasks' :=
  ⟨h.lock, loadTasks_set_encode d tasks'⟩

theorem setSequence (h : Ready d tasks) (slot : Slot) : Ready (d.set .sequence slot) tasks :=
  ⟨h.lock, (load_set_of_ne _ _ _ (by decide)).trans h.loaded⟩

theorem get (h : Ready d tasks) (id : String) : Store.get id d = (find id tasks, d) := by
  simp only [Store.get, perform, h.create, Plan.get, h.loaded, bind, Except.bind]
  cases find id tasks <;> rfl

theorem list (h : Ready d tasks) (limit : Nat) :
    Store.list limit d = (.ok ((sorted tasks).take limit), d) := by
  simp only [Store.list, perform, h.create, Plan.list, h.loaded, bind, Except.bind]
  rfl

theorem perform_error {α : Type} (h : Ready d tasks) {plan : Plan α} {e : Error}
    (hplan : plan d = .error e) : perform plan d = (.error e, d) := by
  simp only [perform, h.create, hplan]

theorem perform_put {α : Type} (h : Ready d tasks) {plan : Plan α} {tasks' : List Task} {a : α}
    (hplan : plan d = .ok ⟨[(.tasks, Rows.encode tasks')], a⟩) :
    perform plan d = (.ok a, Store.put tasks' d) := by
  simp only [perform, h.create, hplan, commit_tasks h.loaded, Store.put]

theorem modify_missing (h : Ready d tasks) {e : Error} (hfind : find id tasks = .error e)
    (f : Task → Task) : perform (Plan.modify id f) d = (.error e, d) :=
  h.perform_error (by simp only [Plan.modify, h.loaded, hfind, bind, Except.bind])

theorem modify_found (h : Ready d tasks) {t : Task} (hfind : find id tasks = .ok t)
    (f : Task → Task) : perform (Plan.modify id f) d =
      (.ok (), Store.put (modifyFirst id (fun t => { f t with id }) tasks) d) :=
  h.perform_put (by simp only [Plan.modify, h.loaded, hfind, bind, Except.bind]; rfl)

theorem update_missing (h : Ready d tasks) {t : Task} {e : Error}
    (hfind : find t.id tasks = .error e) : Store.update t d = (.error e, d) :=
  h.modify_missing hfind _

theorem update_found (h : Ready d tasks) {t u : Task} (hfind : find t.id tasks = .ok u) :
    Store.update t d = (.ok (), Store.put (modifyFirst t.id (fun _ => t) tasks) d) :=
  h.modify_found hfind _

theorem delete_missing (h : Ready d tasks) {e : Error} (hfind : find id tasks = .error e) :
    Store.delete id d = (.error e, d) :=
  h.perform_error (by simp only [Plan.delete, h.loaded, hfind, bind, Except.bind])

theorem delete_found (h : Ready d tasks) {t : Task} (hfind : find id tasks = .ok t) :
    Store.delete id d = (.ok (), Store.put (tasks.filter fun t => t.id ≠ id) d) :=
  h.perform_put (by simp only [Plan.delete, h.loaded, hfind, bind, Except.bind]; rfl)

/-- An insertion fails and changes nothing, or it leaves the tasks with one more behind them. -/
theorem insert (h : Ready d tasks) (t : Task) :
    ∃ more, Ready (Store.insert t d).2 (tasks ++ more) := by
  cases hp : Plan.insert t d with
  | error e =>
      refine ⟨[], ?_⟩
      rw [Store.insert, h.perform_error hp, List.append_nil]
      exact h
  | ok change =>
      obtain ⟨held, last, hheld, hlast, _, rfl⟩ := Plan.insert_eq_ok hp
      cases h.loaded.symm.trans hheld
      simp only [Store.insert, perform, h.create, hp, commit_sequence_tasks hheld hlast]
      exact ⟨_, (h.setSequence _).put _⟩

end Ready

/-! The first task with an identifier. -/

/-- This task is the first with the identifier, between those before it and those behind it. -/
structure FirstWith (id : String) (tasks pre : List Task) (t : Task) (post : List Task) : Prop where
  parts : tasks = pre ++ t :: post
  named : t.id = id
  first : ∀ u ∈ pre, u.id ≠ id

namespace FirstWith

variable {id : String} {tasks pre post : List Task} {t : Task}

theorem find (h : FirstWith id tasks pre t post) : Store.find id tasks = .ok t := by
  obtain ⟨rfl, rfl, hfirst⟩ := h
  exact find_append hfirst

theorem modifyFirst (h : FirstWith id tasks pre t post) (f : Task → Task) :
    Store.modifyFirst id f tasks = pre ++ f t :: post := by
  obtain ⟨rfl, rfl, hfirst⟩ := h
  exact modifyFirst_append hfirst

theorem of_find (h : Store.find id tasks = .ok t) : ∃ pre post, FirstWith id tasks pre t post := by
  rw [Store.find] at h
  split at h
  · rename_i u hu
    cases h
    obtain ⟨hid, pre, post, hparts, hfirst⟩ := List.find?_eq_some_iff_append.1 hu
    refine ⟨pre, post, hparts, of_decide_eq_true hid, fun v hv hv' => ?_⟩
    have hother := hfirst v hv
    rw [decide_eq_true hv'] at hother
    cases hother
  · cases h

end FirstWith

theorem find_cases (id : String) (tasks : List Task) :
    find id tasks = .error (.notFound id) ∨ ∃ t, find id tasks = .ok t := by
  by_cases hany : tasks.any fun t => t.id = id
  · exact .inr (find_of_any hany)
  · exact .inl (find_of_not_any hany)

theorem exists_find {id : String} {tasks : List Task} (h : ∃ t ∈ tasks, t.id = id) :
    ∃ t, find id tasks = .ok t := by
  obtain ⟨t, ht, hid⟩ := h
  exact find_of_any (List.any_eq_true.2 ⟨t, ht, decide_eq_true hid⟩)

theorem find_eq_error_iff {id : String} {tasks : List Task} :
    find id tasks = .error (.notFound id) ↔ ∀ t ∈ tasks, t.id ≠ id := by
  constructor
  · intro h t ht hid
    obtain ⟨u, hu⟩ := exists_find ⟨t, ht, hid⟩
    rw [h] at hu
    cases hu
  · intro h
    apply find_of_not_any
    intro hany
    obtain ⟨t, ht, hid⟩ := List.any_eq_true.1 hany
    exact h t ht (of_decide_eq_true hid)

/-! What is found after a change. -/

section Find

variable {id id' : String} {tasks : List Task} {t : Task} {f g : Task → Task}

theorem find_modifyFirst (h : find id tasks = .ok t) (hf : (f t).id = id) :
    find id (modifyFirst id f tasks) = .ok (f t) := by
  induction tasks with
  | nil => cases h
  | cons u tasks ih =>
      rw [modifyFirst]
      by_cases hu : u.id = id
      · rw [find, List.find?_cons, decide_eq_true hu] at h
        cases h
        rw [if_pos hu, find, List.find?_cons, decide_eq_true hf]
      · rw [find, List.find?_cons, decide_eq_false hu] at h
        rw [if_neg hu, find, List.find?_cons, decide_eq_false hu]
        exact ih h

theorem find_modifyFirst_of_ne (hne : id ≠ id') (hf : ∀ t : Task, t.id = id' → (f t).id = id')
    (tasks : List Task) : find id (modifyFirst id' f tasks) = find id tasks := by
  induction tasks with
  | nil => rfl
  | cons u tasks ih =>
      rw [modifyFirst]
      by_cases hu : u.id = id'
      · have hu' : u.id ≠ id := fun h => hne (h.symm.trans hu)
        have hfu : (f u).id ≠ id := fun h => hne (h.symm.trans (hf u hu))
        rw [if_pos hu, find, find, List.find?_cons, List.find?_cons, decide_eq_false hu',
          decide_eq_false hfu]
      · rw [if_neg hu, find, find, List.find?_cons, List.find?_cons]
        cases hd : decide (u.id = id) with
        | true => rfl
        | false => exact ih

theorem find_filter_self (id : String) (tasks : List Task) :
    find id (tasks.filter fun t => t.id ≠ id) = .error (.notFound id) := by
  rw [find_eq_error_iff]
  intro t ht
  have hne := List.of_mem_filter ht
  exact of_decide_eq_true hne

theorem find_filter_of_ne (hne : id ≠ id') (tasks : List Task) :
    find id (tasks.filter fun t => t.id ≠ id') = find id tasks := by
  induction tasks with
  | nil => rfl
  | cons u tasks ih =>
      by_cases hu : u.id = id'
      · have hu' : u.id ≠ id := fun h => hne (h.symm.trans hu)
        rw [List.filter_cons_of_neg (by simpa using hu), ih, find, find, List.find?_cons,
          decide_eq_false hu']
      · rw [List.filter_cons_of_pos (by simpa using hu), find, find, List.find?_cons,
          List.find?_cons]
        cases hd : decide (u.id = id) with
        | true => rfl
        | false => exact ih

theorem find_append_of_find (h : find id tasks = .ok t) (more : List Task) :
    find id (tasks ++ more) = .ok t := by
  rw [find] at h ⊢
  rw [List.find?_append]
  cases hf : tasks.find? fun t => t.id = id with
  | none => rw [hf] at h; cases h
  | some u => rw [hf] at h; exact h

theorem modifyFirst_modifyFirst (hg : ∀ t : Task, t.id = id → (g t).id = id) (f : Task → Task)
    (tasks : List Task) :
    modifyFirst id f (modifyFirst id g tasks) = modifyFirst id (fun t => f (g t)) tasks := by
  induction tasks with
  | nil => rfl
  | cons u tasks ih =>
      rw [modifyFirst, modifyFirst]
      by_cases hu : u.id = id
      · rw [if_pos hu, if_pos hu, modifyFirst, if_pos (hg u hu)]
      · rw [if_neg hu, if_neg hu, modifyFirst, if_neg hu, ih]

end Find

end Agenda.Store
