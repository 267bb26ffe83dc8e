import Agenda.Proofs.Store.Refinement

/-!
What a request does to a directory, whatever its entries hold. A plan is made from files that could
be read, and it writes to no others, so none of its writes fails: a request that fails has left both
files alone. One inductive says all that a request can do.
-/

namespace Agenda.Store

section Congruence

variable {d d' : Directory}

theorem loadTasks_congr (h : d'.tasks = d.tasks) : loadTasks d' = loadTasks d := by
  simp only [loadTasks, load, Directory.read, Directory.get, h]

theorem loadSequence_congr (h : d'.sequence = d.sequence) : loadSequence d' = loadSequence d := by
  simp only [loadSequence, load, Directory.read, Directory.get, h]

end Congruence

/-- Both files are as they were; the lock may be new. -/
structure SameFiles (d d' : Directory) : Prop where
  tasks : d'.tasks = d.tasks
  sequence : d'.sequence = d.sequence

namespace SameFiles

variable {d d' d'' : Directory}

theorem refl (d : Directory) : SameFiles d d := ⟨rfl, rfl⟩

theorem trans (h : SameFiles d d') (h' : SameFiles d' d'') : SameFiles d d'' :=
  ⟨h'.tasks.trans h.tasks, h'.sequence.trans h.sequence⟩

theorem loadTasks (h : SameFiles d d') : Store.loadTasks d' = Store.loadTasks d :=
  loadTasks_congr h.tasks

theorem loadSequence (h : SameFiles d d') : Store.loadSequence d' = Store.loadSequence d :=
  loadSequence_congr h.sequence

theorem of_create_lock (h : d.create .lock = .ok d') : SameFiles d d' := by
  rw [Directory.create] at h
  split at h <;> cases h
  · exact ⟨rfl, rfl⟩
  · exact refl d

end SameFiles

/-! What plans write. -/

section Plans

variable {d : Directory} {id : String}

theorem commit_cons {entry : Entry} {old : List UInt8} (h : d.get entry = .file old)
    (content : List UInt8) (writes : List (Entry × List UInt8)) :
    commit ((entry, content) :: writes) d = commit writes (d.set entry (.file content)) := by
  have hfolder : d.get entry ≠ .folder := by
    rw [h]
    exact Slot.noConfusion
  simp only [commit, replace_of_ne_folder hfolder]

theorem commit_tasks {tasks : List Task} (h : loadTasks d = .ok tasks) (content : List UInt8) :
    commit [(.tasks, content)] d = (.ok (), d.set .tasks (.file content)) := by
  obtain ⟨old, hold⟩ := read_of_load h
  exact commit_cons hold content []

theorem commit_sequence_tasks {tasks : List Task} {last : Nat} (htasks : loadTasks d = .ok tasks)
    (hlast : loadSequence d = .ok last) (number content : List UInt8) :
    commit [(.sequence, number), (.tasks, content)] d =
      (.ok (), (d.set .sequence (.file number)).set .tasks (.file content)) := by
  obtain ⟨old, hold⟩ := read_of_load hlast
  have htasks' : loadTasks (d.set .sequence (.file number)) = .ok tasks :=
    (load_set_of_ne _ _ _ (by decide)).trans htasks
  rw [commit_cons hold, commit_tasks htasks']

theorem Plan.list_eq_ok {limit : Nat} {change : Change (List Task)}
    (h : Plan.list limit d = .ok change) :
    ∃ tasks, loadTasks d = .ok tasks ∧ change = .none ((sorted tasks).take limit) := by
  obtain ⟨tasks, htasks, h⟩ := bind_eq_ok h
  cases h
  exact ⟨tasks, htasks, rfl⟩

theorem Plan.get_eq_ok {change : Change Task} (h : Plan.get id d = .ok change) :
    ∃ tasks t, loadTasks d = .ok tasks ∧ find id tasks = .ok t ∧ change = .none t := by
  obtain ⟨tasks, htasks, h⟩ := bind_eq_ok h
  obtain ⟨t, ht, h⟩ := bind_eq_ok h
  cases h
  exact ⟨tasks, t, htasks, ht, rfl⟩

theorem Plan.insert_eq_ok {t : Task} {change : Change String} (h : Plan.insert t d = .ok change) :
    ∃ tasks last, loadTasks d = .ok tasks ∧ loadSequence d = .ok last ∧
      nextNumber last tasks ≤ Numeral.max64 ∧
      change = ⟨[(.sequence, Sequence.encode (nextNumber last tasks)),
          (.tasks, Rows.encode (tasks ++ [{ t with id := Numeral.text (nextNumber last tasks) }]))],
        Numeral.text (nextNumber last tasks)⟩ := by
  obtain ⟨tasks, htasks, h⟩ := bind_eq_ok h
  obtain ⟨last, hlast, h⟩ := bind_eq_ok h
  obtain ⟨number, hnumber, h⟩ := bind_eq_ok h
  by_cases hroom : nextNumber last tasks ≤ Numeral.max64
  · cases (Arithmetic.fit_of_le hroom .checked).symm.trans hnumber
    cases h
    exact ⟨tasks, last, htasks, hlast, hroom, rfl⟩
  · rw [Arithmetic.fit_checked_of_lt (Nat.not_le.1 hroom)] at hnumber
    cases hnumber

theorem Plan.modify_eq_ok {f : Task → Task} {change : Change Unit}
    (h : Plan.modify id f d = .ok change) :
    ∃ tasks t, loadTasks d = .ok tasks ∧ find id tasks = .ok t ∧
      change = ⟨[(.tasks, Rows.encode (modifyFirst id (fun t => { f t with id }) tasks))], ()⟩ := by
  obtain ⟨tasks, htasks, h⟩ := bind_eq_ok h
  obtain ⟨t, ht, h⟩ := bind_eq_ok h
  cases h
  exact ⟨tasks, t, htasks, ht, rfl⟩

theorem Plan.delete_eq_ok {change : Change Unit} (h : Plan.delete id d = .ok change) :
    ∃ tasks t, loadTasks d = .ok tasks ∧ find id tasks = .ok t ∧
      change = ⟨[(.tasks, Rows.encode (tasks.filter fun t => t.id ≠ id))], ()⟩ := by
  obtain ⟨tasks, htasks, h⟩ := bind_eq_ok h
  obtain ⟨t, ht, h⟩ := bind_eq_ok h
  cases h
  exact ⟨tasks, t, htasks, ht, rfl⟩

/-- There is no number behind the last one. -/
def Full (d : Directory) : Prop :=
  ∃ tasks last, loadTasks d = .ok tasks ∧ loadSequence d = .ok last ∧
    Numeral.max64 < nextNumber last tasks

/-- As long as there is a number left, all builds of the program plan the same. -/
theorem Plan.insertWith_of_not_full (h : ¬ Full d) (arithmetic : Arithmetic) (t : Task) :
    Plan.insertWith arithmetic t d = Plan.insert t d := by
  rw [Plan.insert, Plan.insertWith, Plan.insertWith]
  cases htasks : loadTasks d with
  | error e => rfl
  | ok tasks =>
      cases hlast : loadSequence d with
      | error e => rfl
      | ok last =>
          have hroom : nextNumber last tasks ≤ Numeral.max64 :=
            Nat.not_lt.1 fun hfull => h ⟨tasks, last, htasks, hlast, hfull⟩
          simp only [bind, Except.bind, Arithmetic.fit_of_le hroom]

/-- What is planned can be written. -/
def Plan.Writable {α : Type} (plan : Plan α) : Prop :=
  ∀ d change, plan d = .ok change → ∃ d', commit change.writes d = (.ok (), d')

theorem Plan.writable_list (limit : Nat) : (Plan.list limit).Writable := by
  intro d change h
  obtain ⟨tasks, htasks, rfl⟩ := Plan.list_eq_ok h
  exact ⟨d, rfl⟩

theorem Plan.writable_get (id : String) : (Plan.get id).Writable := by
  intro d change h
  obtain ⟨tasks, t, htasks, ht, rfl⟩ := Plan.get_eq_ok h
  exact ⟨d, rfl⟩

theorem Plan.writable_insert (t : Task) : (Plan.insert t).Writable := by
  intro d change h
  obtain ⟨tasks, last, htasks, hlast, _, rfl⟩ := Plan.insert_eq_ok h
  exact ⟨_, commit_sequence_tasks htasks hlast _ _⟩

theorem Plan.writable_modify (id : String) (f : Task → Task) : (Plan.modify id f).Writable := by
  intro d change h
  obtain ⟨tasks, t, htasks, ht, rfl⟩ := Plan.modify_eq_ok h
  exact ⟨_, commit_tasks htasks _⟩

theorem Plan.writable_delete (id : String) : (Plan.delete id).Writable := by
  intro d change h
  obtain ⟨tasks, t, htasks, ht, rfl⟩ := Plan.delete_eq_ok h
  exact ⟨_, commit_tasks htasks _⟩

/-- An operation fails and leaves the files alone, or it makes all the writes of its plan. -/
theorem perform_cases {α : Type} {plan : Plan α} (h : plan.Writable) (d : Directory) :
    (∃ e d', perform plan d = (.error e, d') ∧ SameFiles d d') ∨
      ∃ locked change d', SameFiles d locked ∧ plan locked = .ok change ∧
        commit change.writes locked = (.ok (), d') ∧ perform plan d = (.ok change.answer, d') := by
  rw [perform]
  cases hl : d.create .lock with
  | error e => exact .inl ⟨_, d, rfl, .refl d⟩
  | ok locked =>
      have hsame := SameFiles.of_create_lock hl
      cases hp : plan locked with
      | error e => exact .inl ⟨e, locked, by simp only [hp], hsame⟩
      | ok change =>
          obtain ⟨d', hc⟩ := h locked change hp
          exact .inr ⟨locked, change, d', hsame, hp, hc, by simp only [hp, hc]⟩

end Plans

/-! What requests do. -/

/-- A request that changes the first task with this identifier, and how. -/
def Request.change? : Request → Option (String × (Task → Task))
  | update t => some (t.id, fun _ => t)
  | updateDate id date => some (id, fun t => { t with date })
  | list _ | get _ | insert _ | delete _ | reopen => none

/-- Where an entry was absent there may be an empty file now. -/
def Established (before after : Slot) : Prop :=
  after = before ∨ before = .absent ∧ after = .file []

theorem Established.eq_of_file {before after : Slot} {content : List UInt8}
    (h : Established before after) (hfile : before = .file content) : after = before := by
  obtain hsame | ⟨habsent, _⟩ := h
  · exact hsame
  · cases hfile.symm.trans habsent

/-- What a request answers and leaves. -/
inductive Effect (d : Directory) : Request → Except Error Answer → Directory → Prop where
  | failed {r : Request} {e : Error} {d' : Directory} (operation : r ≠ .reopen)
      (same : SameFiles d d') : Effect d r (.error e) d'
  | listed {limit : Nat} {tasks : List Task} {d' : Directory} (loaded : loadTasks d = .ok tasks)
      (same : SameFiles d d') :
      Effect d (.list limit) (.ok (.tasks ((sorted tasks).take limit))) d'
  | got {id : String} {tasks : List Task} {t : Task} {d' : Directory}
      (loaded : loadTasks d = .ok tasks) (found : find id tasks = .ok t) (same : SameFiles d d') :
      Effect d (.get id) (.ok (.task t)) d'
  | inserted {t : Task} {tasks : List Task} {last : Nat} {d' : Directory}
      (loaded : loadTasks d = .ok tasks) (counted : loadSequence d = .ok last)
      (room : nextNumber last tasks ≤ Numeral.max64)
      (left : loadTasks d' =
        .ok (tasks ++ [{ t with id := Numeral.text (nextNumber last tasks) }]))
      (number : loadSequence d' = .ok (nextNumber last tasks)) :
      Effect d (.insert t) (.ok (.id (Numeral.text (nextNumber last tasks)))) d'
  | changed {r : Request} {id : String} {f : Task → Task} {tasks : List Task} {t : Task}
      {d' : Directory} (asked : r.change? = some (id, f)) (loaded : loadTasks d = .ok tasks)
      (found : find id tasks = .ok t)
      (left : loadTasks d' = .ok (modifyFirst id (fun t => { f t with id }) tasks))
      (same : d'.sequence = d.sequence) : Effect d r (.ok .done) d'
  | deleted {id : String} {tasks : List Task} {t : Task} {d' : Directory}
      (loaded : loadTasks d = .ok tasks) (found : find id tasks = .ok t)
      (left : loadTasks d' = .ok (tasks.filter fun t => t.id ≠ id))
      (same : d'.sequence = d.sequence) : Effect d (.delete id) (.ok .done) d'
  | reopened {outcome : Except Error Unit} {d' : Directory}
      (tasks : Established d.tasks d'.tasks) (sequence : Established d.sequence d'.sequence) :
      Effect d .reopen (outcome.map fun _ => .done) d'

section Effects

variable {d : Directory} {r : Request}

/-- The effect of a request that is one plan is known once that of the plan's success is. -/
theorem Effect.of_perform {α : Type} {plan : Plan α} {answer : α → Answer} (hr : r ≠ .reopen)
    (hwritable : plan.Writable) (hfiles : r.onFiles d = reply answer (perform plan d))
    (hdone : ∀ locked change d', SameFiles d locked → plan locked = .ok change →
      commit change.writes locked = (.ok (), d') → Effect d r (.ok (answer change.answer)) d') :
    Effect d r (r.onFiles d).1 (r.onFiles d).2 := by
  rw [hfiles, reply]
  obtain ⟨e, d', heq, hsame⟩ | ⟨locked, change, d', hsame, hplan, hcommit, heq⟩ :=
    perform_cases hwritable d
  · rw [heq]
    exact .failed hr hsame
  · rw [heq]
    exact hdone locked change d' hsame hplan hcommit

theorem Effect.of_modify {id : String} {f : Task → Task} (hr : r ≠ .reopen)
    (hasked : r.change? = some (id, f))
    (hfiles : r.onFiles d = reply (fun _ => .done) (perform (Plan.modify id f) d)) :
    Effect d r (r.onFiles d).1 (r.onFiles d).2 := by
  apply Effect.of_perform hr (Plan.writable_modify id f) hfiles
  intro locked change d' hsame hplan hcommit
  obtain ⟨tasks, t, htasks, ht, rfl⟩ := Plan.modify_eq_ok hplan
  rw [commit_tasks htasks] at hcommit
  cases hcommit
  exact .changed hasked (hsame.loadTasks ▸ htasks) ht (loadTasks_set_encode _ _) hsame.sequence

theorem established_create {entry : Entry} {d' : Directory} (h : d.create entry = .ok d') :
    Established (d.get entry) (d'.get entry) ∧ ∀ other, other ≠ entry → d'.get other = d.get other := by
  rw [Directory.create] at h
  split at h <;> cases h
  · rename_i habsent
    refine ⟨.inr ⟨habsent, ?_⟩, ?_⟩
    · rw [Directory.get_set, if_pos rfl]
    · intro other hne
      rw [Directory.get_set, if_neg hne]
  · exact ⟨.inl rfl, fun _ _ => rfl⟩

theorem established_establish (d : Directory) :
    Established d.tasks (establish d).2.tasks ∧
      Established d.sequence (establish d).2.sequence := by
  rw [establish]
  cases ht : d.create .tasks with
  | error e => exact ⟨.inl rfl, .inl rfl⟩
  | ok d₁ =>
      obtain ⟨htasks, hrest⟩ := established_create ht
      have hsequence : d₁.sequence = d.sequence := hrest .sequence (by decide)
      simp only
      cases hs : d₁.create .sequence with
      | error e => exact ⟨htasks, .inl hsequence⟩
      | ok d₂ =>
          obtain ⟨hsequence', hrest'⟩ := established_create hs
          have htasks' : d₂.tasks = d₁.tasks := hrest' .tasks (by decide)
          simp only
          rw [htasks', ← hsequence]
          exact ⟨htasks, hsequence'⟩

theorem effect_onFiles (r : Request) (d : Directory) :
    Effect d r (r.onFiles d).1 (r.onFiles d).2 := by
  cases r with
  | list limit =>
      refine Effect.of_perform Request.noConfusion (Plan.writable_list limit) rfl ?_
      intro locked change d' hsame hplan hcommit
      obtain ⟨tasks, htasks, rfl⟩ := Plan.list_eq_ok hplan
      cases hcommit
      exact .listed (hsame.loadTasks ▸ htasks) hsame
  | get id =>
      refine Effect.of_perform Request.noConfusion (Plan.writable_get id) rfl ?_
      intro locked change d' hsame hplan hcommit
      obtain ⟨tasks, t, htasks, ht, rfl⟩ := Plan.get_eq_ok hplan
      cases hcommit
      exact .got (hsame.loadTasks ▸ htasks) ht hsame
  | insert t =>
      refine Effect.of_perform Request.noConfusion (Plan.writable_insert t) rfl ?_
      intro locked change d' hsame hplan hcommit
      obtain ⟨tasks, last, htasks, hlast, hroom, rfl⟩ := Plan.insert_eq_ok hplan
      rw [commit_sequence_tasks htasks hlast] at hcommit
      cases hcommit
      refine .inserted (hsame.loadTasks ▸ htasks) (hsame.loadSequence ▸ hlast) hroom ?_ ?_
      · exact loadTasks_set_encode _ _
      · rw [loadSequence, load_set_of_ne _ _ _ (by decide), load_set_file,
          Sequence.decode_encode hroom]
  | update t => exact Effect.of_modify Request.noConfusion rfl rfl
  | updateDate id date => exact Effect.of_modify Request.noConfusion rfl rfl
  | delete id =>
      refine Effect.of_perform Request.noConfusion (Plan.writable_delete id) rfl ?_
      intro locked change d' hsame hplan hcommit
      obtain ⟨tasks, t, htasks, ht, rfl⟩ := Plan.delete_eq_ok hplan
      rw [commit_tasks htasks] at hcommit
      cases hcommit
      exact .deleted (hsame.loadTasks ▸ htasks) ht (loadTasks_set_encode _ _) hsame.sequence
  | reopen =>
      obtain ⟨htasks, hsequence⟩ := established_establish d
      exact .reopened htasks hsequence

end Effects

/-! Requests that leave both files as they were. -/

section SameFiles

variable {d d' : Directory} {r : Request} {answer : Except Error Answer}

theorem Effect.sameFiles_of_error {e : Error} (h : Effect d r answer d') (hr : r ≠ .reopen)
    (he : answer = .error e) : SameFiles d d' := by
  cases h with
  | failed _ same => exact same
  | reopened _ _ => exact absurd rfl hr
  | listed _ _ | got _ _ _ | inserted _ _ _ _ _ | changed _ _ _ _ _ | deleted _ _ _ _ => cases he

theorem Effect.sameFiles_of_list {limit : Nat} (h : Effect d (.list limit) answer d') :
    SameFiles d d' := by
  cases h with
  | failed _ same | listed _ same => exact same
  | changed asked _ _ _ _ => cases asked

theorem Effect.sameFiles_of_get {id : String} (h : Effect d (.get id) answer d') :
    SameFiles d d' := by
  cases h with
  | failed _ same | got _ _ same => exact same
  | changed asked _ _ _ _ => cases asked

theorem sameFiles_list (limit : Nat) (d : Directory) : SameFiles d (Store.list limit d).2 :=
  (effect_onFiles (.list limit) d).sameFiles_of_list

theorem sameFiles_get (id : String) (d : Directory) : SameFiles d (Store.get id d).2 :=
  (effect_onFiles (.get id) d).sameFiles_of_get

end SameFiles

end Agenda.Store
