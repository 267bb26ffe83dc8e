import Agenda.Proofs.Store.Refusals
import Agenda.Proofs.Store.Taken

/-!
Requests that do not get in each other's way. A request that changes or takes away tasks looks only
at those with one identifier, and it does not see whether another request came before it for another
identifier: neither in what it answers nor in what it leaves. An insertion sees as little of it
where the last number alone decides on the next one, and there is a next one.
-/

namespace Agenda.Store

/-- Each request answers the same before and after the other, and both orders leave the same
directory. -/
structure Commute (r r' : Request) (d : Directory) : Prop where
  first : (r.onFiles (r'.onFiles d).2).1 = (r.onFiles d).1
  second : (r'.onFiles (r.onFiles d).2).1 = (r'.onFiles d).1
  left : (r'.onFiles (r.onFiles d).2).2 = (r.onFiles (r'.onFiles d).2).2

theorem Commute.symm {r r' : Request} {d : Directory} (h : Commute r r' d) : Commute r' r d :=
  ⟨h.second, h.first, h.left.symm⟩

/-- The identifier of the tasks that a request changes or takes away. -/
def Request.target? : Request → Option String
  | update t => some t.id
  | updateDate id _ | delete id => some id
  | list _ | get _ | insert _ | reopen => none

/-! Changes of the tasks with one identifier. -/

inductive Edit (id : String) : (List Task → List Task) → Prop where
  | change (f : Task → Task) : Edit id (modifyFirst id fun t => { f t with id })
  | drop : Edit id (List.filter fun t => t.id ≠ id)

section Edits

variable {id id' : String} {edit edit' : List Task → List Task} {tasks : List Task} {t : Task}
  {f g : Task → Task}

theorem modifyFirst_comm (hne : id ≠ id') (hf : ∀ t : Task, t.id = id → (f t).id = id)
    (hg : ∀ t : Task, t.id = id' → (g t).id = id') (tasks : List Task) :
    modifyFirst id f (modifyFirst id' g tasks) = modifyFirst id' g (modifyFirst id f tasks) := by
  induction tasks with
  | nil => rfl
  | cons u tasks ih =>
      -- A task has one identifier, before a change and after it, so one change at most stops here.
      by_cases hu : u.id = id
      · have hu' : u.id ≠ id' := fun h => hne (hu.symm.trans h)
        have hfu : (f u).id ≠ id' := fun h => hne ((hf u hu).symm.trans h)
        simp only [modifyFirst, if_pos hu, if_neg hu', if_neg hfu]
      · by_cases hu' : u.id = id'
        · have hgu : (g u).id ≠ id := fun h => hne (h.symm.trans (hg u hu'))
          simp only [modifyFirst, if_neg hu, if_pos hu', if_neg hgu]
        · simp only [modifyFirst, if_neg hu, if_neg hu', ih]

theorem filter_modifyFirst (hne : id ≠ id') (hf : ∀ t : Task, t.id = id → (f t).id = id)
    (tasks : List Task) : (modifyFirst id f tasks).filter (fun t => t.id ≠ id') =
      modifyFirst id f (tasks.filter fun t => t.id ≠ id') := by
  induction tasks with
  | nil => rfl
  | cons u tasks ih =>
      by_cases hu : u.id = id
      · have hu' : u.id ≠ id' := fun h => hne (hu.symm.trans h)
        have hfu : (f u).id ≠ id' := fun h => hne ((hf u hu).symm.trans h)
        rw [modifyFirst, if_pos hu, List.filter_cons_of_pos (by simpa using hfu),
          List.filter_cons_of_pos (by simpa using hu'), modifyFirst, if_pos hu]
      · rw [modifyFirst, if_neg hu]
        by_cases hu' : u.id = id'
        · rw [List.filter_cons_of_neg (by simpa using hu'),
            List.filter_cons_of_neg (by simpa using hu'), ih]
        · rw [List.filter_cons_of_pos (by simpa using hu'),
            List.filter_cons_of_pos (by simpa using hu'), modifyFirst, if_neg hu, ih]

theorem modifyFirst_append_of_find (h : find id tasks = .ok t) (f : Task → Task)
    (more : List Task) : modifyFirst id f (tasks ++ more) = modifyFirst id f tasks ++ more := by
  obtain ⟨pre, post, hfirst⟩ := FirstWith.of_find h
  rw [hfirst.modifyFirst]
  obtain ⟨rfl, rfl, hfirst⟩ := hfirst
  rw [List.append_assoc, List.cons_append, modifyFirst_append hfirst, List.append_assoc,
    List.cons_append]

namespace Edit

theorem find_of_ne (h : Edit id' edit) (hne : id ≠ id') (tasks : List Task) :
    find id (edit tasks) = find id tasks := by
  cases h with
  | change f => exact find_modifyFirst_of_ne hne (fun _ _ => rfl) tasks
  | drop => exact find_filter_of_ne hne tasks

theorem comm (h : Edit id edit) (h' : Edit id' edit') (hne : id ≠ id') (tasks : List Task) :
    edit (edit' tasks) = edit' (edit tasks) := by
  cases h with
  | change f =>
      cases h' with
      | change g => exact modifyFirst_comm hne (fun _ _ => rfl) (fun _ _ => rfl) tasks
      | drop => exact (filter_modifyFirst hne (fun _ _ => rfl) tasks).symm
  | drop =>
      cases h' with
      | change g => exact filter_modifyFirst hne.symm (fun _ _ => rfl) tasks
      | drop => exact List.filter_comm ..

/-- A task behind the one that is meant, with another identifier, does not matter. -/
theorem append_singleton (h : Edit id edit) (hfind : find id tasks = .ok t) {u : Task}
    (hu : u.id ≠ id) : edit (tasks ++ [u]) = edit tasks ++ [u] := by
  cases h with
  | change f => exact modifyFirst_append_of_find hfind _ [u]
  | drop =>
      rw [List.filter_append, List.filter_cons_of_pos (by simpa using hu), List.filter_nil]

theorem counted (h : Edit id edit) {last : Nat}
    (hcounted : Counted tasks last) : Counted (edit tasks) last := by
  cases h with
  | change f => exact hcounted.modifyFirst
  | drop => exact fun t ht => hcounted t (List.mem_of_mem_filter ht)

end Edit

end Edits

/-! Requests that make such a change. -/

/-- A request finds no task with the identifier, or it changes those that have it. -/
structure Request.Edits (r : Request) (id : String) (edit : List Task → List Task) : Prop where
  only : Edit id edit
  missing : ∀ {d : Directory} {tasks : List Task}, Ready d tasks →
    find id tasks = .error (.notFound id) → r.onFiles d = (.error (.notFound id), d)
  found : ∀ {d : Directory} {tasks : List Task} {t : Task}, Ready d tasks →
    find id tasks = .ok t → r.onFiles d = (.ok .done, put (edit tasks) d)

section Requests

variable {d : Directory} {tasks : List Task} {last : Nat} {r r' : Request} {id id' : String}
  {edit edit' : List Task → List Task} {t : Task}

theorem edits_of_modify {f : Task → Task}
    (hfiles : ∀ d, r.onFiles d = reply (fun _ => .done) (perform (Plan.modify id f) d)) :
    r.Edits id (modifyFirst id fun t => { f t with id }) where
  only := .change f
  missing hready hmissing := by
    rw [hfiles, hready.modify_missing hmissing]
    rfl
  found hready hfind := by
    rw [hfiles, hready.modify_found hfind]
    rfl

theorem exists_edits (h : r.target? = some id) : ∃ edit, r.Edits id edit := by
  cases r with
  | update t =>
      cases h
      exact ⟨_, edits_of_modify fun _ => rfl⟩
  | updateDate id date =>
      cases h
      exact ⟨_, edits_of_modify fun _ => rfl⟩
  | delete id =>
      cases h
      refine ⟨_, .drop, fun hready hmissing => ?_, fun hready hfind => ?_⟩
      · rw [Request.onFiles, hready.delete_missing hmissing]
        rfl
      · rw [Request.onFiles, hready.delete_found hfind]
        rfl
  | list _ | get _ | insert _ | reopen => cases h

theorem commute_of_missing (h : Ready d tasks) (hr : r.Edits id edit) (hr' : r'.Edits id' edit')
    (hne : id ≠ id') (hmissing : find id tasks = .error (.notFound id)) : Commute r r' d := by
  have hfirst := hr.missing h hmissing
  obtain hmissing' | ⟨u, hfind'⟩ := find_cases id' tasks
  · have hsecond := hr'.missing h hmissing'
    constructor <;> simp only [hfirst, hsecond]
  · have hsecond := hr'.found h hfind'
    have hafter := hr.missing (h.put (edit' tasks)) ((hr'.only.find_of_ne hne tasks).trans hmissing)
    constructor <;> simp only [hfirst, hsecond, hafter]

theorem commute_of_edits (h : Ready d tasks) (hr : r.Edits id edit) (hr' : r'.Edits id' edit')
    (hne : id ≠ id') : Commute r r' d := by
  obtain hmissing | ⟨t, hfind⟩ := find_cases id tasks
  · exact commute_of_missing h hr hr' hne hmissing
  · obtain hmissing' | ⟨u, hfind'⟩ := find_cases id' tasks
    · exact (commute_of_missing h hr' hr hne.symm hmissing').symm
    · have hfirst := hr.found h hfind
      have hsecond := hr'.found h hfind'
      have hafter := hr.found (h.put (edit' tasks)) ((hr'.only.find_of_ne hne tasks).trans hfind)
      have hafter' := hr'.found (h.put (edit tasks))
        ((hr.only.find_of_ne hne.symm tasks).trans hfind')
      constructor
      · simp only [hfirst, hsecond, hafter]
      · simp only [hfirst, hsecond, hafter']
      · simp only [hfirst, hsecond, hafter, hafter', put_put, hr.only.comm hr'.only hne tasks]

/-! Directories in which nothing can be done. -/

theorem onFiles_taken (hr : r ≠ .reopen) (d : Directory) : r.onFiles (taken d) = r.onFiles d := by
  cases r with
  | list _ | get _ | insert _ | update _ | updateDate _ _ | delete _ =>
      exact congrArg (reply _) (perform_taken _ d)
  | reopen => exact absurd rfl hr

theorem ne_reopen_of_target (h : r.target? = some id) : r ≠ .reopen := by
  rintro rfl
  cases h

theorem Commute.of_taken (hr : r ≠ .reopen) (hr' : r' ≠ .reopen) (h : Commute r r' (taken d)) :
    Commute r r' d := by
  obtain ⟨hfirst, hsecond, hleft⟩ := h
  rw [onFiles_taken hr, onFiles_taken hr'] at hfirst hsecond hleft
  exact ⟨hfirst, hsecond, hleft⟩

/-- The tasks can be read and the lock can be taken, or all requests are refused for one reason. -/
theorem ready_or_refused (d : Directory) : (∃ tasks, Ready (taken d) tasks) ∨
    ∃ e, ∀ r : Request, r ≠ .reopen → r.onFiles d = (.error e, taken d) := by
  obtain ⟨hcreate, hlock⟩ | ⟨hcreate, htaken⟩ := create_lock d
  · cases htasks : loadTasks (taken d) with
    | ok tasks => exact .inl ⟨tasks, hlock, htasks⟩
    | error e =>
        refine .inr ⟨e, fun r hr => ?_⟩
        cases r with
        | list _ | get _ | insert _ | update _ | updateDate _ _ | delete _ =>
            simp only [Request.onFiles, Store.list, Store.get, Store.insert, Store.update,
              Store.updateDate, Store.delete, perform, hcreate, Plan.list, Plan.get, Plan.insert,
              Plan.insertWith, Plan.modify, Plan.delete, htasks, bind, Except.bind]
            rfl
        | reopen => exact absurd rfl hr
  · refine .inr ⟨.file .lock .isFolder, fun r hr => ?_⟩
    cases r with
    | list _ | get _ | insert _ | update _ | updateDate _ _ | delete _ =>
        simp only [Request.onFiles, Store.list, Store.get, Store.insert, Store.update,
          Store.updateDate, Store.delete, perform, hcreate, htaken]
        rfl
    | reopen => exact absurd rfl hr

theorem commute_of_refused {e : Error} (hr : r ≠ .reopen) (hr' : r' ≠ .reopen)
    (h : ∀ r : Request, r ≠ .reopen → r.onFiles d = (.error e, taken d)) : Commute r r' d := by
  have hagain := (onFiles_taken hr d).trans (h r hr)
  have hagain' := (onFiles_taken hr' d).trans (h r' hr')
  constructor <;> simp only [h r hr, h r' hr', hagain, hagain']

theorem commute_of_targets_ne (hr : r.target? = some id) (hr' : r'.target? = some id')
    (hne : id ≠ id') (d : Directory) : Commute r r' d := by
  obtain ⟨edit, hedits⟩ := exists_edits hr
  obtain ⟨edit', hedits'⟩ := exists_edits hr'
  have hreopen := ne_reopen_of_target hr
  have hreopen' := ne_reopen_of_target hr'
  obtain ⟨tasks, hready⟩ | ⟨e, hrefused⟩ := ready_or_refused d
  · exact .of_taken hreopen hreopen' (commute_of_edits hready hedits hedits' hne)
  · exact commute_of_refused hreopen hreopen' hrefused

end Requests

/-! Insertions. -/

section Insertions

variable {d : Directory} {tasks : List Task} {last : Nat} {r : Request} {id : String}
  {edit : List Task → List Task}

theorem Ready.insert_of_room (h : Ready d tasks) (hlast : loadSequence d = .ok last)
    (hcounted : Counted tasks last)
    (hroom : last < Numeral.max64) (t : Task) :
    (Request.insert t).onFiles d = (.ok (.id (Numeral.text (last + 1))),
      Store.put (tasks ++ [{ t with id := Numeral.text (last + 1) }])
        (d.set .sequence (.file (Sequence.encode (last + 1))))) := by
  have hplan : Plan.insert t d = .ok ⟨[(.sequence, Sequence.encode (last + 1)),
      (.tasks, Rows.encode (tasks ++ [{ t with id := Numeral.text (last + 1) }]))],
      Numeral.text (last + 1)⟩ := by
    simp only [Plan.insert, Plan.insertWith, h.loaded, hlast, nextNumber_of_counted hcounted, bind,
      Except.bind, Arithmetic.fit_of_le (Nat.succ_le_of_lt hroom)]
    rfl
  simp only [Request.onFiles, Store.insert, perform, h.create, hplan,
    commit_sequence_tasks h.loaded hlast, Store.put]
  rfl

theorem loadSequence_put (tasks : List Task) (d : Directory) :
    loadSequence (put tasks d) = loadSequence d :=
  load_set_of_ne _ _ _ (by decide)

/-- An insertion commutes with a change of what is there, for it gives out the same number before
and after it. -/
theorem commute_insert_of_edits (h : Ready d tasks) (hlast : loadSequence d = .ok last)
    (hcounted : Counted tasks last) (hroom : last < Numeral.max64) (hr : r.Edits id edit)
    (hstored : ∃ u ∈ tasks, u.id = id) (t : Task) : Commute (.insert t) r d := by
  obtain ⟨v, hfind⟩ := exists_find hstored
  obtain ⟨u, hu, hid⟩ := hstored
  have hcounted' := hr.only.counted hcounted
  have hlast' := (loadSequence_put (edit tasks) d).trans hlast
  have hchanged := hr.found h hfind
  -- The new identifier writes a number above all others, so it is not the one that is meant.
  have hne : Numeral.text (last + 1) ≠ id := by
    intro htext
    have hle := hcounted u hu (last + 1)
      (by rw [hid, ← htext, number?_text (Nat.succ_le_of_lt hroom)])
    exact Nat.not_succ_le_self last hle
  have hinsert := h.insert_of_room hlast hcounted hroom t
  have hinsert' := (h.put (edit tasks)).insert_of_room hlast' hcounted' hroom t
  have hchanged' := hr.found
    ((h.setSequence (.file (Sequence.encode (last + 1)))).put
      (tasks ++ [{ t with id := Numeral.text (last + 1) }])) (find_append_of_find hfind _)
  rw [hr.only.append_singleton hfind hne] at hchanged'
  constructor
  · simp only [hchanged, hinsert, hinsert']
  · simp only [hchanged, hinsert, hchanged']
  · simp only [hchanged, hinsert, hinsert', hchanged']
    rfl

/-- Requests for different identifiers commute, whatever the directory. Where the last number has
reached every number in use and is not the largest one, an insertion commutes with a request for a
task that is there, and the identifier that it gives writes the number behind the last one. Where a
folder lies in the place of the lock, it gives none. -/
theorem requests_commute (d : Directory) :
    (∀ (r r' : Request) (id id' : String), r.target? = some id → r'.target? = some id' →
      id ≠ id' → Commute r r' d) ∧
    ∀ (tasks : List Task) (last : Nat), loadTasks d = .ok tasks → loadSequence d = .ok last →
      Counted tasks last → last < Numeral.max64 →
        ∀ (t : Task) (r : Request) (id : String), r.target? = some id →
          (∃ u ∈ tasks, u.id = id) → Commute (.insert t) r d ∧
            (d.lock ≠ .folder →
              (Request.onFiles (.insert t) d).1 = .ok (.id (Numeral.text (last + 1)))) ∧
            (d.lock = .folder →
              (Request.onFiles (.insert t) d).1 = .error (.file .lock .isFolder)) := by
  refine ⟨fun r r' id id' hr hr' hne => commute_of_targets_ne hr hr' hne d, ?_⟩
  intro tasks last htasks hlast hcounted hroom t r id hr hstored
  have hlast' : loadSequence (taken d) = .ok last := (sameFiles_taken d).loadSequence.trans hlast
  refine ⟨?_, fun hlock => ?_, fun hlock => ?_⟩
  · obtain ⟨edit, hedits⟩ := exists_edits hr
    obtain ⟨tasks', hready⟩ | ⟨e, hrefused⟩ := ready_or_refused d
    · cases htasks.symm.trans ((sameFiles_taken d).loadTasks.symm.trans hready.loaded)
      exact .of_taken nofun (ne_reopen_of_target hr)
        (commute_insert_of_edits hready hlast' hcounted hroom hedits hstored t)
    · exact commute_of_refused nofun (ne_reopen_of_target hr) hrefused
  · have hinsert := (ready_taken htasks hlock).insert_of_room hlast' hcounted hroom t
    rw [← onFiles_taken Request.noConfusion d, hinsert]
  · rw [onFiles_of_lock_folder hlock htasks hlast]
    rfl

/-- Two tasks with one identifier, and a third one. -/
def crowd : List Task :=
  [{ id := "1", date := "20240101", title := "a" }, { id := "1", date := "soon", title := "b" },
    { id := "2", date := "20240102", title := "c" }]

def crowded : Directory :=
  { tasks := .file (Rows.encode crowd), sequence := .file (Sequence.encode 2) }

theorem loadTasks_crowded : loadTasks crowded = .ok crowd := Rows.decode_encode _

theorem loadSequence_crowded : loadSequence crowded = .ok 2 := Sequence.decode_encode (by decide)

theorem counted_crowd : Counted crowd 2 := by
  have hnumbers : ∀ t ∈ crowd, number? t.id = some 1 ∨ number? t.id = some 2 := by decide
  intro t ht n hn
  obtain h | h := hnumbers t ht
  · cases hn.symm.trans h
    decide
  · cases hn.symm.trans h
    decide

theorem commute_in_crowded :
    loadTasks crowded = .ok crowd ∧ loadSequence crowded = .ok 2 ∧
      Commute (.delete "1") (.updateDate "2" "20240105") crowded ∧
      Commute (.insert { title := "d" }) (.delete "1") crowded ∧
      (Request.onFiles (.insert { title := "d" }) crowded).1 = .ok (.id "3") := by
  obtain ⟨hcommute, hinsert⟩ := requests_commute crowded
  obtain ⟨hfirst, hgiven, -⟩ := hinsert crowd 2 loadTasks_crowded loadSequence_crowded
    counted_crowd (by decide) { title := "d" } (.delete "1") "1" rfl ⟨_, List.mem_cons_self, rfl⟩
  exact ⟨loadTasks_crowded, loadSequence_crowded, hcommute _ _ "1" "2" rfl rfl (by decide), hfirst,
    hgiven nofun⟩

/-- An insertion gives no identifier where a folder lies in the place of the lock, nor where the
last number is the largest one. -/
theorem not_given_beside_stored :
    (¬ ∀ (d : Directory) (tasks : List Task) (last : Nat), loadTasks d = .ok tasks →
      loadSequence d = .ok last → Counted tasks last → ∀ (t : Task) (r : Request) (id : String),
        r.target? = some id → (∃ u ∈ tasks, u.id = id) →
          ∃ new, (Request.onFiles (.insert t) d).1 = .ok (.id new)) ∧
    ¬ ∀ (d : Directory) (tasks : List Task) (last : Nat), loadTasks d = .ok tasks →
      loadSequence d = .ok last → Counted tasks last → d.lock ≠ .folder →
        ∀ (t : Task) (r : Request) (id : String), r.target? = some id →
          (∃ u ∈ tasks, u.id = id) →
            ∃ new, (Request.onFiles (.insert t) d).1 = .ok (.id new) := by
  refine ⟨fun h => ?_, fun h => ?_⟩
  · obtain ⟨new, hnew⟩ := h { crowded with lock := .folder } crowd 2 loadTasks_crowded
      loadSequence_crowded counted_crowd {} (.delete "1") "1" rfl ⟨_, List.mem_cons_self, rfl⟩
    cases hnew
  · obtain ⟨new, hnew⟩ := h atEnd _ _ loadTasks_atEnd loadSequence_atEnd counted_atEnd nofun {}
      (.delete "5") "5" rfl ⟨_, List.mem_cons_self, rfl⟩
    have hrepresents : Represents atEnd ⟨[{ id := "5", title := "a" }], Numeral.max64⟩ :=
      ⟨loadTasks_atEnd, loadSequence_atEnd, nofun⟩
    rw [Request.onFiles, reply, (hrepresents.insert_overflow {} (by decide)).1] at hnew
    cases hnew

end Insertions

end Agenda.Store
