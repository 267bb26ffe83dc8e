import Agenda.Proofs.Store.Identifiers

/-!
Identifiers of deleted tasks. A deletion writes nothing but the tasks, so an identifier is forgotten
with its task unless the last number has reached it. Where the last number lags behind an identifier
that it can come to, there is a run that gives that one out again; everywhere else there is none.
-/

namespace Agenda.Store

/-- The identifier whose tasks were deleted. -/
def Event.deleted? (e : Event) : Option String :=
  match e.request, e.answer with
  | .delete id, .ok _ => some id
  | _, _ => none

/-- No identifier is given out behind a deletion of its tasks. -/
def NoneReused (events : List Event) : Prop :=
  events.Pairwise fun a b => ∀ id, a.deleted? = some id → b.given? ≠ some id

/-- The last number has reached each identifier of a task that an insertion could give out. -/
def Covered (tasks : List Task) (last : Nat) : Prop :=
  ∀ t ∈ tasks, ∀ n, t.id = Numeral.text n → n ≤ Numeral.max64 → n ≤ last

/-! A last number that has reached all identifiers. -/

theorem covered_congr {tasks tasks' : List Task} {last : Nat}
    (h : tasks'.map Task.id = tasks.map Task.id) (hc : Covered tasks last) :
    Covered tasks' last := by
  intro t ht
  have hid : t.id ∈ tasks.map Task.id := h ▸ List.mem_map_of_mem ht
  obtain ⟨u, hu, heq⟩ := List.mem_map.1 hid
  rw [← heq]
  exact hc u hu

theorem covered_insert {t : Task} {tasks : List Task} {last : Nat} (hc : Covered tasks last)
    (hroom : nextNumber last tasks ≤ Numeral.max64) :
    Covered (tasks ++ [{ t with id := Numeral.text (nextNumber last tasks) }])
      (nextNumber last tasks) := by
  intro u hu n hid hn
  obtain hu | hu := List.mem_append.1 hu
  · exact Nat.le_trans (hc u hu n hid hn) (Nat.le_of_lt (lt_nextNumber last tasks))
  · cases List.mem_singleton.1 hu
    have hnumber := congrArg number? hid
    rw [number?_text hroom, number?_text hn] at hnumber
    cases hnumber
    exact Nat.le_refl _

/-- Both files can be read, and the last number has reached all identifiers. -/
def FilesCovered (d : Directory) : Prop :=
  ∃ tasks last, loadTasks d = .ok tasks ∧ loadSequence d = .ok last ∧ Covered tasks last

theorem Effect.filesCovered {d d' : Directory} {r : Request} {answer : Except Error Answer}
    (h : Effect d r answer d') (hd : FilesCovered d) : FilesCovered d' := by
  obtain ⟨tasks, last, htasks, hlast, hc⟩ := hd
  cases h with
  | failed _ same | listed _ same | got _ _ same =>
      exact ⟨tasks, last, same.loadTasks.trans htasks, same.loadSequence.trans hlast, hc⟩
  | inserted loaded counted room left number =>
      cases loaded.symm.trans htasks
      cases counted.symm.trans hlast
      exact ⟨_, _, left, number, covered_insert hc room⟩
  | changed _ loaded _ left same =>
      cases loaded.symm.trans htasks
      exact ⟨_, last, left, (loadSequence_congr same).trans hlast,
        covered_congr (map_id_modifyFirst _ _ _) hc⟩
  | deleted loaded _ left same =>
      cases loaded.symm.trans htasks
      refine ⟨_, last, left, (loadSequence_congr same).trans hlast, ?_⟩
      exact fun t ht => hc t (List.mem_of_mem_filter ht)
  | reopened established sequence =>
      obtain ⟨content, hfile⟩ := read_of_load htasks
      have hsame := established.eq_of_file hfile
      exact ⟨tasks, last, (loadTasks_congr hsame).trans htasks, sequence.loadSequence hlast, hc⟩

/-- The identifier of a task that was deleted was that of a kept one. -/
theorem Event.mem_of_deleted {e : Event} {id : String} (hid : e.deleted? = some id)
    (h : Effect e.before e.request e.answer e.after) :
    ∃ tasks, loadTasks e.before = .ok tasks ∧ ∃ t ∈ tasks, t.id = id := by
  obtain ⟨d, r, answer, d'⟩ := e
  cases h with
  | deleted loaded found _ _ =>
      cases hid
      exact ⟨_, loaded, _, find_eq_ok found⟩
  | changed asked _ _ _ _ =>
      cases r <;> cases hid
      cases asked
  | failed _ _ => cases r <;> cases hid
  | listed _ _ | got _ _ _ | inserted _ _ _ _ _ | reopened _ _ => cases hid

theorem noneReused_of_covered {Handle : Type} {d : Directory} (hd : FilesCovered d)
    (schedule : List (Handle × Request)) : NoneReused (history schedule d) := by
  induction schedule generalizing d with
  | nil => exact List.Pairwise.nil
  | cons step schedule ih =>
      have heffect := effect_onFiles step.2 d
      rw [history, NoneReused, List.pairwise_cons]
      refine ⟨?_, ih (heffect.filesCovered hd)⟩
      intro e he id hdeleted hgiven
      obtain ⟨tasks, last, htasks, hlast, hc⟩ := hd
      obtain ⟨tasks', htasks', t, ht, rfl⟩ := Event.mem_of_deleted hdeleted heffect
      cases htasks.symm.trans htasks'
      obtain ⟨last', hlast', hle⟩ := heffect.exists_last_le hlast
      obtain ⟨n, hlt, hn, hid⟩ := lt_of_mem_history hlast' he hgiven
      have := hc t ht n hid hn
      omega

/-! A lock that cannot be taken. -/

theorem lock_establish (d : Directory) : (establish d).2.lock = d.lock := by
  rw [establish]
  cases ht : d.create .tasks with
  | error e => rfl
  | ok d₁ =>
      have hlock : d₁.lock = d.lock := (established_create ht).2 .lock (by decide)
      simp only
      cases hs : d₁.create .sequence with
      | error e => exact hlock
      | ok d₂ => exact ((established_create hs).2 .lock (by decide)).trans hlock

theorem not_deleted_of_lock_folder {d : Directory} (h : d.lock = .folder) (r : Request) :
    (r.onFiles d).2.lock = .folder ∧
      Event.deleted? ⟨d, r, (r.onFiles d).1, (r.onFiles d).2⟩ = none := by
  cases r with
  | reopen => exact ⟨(lock_establish d).trans h, rfl⟩
  | list _ | get _ | insert _ | update _ | updateDate _ _ | delete _ =>
      refine ⟨?_, ?_⟩
      all_goals
        simp only [Request.onFiles, reply, Store.list, Store.get, Store.insert, Store.update,
          Store.updateDate, Store.delete, perform_of_lock_folder h]
      · exact h
      · rfl

theorem noneReused_of_lock_folder {Handle : Type} {d : Directory} (h : d.lock = .folder)
    (schedule : List (Handle × Request)) : NoneReused (history schedule d) := by
  induction schedule generalizing d with
  | nil => exact List.Pairwise.nil
  | cons step schedule ih =>
      obtain ⟨hlock, hdeleted⟩ := not_deleted_of_lock_folder h step.2
      rw [history, NoneReused, List.pairwise_cons]
      refine ⟨?_, ih hlock⟩
      intro e _ id hid
      rw [hdeleted] at hid
      cases hid

/-! A last number that comes to the identifier of a deleted task. -/

section Runs

variable {d : Directory} {s : Table}

theorem largest_append {tasks : List Task} {t : Task} {n : Nat} (h : number? t.id = some n) :
    largest (tasks ++ [t]) = max (largest tasks) n := by
  have hlast : [t].filterMap (fun t => number? t.id) = [n] := by
    simp only [List.filterMap_cons, h, List.filterMap_nil]
  rw [largest, List.filterMap_append, hlast, List.foldl_append]
  rfl

theorem next_of_largest_le (h : largest s.tasks ≤ s.last) : s.next = s.last + 1 := by
  rw [← nextNumber_eq_next, nextNumber, Nat.max_eq_left h]

/-- Once no identifier is ahead, insertions go through the numbers behind the last one. -/
theorem exists_given_of_insertions (h : Represents d s) (hlargest : largest s.tasks ≤ s.last)
    (k : Nat) (hroom : s.last + k + 1 ≤ Numeral.max64) :
    ∃ e ∈ history (List.replicate (k + 1) (0, Request.insert {})) d,
      e.given? = some (Numeral.text (s.last + k + 1)) := by
  induction k generalizing d s with
  | zero =>
      have hnext := next_of_largest_le hlargest
      obtain ⟨hanswer, _⟩ := agrees_onFiles h (.insert {}) (by rw [Request.FitsIn, hnext]; omega)
      refine ⟨_, List.mem_cons_self, ?_⟩
      simp only [Event.given?, hanswer, Request.onTable, Table.insert, hnext, Nat.add_zero]
  | succ k ih =>
      have hnext := next_of_largest_le hlargest
      have hfit : s.next ≤ Numeral.max64 := by omega
      obtain ⟨_, hafter⟩ := agrees_onFiles h (.insert {}) hfit
      have hlast : (Request.onTable (.insert {}) s).2.last = s.last + 1 := hnext
      have hnumber : number? ({ id := Numeral.text s.next } : Task).id = some s.next :=
        number?_text hfit
      have hlargest' : largest (Request.onTable (.insert {}) s).2.tasks ≤ s.last + 1 := by
        simp only [Request.onTable, Table.insert, largest_append hnumber]
        omega
      obtain ⟨e, he, hgiven⟩ := ih hafter (by rw [hlast]; exact hlargest') (by rw [hlast]; omega)
      refine ⟨e, ?_, ?_⟩
      · rw [List.replicate_succ, history]
        exact List.mem_cons_of_mem _ he
      · rw [hgiven, hlast, Nat.add_right_comm s.last 1 k, Nat.add_assoc s.last k 1]

theorem delete_eq_filter (s : Table) (id : String) :
    (s.delete id).2 = { s with tasks := s.tasks.filter fun t => t.id ≠ id } := by
  rw [Table.delete, Table.ifHeld]
  split
  · rfl
  · rename_i hnone
    have hall : (s.tasks.filter fun t => t.id ≠ id) = s.tasks := by
      rw [List.filter_eq_self]
      intro t ht
      apply decide_eq_true
      intro hid
      exact hnone (List.any_eq_true.2 ⟨t, ht, decide_eq_true hid⟩)
    rw [hall]

/-- Without its tasks a store counts on from the last number. -/
theorem exists_given_of_deletions (h : Represents d s) {ids : List String}
    (hids : ∀ t ∈ s.tasks, t.id ∈ ids) (k : Nat) (hroom : s.last + k + 1 ≤ Numeral.max64) :
    ∃ e ∈ history (ids.map (fun id => (0, Request.delete id)) ++
        List.replicate (k + 1) (0, Request.insert {})) d,
      e.given? = some (Numeral.text (s.last + k + 1)) := by
  induction ids generalizing d s with
  | nil =>
      have hnil : s.tasks = [] := by
        rw [List.eq_nil_iff_forall_not_mem]
        exact fun t ht => List.not_mem_nil (hids t ht)
      exact exists_given_of_insertions h (by rw [hnil]; exact Nat.zero_le _) k hroom
  | cons id ids ih =>
      obtain ⟨_, hafter⟩ := agrees_onFiles h (.delete id) trivial
      have htable : (Request.onTable (.delete id) s).2 =
        { s with tasks := s.tasks.filter fun t => t.id ≠ id } := delete_eq_filter s id
      rw [htable] at hafter
      have hrest : ∀ t ∈ s.tasks.filter (fun t => t.id ≠ id), t.id ∈ ids := by
        intro t ht
        obtain ⟨ht, hne⟩ := List.mem_filter.1 ht
        exact (List.mem_cons.1 (hids t ht)).resolve_left (of_decide_eq_true hne)
      obtain ⟨e, he, hgiven⟩ := ih hafter hrest hroom
      exact ⟨e, List.mem_cons_of_mem _ he, hgiven⟩

theorem deleted?_of_mem (h : Represents d s) {t : Task} (ht : t ∈ s.tasks) :
    Event.deleted? ⟨d, .delete t.id, (Request.onFiles (.delete t.id) d).1,
      (Request.onFiles (.delete t.id) d).2⟩ = some t.id := by
  obtain ⟨hanswer, _⟩ := agrees_onFiles h (.delete t.id) trivial
  have hheld : (s.tasks.any fun u => u.id = t.id) = true :=
    List.any_eq_true.2 ⟨t, ht, decide_eq_true rfl⟩
  simp only [Event.deleted?, hanswer, Request.onTable, reply, Table.delete, Table.ifHeld, hheld,
    if_true, Except.map]

/-- Where both files can be read, an identifier of a deleted task is never given out again, in
whatever run, exactly if the last number has reached every identifier that it could come to; or if
nothing can be deleted, since a folder lies in the place of the lock. -/
theorem noneReused_iff {tasks : List Task} {last : Nat} (htasks : loadTasks d = .ok tasks)
    (hlast : loadSequence d = .ok last) :
    (∀ schedule : List (Nat × Request), NoneReused (history schedule d)) ↔
      d.lock = .folder ∨ Covered tasks last := by
  constructor
  · intro hall
    by_cases hlock : d.lock = .folder
    · exact .inl hlock
    · have h : Represents d ⟨tasks, last⟩ := ⟨htasks, hlast, hlock⟩
      refine .inr ?_
      intro t ht n hid hn
      apply Nat.not_lt.1
      intro hlt
      -- The task goes first, then all the others, and then the numbers are counted up to its own.
      obtain ⟨k, rfl⟩ := Nat.exists_eq_add_of_lt hlt
      obtain ⟨_, hafter⟩ := agrees_onFiles h (.delete t.id) trivial
      have htable : (Request.onTable (.delete t.id) ⟨tasks, last⟩).2 =
        ⟨tasks.filter fun u => u.id ≠ t.id, last⟩ := delete_eq_filter ⟨tasks, last⟩ t.id
      rw [htable] at hafter
      obtain ⟨e, he, hgiven⟩ := exists_given_of_deletions hafter
        (fun u hu => List.mem_map_of_mem hu) k hn
      have hrun := hall ((0, .delete t.id) ::
        (((tasks.filter fun u => u.id ≠ t.id).map Task.id).map (fun id => (0, .delete id)) ++
          List.replicate (k + 1) (0, .insert {})))
      rw [history, NoneReused, List.pairwise_cons] at hrun
      refine hrun.1 e he t.id (deleted?_of_mem h ht) ?_
      rw [hgiven, hid]
  · rintro (hlock | hc) schedule
    · exact noneReused_of_lock_folder hlock schedule
    · exact noneReused_of_covered ⟨tasks, last, htasks, hlast, hc⟩ schedule

/-- A task, and a file that has no last number. -/
def uncounted : Directory :=
  { tasks := .file (Rows.encode [{ id := "1", date := "20240101", title := "a" }]),
    sequence := .file [] }

theorem not_noneReused_of_uncounted :
    loadTasks uncounted = .ok [{ id := "1", date := "20240101", title := "a" }] ∧
      loadSequence uncounted = .ok 0 ∧
      ¬ ∀ schedule : List (Nat × Request), NoneReused (history schedule uncounted) := by
  have htasks : loadTasks uncounted = .ok [{ id := "1", date := "20240101", title := "a" }] :=
    Rows.decode_encode _
  have hlast : loadSequence uncounted = .ok 0 := represents_opened.last
  refine ⟨htasks, hlast, ?_⟩
  rw [noneReused_iff htasks hlast]
  rintro (hlock | hcovered)
  · cases hlock
  · exact absurd (hcovered _ List.mem_cons_self 1 rfl (by decide)) (by decide)

end Runs

end Agenda.Store
