import Agenda.Proofs.Store.Reuse
import Agenda.Proofs.Task.Sound

/-!
What a run keeps, whoever makes its requests. Tasks are sound if every task that a request carries
is. A request names a kept task or gets a new number, and the last number has reached an identifier
that is gone, so no request brings that one back, not even one that carries a task with it.
-/

namespace Agenda.Store

/-- A task that the request carries is sound. -/
def Request.Sound : Request → Prop
  | insert t | update t => t.Sound
  | list _ | get _ | updateDate _ _ | delete _ | reopen => True

/-- The tasks can be read, and all of them are sound. -/
def AllSound (d : Directory) : Prop := ∃ tasks, loadTasks d = .ok tasks ∧ ∀ t ∈ tasks, t.Sound

/-- The tasks can be read, and none has this identifier. -/
def Absent (id : String) (d : Directory) : Prop :=
  ∃ tasks, loadTasks d = .ok tasks ∧ ∀ t ∈ tasks, t.id ≠ id

/-- No task has this identifier, and the last number has reached it if it can be given out. -/
def Gone (id : String) (d : Directory) : Prop :=
  Absent id d ∧
    ∃ last, loadSequence d = .ok last ∧ ∀ n, id = Numeral.text n → n ≤ Numeral.max64 → n ≤ last

section Steps

variable {d d' : Directory} {r : Request} {answer : Except Error Answer} {id : String}

theorem forall_mem_modifyFirst {P : Task → Prop} {f : Task → Task} {tasks : List Task}
    (h : ∀ t ∈ tasks, P t) (hf : ∀ t, t.id = id → P t → P (f t)) :
    ∀ t ∈ modifyFirst id f tasks, P t := by
  intro t ht
  obtain ⟨place, hplace⟩ := List.mem_iff_getElem?.1 ht
  obtain ⟨u, hu, rfl | ⟨_, hid, rfl⟩⟩ := getElem?_modifyFirst hplace
  · exact h _ (List.mem_of_getElem? hu)
  · exact hf u hid (h u (List.mem_of_getElem? hu))

/-- What a request puts in the place of a sound task is sound. -/
theorem Request.Sound.change {f : Task → Task} (hr : r.Sound) (h : r.change? = some (id, f))
    {t : Task} (ht : t.Sound) : ({ f t with id } : Task).Sound := by
  cases r with
  | update u =>
      cases h
      exact hr.congr rfl rfl
  | updateDate _ _ =>
      cases h
      exact ht.congr rfl rfl
  | list _ | get _ | insert _ | delete _ | reopen => cases h

theorem Effect.allSound (h : Effect d r answer d') (hr : r.Sound) (hd : AllSound d) :
    AllSound d' := by
  obtain ⟨tasks, htasks, hsound⟩ := hd
  cases h with
  | failed _ same | listed _ same | got _ _ same =>
      exact ⟨tasks, same.loadTasks.trans htasks, hsound⟩
  | inserted loaded _ _ left _ =>
      cases loaded.symm.trans htasks
      refine ⟨_, left, ?_⟩
      rw [List.forall_mem_append, List.forall_mem_singleton]
      exact ⟨hsound, Task.Sound.congr hr rfl rfl⟩
  | changed asked loaded _ left _ =>
      cases loaded.symm.trans htasks
      exact ⟨_, left, forall_mem_modifyFirst hsound fun t _ => hr.change asked⟩
  | deleted loaded _ left _ =>
      cases loaded.symm.trans htasks
      exact ⟨_, left, fun t ht => hsound t (List.mem_of_mem_filter ht)⟩
  | reopened established _ =>
      obtain hsame | hempty := established.loadTasks
      · exact ⟨tasks, hsame.trans htasks, hsound⟩
      · exact ⟨[], hempty, List.forall_mem_nil _⟩

/-- A change of the kept tasks leaves their identifiers. -/
theorem forall_id_ne_modifyFirst {id' : String} {f : Task → Task} {tasks : List Task}
    (h : ∀ t ∈ tasks, t.id ≠ id) :
    ∀ t ∈ modifyFirst id' (fun t => { f t with id := id' }) tasks, t.id ≠ id := by
  intro t ht hid
  have hmem : id ∈ tasks.map Task.id := by
    rw [← map_id_modifyFirst id' f tasks, ← hid]
    exact List.mem_map_of_mem ht
  obtain ⟨u, hu, hid'⟩ := List.mem_map.1 hmem
  exact h u hu hid'

theorem Effect.gone (h : Effect d r answer d') (hd : Gone id d) : Gone id d' := by
  obtain ⟨⟨tasks, htasks, habsent⟩, last, hlast, hreached⟩ := hd
  cases h with
  | failed _ same | listed _ same | got _ _ same =>
      exact ⟨⟨tasks, same.loadTasks.trans htasks, habsent⟩,
        last, same.loadSequence.trans hlast, hreached⟩
  | inserted loaded counted room left number =>
      cases loaded.symm.trans htasks
      cases counted.symm.trans hlast
      have hlt : last < nextNumber last tasks := lt_nextNumber last tasks
      refine ⟨⟨_, left, ?_⟩, _, number, ?_⟩
      · rw [List.forall_mem_append, List.forall_mem_singleton]
        refine ⟨habsent, fun hid => ?_⟩
        exact Nat.not_le.2 hlt (hreached _ hid.symm room)
      · exact fun n hid hn => Nat.le_trans (hreached n hid hn) (Nat.le_of_lt hlt)
  | changed _ loaded _ left same =>
      cases loaded.symm.trans htasks
      exact ⟨⟨_, left, forall_id_ne_modifyFirst habsent⟩,
        last, (loadSequence_congr same).trans hlast, hreached⟩
  | deleted loaded _ left same =>
      cases loaded.symm.trans htasks
      exact ⟨⟨_, left, fun t ht => habsent t (List.mem_of_mem_filter ht)⟩,
        last, (loadSequence_congr same).trans hlast, hreached⟩
  | reopened established sequence =>
      refine ⟨?_, last, sequence.loadSequence hlast, hreached⟩
      obtain hsame | hempty := established.loadTasks
      · exact ⟨tasks, hsame.trans htasks, habsent⟩
      · exact ⟨[], hempty, List.forall_mem_nil _⟩

theorem Effect.gone_of_delete {a : Answer} (hd : FilesCovered d)
    (h : Effect d (.delete id) (.ok a) d') : Gone id d' := by
  obtain ⟨tasks, last, htasks, hlast, hcovered⟩ := hd
  cases h with
  | deleted loaded found left same =>
      cases loaded.symm.trans htasks
      obtain ⟨hmem, rfl⟩ := find_eq_ok found
      refine ⟨⟨_, left, fun t ht => of_decide_eq_true (List.mem_filter.1 ht).2⟩,
        last, (loadSequence_congr same).trans hlast, ?_⟩
      exact hcovered _ hmem
  | changed asked _ _ _ _ => cases asked

theorem Event.gone_of_deleted {e : Event} (hd : FilesCovered e.before)
    (hid : e.deleted? = some id) (h : Effect e.before e.request e.answer e.after) :
    Gone id e.after := by
  obtain ⟨d, r, answer, d'⟩ := e
  cases answer with
  | error _ => cases r <;> cases hid
  | ok a =>
      cases r with
      | delete _ =>
          cases hid
          exact h.gone_of_delete hd
      | list _ | get _ | insert _ | update _ | updateDate _ _ | reopen => cases hid

end Steps

section History

variable {Handle : Type} {schedule : List (Handle × Request)} {d : Directory} {id : String}

theorem allSound_of_mem_history {e : Event} (hd : AllSound d)
    (hschedule : ∀ step ∈ schedule, step.2.Sound) (he : e ∈ history schedule d) :
    AllSound e.before ∧ AllSound e.after :=
  invariant_of_mem_history (fun h => h.allSound) hschedule hd he

theorem gone_of_mem_history {e : Event} (hd : Gone id d) (he : e ∈ history schedule d) :
    Gone id e.after :=
  (invariant_of_mem_history (Q := fun _ => True) (fun h _ => h.gone) (fun _ _ => trivial) hd he).2

/-- Behind a deletion no task with its identifier is there, neither at once nor later. -/
theorem absent_behind_deletion (hd : FilesCovered d) (schedule : List (Handle × Request)) :
    (∀ e ∈ history schedule d, ∀ id, e.deleted? = some id → Absent id e.after) ∧
      (history schedule d).Pairwise fun a b => ∀ id, a.deleted? = some id → Absent id b.after := by
  constructor
  · intro e he id hid
    have hbefore : FilesCovered e.before :=
      (invariant_of_mem_history (Q := fun _ => True) (fun h _ => h.filesCovered)
        (fun _ _ => trivial) hd he).1
    exact (Event.gone_of_deleted hbefore hid (effect_of_mem_history he)).1
  · induction schedule generalizing d with
    | nil => exact List.Pairwise.nil
    | cons step schedule ih =>
        have heffect := effect_onFiles step.2 d
        rw [history, List.pairwise_cons]
        refine ⟨fun e he id hid => ?_, ih (heffect.filesCovered hd)⟩
        exact (gone_of_mem_history (Event.gone_of_deleted hd hid heffect) he).1

end History

end Agenda.Store
