import Agenda.Proofs.Store.Effect

/-!
Identifiers along a run. A new one writes a number above the last one given out and above every
number that a kept identifier writes, so it is none of those, however they are spelled. The last
number is kept in a file of its own that no other request makes smaller.
-/

namespace Agenda.Store

/-! Numbers of identifiers. -/

theorem number?_text {n : Nat} (h : n ≤ Numeral.max64) : number? (Numeral.text n) = some n := by
  rw [number?, Numeral.text, String.toList_ofList, Numeral.natural_digits h]
  rfl

theorem number_le_largest {tasks : List Task} {t : Task} {n : Nat} (ht : t ∈ tasks)
    (hn : number? t.id = some n) : n ≤ largest tasks := by
  rw [largest, foldl_max_eq_max, Nat.zero_max]
  exact List.le_max?_getD_of_mem (List.mem_filterMap.2 ⟨t, ht, hn⟩)

theorem lt_nextNumber (last : Nat) (tasks : List Task) : last < nextNumber last tasks :=
  Nat.lt_succ_of_le (Nat.le_max_left last (largest tasks))

theorem id_ne_text_nextNumber {last : Nat} {tasks : List Task} {t : Task} (ht : t ∈ tasks)
    (hroom : nextNumber last tasks ≤ Numeral.max64) :
    t.id ≠ Numeral.text (nextNumber last tasks) := by
  intro hid
  have hn : number? t.id = some (nextNumber last tasks) := by rw [hid, number?_text hroom]
  have hle : nextNumber last tasks ≤ largest tasks := number_le_largest ht hn
  have hlt : largest tasks < nextNumber last tasks :=
    Nat.lt_succ_of_le (Nat.le_max_right last (largest tasks))
  exact Nat.not_le.2 hlt hle

/-- The last number has reached every number that an identifier writes. -/
def Counted (tasks : List Task) (last : Nat) : Prop :=
  ∀ t ∈ tasks, ∀ n, number? t.id = some n → n ≤ last

/-- Where the last number has reached every number in use, the next one is the one behind it. -/
theorem nextNumber_of_counted {tasks : List Task} {last : Nat} (h : Counted tasks last) :
    nextNumber last tasks = last + 1 := by
  have hlargest : largest tasks ≤ last := by
    rw [largest, foldl_max_eq_max, Nat.zero_max]
    cases hmax : (tasks.filterMap fun t => number? t.id).max? with
    | none => exact Nat.zero_le _
    | some n =>
        obtain ⟨t, ht, hn⟩ := List.mem_filterMap.1 (List.max?_mem hmax)
        exact h t ht n hn
  rw [nextNumber, Nat.max_eq_left hlargest]

/-- Both identifiers write numbers, the first one a smaller one. -/
def NumberLT (a b : String) : Prop := ∃ m n, number? a = some m ∧ number? b = some n ∧ m < n

/-! Runs. -/

/-- A request of a run, with the directory that it found and what came of it. -/
structure Event where
  before : Directory
  request : Request
  answer : Except Error Answer
  after : Directory

/-- The identifier that was given out; only an insertion answers with one. -/
def Event.given? (e : Event) : Option String :=
  match e.answer with
  | .ok (.id id) => some id
  | _ => none

/-- The requests of all handles, in the order in which they took the lock. -/
def history {Handle : Type} : List (Handle × Request) → Directory → List Event
  | [], _ => []
  | (_, r) :: schedule, d =>
      ⟨d, r, (r.onFiles d).1, (r.onFiles d).2⟩ :: history schedule (r.onFiles d).2

section Steps

variable {d d' : Directory} {r : Request} {answer : Except Error Answer}

theorem Established.loadTasks (h : Established d.tasks d'.tasks) :
    Store.loadTasks d' = Store.loadTasks d ∨ Store.loadTasks d' = .ok [] := by
  obtain hsame | ⟨_, hempty⟩ := h
  · exact .inl (loadTasks_congr hsame)
  · refine .inr ?_
    simp only [Store.loadTasks, load, Directory.read, Directory.get, hempty]
    exact Rows.decode_encode []

theorem Established.loadSequence {last : Nat} (h : Established d.sequence d'.sequence)
    (hlast : Store.loadSequence d = .ok last) : Store.loadSequence d' = .ok last := by
  obtain ⟨content, hfile⟩ := read_of_load hlast
  exact (loadSequence_congr (h.eq_of_file hfile)).trans hlast

/-- No request loses the last number or makes it smaller. -/
theorem Effect.exists_last_le {last : Nat} (h : Effect d r answer d')
    (hlast : loadSequence d = .ok last) : ∃ last', loadSequence d' = .ok last' ∧ last ≤ last' := by
  cases h with
  | failed _ same | listed _ same | got _ _ same =>
      exact ⟨last, same.loadSequence.trans hlast, Nat.le_refl last⟩
  | @inserted t tasks last' _ _ counted _ _ number =>
      cases counted.symm.trans hlast
      exact ⟨_, number, Nat.le_of_lt (lt_nextNumber last tasks)⟩
  | changed _ _ _ _ same | deleted _ _ _ same =>
      exact ⟨last, (loadSequence_congr same).trans hlast, Nat.le_refl last⟩
  | reopened _ sequence => exact ⟨last, sequence.loadSequence hlast, Nat.le_refl last⟩

/-- An identifier that is given out writes the next number, which is the last one from then on. -/
theorem Event.number_of_given {e : Event} {id : String} (hid : e.given? = some id)
    (h : Effect e.before e.request e.answer e.after) :
    ∃ tasks last, loadTasks e.before = .ok tasks ∧ loadSequence e.before = .ok last ∧
      nextNumber last tasks ≤ Numeral.max64 ∧ id = Numeral.text (nextNumber last tasks) ∧
      loadSequence e.after = .ok (nextNumber last tasks) := by
  obtain ⟨d, r, answer, d'⟩ := e
  cases h with
  | inserted loaded counted room _ number =>
      cases hid
      exact ⟨_, _, loaded, counted, room, rfl, number⟩
  | @reopened outcome _ _ _ => cases outcome <;> cases hid
  | failed _ _ | listed _ _ | got _ _ _ | changed _ _ _ _ _ | deleted _ _ _ _ => cases hid

/-! Tasks with one identifier. -/

/-- No two tasks have one identifier. -/
def DistinctIds (d : Directory) : Prop :=
  ∀ tasks, loadTasks d = .ok tasks → (tasks.map Task.id).Nodup

theorem map_id_modifyFirst (id : String) (f : Task → Task) (tasks : List Task) :
    (modifyFirst id (fun t => { f t with id }) tasks).map Task.id = tasks.map Task.id := by
  induction tasks with
  | nil => rfl
  | cons t tasks ih =>
      rw [modifyFirst]
      split
      · rename_i ht
        rw [List.map_cons, List.map_cons, ht]
      · rw [List.map_cons, List.map_cons, ih]

theorem Effect.distinctIds (h : Effect d r answer d') (hd : DistinctIds d) : DistinctIds d' := by
  intro left hleft
  cases h with
  | failed _ same | listed _ same | got _ _ same =>
      exact hd left (same.loadTasks.symm.trans hleft)
  | inserted loaded _ room added _ =>
      cases added.symm.trans hleft
      rw [List.map_append, List.map_cons, List.map_nil, List.nodup_append]
      refine ⟨hd _ loaded, List.pairwise_singleton _ _, ?_⟩
      intro a ha b hb
      obtain ⟨t, ht, rfl⟩ := List.mem_map.1 ha
      cases List.mem_singleton.1 hb
      exact id_ne_text_nextNumber ht room
  | changed _ loaded _ modified _ =>
      cases modified.symm.trans hleft
      rw [map_id_modifyFirst]
      exact hd _ loaded
  | deleted loaded _ filtered _ =>
      cases filtered.symm.trans hleft
      exact (hd _ loaded).sublist (List.filter_sublist.map Task.id)
  | reopened tasks _ =>
      obtain hsame | hempty := tasks.loadTasks
      · exact hd left (hsame.symm.trans hleft)
      · cases hempty.symm.trans hleft
        exact List.nodup_nil

end Steps

section History

variable {Handle : Type} {schedule : List (Handle × Request)} {d : Directory}

theorem effect_of_mem_history {e : Event} (h : e ∈ history schedule d) :
    Effect e.before e.request e.answer e.after := by
  induction schedule generalizing d with
  | nil => cases h
  | cons step schedule ih =>
      rw [history, List.mem_cons] at h
      obtain rfl | h := h
      · exact effect_onFiles step.2 d
      · exact ih h

/-- What is given out from here on writes numbers above the last one. -/
theorem lt_of_mem_history {last : Nat} {e : Event} {id : String} (hlast : loadSequence d = .ok last)
    (he : e ∈ history schedule d) (hid : e.given? = some id) :
    ∃ n, last < n ∧ n ≤ Numeral.max64 ∧ id = Numeral.text n := by
  induction schedule generalizing d last with
  | nil => cases he
  | cons step schedule ih =>
      have heffect := effect_onFiles step.2 d
      rw [history, List.mem_cons] at he
      obtain rfl | he := he
      · obtain ⟨tasks, last', _, hlast', hroom, rfl, _⟩ := Event.number_of_given hid heffect
        cases hlast.symm.trans hlast'
        exact ⟨_, lt_nextNumber last tasks, hroom, rfl⟩
      · obtain ⟨last', hlast', hle⟩ := heffect.exists_last_le hlast
        obtain ⟨n, hlt, hroom, rfl⟩ := ih hlast' he
        exact ⟨n, Nat.lt_of_le_of_lt hle hlt, hroom, rfl⟩

theorem pairwise_given (schedule : List (Handle × Request)) (d : Directory) :
    ((history schedule d).filterMap Event.given?).Pairwise NumberLT := by
  rw [List.pairwise_filterMap]
  induction schedule generalizing d with
  | nil => exact List.Pairwise.nil
  | cons step schedule ih =>
      rw [history, List.pairwise_cons]
      refine ⟨?_, ih _⟩
      intro e he id hid id' hid'
      obtain ⟨tasks, last, _, _, hroom, rfl, hlast⟩ :=
        Event.number_of_given hid (effect_onFiles step.2 d)
      obtain ⟨n, hlt, hroom', rfl⟩ := lt_of_mem_history hlast he hid'
      exact ⟨_, n, number?_text hroom, number?_text hroom', hlt⟩

/-- What every request of a run keeps holds before and after each of them. -/
theorem invariant_of_mem_history {P : Directory → Prop} {Q : Request → Prop}
    (hstep : ∀ {d d' : Directory} {r : Request} {answer : Except Error Answer},
      Effect d r answer d' → Q r → P d → P d')
    (hschedule : ∀ step ∈ schedule, Q step.2) (hd : P d) {e : Event}
    (he : e ∈ history schedule d) : P e.before ∧ P e.after := by
  induction schedule generalizing d with
  | nil => cases he
  | cons step schedule ih =>
      rw [List.forall_mem_cons] at hschedule
      have hafter : P (step.2.onFiles d).2 := hstep (effect_onFiles step.2 d) hschedule.1 hd
      rw [history, List.mem_cons] at he
      obtain rfl | he := he
      · exact ⟨hd, hafter⟩
      · exact ih hschedule.2 hafter he

theorem distinctIds_of_mem_history {e : Event} (hd : DistinctIds d)
    (he : e ∈ history schedule d) : DistinctIds e.after :=
  (invariant_of_mem_history (Q := fun _ => True) (fun h _ => h.distinctIds) (fun _ _ => trivial)
    hd he).2

/-- Along every run, from whatever the directory holds, the numbers given out increase, each new
identifier is none of those that are kept and is written down as the last number, and tasks with
different identifiers stay so. -/
theorem identifiers_of_history (schedule : List (Handle × Request)) (d : Directory) :
    ((history schedule d).filterMap Event.given?).Pairwise NumberLT ∧
      (∀ e ∈ history schedule d, ∀ id, e.given? = some id →
        (∃ tasks, loadTasks e.before = .ok tasks ∧ ∀ t ∈ tasks, t.id ≠ id) ∧
          ∃ n, id = Numeral.text n ∧ loadSequence e.after = .ok n) ∧
      (DistinctIds d → ∀ e ∈ history schedule d, DistinctIds e.after) := by
  refine ⟨pairwise_given schedule d, ?_, fun hd e he => distinctIds_of_mem_history hd he⟩
  intro e he id hid
  obtain ⟨tasks, last, htasks, _, hroom, rfl, hlast⟩ :=
    Event.number_of_given hid (effect_of_mem_history he)
  exact ⟨⟨tasks, htasks, fun t ht => id_ne_text_nextNumber ht hroom⟩, _, rfl, hlast⟩

end History

end Agenda.Store
