import Agenda.Proofs.Repeat.Range
import Agenda.Proofs.Store.Removal
import Agenda.Proofs.Tasks.Conclusion
import Agenda.Proofs.Tasks.Dates

/-!
Stores in which nothing but an unknown identifier can go wrong. Their tasks are sound and their
numbers counted, which every operation keeps. Then an operation on the task with an identifier
succeeds if there is one; completing it needs a date besides that can be read.
-/

namespace Agenda.Tasks

open Store

/-- Each task is sound, and the last number has reached the one that its identifier writes. -/
def Healthy (s : Table) : Prop :=
  ∀ t ∈ s.tasks, t.Sound ∧ ∀ n, number? t.id = some n → n ≤ s.last

namespace Healthy

variable {s s' : Table} {r : Request} {answer : Answer} {id : String}

theorem next_eq (h : Healthy s) : s.next = s.last + 1 := by
  rw [← nextNumber_eq_next]
  exact nextNumber_of_counted fun t ht => (h t ht).2

theorem insert (h : Healthy s) {u : Task} (hu : u.Sound) : Healthy (s.insert u).2 := by
  intro t ht
  obtain ht | ht := List.mem_append.1 ht
  · refine ⟨(h t ht).1, fun n hn => ?_⟩
    have hle := (h t ht).2 n hn
    have hlast : (s.insert u).2.last = s.last + 1 := h.next_eq
    omega
  · cases List.mem_singleton.1 ht
    refine ⟨hu.congr rfl rfl, fun n hn => ?_⟩
    rw [number?, Numeral.text, String.toList_ofList] at hn
    cases hread : Numeral.natural Numeral.max64 (Numeral.digits s.next) with
    | error e => rw [hread] at hn; cases hn
    | ok m =>
        rw [hread] at hn
        cases hn
        exact Nat.le_of_eq (Numeral.eq_of_natural_digits hread)

theorem change (h : Healthy s) {f : Task → Task} (hchange : s.change id f = (.ok (), s'))
    (hf : ∀ t : Task, t.id = id → (f t).id = id) (hsound : ∀ t : Task, t.Sound → (f t).Sound) :
    Healthy s' ∧ s'.last = s.last := by
  obtain ⟨_, _, rfl⟩ := Table.change_eq_ok hchange
  refine ⟨?_, rfl⟩
  rw [Healthy, ← modifyFirst_eq_modify]
  refine forall_mem_modifyFirst h fun t hid ht => ⟨hsound t ht.1, ?_⟩
  rw [hf t hid, ← hid]
  exact ht.2

theorem delete (h : Healthy s) (hdelete : s.delete id = (.ok (), s')) :
    Healthy s' ∧ s'.last = s.last := by
  obtain ⟨_, rfl⟩ := Table.ifHeld_eq_ok hdelete
  exact ⟨fun t ht => h t (List.mem_of_mem_filter ht), rfl⟩

/-- What a request does keeps a store healthy and takes one number at most. -/
theorem effect (h : Healthy s) (heffect : Effect s r answer s') :
    Healthy s' ∧ s'.last ≤ s.last + 1 := by
  cases heffect with
  | add accepted =>
      exact ⟨h.insert (Task.sound_of_accept accepted), Nat.le_of_eq h.next_eq⟩
  | update accepted changed =>
      have hu := Task.sound_of_accept accepted
      obtain ⟨hs', hlast⟩ := h.change changed (fun _ _ => rfl) fun _ _ => hu
      exact ⟨hs', by omega⟩
  | reschedule _ _ changed =>
      obtain ⟨hs', hlast⟩ := h.change changed (fun _ hid => hid) fun t ht => ht.congr rfl rfl
      exact ⟨hs', by omega⟩
  | finish _ _ deleted | delete deleted =>
      obtain ⟨hs', hlast⟩ := h.delete deleted
      exact ⟨hs', by omega⟩

end Healthy

theorem exists_healthy_outcome {d : Directory} {s : Table} (h : Represents d s) (hs : Healthy s)
    (r : Request) : ∃ s', Represents (r.outcome d).2 s' ∧ Healthy s' ∧ s'.last ≤ s.last + 1 := by
  obtain ⟨_, hr⟩ | ⟨_, s', _, hr, heffect⟩ := outcome_follows h r
  · exact ⟨s, hr, hs, Nat.le_succ _⟩
  · exact ⟨s', hr, hs.effect heffect⟩

/-! Answers. -/

/-- The answer is that of an operation on the task with this identifier, in which nothing else than
its absence goes wrong. -/
def Finds {α : Type} (id : String) (tasks : List Task) (answer : Except Error α) : Prop :=
  (∃ t ∈ tasks, t.id = id) ∧ (∃ a, answer = .ok a) ∨
    (∀ t ∈ tasks, t.id ≠ id) ∧ answer = .error (.store (.notFound id))

section Answers

variable {d : Directory} {s : Table} {id : String} {now : Date}

theorem held_or_missing (id : String) (tasks : List Task) :
    (∃ t ∈ tasks, t.id = id) ∧ (tasks.any fun t => t.id = id) ∨
      (∀ t ∈ tasks, t.id ≠ id) ∧ ¬ tasks.any fun t => t.id = id := by
  by_cases h : ∃ t ∈ tasks, t.id = id
  · obtain ⟨t, ht, hid⟩ := h
    exact .inl ⟨⟨t, ht, hid⟩, List.any_eq_true.2 ⟨t, ht, decide_eq_true hid⟩⟩
  · refine .inr ⟨fun t ht hid => h ⟨t, ht, hid⟩, fun hany => ?_⟩
    obtain ⟨t, ht, hid⟩ := List.any_eq_true.1 hany
    exact h ⟨t, ht, of_decide_eq_true hid⟩

theorem finds_lift {outcome : Outcome Store.Error Unit} {tasks : List Task}
    (h : Agrees outcome (s.ifHeld id tasks)) : Finds id s.tasks (lift outcome).1 := by
  rw [lift, h.1, Table.ifHeld]
  obtain ⟨hheld, hany⟩ | ⟨hmissing, hany⟩ := held_or_missing id s.tasks
  · rw [if_pos hany]
    exact .inl ⟨hheld, (), rfl⟩
  · rw [if_neg hany]
    exact .inr ⟨hmissing, rfl⟩

theorem finds_get (h : Represents d s) (id : String) : Finds id s.tasks (Tasks.get id d).1 := by
  rw [(agrees_get h id).1, ← find_eq_get]
  obtain ⟨hheld, hany⟩ | ⟨hmissing, hany⟩ := held_or_missing id s.tasks
  · obtain ⟨t, ht⟩ := find_of_any hany
    exact .inl ⟨hheld, t, by rw [ht]; rfl⟩
  · exact .inr ⟨hmissing, by rw [find_of_not_any hany]; rfl⟩

theorem finds_delete (h : Represents d s) (id : String) :
    Finds id s.tasks (Tasks.delete id d).1 :=
  finds_lift (h.delete id)

theorem finds_update (h : Represents d s) {t u : Task} (hid : t.id ≠ "")
    (ha : t.accept now = .ok u) : Finds t.id s.tasks (Tasks.update now t d).1 := by
  rw [Tasks.update, if_neg hid, ha, ← Task.id_of_accept ha]
  exact finds_lift (h.update u)

theorem exists_conclusion {t : Task} (hsound : t.Sound) (hdate : (Date.ofCompact? t.date).isSome)
    (hnow : now.year ≤ 9999) : ∃ c, conclusion now t = .ok c := by
  obtain hempty | ⟨rule, hrule⟩ := hsound.rule
  · refine ⟨none, ?_⟩
    rw [conclusion, Task.repeats_eq_false_iff.2 hempty]
    rfl
  · obtain ⟨start, hstart⟩ := Option.isSome_iff_exists.1 hdate
    obtain ⟨day, hday⟩ := Repeat.exists_nextOn hstart hrule hnow
    exact ⟨_, conclusion_of_nextOn hday⟩

theorem finds_complete (h : Represents d s) (hs : Healthy s) (hread : Readable s.tasks)
    (hnow : now.year ≤ 9999) (id : String) : Finds id s.tasks (Tasks.complete id now d).1 := by
  cases hg : s.get id with
  | error e =>
      obtain ⟨d', heq, _⟩ := complete_eq_error h hg now
      have hfinds := finds_get h id
      rw [(agrees_get h id).1, hg] at hfinds
      obtain ⟨_, _, ha⟩ | ⟨hmissing, he⟩ := hfinds
      · cases ha
      · cases he
        exact .inr ⟨hmissing, congrArg Prod.fst heq⟩
  | ok t =>
      obtain ⟨ht, hid⟩ := find_eq_ok ((find_eq_get id s).trans hg)
      obtain ⟨c, hc⟩ := exists_conclusion (hs t ht).1 (hread t ht) hnow
      have hget : (Tasks.get id d).1 = .ok t := by
        rw [(agrees_get h id).1, hg]
        rfl
      obtain ⟨_, _, _, heq⟩ := exists_complete_eq hget hc
      exact .inl ⟨⟨t, ht, hid⟩, (), congrArg Prod.fst heq⟩

end Answers

end Agenda.Tasks
