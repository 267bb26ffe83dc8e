import Agenda.Proofs.Calendar.Ordinal
import Agenda.Proofs.Store.Taken
import Mathlib.Data.List.Nodup

/-!
The order of a listing. Dates are compared as texts, which for compact ones is the order of the
calendar, and tasks of one date by the numbers that their identifiers write. The sort is stable, so
what the order does not part stays as it is kept; where each task has a number of its own, the order
parts all tasks, and nothing is left of the order in which they are kept. A number that is too large
for 64 bits is none.
-/

namespace Agenda.Store

/-! Which of two tasks comes first. -/

section Order

theorem numberLE_iff {m n : Option Nat} :
    numberLE m n = true ↔ ∀ i, m = some i → ∃ j, n = some j ∧ i ≤ j := by
  cases m with
  | none => exact iff_of_true rfl nofun
  | some i =>
      cases n with
      | none => simp [numberLE]
      | some j => simp [numberLE]

theorem numberLE_total (m n : Option Nat) : numberLE m n = true ∨ numberLE n m = true := by
  cases m with
  | none => exact .inl rfl
  | some i =>
      cases n with
      | none => exact .inr rfl
      | some j =>
          simp only [numberLE, decide_eq_true_eq]
          exact Nat.le_total i j

theorem numberLE_antisymm {m n : Option Nat} (h : numberLE m n = true) (h' : numberLE n m = true) :
    m = n := by
  cases m with
  | none =>
      cases n with
      | none => rfl
      | some j => cases h'
  | some i =>
      cases n with
      | none => cases h
      | some j =>
          simp only [numberLE, decide_eq_true_eq] at h h'
          rw [Nat.le_antisymm h h']

theorem listedLE_iff {a b : Task} : listedLE a b = true ↔
    a.date < b.date ∨ a.date = b.date ∧ numberLE (number? a.id) (number? b.id) = true := by
  simp only [listedLE, Bool.or_eq_true, Bool.and_eq_true, decide_eq_true_eq, beq_iff_eq]

theorem listedLE_trans (a b c : Task) (hab : listedLE a b = true) (hbc : listedLE b c = true) :
    listedLE a c = true := by
  rw [listedLE_iff] at hab hbc ⊢
  obtain hab | ⟨hab, hnumber⟩ := hab
  · obtain hbc | ⟨hbc, _⟩ := hbc
    · exact .inl (String.lt_trans hab hbc)
    · exact .inl (hbc ▸ hab)
  · rw [hab]
    refine hbc.imp_right fun ⟨hbc, hnumber'⟩ => ⟨hbc, ?_⟩
    rw [numberLE_iff] at hnumber hnumber' ⊢
    intro i hi
    obtain ⟨j, hj, hij⟩ := hnumber i hi
    obtain ⟨k, hk, hjk⟩ := hnumber' j hj
    exact ⟨k, hk, Nat.le_trans hij hjk⟩

theorem listedLE_total (a b : Task) : (listedLE a b || listedLE b a) = true := by
  rw [Bool.or_eq_true, listedLE_iff, listedLE_iff]
  by_cases hlt : a.date < b.date
  · exact .inl (.inl hlt)
  · by_cases hgt : b.date < a.date
    · exact .inr (.inl hgt)
    · have heq : a.date = b.date := String.le_antisymm (String.not_lt.1 hgt) (String.not_lt.1 hlt)
      exact (numberLE_total (number? a.id) (number? b.id)).imp (fun h => .inr ⟨heq, h⟩)
        fun h => .inr ⟨heq.symm, h⟩

/-- Tasks that may stand in either order have one number. -/
theorem number_eq_of_listedLE {a b : Task} (hab : listedLE a b = true) (hba : listedLE b a = true) :
    number? a.id = number? b.id := by
  rw [listedLE_iff] at hab hba
  obtain hlt | ⟨heq, hnumber⟩ := hab
  · obtain hgt | ⟨heq, _⟩ := hba
    · exact absurd hgt (String.lt_asymm hlt)
    · exact absurd (heq ▸ hlt) (String.lt_irrefl _)
  · obtain hgt | ⟨_, hnumber'⟩ := hba
    · exact absurd (heq ▸ hgt) (String.lt_irrefl _)
    · exact numberLE_antisymm hnumber hnumber'

end Order

/-! Sorted tasks. -/

section Sorted

variable {tasks : List Task}

theorem pairwise_sorted (tasks : List Task) :
    (sorted tasks).Pairwise fun a b => listedLE a b = true :=
  List.pairwise_mergeSort listedLE_trans listedLE_total tasks

theorem perm_sorted (tasks : List Task) : (sorted tasks).Perm tasks :=
  List.mergeSort_perm tasks listedLE

theorem length_sorted (tasks : List Task) : (sorted tasks).length = tasks.length :=
  (perm_sorted tasks).length_eq

theorem take_length_sorted (tasks : List Task) : (sorted tasks).take tasks.length = sorted tasks :=
  List.take_of_length_le (Nat.le_of_eq (length_sorted tasks))

/-- Tasks that may stand in either order stay in the order in which they are kept. -/
theorem filter_sorted {p : Task → Bool}
    (h : ∀ a b, p a = true → p b = true → listedLE a b = true) :
    (sorted tasks).filter p = tasks.filter p := by
  have hpairwise : (tasks.filter p).Pairwise fun a b => listedLE a b = true := by
    apply List.pairwise_of_forall_mem_list
    intro a ha b hb
    exact h a b (List.of_mem_filter ha) (List.of_mem_filter hb)
  -- What is in order already is found in the sorted tasks as it is, and they hold no more of it.
  have hsublist := (List.sublist_mergeSort listedLE_trans listedLE_total hpairwise
    List.filter_sublist).filter p
  rw [List.filter_filter, funext fun t => Bool.and_self (p t)] at hsublist
  exact (hsublist.eq_of_length ((perm_sorted tasks).filter p).length_eq.symm).symm

/-- The tasks as they are to be listed: by the calendar, and on one date by number, where those
without a number come first; those of one date and number in the order in which they are kept. -/
structure InOrder (tasks listed : List Task) : Prop where
  perm : listed.Perm tasks
  calendar : listed.Pairwise fun a b => ∃ day day', Date.ofCompact? a.date = some day ∧
    Date.ofCompact? b.date = some day' ∧ day.isAfter day' = false
  numbers : listed.Pairwise fun a b => a.date = b.date →
    ∀ m, number? a.id = some m → ∃ n, number? b.id = some n ∧ m ≤ n
  ties : ∀ date number, (listed.filter fun t => t.date = date ∧ number? t.id = number) =
    tasks.filter fun t => t.date = date ∧ number? t.id = number

theorem inOrder_sorted (hdates : ∀ t ∈ tasks, (Date.ofCompact? t.date).isSome) :
    InOrder tasks (sorted tasks) := by
  have hreads : ∀ t ∈ sorted tasks, ∃ day, Date.ofCompact? t.date = some day := fun t ht =>
    Option.isSome_iff_exists.1 (hdates t ((perm_sorted tasks).mem_iff.1 ht))
  refine ⟨perm_sorted tasks, ?_, ?_, ?_⟩
  · refine (pairwise_sorted tasks).imp_of_mem fun {a b} ha hb hle => ?_
    obtain ⟨day, hday⟩ := hreads a ha
    obtain ⟨day', hday'⟩ := hreads b hb
    refine ⟨day, day', hday, hday', Bool.eq_false_iff.2 fun hafter => ?_⟩
    have hgt : b.date < a.date := (Date.lt_iff_isAfter hday' hday).2 hafter
    obtain hlt | ⟨heq, _⟩ := listedLE_iff.1 hle
    · exact String.lt_asymm hlt hgt
    · exact String.lt_irrefl _ (heq ▸ hgt)
  · refine (pairwise_sorted tasks).imp fun {a b} hle heq => ?_
    obtain hlt | ⟨_, hnumber⟩ := listedLE_iff.1 hle
    · exact absurd (heq ▸ hlt) (String.lt_irrefl _)
    · exact numberLE_iff.1 hnumber
  · intro date number
    apply filter_sorted
    intro a b ha hb
    obtain ⟨hdate, hnumber⟩ := of_decide_eq_true ha
    obtain ⟨hdate', hnumber'⟩ := of_decide_eq_true hb
    refine listedLE_iff.2 (.inr ⟨hdate.trans hdate'.symm, ?_⟩)
    rw [hnumber, hnumber', numberLE_iff]
    exact fun m hm => ⟨m, hm, Nat.le_refl m⟩

/-- Each identifier is a row of digits with a value of 64 bits, and no two have one value. -/
structure Numbered (tasks : List Task) : Prop where
  digits : ∀ t ∈ tasks, t.id ≠ "" ∧ ∀ c ∈ t.id.toList, c.isDigit
  small : ∀ t ∈ tasks, Numeral.value t.id.toList ≤ Numeral.max64
  distinct : (tasks.map fun t => Numeral.value t.id.toList).Nodup

/-- Identifiers that were given out write such numbers. -/
theorem numbered_of_texts {numbers : List Nat}
    (hids : tasks.map Task.id = numbers.map Numeral.text)
    (hsmall : ∀ n ∈ numbers, n ≤ Numeral.max64) (hdistinct : numbers.Nodup) : Numbered tasks := by
  have htext : ∀ t ∈ tasks, ∃ n ∈ numbers, t.id.toList = Numeral.digits n := by
    intro t ht
    have hmem : t.id ∈ numbers.map Numeral.text := hids ▸ List.mem_map_of_mem ht
    obtain ⟨n, hn, heq⟩ := List.mem_map.1 hmem
    exact ⟨n, hn, by rw [← heq, Numeral.text, String.toList_ofList]⟩
  have hvalue (n : Nat) : Numeral.value (Numeral.text n).toList = n := by
    rw [Numeral.text, String.toList_ofList, Numeral.value_digits]
  have hvalues : (tasks.map fun t => Numeral.value t.id.toList) = numbers := by
    have hids' := congrArg (List.map fun id : String => Numeral.value id.toList) hids
    simpa only [List.map_map, Function.comp_def, hvalue, List.map_id'] using hids'
  refine ⟨?_, ?_, hvalues.symm ▸ hdistinct⟩
  · intro t ht
    obtain ⟨n, _, heq⟩ := htext t ht
    refine ⟨fun hempty => Numeral.digits_ne_nil n ?_, fun c hc => ?_⟩
    · rw [← heq, hempty, String.toList_empty]
    · exact Numeral.isDigit_of_mem_digits (heq ▸ hc)
  · intro t ht
    obtain ⟨n, hn, heq⟩ := htext t ht
    rw [heq, Numeral.value_digits]
    exact hsmall n hn

theorem Numbered.number?_eq (h : Numbered tasks) {t : Task} (ht : t ∈ tasks) :
    number? t.id = some (Numeral.value t.id.toList) := by
  obtain ⟨hne, hdigits⟩ := h.digits t ht
  have hne : t.id.toList ≠ [] := fun hnil => hne (String.toList_inj.1 hnil)
  rw [number?, Numeral.natural_eq_readOn hne hdigits,
    Numeral.readOn_of_isDigit hdigits (h.small t ht)]
  rfl

theorem Numbered.eq_of_number_eq (h : Numbered tasks) {t u : Task} (ht : t ∈ tasks)
    (hu : u ∈ tasks) (heq : number? t.id = number? u.id) : t = u := by
  rw [h.number?_eq ht, h.number?_eq hu] at heq
  exact List.inj_on_of_nodup_map h.distinct ht hu (Option.some.inj heq)

/-- Tasks that all have numbers of their own are sorted alike in whatever order they are kept. -/
theorem Numbered.sorted_eq (h : Numbered tasks) {tasks' : List Task} (hperm : tasks'.Perm tasks) :
    sorted tasks' = sorted tasks := by
  have hsame : (sorted tasks').Perm (sorted tasks) :=
    ((perm_sorted tasks').trans hperm).trans (perm_sorted tasks).symm
  refine hsame.eq_of_pairwise ?_ (pairwise_sorted tasks') (pairwise_sorted tasks)
  intro a b ha hb hab hba
  have ha : a ∈ tasks := hperm.mem_iff.1 ((perm_sorted tasks').mem_iff.1 ha)
  have hb : b ∈ tasks := (perm_sorted tasks).mem_iff.1 hb
  exact h.eq_of_number_eq ha hb (number_eq_of_listedLE hab hba)

end Sorted

/-! Listings. -/

section Listings

variable {d : Directory} {tasks : List Task}

theorem fst_list (h : loadTasks d = .ok tasks) (hlock : d.lock ≠ .folder) (limit : Nat) :
    (Store.list limit d).1 = .ok ((sorted tasks).take limit) := by
  rw [Store.list, ← perform_taken, ← Store.list, (ready_taken h hlock).list]

/-- Where the tasks can be read and the lock can be taken, a listing gives as many tasks as it is
asked for, or all of them; a longer one begins with a shorter one, and the full one has the tasks in
their order. If all tasks have numbers of their own, their order in the file plays no part. Where a
folder lies in the place of the lock, nothing is listed. -/
theorem listed_in_order (htasks : loadTasks d = .ok tasks)
    (hdates : ∀ t ∈ tasks, (Date.ofCompact? t.date).isSome) :
    (d.lock ≠ .folder → ∃ listed : Nat → List Task,
      (∀ limit, (Store.list limit d).1 = .ok (listed limit) ∧
        (listed limit).length = min limit tasks.length) ∧
      (∀ a b, a ≤ b → listed a <+: listed b) ∧
      InOrder tasks (listed tasks.length) ∧
      ∀ d' tasks', loadTasks d' = .ok tasks' → d'.lock ≠ .folder → tasks'.Perm tasks →
        Numbered tasks → ∀ limit, (Store.list limit d').1 = (Store.list limit d).1) ∧
    (d.lock = .folder → ∀ limit, Store.list limit d = (.error (.file .lock .isFolder), d)) := by
  refine ⟨fun hlock => ?_, fun hlock limit => perform_of_lock_folder hlock _⟩
  refine ⟨(sorted tasks).take, ?_, fun a b => List.take_prefix_take_left, ?_, ?_⟩
  · intro limit
    exact ⟨fst_list htasks hlock limit, by rw [List.length_take, length_sorted]⟩
  · change InOrder tasks ((sorted tasks).take tasks.length)
    rw [take_length_sorted]
    exact inOrder_sorted hdates
  · intro d' tasks' htasks' hlock' hperm hnumbered limit
    rw [fst_list htasks hlock, fst_list htasks' hlock', hnumbered.sorted_eq hperm]

/-- A task of one day with the number as its identifier. -/
def underNumber (n : Nat) : Task := { id := Numeral.text n, date := "20240101" }

theorem listed_of_two_orders :
    loadTasks (put [underNumber 10, underNumber 9] opened) = .ok [underNumber 10, underNumber 9] ∧
      (∀ t ∈ [underNumber 10, underNumber 9], (Date.ofCompact? t.date).isSome) ∧
      Numbered [underNumber 10, underNumber 9] ∧
      (∃ listed : Nat → List Task,
        (∀ limit,
          (Store.list limit (put [underNumber 10, underNumber 9] opened)).1 = .ok (listed limit) ∧
            (listed limit).length = min limit 2) ∧
        InOrder [underNumber 10, underNumber 9] (listed 2)) ∧
      ∀ limit, (Store.list limit (put [underNumber 9, underNumber 10] opened)).1 =
        (Store.list limit (put [underNumber 10, underNumber 9] opened)).1 := by
  have hload (tasks : List Task) : loadTasks (put tasks opened) = .ok tasks :=
    loadTasks_set_encode opened tasks
  have hlock (tasks : List Task) : (put tasks opened).lock ≠ .folder := nofun
  have hids : [underNumber 10, underNumber 9].map Task.id = [10, 9].map Numeral.text := rfl
  have hnumbered : Numbered [underNumber 10, underNumber 9] :=
    numbered_of_texts hids (by decide) (by decide)
  have hdates : ∀ t ∈ [underNumber 10, underNumber 9], (Date.ofCompact? t.date).isSome := by
    decide
  obtain ⟨hlist, -⟩ := listed_in_order (hload _) hdates
  obtain ⟨listed, hlisted, _, horder, hsame⟩ := hlist (hlock _)
  exact ⟨hload _, hdates, hnumbered, ⟨listed, hlisted, horder⟩,
    hsame _ _ (hload _) (hlock _) (List.Perm.swap ..) hnumbered⟩

/-- Two numbers of more than 64 bits stay in the order of the file, and nothing is listed while a
folder lies in the place of the lock. -/
theorem not_listed_in_order :
    (¬ ∀ (d d' : Directory) (tasks tasks' : List Task), loadTasks d = .ok tasks →
      loadTasks d' = .ok tasks' → d.lock ≠ .folder → d'.lock ≠ .folder →
      (∀ t ∈ tasks, (Date.ofCompact? t.date).isSome) → tasks'.Perm tasks →
      (∀ t ∈ tasks, ∃ n, t.id = Numeral.text n) → (tasks.map Task.id).Nodup →
        ∀ limit, (Store.list limit d').1 = (Store.list limit d).1) ∧
    ¬ ∀ (d : Directory) (tasks : List Task), loadTasks d = .ok tasks →
      (∀ t ∈ tasks, (Date.ofCompact? t.date).isSome) →
        ∀ limit, ∃ listed, (Store.list limit d).1 = .ok listed := by
  refine ⟨fun h => ?_, fun h => ?_⟩
  · have hload (tasks : List Task) : loadTasks (put tasks opened) = .ok tasks :=
      loadTasks_set_encode opened tasks
    have hlock (tasks : List Task) : (put tasks opened).lock ≠ .folder := nofun
    have hsorted : sorted [underNumber 18446744073709551617, underNumber 18446744073709551616] =
        [underNumber 18446744073709551617, underNumber 18446744073709551616] :=
      List.mergeSort_of_pairwise (by decide)
    have hsorted' : sorted [underNumber 18446744073709551616, underNumber 18446744073709551617] =
        [underNumber 18446744073709551616, underNumber 18446744073709551617] :=
      List.mergeSort_of_pairwise (by decide)
    have hlisted := h _ _ [underNumber 18446744073709551617, underNumber 18446744073709551616]
      [underNumber 18446744073709551616, underNumber 18446744073709551617] (hload _) (hload _)
      (hlock _) (hlock _) (by decide) (List.Perm.swap ..) (by simp [underNumber]) (by decide) 1
    rw [fst_list (hload _) (hlock _), fst_list (hload _) (hlock _), hsorted, hsorted'] at hlisted
    exact absurd hlisted (by decide)
  · obtain ⟨listed, hlisted⟩ :=
      h { opened with lock := .folder } [] represents_opened.tasks nofun 0
    cases hlisted

end Listings

end Agenda.Store
