import Agenda.Proofs.Repeat.First
import Agenda.Text.Numeral

/-!
The first occurrence, found by trying one number after the other. The numbers are counted with 32
bits, and years are added as months that are counted so too. A search can then end in three ways
without a day, but two of them never come about: the calendar ends long before the numbers do.
-/

namespace Agenda

namespace Date

/-- The same day so many months later, or the last one of a month that is too short for it. -/
def addMonths? (d : Date) (months : Nat) : Option Date :=
  let count := 12 * d.year + (d.month - 1 : Nat) + months
  let year := count / 12
  let month := (count % 12).toNat + 1
  ofParts? year month (min d.day (daysInMonth year month))

theorem addMonths?_twelve_mul (d : Date) (years : Nat) :
    d.addMonths? (12 * years) = d.addYears? years := by
  have hmonth := d.valid.2.1
  have hyear : (12 * d.year + (d.month - 1 : Nat) + (12 * years : Nat)) / 12 = d.year + years := by
    omega
  have hrest : ((12 * d.year + (d.month - 1 : Nat) + (12 * years : Nat)) % 12).toNat + 1 =
      d.month := by
    omega
  rw [addMonths?, addYears?]
  simp only [hyear, hrest]

/-- From its first year to its last the calendar has less than 200 million days. -/
theorem ordinal_sub_lt (a b : Date) : b.ordinal - a.ordinal < 200000000 := by
  have ha := Int.le_trans (daysBeforeYear_mono a.valid.1.1) (ordinal_bounds a).1
  have hb := daysBeforeYear_mono (show b.year + 1 ≤ maxYear + 1 from
    Int.add_le_add_right b.valid.1.2 1)
  have hbelow := (ordinal_bounds b).2
  have hmin : daysBeforeYear minYear = -95745764 := rfl
  have hmax : daysBeforeYear (maxYear + 1) = 95745765 := rfl
  omega

end Date

namespace Repeat

/-- How a search ends. -/
inductive Ending where
  | found (steps : Nat) (day : Date)
  /-- The next occurrence lies outside the calendar. -/
  | outside
  /-- There is no number of steps behind the last one. -/
  | stepsFull
  /-- There is no number for the months of so many steps. -/
  | monthsFull

namespace Rule

def max32 : Nat := 0xFFFFFFFF

/-- The occurrence so many steps behind the start. -/
def advance (start : Date) (steps : Nat) : Rule → Except Ending Date
  | .daily interval _ => (start.addDays? (interval * steps)).elim (.error .outside) .ok
  | .yearly =>
      if 12 * steps ≤ max32 then (start.addMonths? (12 * steps)).elim (.error .outside) .ok
      else .error .monthsFull

/-- Tries the numbers behind the given one. -/
def searchFrom (rule : Rule) (start now : Date) (steps : Nat) : Ending :=
  if steps < max32 then
    match rule.advance start (steps + 1) with
    | .error ending => ending
    | .ok day =>
        if day.isAfter now then .found (steps + 1) day
        else rule.searchFrom start now (steps + 1)
  else .stepsFull
termination_by max32 - steps

def search (rule : Rule) (start now : Date) : Ending := rule.searchFrom start now 0

section Search

variable {rule : Rule} {start now day : Date} {k steps : Nat}

theorem advance_cases (rule : Rule) (start : Date) (k : Nat) :
    rule.advance start k = (rule.occurrence? start k).elim (.error .outside) .ok ∨
      rule.advance start k = .error .monthsFull ∧ max32 < 12 * k := by
  cases rule with
  | daily interval _ => exact .inl rfl
  | yearly =>
      rw [advance, Date.addMonths?_twelve_mul]
      split
      · exact .inl rfl
      · rename_i hmonths
        exact .inr ⟨rfl, Nat.not_le.1 hmonths⟩

theorem advance_eq_ok (h : rule.advance start k = .ok day) : rule.IsOccurrence start k day := by
  rw [← occurrence?_eq_some_iff]
  obtain heq | ⟨heq, _⟩ := advance_cases rule start k
  · rw [heq] at h
    cases ho : rule.occurrence? start k with
    | none => rw [ho] at h; cases h
    | some d => rw [ho] at h; cases h; rfl
  · rw [heq] at h
    cases h

theorem advance_eq_error {ending : Ending} (h : rule.advance start k = .error ending) :
    ending = .outside ∧ (∀ day, ¬ rule.IsOccurrence start k day) ∨
      ending = .monthsFull ∧ max32 < 12 * k := by
  obtain heq | ⟨heq, hmonths⟩ := advance_cases rule start k
  · rw [heq] at h
    cases ho : rule.occurrence? start k with
    | none =>
        rw [ho] at h
        cases h
        refine .inl ⟨rfl, ?_⟩
        intro day hday
        rw [occurrence?_eq_some_iff.2 hday] at ho
        cases ho
    | some d => rw [ho] at h; cases h
  · rw [heq] at h
    cases h
    exact .inr ⟨rfl, hmonths⟩

/-- Each number behind `steps` and before `k` has an occurrence that is not late enough. -/
def Passed (rule : Rule) (start now : Date) (steps k : Nat) : Prop :=
  ∀ j, steps < j → j < k → ∃ day, rule.IsOccurrence start j day ∧ day.isAfter now = false

/-- What is known where a search behind `steps` ends. -/
inductive Ends (rule : Rule) (start now : Date) (steps : Nat) : Ending → Prop where
  | found {k : Nat} {day : Date} (behind : steps < k) (passed : rule.Passed start now steps k)
      (occurs : rule.IsOccurrence start k day) (later : day.isAfter now = true) :
      Ends rule start now steps (.found k day)
  | outside {k : Nat} (behind : steps < k) (passed : rule.Passed start now steps k)
      (missing : ∀ day, ¬ rule.IsOccurrence start k day) : Ends rule start now steps .outside
  | stepsFull (passed : rule.Passed start now steps (max32 + 1)) :
      Ends rule start now steps .stepsFull
  | monthsFull {k : Nat} (behind : steps < k) (passed : rule.Passed start now steps k)
      (full : max32 < 12 * k) : Ends rule start now steps .monthsFull

theorem passed_succ (rule : Rule) (start now : Date) (steps : Nat) :
    rule.Passed start now steps (steps + 1) := by
  intro j hj hlt
  omega

theorem Passed.cons (ho : rule.IsOccurrence start (steps + 1) day)
    (hafter : day.isAfter now = false) (h : rule.Passed start now (steps + 1) k) :
    rule.Passed start now steps k := by
  intro j hj hlt
  obtain rfl | hj := Nat.eq_or_lt_of_le hj
  · exact ⟨day, ho, hafter⟩
  · exact h j hj hlt

theorem Ends.cons {ending : Ending} (ho : rule.IsOccurrence start (steps + 1) day)
    (hafter : day.isAfter now = false) (h : rule.Ends start now (steps + 1) ending) :
    rule.Ends start now steps ending := by
  cases h with
  | found behind passed occurs later =>
      exact .found (Nat.lt_of_succ_lt behind) (passed.cons ho hafter) occurs later
  | outside behind passed missing =>
      exact .outside (Nat.lt_of_succ_lt behind) (passed.cons ho hafter) missing
  | stepsFull passed => exact .stepsFull (passed.cons ho hafter)
  | monthsFull behind passed full =>
      exact .monthsFull (Nat.lt_of_succ_lt behind) (passed.cons ho hafter) full

theorem ends_searchFrom (rule : Rule) (start now : Date) (steps : Nat) :
    rule.Ends start now steps (rule.searchFrom start now steps) := by
  have hpassed := passed_succ rule start now steps
  have hbehind := Nat.lt_succ_self steps
  fun_induction searchFrom rule start now steps with
  | case1 steps _ ending hadvance =>
      obtain ⟨rfl, hmissing⟩ | ⟨rfl, hfull⟩ := advance_eq_error hadvance
      · exact .outside hbehind hpassed hmissing
      · exact .monthsFull hbehind hpassed hfull
  | case2 steps _ day hadvance hafter =>
      exact .found hbehind hpassed (advance_eq_ok hadvance) hafter
  | case3 steps _ day hadvance hafter ih =>
      have hrest := ih (passed_succ rule start now _) (Nat.lt_succ_self _)
      exact hrest.cons (advance_eq_ok hadvance) (Bool.eq_false_iff.2 hafter)
  | case4 steps hfull =>
      refine .stepsFull ?_
      intro j hj hlt
      omega

/-- The calendar ends before the months of an occurrence, and of the one behind it, need more than
32 bits. -/
theorem IsOccurrence.months_le (h : rule.IsOccurrence start k day) : 12 * (k + 1) ≤ max32 := by
  have hmax : max32 = 4294967295 := rfl
  cases rule with
  | daily interval positive =>
      have hle : k ≤ interval * k := Nat.le_mul_of_pos_left k positive
      have hlt := Date.ordinal_sub_lt start day
      simp only [IsOccurrence] at h
      omega
  | yearly =>
      have hyear := h.1
      have hlow : -262143 ≤ start.year := start.valid.1.1
      have hhigh : day.year ≤ 262142 := day.valid.1.2
      omega

theorem Passed.months_le (hk : 0 < k) (h : rule.Passed start now 0 k) : 12 * k ≤ max32 := by
  cases k with
  | zero => omega
  | succ j =>
      by_cases hj : j = 0
      · rw [hj]
        decide
      · obtain ⟨day, ho, _⟩ := h j (by omega) (Nat.lt_succ_self j)
        exact ho.months_le

/-! Searches from the start. -/

theorem Ends.isFirstAfter (h : rule.Ends start now 0 (.found k day)) :
    rule.IsFirstAfter start now k day := by
  cases h with
  | found behind passed occurs later =>
      refine ⟨behind, occurs, later, ?_⟩
      intro j earlier hj hlt hearlier
      obtain ⟨d, hd, hafter⟩ := passed j hj hlt
      rwa [hearlier.unique hd]

theorem Ends.noneAfter (h : rule.Ends start now 0 .outside) : rule.NoneAfter start now := by
  cases h with
  | @outside k behind passed missing =>
      intro j day hj hday
      -- An occurrence behind the missing one would make it exist.
      have hlt : j < k := by
        apply Nat.lt_of_not_le
        intro hle
        obtain ⟨d, hd⟩ := hday.exists_of_le hle
        exact missing d hd
      obtain ⟨d, hd, hafter⟩ := passed j hj hlt
      rwa [hday.unique hd]

theorem Ends.ne_stepsFull {ending : Ending} (h : rule.Ends start now 0 ending) :
    ending ≠ .stepsFull := by
  rintro rfl
  cases h with
  | stepsFull passed =>
      have := passed.months_le (Nat.succ_pos _)
      omega

theorem Ends.ne_monthsFull {ending : Ending} (h : rule.Ends start now 0 ending) :
    ending ≠ .monthsFull := by
  rintro rfl
  cases h with
  | monthsFull behind passed full =>
      have := passed.months_le behind
      omega

/-- The search finds the first occurrence after the given day, or it comes to the end of the
calendar and there is none; its counters are never full. The next date is what it finds. -/
theorem nextAfter_isFirstAfter_or_noneAfter (rule : Rule) (start now : Date) :
    (∃ k day, rule.IsFirstAfter start now k day ∧ rule.search start now = .found k day ∧
        rule.nextAfter start now = .ok day) ∨
      rule.NoneAfter start now ∧ rule.search start now = .outside ∧
        rule.nextAfter start now = .error (.outOfRange start.compact) := by
  have hends : rule.Ends start now 0 (rule.search start now) := ends_searchFrom rule start now 0
  cases hs : rule.search start now with
  | found k day =>
      rw [hs] at hends
      exact .inl ⟨k, day, hends.isFirstAfter, rfl, nextAfter_eq_ok_iff.2 ⟨k, hends.isFirstAfter⟩⟩
  | outside =>
      rw [hs] at hends
      exact .inr ⟨hends.noneAfter, rfl, nextAfter_eq_error_iff.2 hends.noneAfter⟩
  | stepsFull => exact absurd hs hends.ne_stepsFull
  | monthsFull => exact absurd hs hends.ne_monthsFull

end Search

end Rule

end Repeat

end Agenda
