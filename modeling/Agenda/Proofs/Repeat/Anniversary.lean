import Agenda.Proofs.Repeat.Occurrence

/-!
Anniversaries of a start: its month and day, and 28 February for a start of 29 February in a year
without one. Years behind a start there is always one, but years behind an anniversary need not be.
-/

namespace Agenda

namespace Date

/-- The month and day of the start in a year that has them, and 28 February in another. -/
def IsAnniversary (start day : Date) : Prop :=
  if Valid day.year start.month start.day then day.month = start.month ∧ day.day = start.day
  else day.month = 2 ∧ day.day = 28

def IsLeapDay (d : Date) : Prop := d.month = 2 ∧ d.day = 29

theorem daysInMonth_two (year : Int) :
    daysInMonth year 2 = if isLeapYear year then 29 else 28 := rfl

theorem daysInMonth_eq {month : Nat} (h : month ≠ 2) (year year' : Int) :
    daysInMonth year month = daysInMonth year' month := by
  simp only [daysInMonth]
  split
  · exact absurd rfl h
  all_goals rfl

theorem valid_of_not_isLeapDay {start day : Date} (h : ¬ start.IsLeapDay) :
    Valid day.year start.month start.day := by
  refine ⟨day.valid.1, start.valid.2.1, start.valid.2.2.1, ?_⟩
  have hday := start.valid.2.2.2
  by_cases hmonth : start.month = 2
  · have hne : start.day ≠ 29 := fun hd => h ⟨hmonth, hd⟩
    rw [hmonth, daysInMonth_two] at hday ⊢
    split at hday <;> split <;> omega
  · rw [daysInMonth_eq hmonth day.year start.year]
    exact hday

theorem isAnniversary_of_not_isLeapDay {start day : Date} (h : ¬ start.IsLeapDay) :
    start.IsAnniversary day ↔ day.month = start.month ∧ day.day = start.day := by
  rw [IsAnniversary, if_pos (valid_of_not_isLeapDay h)]

theorem isAnniversary_of_isLeapDay {start day : Date} (h : start.IsLeapDay) :
    start.IsAnniversary day ↔ day.month = 2 ∧ day.day = daysInMonth day.year 2 := by
  rw [IsAnniversary, h.1, h.2, daysInMonth_two]
  cases hleap : isLeapYear day.year with
  | true =>
      have hvalid : Valid day.year 2 29 := by
        refine ⟨day.valid.1, by decide, by decide, ?_⟩
        rw [daysInMonth_two, hleap]
        decide
      rw [if_pos hvalid]
      rfl
  | false =>
      have hvalid : ¬ Valid day.year 2 29 := by
        rintro ⟨_, _, _, hday⟩
        rw [daysInMonth_two, hleap] at hday
        exact absurd hday (by decide)
      rw [if_neg hvalid]
      rfl

theorem isAnniversary_self (start : Date) : start.IsAnniversary start := by
  rw [IsAnniversary, if_pos start.valid]
  exact ⟨rfl, rfl⟩

/-- Years later an anniversary is one again, but 28 February does not become 29 February. -/
theorem isAnniversary_addYears_iff {start a b : Date} {years : Nat} (ha : start.IsAnniversary a)
    (h : a.addYears? years = some b) : start.IsAnniversary b ↔
      (start.IsLeapDay → isLeapYear b.year → isLeapYear a.year) := by
  obtain ⟨_, hmonth, hday⟩ := addYears?_eq_some h
  by_cases hstart : start.IsLeapDay
  · rw [isAnniversary_of_isLeapDay hstart] at ha ⊢
    rw [hmonth, hday, ha.1, ha.2, daysInMonth_two, daysInMonth_two]
    cases isLeapYear a.year <;> cases isLeapYear b.year <;> simp [hstart]
  · rw [isAnniversary_of_not_isLeapDay hstart] at ha ⊢
    have hle : start.day ≤ daysInMonth b.year start.month :=
      (valid_of_not_isLeapDay hstart).2.2.2
    rw [hmonth, hday, ha.1, ha.2, Nat.min_eq_left hle]
    exact iff_of_true ⟨rfl, rfl⟩ fun hleap => absurd hleap hstart

end Date

end Agenda
