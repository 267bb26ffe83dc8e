import Agenda.Proofs.Calendar.Ordinal
import Agenda.Proofs.Repeat.Anniversary

/-!
The first occurrence after a day. Which day is the occurrence with a number is said by the count of
days and by anniversaries, not by the additions that find it. The occurrences later than the given
day are those behind the computed number, and none is left out before the calendar ends, so that
number is the least one of them.
-/

namespace Agenda

namespace Date

theorem daysInMonth_pos (year : Int) (month : Nat) : 1 ≤ daysInMonth year month := by
  simp only [daysInMonth]
  split
  · split <;> decide
  all_goals decide

theorem exists_addYears? {start : Date} {years : Nat} (h : start.year + years ≤ maxYear) :
    ∃ day, start.addYears? years = some day := by
  have hvalid : Valid (start.year + years) start.month
      (min start.day (daysInMonth (start.year + years) start.month)) := by
    have hmin := start.valid.1.1
    have hday := start.valid.2.2.1
    have hmonth := daysInMonth_pos (start.year + years) start.month
    exact ⟨⟨by omega, h⟩, start.valid.2.1, Nat.le_min.2 ⟨hday, hmonth⟩, Nat.min_le_right _ _⟩
  exact ⟨⟨_, _, _, hvalid⟩, by rw [addYears?, ofParts?, dif_pos hvalid]⟩

theorem isLeapYear_of_isLeapDay {d : Date} (h : d.IsLeapDay) : isLeapYear d.year = true := by
  have hday := d.valid.2.2.2
  rw [h.1, h.2, daysInMonth_two] at hday
  split at hday
  · assumption
  · omega

/-- Adding years to a start gives its anniversaries. -/
theorem addYears?_eq_some_iff {start day : Date} {years : Nat} :
    start.addYears? years = some day ↔ day.year = start.year + years ∧ start.IsAnniversary day := by
  constructor
  · intro h
    refine ⟨(addYears?_eq_some h).1, ?_⟩
    rw [isAnniversary_addYears_iff start.isAnniversary_self h]
    exact fun hleap _ => isLeapYear_of_isLeapDay hleap
  · rintro ⟨hyear, hday⟩
    obtain ⟨other, hother⟩ := exists_addYears? (hyear ▸ day.valid.1.2)
    obtain ⟨hyear', hmonth', hday'⟩ := addYears?_eq_some hother
    have hparts : day.month = other.month ∧ day.day = other.day := by
      rw [hmonth', hday', hyear', ← hyear]
      by_cases hstart : start.IsLeapDay
      · rw [isAnniversary_of_isLeapDay hstart] at hday
        have hle : daysInMonth day.year 2 ≤ 29 := by
          rw [daysInMonth_two]
          split <;> decide
        rw [hday.1, hday.2, hstart.1, hstart.2, Nat.min_eq_right hle]
        exact ⟨rfl, rfl⟩
      · rw [isAnniversary_of_not_isLeapDay hstart] at hday
        have hle : start.day ≤ daysInMonth day.year start.month :=
          (valid_of_not_isLeapDay hstart).2.2.2
        rw [hday.1, hday.2, Nat.min_eq_left hle]
        exact ⟨rfl, rfl⟩
    calc start.addYears? years = some other := hother
      _ = ofParts? other.year other.month other.day := (ofParts?_self other).symm
      _ = ofParts? day.year day.month day.day := by rw [hyear', ← hyear, hparts.1, hparts.2]
      _ = some day := ofParts?_self day

end Date

namespace Repeat.Rule

/-- The day is the occurrence with this number: so many whole intervals behind the start, or the
start's anniversary so many years later. -/
def IsOccurrence (start : Date) (k : Nat) (day : Date) : Rule → Prop
  | .daily interval _ => day.ordinal = start.ordinal + (interval * k : Nat)
  | .yearly => day.year = start.year + k ∧ start.IsAnniversary day

section Occurrences

variable {rule : Rule} {start a b : Date} {j k : Nat}

theorem occurrence?_eq_some_iff {day : Date} :
    rule.occurrence? start k = some day ↔ rule.IsOccurrence start k day := by
  cases rule with
  | daily interval _ => exact Date.ofOrdinal?_eq_some_iff
  | yearly => exact Date.addYears?_eq_some_iff

theorem IsOccurrence.unique (ha : rule.IsOccurrence start k a) (hb : rule.IsOccurrence start k b) :
    a = b := by
  rw [← occurrence?_eq_some_iff] at ha hb
  cases ha.symm.trans hb
  rfl

/-- No number below that of an occurrence is without one. -/
theorem IsOccurrence.exists_of_le (hb : rule.IsOccurrence start k b) (h : j ≤ k) :
    ∃ a, rule.IsOccurrence start j a := by
  suffices ∃ a, rule.occurrence? start j = some a by
    obtain ⟨a, ha⟩ := this
    exact ⟨a, occurrence?_eq_some_iff.1 ha⟩
  cases rule with
  | daily interval _ =>
      have hle : interval * j ≤ interval * k := Nat.mul_le_mul_left interval h
      simp only [IsOccurrence] at hb
      exact Date.exists_ofOrdinal? (a := start) (b := b) (by omega) (by omega)
  | yearly =>
      have hyear := hb.1
      have hmax := b.valid.1.2
      exact Date.exists_addYears? (by omega)

end Occurrences

/-! The first occurrence. -/

/-- The occurrence with this number comes later than the given day, and none comes so with a
smaller number; the start is none. -/
structure IsFirstAfter (rule : Rule) (start now : Date) (k : Nat) (day : Date) : Prop where
  positive : 1 ≤ k
  occurs : rule.IsOccurrence start k day
  later : day.isAfter now = true
  least : ∀ j earlier, 1 ≤ j → j < k → rule.IsOccurrence start j earlier →
    earlier.isAfter now = false

/-- No occurrence behind the start comes later than the given day. -/
def NoneAfter (rule : Rule) (start now : Date) : Prop :=
  ∀ k day, 1 ≤ k → rule.IsOccurrence start k day → day.isAfter now = false

section First

variable {rule : Rule} {start now day : Date} {k : Nat}

theorem stepsAfter_yearly_bounds (start now : Date) :
    max 1 (now.year - start.year).toNat ≤ Rule.yearly.stepsAfter start now ∧
      Rule.yearly.stepsAfter start now ≤ max 1 (now.year - start.year).toNat + 1 := by
  simp only [stepsAfter]
  split
  · split <;> omega
  · omega

theorem one_le_stepsAfter (rule : Rule) (start now : Date) : 1 ≤ rule.stepsAfter start now := by
  cases rule with
  | daily interval _ => exact Nat.le_max_left _ _
  | yearly => exact Nat.le_trans (Nat.le_max_left _ _) (stepsAfter_yearly_bounds start now).1

theorem isAfter_iff_stepsAfter_le_of_daily {interval : Nat} {positive : 0 < interval} (hk : 1 ≤ k)
    (h : (Rule.daily interval positive).IsOccurrence start k day) :
    day.isAfter now = true ↔ (Rule.daily interval positive).stepsAfter start now ≤ k := by
  have hdiv : (now.ordinal - start.ordinal) / interval < k ↔
      now.ordinal - start.ordinal < (interval * k : Nat) := by
    rw [Int.ediv_lt_iff_lt_mul (Int.natCast_pos.2 positive), Nat.mul_comm, Int.natCast_mul]
  simp only [IsOccurrence] at h
  rw [Date.isAfter_iff_ordinal_lt, stepsAfter, h, Nat.max_le]
  omega

theorem isAfter_iff_stepsAfter_le_of_yearly (hk : 1 ≤ k)
    (h : Rule.yearly.IsOccurrence start k day) :
    day.isAfter now = true ↔ Rule.yearly.stepsAfter start now ≤ k := by
  -- Only in the year of the given day the month and the day have to be compared.
  have hyear := h.1
  obtain ⟨hlow, hhigh⟩ := stepsAfter_yearly_bounds start now
  obtain hlt | rfl | hgt := Nat.lt_trichotomy k (max 1 (now.year - start.year).toNat)
  · have hbefore : now.isAfter day = true := Date.isAfter_of_year_lt (by omega)
    have hfalse : day.isAfter now = false :=
      Date.isAfter_eq_false_iff.2 (Int.le_of_lt (Date.ordinal_lt_of_isAfter hbefore))
    rw [hfalse]
    exact iff_of_false Bool.false_ne_true (by omega)
  · simp only [stepsAfter]
    rw [Date.addYears?_eq_some_iff.2 h]
    by_cases hafter : day.isAfter now = true
    · simp only [hafter, if_true, Nat.le_refl]
    · simp only [hafter, Bool.false_eq_true, if_false, false_iff]
      omega
  · exact iff_of_true (Date.isAfter_of_year_lt (by omega)) (by omega)

/-- The occurrences later than the given day are those behind the computed number of steps. -/
theorem isAfter_iff_stepsAfter_le (hk : 1 ≤ k) (h : rule.IsOccurrence start k day) :
    day.isAfter now = true ↔ rule.stepsAfter start now ≤ k := by
  cases rule with
  | daily interval _ => exact isAfter_iff_stepsAfter_le_of_daily hk h
  | yearly => exact isAfter_iff_stepsAfter_le_of_yearly hk h

theorem nextAfter_eq_ok_iff :
    rule.nextAfter start now = .ok day ↔ ∃ k, rule.IsFirstAfter start now k day := by
  have hone := one_le_stepsAfter rule start now
  rw [nextAfter]
  constructor
  · intro h
    cases ho : rule.occurrence? start (rule.stepsAfter start now) with
    | none => rw [ho] at h; cases h
    | some d =>
        rw [ho] at h
        cases h
        have hoccurs := occurrence?_eq_some_iff.1 ho
        refine ⟨_, hone, hoccurs, (isAfter_iff_stepsAfter_le hone hoccurs).2 (Nat.le_refl _), ?_⟩
        intro j earlier hj hlt hearlier
        rw [← Bool.not_eq_true, isAfter_iff_stepsAfter_le hj hearlier]
        exact Nat.not_le.2 hlt
  · rintro ⟨k, hk, hoccurs, hlater, hleast⟩
    have hle : rule.stepsAfter start now ≤ k := (isAfter_iff_stepsAfter_le hk hoccurs).1 hlater
    obtain ⟨first, hfirst⟩ := hoccurs.exists_of_le hle
    have hafter := (isAfter_iff_stepsAfter_le hone hfirst).2 (Nat.le_refl _)
    obtain heq | hlt := Nat.eq_or_lt_of_le hle
    · rw [heq, occurrence?_eq_some_iff.2 hoccurs]
    · rw [hleast _ first hone hlt hfirst] at hafter
      cases hafter

theorem nextAfter_eq_error_iff :
    rule.nextAfter start now = .error (.outOfRange start.compact) ↔ rule.NoneAfter start now := by
  have hone := one_le_stepsAfter rule start now
  rw [nextAfter]
  cases ho : rule.occurrence? start (rule.stepsAfter start now) with
  | none =>
      refine iff_of_true rfl ?_
      intro k d hk hoccurs
      rw [← Bool.not_eq_true, isAfter_iff_stepsAfter_le hk hoccurs]
      intro hle
      obtain ⟨first, hfirst⟩ := hoccurs.exists_of_le hle
      rw [occurrence?_eq_some_iff.2 hfirst] at ho
      cases ho
  | some d =>
      have hoccurs := occurrence?_eq_some_iff.1 ho
      refine iff_of_false (fun h => by cases h) ?_
      intro hnone
      have hafter : d.isAfter now = true :=
        (isAfter_iff_stepsAfter_le hone hoccurs).2 (Nat.le_refl _)
      rw [hnone _ d hone hoccurs] at hafter
      cases hafter

end First

end Repeat.Rule

end Agenda
