import Agenda.Proofs.Calendar.Compact

/-!
Dates and their counts of days. The count orders the calendar, a date is found by its count, and
every count between those of two dates is a date's. So adding to a count walks the calendar day by
day, and only its ends are without a result.
-/

namespace Agenda

namespace Date

/-! Years. -/

theorem daysBeforeYear_succ (year : Int) :
    daysBeforeYear (year + 1) = daysBeforeYear year + daysBeforeMonth year 12 := by
  have hmonths : daysBeforeMonth year 12 = if isLeapYear year then 366 else 365 := by
    simp only [daysBeforeMonth, daysInMonth]
    split <;> rfl
  rw [hmonths, daysBeforeYear, daysBeforeYear, isLeapYear]
  split <;> rename_i hleap <;>
    simp only [Bool.and_eq_true, Bool.or_eq_true, beq_iff_eq, bne_iff_ne] at hleap <;> omega

theorem daysBeforeYear_mono {a b : Int} (h : a ≤ b) : daysBeforeYear a ≤ daysBeforeYear b := by
  rw [daysBeforeYear, daysBeforeYear]
  omega

theorem yearOfOrdinal_bounds (n : Int) :
    daysBeforeYear (yearOfOrdinal n) ≤ n ∧ n < daysBeforeYear (yearOfOrdinal n + 1) := by
  -- Four centuries have 146097 days, and no year begins two days away from its share of them.
  have hbelow : daysBeforeYear (400 * n / 146097 - 1) ≤ n := by
    rw [daysBeforeYear]
    omega
  have habove : n < daysBeforeYear (400 * n / 146097 + 1 + 1) := by
    rw [daysBeforeYear]
    omega
  simp only [yearOfOrdinal]
  split
  · rename_i h
    rw [Int.sub_add_cancel]
    exact ⟨hbelow, h⟩
  · split
    · rename_i h
      exact ⟨h, habove⟩
    · omega

theorem eq_yearOfOrdinal {year n : Int} (hle : daysBeforeYear year ≤ n)
    (hlt : n < daysBeforeYear (year + 1)) : year = yearOfOrdinal n := by
  obtain ⟨hle', hlt'⟩ := yearOfOrdinal_bounds n
  obtain h | h | h := Int.lt_trichotomy year (yearOfOrdinal n)
  · have := daysBeforeYear_mono (show year + 1 ≤ yearOfOrdinal n from h)
    omega
  · exact h
  · have := daysBeforeYear_mono (show yearOfOrdinal n + 1 ≤ year from h)
    omega

theorem yearOfOrdinal_mono {m n : Int} (h : m ≤ n) : yearOfOrdinal m ≤ yearOfOrdinal n := by
  apply Int.not_lt.1
  intro hlt
  have hm := (yearOfOrdinal_bounds m).1
  have hn := (yearOfOrdinal_bounds n).2
  have := daysBeforeYear_mono (show yearOfOrdinal n + 1 ≤ yearOfOrdinal m from hlt)
  omega

/-! Months. -/

theorem daysBeforeMonth_mono (year : Int) {m n : Nat} (h : m ≤ n) :
    daysBeforeMonth year m ≤ daysBeforeMonth year n := by
  induction h with
  | refl => exact Nat.le_refl _
  | step _ ih => exact Nat.le_trans ih (Nat.le_add_right _ _)

theorem monthNumbers_eq_range' : monthNumbers = List.range' 1 12 := rfl

/-- The months behind month `k` hold exactly the days that come behind it. -/
theorem monthAndDay_eq_some_iff {year : Int} {k n rest month day : Nat} :
    monthAndDay year (List.range' (k + 1) n) rest = some (month, day) ↔
      (k < month ∧ month ≤ k + n) ∧ (1 ≤ day ∧ day ≤ daysInMonth year month) ∧
        daysBeforeMonth year k + rest = daysBeforeMonth year (month - 1) + (day - 1) := by
  induction n generalizing k rest with
  | zero =>
      rw [List.range'_zero, monthAndDay]
      constructor
      · intro h
        cases h
      · omega
  | succ n ih =>
      have hk : daysBeforeMonth year (k + 1) =
        daysBeforeMonth year k + daysInMonth year (k + 1) := rfl
      rw [List.range'_succ, monthAndDay]
      split
      · rename_i hrest
        constructor
        · rintro ⟨⟩
          rw [Nat.add_sub_cancel, Nat.add_sub_cancel]
          omega
        · rintro ⟨⟨hlow, _⟩, ⟨hday, _⟩, hsum⟩
          obtain rfl | hlater := Nat.eq_or_lt_of_le hlow
          · rw [Nat.succ_eq_add_one, Nat.add_sub_cancel] at hsum
            have hday : rest + 1 = day := by omega
            rw [hday]
          · have := daysBeforeMonth_mono year (show k + 1 ≤ month - 1 by omega)
            omega
      · rename_i hrest
        rw [ih]
        constructor
        · rintro ⟨_, hday, hsum⟩
          exact ⟨by omega, hday, by omega⟩
        · rintro ⟨_, hday, hsum⟩
          have hmonth : month ≠ k + 1 := by
            rintro rfl
            rw [Nat.add_sub_cancel] at hsum
            omega
          exact ⟨by omega, hday, by omega⟩

theorem exists_monthAndDay {year : Int} {k n rest : Nat}
    (h : daysBeforeMonth year k + rest < daysBeforeMonth year (k + n)) :
    ∃ month day, monthAndDay year (List.range' (k + 1) n) rest = some (month, day) := by
  induction n generalizing k rest with
  | zero =>
      rw [Nat.add_zero] at h
      omega
  | succ n ih =>
      rw [List.range'_succ, monthAndDay]
      split
      · exact ⟨_, _, rfl⟩
      · have hk : daysBeforeMonth year (k + 1) =
          daysBeforeMonth year k + daysInMonth year (k + 1) := rfl
        have hn : k + 1 + n = k + (n + 1) := by omega
        apply ih
        rw [hn]
        omega

/-! Dates. -/

theorem dayOfYear_lt (d : Date) :
    daysBeforeMonth d.year (d.month - 1) + (d.day - 1) < daysBeforeMonth d.year d.month := by
  obtain ⟨_, ⟨hmonth, _⟩, _, hday⟩ := d.valid
  cases hm : d.month with
  | zero => omega
  | succ month =>
      rw [hm] at hday
      rw [Nat.add_sub_cancel, daysBeforeMonth]
      omega

theorem ordinal_bounds (d : Date) :
    daysBeforeYear d.year ≤ d.ordinal ∧ d.ordinal < daysBeforeYear (d.year + 1) := by
  have hday := dayOfYear_lt d
  have hmonth := daysBeforeMonth_mono d.year d.valid.2.1.2
  rw [ordinal, daysBeforeYear_succ]
  omega

theorem year_eq_yearOfOrdinal (d : Date) : d.year = yearOfOrdinal d.ordinal :=
  eq_yearOfOrdinal (ordinal_bounds d).1 (ordinal_bounds d).2

theorem isAfter_iff {a b : Date} : a.isAfter b = true ↔
    b.year < a.year ∨ a.year = b.year ∧
      (b.month < a.month ∨ a.month = b.month ∧ b.day < a.day) := by
  simp only [isAfter, Bool.or_eq_true, Bool.and_eq_true, decide_eq_true_eq, beq_iff_eq]

theorem isAfter_of_year_lt {a b : Date} (h : b.year < a.year) : a.isAfter b = true :=
  isAfter_iff.2 (.inl h)

theorem isAfter_trichotomy (a b : Date) : a.isAfter b = true ∨ a = b ∨ b.isAfter a = true := by
  by_cases h : a.year = b.year ∧ a.month = b.month ∧ a.day = b.day
  · obtain ⟨hyear, hmonth, hday⟩ := h
    cases a
    cases b
    cases hyear
    cases hmonth
    cases hday
    exact .inr (.inl rfl)
  · rw [or_left_comm, isAfter_iff, isAfter_iff]
    right
    omega

theorem ordinal_lt_of_isAfter {a b : Date} (h : a.isAfter b = true) : b.ordinal < a.ordinal := by
  obtain hyear | ⟨hyear, hmonth | ⟨hmonth, hday⟩⟩ := isAfter_iff.1 h
  · have hb := (ordinal_bounds b).2
    have ha := (ordinal_bounds a).1
    have := daysBeforeYear_mono (show b.year + 1 ≤ a.year from hyear)
    omega
  · have hb := dayOfYear_lt b
    have := daysBeforeMonth_mono a.year (show b.month ≤ a.month - 1 by omega)
    rw [ordinal, ordinal, hyear] at *
    omega
  · have hb := b.valid.2.2.1
    rw [ordinal, ordinal, hyear, hmonth]
    omega

theorem isAfter_iff_ordinal_lt {a b : Date} : a.isAfter b = true ↔ b.ordinal < a.ordinal := by
  refine ⟨ordinal_lt_of_isAfter, fun h => ?_⟩
  obtain hab | rfl | hba := isAfter_trichotomy a b
  · exact hab
  · omega
  · have := ordinal_lt_of_isAfter hba
    omega

theorem isAfter_eq_false_iff {a b : Date} : a.isAfter b = false ↔ a.ordinal ≤ b.ordinal := by
  rw [← Bool.not_eq_true, isAfter_iff_ordinal_lt, Int.not_lt]

/-- Compact texts stand in the order of the calendar. -/
theorem lt_iff_isAfter {text text' : String} {a b : Date} (ha : ofCompact? text = some a)
    (hb : ofCompact? text' = some b) : text < text' ↔ b.isAfter a = true := by
  have ha := ofCompact?_eq_some_iff_spells.1 ha
  have hb := ofCompact?_eq_some_iff_spells.1 hb
  have hlen : text.toList.length = text'.toList.length := by
    rw [String.length_toList, String.length_toList, ha.length, hb.length]
  have hnumber := ha.number
  have hnumber' := hb.number
  have := ha.month_lt
  have := hb.month_lt
  have := ha.day_lt
  have := hb.day_lt
  rw [String.lt_iff, Numeral.lt_iff_value_lt ha.digits hb.digits hlen,
    Numeral.value_eq_ofDigitChars, Numeral.value_eq_ofDigitChars, isAfter_iff]
  omega

theorem ofOrdinal?_eq_some_iff {n : Int} {d : Date} : ofOrdinal? n = some d ↔ d.ordinal = n := by
  constructor
  · intro h
    have hyear := yearOfOrdinal_bounds n
    obtain ⟨⟨month, day⟩, hrest, hparts⟩ := Option.bind_eq_some_iff.1 h
    obtain ⟨hy, hm, hd⟩ := ofParts?_eq_some hparts
    rw [monthNumbers_eq_range', monthAndDay_eq_some_iff] at hrest
    rw [ordinal, hy, hm, hd]
    have hzero : daysBeforeMonth (yearOfOrdinal n) 0 = 0 := rfl
    omega
  · rintro rfl
    have hrest : monthAndDay d.year monthNumbers (d.ordinal - daysBeforeYear d.year).toNat =
        some (d.month, d.day) := by
      rw [monthNumbers_eq_range', monthAndDay_eq_some_iff]
      have hzero : daysBeforeMonth d.year 0 = 0 := rfl
      have hvalid := d.valid.2
      rw [ordinal]
      omega
    simp only [ofOrdinal?, ← year_eq_yearOfOrdinal, hrest, Option.bind_some, ofParts?_self]

theorem exists_ofOrdinal? {a b : Date} {n : Int} (ha : a.ordinal ≤ n) (hb : n ≤ b.ordinal) :
    ∃ d, ofOrdinal? n = some d := by
  have hyear := yearOfOrdinal_bounds n
  have hmin : minYear ≤ yearOfOrdinal n := by
    have := yearOfOrdinal_mono ha
    rw [← year_eq_yearOfOrdinal] at this
    exact Int.le_trans a.valid.1.1 this
  have hmax : yearOfOrdinal n ≤ maxYear := by
    have := yearOfOrdinal_mono hb
    rw [← year_eq_yearOfOrdinal] at this
    exact Int.le_trans this b.valid.1.2
  rw [daysBeforeYear_succ] at hyear
  have hlt : daysBeforeMonth (yearOfOrdinal n) 0 + (n - daysBeforeYear (yearOfOrdinal n)).toNat <
      daysBeforeMonth (yearOfOrdinal n) (0 + 12) := by
    have hzero : daysBeforeMonth (yearOfOrdinal n) 0 = 0 := rfl
    rw [Nat.zero_add]
    omega
  obtain ⟨month, day, hrest⟩ := exists_monthAndDay hlt
  have hvalid : Valid (yearOfOrdinal n) month day := by
    obtain ⟨hmonth, hday, _⟩ := monthAndDay_eq_some_iff.1 hrest
    exact ⟨⟨hmin, hmax⟩, by omega, hday⟩
  refine ⟨⟨yearOfOrdinal n, month, day, hvalid⟩, ?_⟩
  simp only [ofOrdinal?, monthNumbers_eq_range', hrest, Option.bind_some, ofParts?, dif_pos hvalid]

end Date

end Agenda
