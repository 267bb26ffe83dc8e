import Agenda.Proofs.Repeat.Search

/-!
Occurrences in their order. The start is the one with number zero, and a larger number means a later
day, also where 29 February is moved to the 28th. So steps that lead out of the calendar are not
made good by more steps, and a written next date, if it can be read, is behind the written date from
which it was counted.
-/

namespace Agenda.Repeat

namespace Rule

variable {rule : Rule} {start a b : Date} {j k : Nat}

theorem isOccurrence_zero (rule : Rule) (start : Date) : rule.IsOccurrence start 0 start := by
  cases rule with
  | daily interval _ =>
      rw [IsOccurrence, Nat.mul_zero]
      omega
  | yearly =>
      rw [IsOccurrence]
      exact ⟨by omega, start.isAnniversary_self⟩

theorem IsOccurrence.isAfter_of_lt (ha : rule.IsOccurrence start j a)
    (hb : rule.IsOccurrence start k b) (h : j < k) : b.isAfter a = true := by
  cases rule with
  | daily interval positive =>
      have hlt : interval * j < interval * k := Nat.mul_lt_mul_of_pos_left h positive
      simp only [IsOccurrence] at ha hb
      rw [Date.isAfter_iff_ordinal_lt]
      omega
  | yearly =>
      have hyear := ha.1
      have hyear' := hb.1
      exact Date.isAfter_of_year_lt (by omega)

/-- The counters hold the numbers of all occurrences. -/
theorem advance_eq_ok_iff {day : Date} :
    rule.advance start k = .ok day ↔ rule.IsOccurrence start k day := by
  refine ⟨advance_eq_ok, fun h => ?_⟩
  obtain heq | ⟨_, hfull⟩ := advance_cases rule start k
  · rw [heq, occurrence?_eq_some_iff.2 h]
    rfl
  · have := h.months_le
    omega

theorem occurrence?_eq_none_of_lt (h : rule.occurrence? start j = none) (hlt : j < k) :
    rule.occurrence? start k = none := by
  rw [Option.eq_none_iff_forall_ne_some] at h ⊢
  intro day hday
  obtain ⟨earlier, hearlier⟩ := (occurrence?_eq_some_iff.1 hday).exists_of_le (Nat.le_of_lt hlt)
  exact h earlier (occurrence?_eq_some_iff.2 hearlier)

/-- Steps lead to the occurrences. Fewer steps lead to an earlier day behind the start, and where
they leave the calendar, more steps do so too. -/
theorem advance_in_order (rule : Rule) (start : Date) (hj : 1 ≤ j) (hlt : j < k) :
    (∀ steps day, rule.advance start steps = .ok day ↔ rule.occurrence? start steps = some day) ∧
      (∀ later, rule.advance start k = .ok later →
        ∃ earlier, rule.advance start j = .ok earlier ∧ later.isAfter earlier = true ∧
          earlier.isAfter start = true ∧ later.isAfter start = true) ∧
      (rule.occurrence? start j = none → rule.occurrence? start k = none) := by
  refine ⟨fun steps day => ?_, fun later hlater => ?_, fun hnone => ?_⟩
  · rw [advance_eq_ok_iff, occurrence?_eq_some_iff]
  · have hlater := advance_eq_ok hlater
    have hstart := rule.isOccurrence_zero start
    obtain ⟨earlier, hearlier⟩ := hlater.exists_of_le (Nat.le_of_lt hlt)
    exact ⟨earlier, advance_eq_ok_iff.2 hearlier, hearlier.isAfter_of_lt hlater hlt,
      hstart.isAfter_of_lt hearlier hj, hstart.isAfter_of_lt hlater (Nat.lt_trans hj hlt)⟩
  · exact occurrence?_eq_none_of_lt hnone hlt

/-- From 29 February the third step leads to a day that was moved, the fourth to one that was
not. -/
theorem advance_in_order_of_leap_day :
    1 ≤ 3 ∧ 3 < 4 ∧
      yearly.advance ⟨2024, 2, 29, by decide⟩ 4 = .ok ⟨2028, 2, 29, by decide⟩ ∧
      ∃ earlier : Date, yearly.advance ⟨2024, 2, 29, by decide⟩ 3 = .ok earlier ∧
        (⟨2028, 2, 29, by decide⟩ : Date).isAfter earlier = true ∧
        earlier.isAfter ⟨2024, 2, 29, by decide⟩ = true ∧
        (⟨2028, 2, 29, by decide⟩ : Date).isAfter ⟨2024, 2, 29, by decide⟩ = true :=
  ⟨by decide, by decide, rfl,
    (advance_in_order yearly ⟨2024, 2, 29, by decide⟩ (show 1 ≤ 3 by decide)
      (show 3 < 4 by decide)).2.1 _ rfl⟩

end Rule

theorem NextOn.isAfter_start {now start day : Date} {date rule : String}
    (h : NextOn now date rule day) (hstart : Date.ofCompact? date = some start) :
    day.isAfter start = true := by
  obtain ⟨start', r, hstart', _, hday⟩ := h
  cases hstart.symm.trans hstart'
  obtain ⟨k, hfirst⟩ := Rule.nextAfter_eq_ok_iff.1 hday
  exact (Rule.isOccurrence_zero r start).isAfter_of_lt hfirst.occurs hfirst.positive

theorem NextOn.isAfter_now {now day : Date} {date rule : String} (h : NextOn now date rule day) :
    day.isAfter now = true := by
  obtain ⟨_, _, _, _, hday⟩ := h
  obtain ⟨_, hfirst⟩ := Rule.nextAfter_eq_ok_iff.1 hday
  exact hfirst.later

theorem exists_start_of_nextDate {now : Date} {date rule next : String}
    (h : nextDate now date rule = .ok next) : ∃ start, Date.ofCompact? date = some start := by
  obtain ⟨_, ⟨start, _, hstart, _⟩, _⟩ := nextDate_eq_ok_iff.1 h
  exact ⟨start, hstart⟩

/-- A next date writes a day that lies behind today and behind the day from which it counts. -/
theorem exists_later_of_nextDate {now : Date} {date rule next : String}
    (h : nextDate now date rule = .ok next) :
    ∃ start day, Date.ofCompact? date = some start ∧ next = day.compact ∧
      (day.year ≤ 9999 → Date.ofCompact? next = some day) ∧
      day.isAfter now = true ∧ day.isAfter start = true := by
  obtain ⟨start, hstart⟩ := exists_start_of_nextDate h
  obtain ⟨day, hnext, rfl⟩ := nextDate_eq_ok_iff.1 h
  exact ⟨start, day, hstart, rfl, fun hyear => Date.ofCompact?_compact ⟨hnext.year_nonneg, hyear⟩,
    hnext.isAfter_now, hnext.isAfter_start hstart⟩

theorem ordinal_lt_of_nextDate {now start day : Date} {date rule next : String}
    (h : nextDate now date rule = .ok next) (hstart : Date.ofCompact? date = some start)
    (hday : Date.ofCompact? next = some day) : start.ordinal < day.ordinal := by
  obtain ⟨day', hnext, rfl⟩ := nextDate_eq_ok_iff.1 h
  have hshort : day'.HasShortYear :=
    Date.isSome_ofCompact?_compact.1 (Option.isSome_of_eq_some hday)
  cases hday.symm.trans (Date.ofCompact?_compact hshort)
  exact Date.ordinal_lt_of_isAfter (hnext.isAfter_start hstart)

end Agenda.Repeat
