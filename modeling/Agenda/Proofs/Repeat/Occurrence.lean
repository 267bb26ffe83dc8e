import Agenda.Proofs.Calendar.Compact
import Agenda.Repeat.Occurrence

/-!
Where occurrences lie: no occurrence comes before the year of its start, and a yearly one keeps the
month and, as far as its month allows, the day. The next date of a written rule is the written
form of an occurrence.
-/

namespace Agenda

namespace Date

theorem daysBeforeYear_nonneg {year : Int} (h : 0 ≤ year) : 0 ≤ daysBeforeYear year := by
  rw [daysBeforeYear]
  omega

theorem ordinal_nonneg {d : Date} (h : 0 ≤ d.year) : 0 ≤ d.ordinal := by
  have := daysBeforeYear_nonneg h
  rw [ordinal]
  omega

theorem yearOfOrdinal_nonneg {n : Int} (h : 0 ≤ n) : 0 ≤ yearOfOrdinal n := by
  simp only [yearOfOrdinal]
  split
  · rename_i hlt
    -- The guess is corrected downwards only behind the year 0.
    have hguess : 400 * n / 146097 ≠ 0 := by
      intro hzero
      rw [hzero] at hlt
      have hyear : daysBeforeYear 0 = 0 := rfl
      omega
    omega
  · split <;> omega

theorem year_of_ofOrdinal? {n : Int} {d : Date} (h : ofOrdinal? n = some d) :
    d.year = yearOfOrdinal n := by
  obtain ⟨⟨month, day⟩, _, hparts⟩ := Option.bind_eq_some_iff.1 h
  exact (ofParts?_eq_some hparts).1

theorem addYears?_eq_some {d e : Date} {years : Nat} (h : d.addYears? years = some e) :
    e.year = d.year + years ∧ e.month = d.month ∧
      e.day = min d.day (daysInMonth e.year d.month) := by
  obtain ⟨hyear, hmonth, hday⟩ := ofParts?_eq_some h
  exact ⟨hyear, hmonth, by rw [hday, hyear]⟩

end Date

namespace Repeat

theorem Rule.exists_occurrence_of_nextAfter {rule : Rule} {start now day : Date}
    (h : rule.nextAfter start now = .ok day) :
    ∃ steps, rule.occurrence? start steps = some day := by
  rw [nextAfter] at h
  cases ho : rule.occurrence? start (rule.stepsAfter start now) with
  | none => rw [ho] at h; cases h
  | some d => rw [ho] at h; cases h; exact ⟨_, ho⟩

theorem Rule.year_nonneg_of_nextAfter {rule : Rule} {start now day : Date}
    (hstart : 0 ≤ start.year) (h : rule.nextAfter start now = .ok day) : 0 ≤ day.year := by
  obtain ⟨steps, ho⟩ := exists_occurrence_of_nextAfter h
  cases rule with
  | daily interval _ =>
      have hordinal := Date.ordinal_nonneg hstart
      rw [Date.year_of_ofOrdinal? ho]
      exact Date.yearOfOrdinal_nonneg (by omega)
  | yearly =>
      rw [(Date.addYears?_eq_some ho).1]
      omega

/-- A task with this written date and rule falls on this day next. -/
def NextOn (now : Date) (date rule : String) (day : Date) : Prop :=
  ∃ start r, Date.ofCompact? date = some start ∧ Rule.ofText rule = .ok r ∧
    r.nextAfter start now = .ok day

theorem nextDate_undated {now : Date} {start rule : String} (hrule : rule ≠ "")
    (hstart : Date.ofCompact? start = none) :
    nextDate now start rule = .error (.invalidStart start) := by
  rw [nextDate, if_neg hrule, hstart]

theorem nextDate_dated {now day : Date} {start rule : String} (hrule : rule ≠ "")
    (hstart : Date.ofCompact? start = some day) :
    nextDate now start rule =
      (Rule.ofText rule).bind fun r => (r.nextAfter day now).map Date.compact := by
  rw [nextDate, if_neg hrule, hstart]
  cases Rule.ofText rule with
  | error e => rfl
  | ok r =>
      simp only [bind, Except.bind]
      cases r.nextAfter day now <;> rfl

theorem nextDate_eq_ok_iff {now : Date} {date rule text : String} :
    nextDate now date rule = .ok text ↔ ∃ day, NextOn now date rule day ∧ text = day.compact := by
  constructor
  · intro h
    have hne : rule ≠ "" := by
      intro hempty
      rw [nextDate, if_pos hempty] at h
      cases h
    cases hd : Date.ofCompact? date with
    | none =>
        rw [nextDate_undated hne hd] at h
        cases h
    | some start =>
        rw [nextDate_dated hne hd] at h
        cases hr : Rule.ofText rule with
        | error e => rw [hr] at h; cases h
        | ok r =>
            rw [hr] at h
            cases hn : r.nextAfter start now with
            | error e => simp only [Except.bind, hn] at h; cases h
            | ok day =>
                simp only [Except.bind, hn] at h
                cases h
                exact ⟨day, ⟨start, r, hd, hr, hn⟩, rfl⟩
  · rintro ⟨day, ⟨start, r, hd, hr, hn⟩, rfl⟩
    have hne : rule ≠ "" := by
      rintro rfl
      cases hr
    simp only [nextDate_dated hne hd, hr, Except.bind, hn, Except.map]

theorem not_nextOn_of_rule_eq_empty {now day : Date} {date rule : String} (h : rule = "") :
    ¬ NextOn now date rule day := by
  rintro ⟨_, _, _, hr, _⟩
  rw [h] at hr
  cases hr

theorem NextOn.year_nonneg {now day : Date} {date rule : String} (h : NextOn now date rule day) :
    0 ≤ day.year := by
  obtain ⟨start, r, hd, _, hn⟩ := h
  exact Rule.year_nonneg_of_nextAfter (Date.ofCompact?_eq_some_iff.1 hd).2.1 hn

theorem NextOn.unique {now a b : Date} {date rule : String} (ha : NextOn now date rule a)
    (hb : NextOn now date rule b) : a = b := by
  obtain ⟨start, r, hd, hr, hn⟩ := ha
  obtain ⟨start', r', hd', hr', hn'⟩ := hb
  cases hd.symm.trans hd'
  cases hr.symm.trans hr'
  cases hn.symm.trans hn'
  rfl

end Repeat

end Agenda
