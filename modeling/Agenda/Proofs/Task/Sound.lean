import Agenda.Proofs.Repeat.Occurrence
import Agenda.Task.Acceptance

/-!
What acceptance asks for and what it changes. An accepted task has a title, and its rule is readable
if there is one, whichever way its date was decided; nothing but the date is new.
-/

namespace Agenda.Task

/-- The task has a title, and its rule can be read if it has one. -/
structure Sound (t : Task) : Prop where
  titled : Blank.trim t.title.toList ≠ []
  rule : t.rule = "" ∨ ∃ r, Repeat.Rule.ofText t.rule = .ok r

variable {now : Date} {t u : Task}

theorem Sound.congr (h : t.Sound) (htitle : u.title = t.title) (hrule : u.rule = t.rule) :
    u.Sound := by
  constructor
  · rw [htitle]
    exact h.titled
  · rw [hrule]
    exact h.rule

theorem repeats_eq_false_iff : t.repeats = false ↔ t.rule = "" :=
  decide_eq_false_iff_not.trans Decidable.not_not

theorem repeats_eq_true_iff : t.repeats = true ↔ t.rule ≠ "" :=
  decide_eq_true_iff

theorem rule_of_nextDate {start next : String} (h : Repeat.nextDate now start t.rule = .ok next) :
    ∃ r, Repeat.Rule.ofText t.rule = .ok r := by
  obtain ⟨_, ⟨_, r, _, hr, _⟩, _⟩ := Repeat.nextDate_eq_ok_iff.1 h
  exact ⟨r, hr⟩

/-- A later start is kept, and any other gives way to today or to the next day of the rule. -/
theorem acceptedDate_eq_ok_iff {start date : String} {day : Date} :
    t.acceptedDate now start day = .ok date ↔
      day.isAfter now = true ∧ (t.rule = "" ∨ ∃ r, Repeat.Rule.ofText t.rule = .ok r) ∧
          date = start ∨
        day.isAfter now = false ∧ t.rule = "" ∧ date = now.compact ∨
        day.isAfter now = false ∧ Repeat.nextDate now start t.rule = .ok date := by
  constructor
  · intro h
    rw [acceptedDate] at h
    cases hafter : day.isAfter now with
    | true =>
        simp only [hafter, if_true] at h
        split at h
        · cases hr : Repeat.Rule.ofText t.rule with
          | error e => rw [hr] at h; cases h
          | ok r => rw [hr] at h; cases h; exact .inl ⟨rfl, .inr ⟨r, rfl⟩, rfl⟩
        · rename_i hrepeats
          cases h
          exact .inl ⟨rfl, .inl (repeats_eq_false_iff.1 (Bool.eq_false_iff.2 hrepeats)), rfl⟩
    | false =>
        simp only [hafter, Bool.false_eq_true, if_false] at h
        split at h
        · exact .inr (.inr ⟨rfl, h⟩)
        · rename_i hrepeats
          cases h
          exact .inr (.inl ⟨rfl, repeats_eq_false_iff.1 (Bool.eq_false_iff.2 hrepeats), rfl⟩)
  · rintro (⟨hafter, hrule, rfl⟩ | ⟨hafter, hrule, rfl⟩ | ⟨hafter, hnext⟩)
    · simp only [acceptedDate, hafter, if_true]
      split
      · rename_i hrepeats
        obtain ⟨r, hr⟩ := hrule.resolve_left (repeats_eq_true_iff.1 hrepeats)
        rw [hr]
        rfl
      · rfl
    · simp only [acceptedDate, hafter, repeats_eq_false_iff.2 hrule, Bool.false_eq_true, if_false]
    · have hrepeats : t.repeats = true := by
        rw [repeats_eq_true_iff]
        intro hrule
        obtain ⟨r, hr⟩ := rule_of_nextDate hnext
        rw [hrule] at hr
        cases hr
      simp only [acceptedDate, hafter, hrepeats, Bool.false_eq_true, if_false, if_true, hnext]

theorem rule_of_acceptedDate {start date : String} {day : Date}
    (h : t.acceptedDate now start day = .ok date) :
    t.rule = "" ∨ ∃ r, Repeat.Rule.ofText t.rule = .ok r := by
  obtain ⟨_, hrule, _⟩ | ⟨_, hrule, _⟩ | ⟨_, hnext⟩ := acceptedDate_eq_ok_iff.1 h
  · exact hrule
  · exact .inl hrule
  · exact .inr (rule_of_nextDate hnext)

theorem accept_undated (htitle : Blank.trim t.title.toList ≠ [])
    (hstart : Date.ofCompact? (t.startText now) = none) :
    t.accept now = .error (.invalidDate (t.startText now)) := by
  rw [accept, if_neg (mt List.isEmpty_iff.1 htitle)]
  simp only [hstart]

theorem accept_dated {start : Date} (htitle : Blank.trim t.title.toList ≠ [])
    (hstart : Date.ofCompact? (t.startText now) = some start) :
    t.accept now = ((t.acceptedDate now (t.startText now) start).map fun date =>
      { t with date }).mapError (.invalidRule t.rule) := by
  rw [accept, if_neg (mt List.isEmpty_iff.1 htitle)]
  simp only [hstart]
  cases t.acceptedDate now (t.startText now) start <;> rfl

theorem accept_eq_ok_iff :
    t.accept now = .ok u ↔ Blank.trim t.title.toList ≠ [] ∧ ∃ start date,
      Date.ofCompact? (t.startText now) = some start ∧
        t.acceptedDate now (t.startText now) start = .ok date ∧ u = { t with date } := by
  constructor
  · intro h
    have htitle : Blank.trim t.title.toList ≠ [] := by
      intro hempty
      rw [accept, if_pos (List.isEmpty_iff.2 hempty)] at h
      cases h
    cases hstart : Date.ofCompact? (t.startText now) with
    | none =>
        rw [accept_undated htitle hstart] at h
        cases h
    | some start =>
        rw [accept_dated htitle hstart] at h
        cases hdate : t.acceptedDate now (t.startText now) start with
        | error cause => rw [hdate] at h; cases h
        | ok date => rw [hdate] at h; cases h; exact ⟨htitle, start, date, rfl, hdate, rfl⟩
  · rintro ⟨htitle, start, date, hstart, hdate, rfl⟩
    rw [accept_dated htitle hstart, hdate]
    rfl

theorem id_of_accept (h : t.accept now = .ok u) : u.id = t.id := by
  obtain ⟨_, _, _, _, _, rfl⟩ := accept_eq_ok_iff.1 h
  rfl

theorem sound_of_accept (h : t.accept now = .ok u) : u.Sound := by
  obtain ⟨htitle, _, _, _, hdate, rfl⟩ := accept_eq_ok_iff.1 h
  exact ⟨htitle, rule_of_acceptedDate hdate⟩

end Agenda.Task
