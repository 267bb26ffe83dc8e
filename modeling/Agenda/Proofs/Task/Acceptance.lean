import Agenda.Proofs.Repeat.Grammar
import Agenda.Proofs.Repeat.Order
import Agenda.Proofs.Task.Sound

/-!
The date of an accepted task, and what decides whether a task is accepted. The date is today or
later, and later if the task comes back, so a task that was accepted once is accepted again as it
is; only where its date lies behind the year 9999 it cannot be read again. Which date a task starts
from does not matter to its rule: from any date that can be read there is a next one.
-/

namespace Agenda

namespace Date

theorem year_le_of_isAfter_eq_false {a b : Date} (h : a.isAfter b = false) : a.year ≤ b.year := by
  apply Int.not_lt.1
  intro hlt
  rw [isAfter_of_year_lt hlt] at h
  cases h

theorem isAfter_self (d : Date) : d.isAfter d = false :=
  isAfter_eq_false_iff.2 (Int.le_refl _)

theorem isAfter_asymm {a b : Date} (h : a.isAfter b = true) : b.isAfter a = false :=
  isAfter_eq_false_iff.2 (Int.le_of_lt (ordinal_lt_of_isAfter h))

end Date

namespace Task

variable {now day : Date} {t u : Task}

/-- Accepting the task moves it to this day, the next one of its rule. -/
def MovesTo (now : Date) (t : Task) (day : Date) : Prop :=
  (∃ start, Date.ofCompact? (t.startText now) = some start ∧ start.isAfter now = false) ∧
    Repeat.NextOn now (t.startText now) t.rule day

/-- An accepted task keeps its date, is moved to today, or is moved to the next day of its rule. -/
theorem accept_eq_ok (h : t.accept now = .ok u) :
    ∃ start, Date.ofCompact? (t.startText now) = some start ∧
      (start.isAfter now = true ∧ u.date = t.startText now ∨
        start.isAfter now = false ∧ t.rule = "" ∧ u.date = now.compact ∨
        ∃ day, t.MovesTo now day ∧ u.date = day.compact) := by
  obtain ⟨_, start, date, hstart, hdate, rfl⟩ := accept_eq_ok_iff.1 h
  refine ⟨start, hstart, ?_⟩
  obtain ⟨hafter, _, rfl⟩ | ⟨hafter, hrule, rfl⟩ | ⟨hafter, hnext⟩ := acceptedDate_eq_ok_iff.1 hdate
  · exact .inl ⟨hafter, rfl⟩
  · exact .inr (.inl ⟨hafter, hrule, rfl⟩)
  · obtain ⟨day, hday, rfl⟩ := Repeat.nextDate_eq_ok_iff.1 hnext
    exact .inr (.inr ⟨day, ⟨⟨start, hstart, hafter⟩, hday⟩, rfl⟩)

theorem MovesTo.unique {a b : Date} (ha : t.MovesTo now a) (hb : t.MovesTo now b) : a = b :=
  ha.2.unique hb.2

theorem not_movesTo_of_isAfter {start : Date}
    (hstart : Date.ofCompact? (t.startText now) = some start) (hafter : start.isAfter now = true) :
    ¬ t.MovesTo now day := by
  rintro ⟨⟨start', hstart', hafter'⟩, _⟩
  cases hstart.symm.trans hstart'
  rw [hafter] at hafter'
  cases hafter'

theorem isSome_ofCompact?_next {date rule : String} (h : Repeat.NextOn now date rule day) :
    (Date.ofCompact? day.compact).isSome ↔ day.year ≤ 9999 := by
  rw [Date.isSome_ofCompact?_compact]
  exact ⟨And.right, fun hyear => ⟨h.year_nonneg, hyear⟩⟩

/-- The date of an accepted task can be read, unless the task was moved behind the year 9999. -/
theorem isSome_ofCompact?_accept (hnow : now.HasShortYear) (h : t.accept now = .ok u) :
    (Date.ofCompact? u.date).isSome ↔ ∀ day, t.MovesTo now day → day.year ≤ 9999 := by
  obtain ⟨start, hstart, ⟨hafter, hdate⟩ | ⟨_, hrule, hdate⟩ | ⟨day, hday, hdate⟩⟩ := accept_eq_ok h
  · rw [hdate, hstart]
    exact iff_of_true rfl fun day hday => absurd hday (not_movesTo_of_isAfter hstart hafter)
  · rw [hdate, Date.isSome_ofCompact?_compact]
    exact iff_of_true hnow fun day hday => absurd hday.2 (Repeat.not_nextOn_of_rule_eq_empty hrule)
  · rw [hdate, isSome_ofCompact?_next hday.2]
    constructor
    · intro hyear day' hday'
      rwa [hday'.unique hday]
    · intro hall
      exact hall day hday

/-! Accepting again. -/

/-- The task's date is this day, which is today or later, and later if the task comes back. -/
structure Settled (now : Date) (t : Task) (day : Date) : Prop where
  written : t.date = day.compact
  notBefore : now.isAfter day = false
  behind : t.repeats = true → day.isAfter now = true

theorem settled_of_accept (h : t.accept now = .ok u) : ∃ day, u.Settled now day ∧ 0 ≤ day.year := by
  have hrule : u.rule = t.rule := by
    obtain ⟨_, _, _, _, _, rfl⟩ := accept_eq_ok_iff.1 h
    rfl
  obtain ⟨start, hstart, hcases⟩ := accept_eq_ok h
  obtain ⟨hwritten, hstartYear, _⟩ := Date.ofCompact?_eq_some_iff.1 hstart
  obtain ⟨hafter, hdate⟩ | ⟨hafter, honce, hdate⟩ | ⟨day, hday, hdate⟩ := hcases
  · exact ⟨start, ⟨hdate.trans hwritten, Date.isAfter_asymm hafter, fun _ => hafter⟩, hstartYear⟩
  · refine ⟨now, ⟨hdate, now.isAfter_self, fun hrepeats => ?_⟩, ?_⟩
    · exact absurd (hrule.trans honce) (repeats_eq_true_iff.1 hrepeats)
    · exact Int.le_trans hstartYear (Date.year_le_of_isAfter_eq_false hafter)
  · have hlater := hday.2.isAfter_now
    exact ⟨day, ⟨hdate, Date.isAfter_asymm hlater, fun _ => hlater⟩, hday.2.year_nonneg⟩

theorem startText_of_readable (h : Date.ofCompact? t.date = some day) : t.startText now = t.date := by
  rw [startText, if_neg]
  intro hempty
  rw [hempty] at h
  cases h

/-- A task that is settled is accepted as it is, if its date can be read. -/
theorem Settled.accept (h : t.Settled now day) (hsound : t.Sound)
    (hread : Date.ofCompact? t.date = some day) : t.accept now = .ok t := by
  have hstart : t.startText now = t.date := startText_of_readable hread
  refine accept_eq_ok_iff.2 ⟨hsound.titled, day, t.date, hstart ▸ hread, ?_, rfl⟩
  rw [hstart, acceptedDate_eq_ok_iff]
  cases hafter : day.isAfter now with
  | true => exact .inl ⟨rfl, hsound.rule, rfl⟩
  | false =>
      have honce : t.rule = "" := by
        apply repeats_eq_false_iff.1
        apply Bool.eq_false_iff.2
        intro hrepeats
        rw [h.behind hrepeats] at hafter
        cases hafter
      have htoday : day = now := by
        obtain hlater | heq | hearlier := Date.isAfter_trichotomy day now
        · exact absurd (hlater.symm.trans hafter) (by decide)
        · exact heq
        · exact absurd (hearlier.symm.trans h.notBefore) (by decide)
      exact .inr (.inl ⟨rfl, honce, h.written.trans (by rw [htoday])⟩)

theorem Settled.accept_iff (h : t.Settled now day) (hsound : t.Sound) (hyear : 0 ≤ day.year) :
    t.accept now = .ok t ↔ day.year ≤ 9999 := by
  constructor
  · intro haccept
    obtain ⟨_, start, _, hstart, _⟩ := accept_eq_ok_iff.1 haccept
    have hne : t.date ≠ "" := h.written ▸ day.compact_ne_empty
    rw [startText, if_neg hne, h.written] at hstart
    exact (Date.isSome_ofCompact?_compact.1 (Option.isSome_of_eq_some hstart)).2
  · intro hle
    exact h.accept hsound (h.written ▸ Date.ofCompact?_compact ⟨hyear, hle⟩)

theorem date_of_accept_of_isAfter {start : Date} (h : t.accept now = .ok u)
    (hstart : Date.ofCompact? t.date = some start) (hafter : start.isAfter now = true) :
    u.date = t.date := by
  have htext : t.startText now = t.date := startText_of_readable hstart
  have hread : Date.ofCompact? (t.startText now) = some start := htext ▸ hstart
  obtain ⟨start', hstart', ⟨_, hdate⟩ | ⟨hafter', _⟩ | ⟨day, hday, _⟩⟩ := accept_eq_ok h
  · exact hdate.trans htext
  · cases hread.symm.trans hstart'
    exact absurd (hafter.symm.trans hafter') (by decide)
  · exact absurd hday (not_movesTo_of_isAfter hread hafter)

/-- Accepting a task changes nothing but its date, which becomes a day that is not before today, and
behind today for a task that comes back; a date behind today stays. The accepted task is accepted
again without a change, as long as its day lies within the year 9999. -/
theorem accepted_again (h : t.accept now = .ok u) :
    ∃ day, u = { t with date := day.compact } ∧ now.isAfter day = false ∧
      (u.repeats = true → day.isAfter now = true) ∧
      (∀ start, Date.ofCompact? t.date = some start → start.isAfter now = true → u.date = t.date) ∧
      (u.accept now = .ok u ↔ day.year ≤ 9999) := by
  obtain ⟨day, hsettled, hyear⟩ := settled_of_accept h
  refine ⟨day, ?_, hsettled.notBefore, hsettled.behind,
    fun _ => date_of_accept_of_isAfter h, hsettled.accept_iff (sound_of_accept h) hyear⟩
  obtain ⟨_, _, date, _, _, rfl⟩ := accept_eq_ok_iff.1 h
  rw [← hsettled.written]

/-- A task of every third day. -/
def stretching (date : String) : Task := { title := "Stretch", date, rule := "d 3" }

theorem accepted_again_of_stretching :
    (stretching "20240101").accept ⟨2024, 1, 10, by decide⟩ = .ok (stretching "20240113") ∧
      ∃ day, stretching "20240113" = { stretching "20240101" with date := day.compact } ∧
        Date.isAfter ⟨2024, 1, 10, by decide⟩ day = false ∧
        ((stretching "20240113").repeats = true → day.isAfter ⟨2024, 1, 10, by decide⟩ = true) ∧
        (∀ start, Date.ofCompact? (stretching "20240101").date = some start →
          start.isAfter ⟨2024, 1, 10, by decide⟩ = true →
            (stretching "20240113").date = (stretching "20240101").date) ∧
        ((stretching "20240113").accept ⟨2024, 1, 10, by decide⟩ = .ok (stretching "20240113") ↔
          day.year ≤ 9999) :=
  ⟨rfl, accepted_again rfl⟩

/-! Rules and starts. -/

theorem exists_acceptedDate {start : String} {day : Date} (hstart : Date.ofCompact? start = some day)
    (hnow : now.year ≤ 9999) (hrule : t.rule = "" ∨ ∃ r, Repeat.Rule.ofText t.rule = .ok r) :
    ∃ date, t.acceptedDate now start day = .ok date := by
  cases hafter : day.isAfter now with
  | true => exact ⟨start, acceptedDate_eq_ok_iff.2 (.inl ⟨hafter, hrule, rfl⟩)⟩
  | false =>
      obtain honce | ⟨r, hr⟩ := hrule
      · exact ⟨now.compact, acceptedDate_eq_ok_iff.2 (.inr (.inl ⟨hafter, honce, rfl⟩))⟩
      · obtain ⟨next, hnext⟩ := Repeat.exists_nextOn hstart hr hnow
        exact ⟨next.compact, acceptedDate_eq_ok_iff.2
          (.inr (.inr ⟨hafter, Repeat.nextDate_eq_ok_iff.2 ⟨next, hnext, rfl⟩⟩))⟩

/-- A rule that cannot be read is told in the same way whether it is only read or counted by. -/
theorem acceptedDate_eq_error {start : String} {day : Date} {cause : Repeat.Error}
    (hstart : Date.ofCompact? start = some day) (hrule : t.rule ≠ "")
    (hcause : Repeat.Rule.ofText t.rule = .error cause) :
    t.acceptedDate now start day = .error cause := by
  simp only [acceptedDate, repeats_eq_true_iff.2 hrule, if_true,
    Repeat.nextDate_dated hrule hstart, hcause]
  split <;> rfl

theorem exists_start {date : String} (hnow : now.HasShortYear)
    (hdate : date = "" ∨ (Date.ofCompact? date).isSome) :
    ∃ start, Date.ofCompact? (startText now { t with date }) = some start := by
  by_cases hempty : date = ""
  · exact ⟨now, by rw [startText, if_pos hempty, Date.ofCompact?_compact hnow]⟩
  · obtain ⟨start, hstart⟩ := Option.isSome_iff_exists.1 (hdate.resolve_left hempty)
    exact ⟨start, by rw [startText, if_neg hempty, hstart]⟩

theorem exists_accept_of_rule {date : String} (hnow : now.HasShortYear)
    (htitle : Blank.trim t.title.toList ≠ []) (hdate : date = "" ∨ (Date.ofCompact? date).isSome)
    (hrule : t.rule = "" ∨ ∃ r, Repeat.Rule.ofText t.rule = .ok r) :
    ∃ u, accept now { t with date } = .ok u := by
  obtain ⟨start, hstart⟩ := exists_start (t := t) hnow hdate
  obtain ⟨accepted, haccepted⟩ :=
    exists_acceptedDate (t := { t with date }) hstart hnow.2 hrule
  exact ⟨_, accept_eq_ok_iff.2 ⟨htitle, start, accepted, hstart, haccepted, rfl⟩⟩

theorem accept_eq_error_of_rule {date : String} {cause : Repeat.Error} (hnow : now.HasShortYear)
    (htitle : Blank.trim t.title.toList ≠ []) (hdate : date = "" ∨ (Date.ofCompact? date).isSome)
    (hrule : t.rule ≠ "") (hcause : Repeat.Rule.ofText t.rule = .error cause) :
    accept now { t with date } = .error (.invalidRule t.rule cause) := by
  obtain ⟨start, hstart⟩ := exists_start (t := t) hnow hdate
  rw [accept_dated (t := { t with date }) htitle hstart,
    acceptedDate_eq_error (t := { t with date }) hstart hrule hcause]
  rfl

/-- Two dates with which a titled task can start, empty or to be read, make no difference to whether
it is accepted: its rule decides alone. Where the task is refused, the fault is the rule's and
gives the cause that reading the rule gives. -/
theorem accepted_whatever_date {a b : String} (hnow : now.HasShortYear)
    (htitle : Blank.trim t.title.toList ≠ []) (ha : a = "" ∨ (Date.ofCompact? a).isSome)
    (hb : b = "" ∨ (Date.ofCompact? b).isSome) :
    ((∃ u, accept now { t with date := a } = .ok u) ↔ ∃ u, accept now { t with date := b } = .ok u) ∧
      ((∃ u, accept now { t with date := a } = .ok u) ↔
        t.rule = "" ∨ ∃ r, Repeat.Rule.ofText t.rule = .ok r) ∧
      ∀ fault, accept now { t with date := a } = .error fault →
        accept now { t with date := b } = .error fault ∧
          ∃ cause, fault = .invalidRule t.rule cause ∧
            Repeat.Rule.ofText t.rule = .error cause ∧ cause.BlamesRule := by
  by_cases hrule : t.rule = "" ∨ ∃ r, Repeat.Rule.ofText t.rule = .ok r
  · obtain ⟨u, hu⟩ := exists_accept_of_rule hnow htitle ha hrule
    refine ⟨iff_of_true ⟨u, hu⟩ (exists_accept_of_rule hnow htitle hb hrule),
      iff_of_true ⟨u, hu⟩ hrule, fun fault hfault => ?_⟩
    cases hu.symm.trans hfault
  · obtain ⟨hne, hnone⟩ := not_or.1 hrule
    cases hcause : Repeat.Rule.ofText t.rule with
    | ok r => exact absurd ⟨r, hcause⟩ hnone
    | error cause =>
        have hfa := accept_eq_error_of_rule hnow htitle ha hne hcause
        have hfb := accept_eq_error_of_rule hnow htitle hb hne hcause
        simp only [hfa, hfb, reduceCtorEq, exists_false, true_and, Except.error.injEq]
        refine ⟨by simp only [hne, or_self], ?_⟩
        rintro _ rfl
        exact ⟨rfl, cause, rfl, rfl, Repeat.blamesRule_of_ofText hne hcause⟩

/-- A rule of weeks, which no date makes readable. -/
def weekly : Task := { title := "Stretch", rule := "w 1" }

theorem weekly_refused_whatever_date :
    accept ⟨2024, 1, 10, by decide⟩ { weekly with date := "" } =
        .error (.invalidRule "w 1" (.unsupported "w")) ∧
      ((∃ u, accept ⟨2024, 1, 10, by decide⟩ { weekly with date := "" } = .ok u) ↔
        ∃ u, accept ⟨2024, 1, 10, by decide⟩ { weekly with date := "20250101" } = .ok u) ∧
      ((∃ u, accept ⟨2024, 1, 10, by decide⟩ { weekly with date := "" } = .ok u) ↔
        weekly.rule = "" ∨ ∃ r, Repeat.Rule.ofText weekly.rule = .ok r) ∧
      ∀ fault, accept ⟨2024, 1, 10, by decide⟩ { weekly with date := "" } = .error fault →
        accept ⟨2024, 1, 10, by decide⟩ { weekly with date := "20250101" } = .error fault ∧
          ∃ cause, fault = .invalidRule weekly.rule cause ∧
            Repeat.Rule.ofText weekly.rule = .error cause ∧ cause.BlamesRule :=
  ⟨rfl, accepted_whatever_date (by decide) (by decide) (.inl rfl) (.inr rfl)⟩

end Task

end Agenda
