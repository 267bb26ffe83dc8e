import Agenda.Proofs.Repeat.First

/-!
Where next dates exist. The calendar goes on far behind the years that a compact date can write, and
a written rule takes short steps, so from a start and a day of those years there is always a next
date, if not one that can be written so.
-/

namespace Agenda.Repeat

namespace Rule

/-- The steps of a written rule are no longer than allowed. -/
def Allowed : Rule → Prop
  | daily interval _ => interval ≤ maxInterval
  | yearly => True

theorem allowed_of_ofInterval? {word : List Char} {rule : Rule} (h : ofInterval? word = .ok rule) :
    rule.Allowed := by
  rw [ofInterval?] at h
  split at h
  · rename_i hword
    cases h
    exact hword.2.2.2
  · cases h

theorem allowed_of_ofText {text : String} {rule : Rule} (h : ofText text = .ok rule) :
    rule.Allowed := by
  rw [ofText] at h
  split at h
  · cases h
  · split at h
    · cases h
    · split at h
      · exact allowed_of_ofInterval? h
      · cases h
    · cases h
      trivial
    · cases h

theorem ordinal_lt_of_year_le {d : Date} (h : d.year ≤ 9999) : d.ordinal < 3652425 := by
  have hbefore := (Date.ordinal_bounds d).2
  have hmono := Date.daysBeforeYear_mono (show d.year + 1 ≤ 10000 by omega)
  have hlast : Date.daysBeforeYear 10000 = 3652425 := rfl
  omega

/-- No more days are added than lead one interval behind the given day. -/
theorem mul_stepsAfter_le (start now : Date) {interval : Nat} (positive : 0 < interval) :
    ((interval * (daily interval positive).stepsAfter start now : Nat) : Int) ≤
      max 0 (now.ordinal - start.ordinal) + interval := by
  have hne : (interval : Int) ≠ 0 := by omega
  have hdiv := Int.ediv_mul_le (now.ordinal - start.ordinal) hne
  rw [stepsAfter]
  obtain h | h := Nat.le_total ((now.ordinal - start.ordinal) / interval + 1).toNat 1
  · rw [Nat.max_eq_left h]
    omega
  · have hsteps : ((((now.ordinal - start.ordinal) / interval + 1).toNat : Nat) : Int) =
        (now.ordinal - start.ordinal) / interval + 1 := Int.toNat_of_nonneg (by omega)
    rw [Nat.max_eq_right h, Int.natCast_mul, hsteps, Int.mul_comm, Int.add_mul, Int.one_mul]
    omega

theorem exists_nextAfter {rule : Rule} {start now : Date} (hrule : rule.Allowed)
    (hstart : start.year ≤ 9999) (hnow : now.year ≤ 9999) :
    ∃ day, rule.nextAfter start now = .ok day := by
  suffices ∃ day, rule.occurrence? start (rule.stepsAfter start now) = some day by
    obtain ⟨day, hday⟩ := this
    exact ⟨day, by rw [nextAfter, hday]⟩
  cases rule with
  | daily interval positive =>
      have hinterval : interval ≤ 400 := hrule
      have hdays := mul_stepsAfter_le start now positive
      have hstart' := ordinal_lt_of_year_le hstart
      have hnow' := ordinal_lt_of_year_le hnow
      let far : Date := ⟨20000, 1, 1, by decide⟩
      have hfar : far.ordinal = 7304850 := rfl
      exact Date.exists_ofOrdinal? (a := start) (b := far) (by omega) (by omega)
  | yearly =>
      obtain ⟨_, hsteps⟩ := stepsAfter_yearly_bounds start now
      have hmax : Date.maxYear = 262142 := rfl
      exact Date.exists_addYears? (by omega)

end Rule

theorem exists_nextOn {now start : Date} {date rule : String} {r : Rule}
    (hstart : Date.ofCompact? date = some start) (hr : Rule.ofText rule = .ok r)
    (hnow : now.year ≤ 9999) : ∃ day, NextOn now date rule day := by
  have hyear : start.year ≤ 9999 := (Date.ofCompact?_eq_some_iff.1 hstart).2.2
  obtain ⟨day, hday⟩ := Rule.exists_nextAfter (Rule.allowed_of_ofText hr) hyear hnow
  exact ⟨day, start, r, hstart, hr, hday⟩

end Agenda.Repeat
