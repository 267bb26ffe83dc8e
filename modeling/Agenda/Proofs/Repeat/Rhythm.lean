import Agenda.Proofs.Repeat.Order

/-!
Counting on from an occurrence of a daily rule. It is an occurrence of the same start, and where the
occurrence counted from is not late enough itself, it is the one that comes next from the start.
-/

namespace Agenda.Repeat.Rule

variable {n calls : Nat} {positive : 0 < n} {start previous now day : Date}

/-- The day lies whole intervals behind the start, at least so many. -/
def Counts (n : Nat) (start : Date) (calls : Nat) (day : Date) : Prop :=
  ∃ k, calls ≤ k ∧ day.ordinal = start.ordinal + (n * k : Nat)

/-- How the day to which a call moves a task goes with the task's start, with the day before it and
with the day of the call. -/
structure InRhythm (n : Nat) (positive : 0 < n) (start previous now : Date) (calls : Nat)
    (day : Date) : Prop where
  counts : Counts n start calls day
  isAfter_previous : day.isAfter previous = true
  isAfter_now : day.isAfter now = true
  close : day.ordinal - n = previous.ordinal ∨ day.ordinal - n ≤ now.ordinal
  skips : previous.isAfter now = false → (daily n positive).nextAfter start now = .ok day

theorem nextAfter_of_occurrence {j : Nat}
    (hprevious : (daily n positive).IsOccurrence start j previous)
    (hnow : previous.isAfter now = false)
    (h : (daily n positive).nextAfter previous now = .ok day) :
    (daily n positive).nextAfter start now = .ok day := by
  obtain ⟨k, hone, hoccurs, hlater, hleast⟩ := nextAfter_eq_ok_iff.1 h
  rw [Date.isAfter_eq_false_iff] at hnow
  simp only [IsOccurrence] at hprevious hoccurs
  refine nextAfter_eq_ok_iff.2 ⟨j + k, by omega, ?_, hlater, ?_⟩
  · rw [IsOccurrence, Nat.mul_add]
    omega
  · intro i earlier hi hlt hearlier
    obtain hgt | hle := Nat.lt_or_ge j i
    · obtain ⟨l, rfl⟩ := Nat.exists_eq_add_of_lt hgt
      apply hleast (l + 1) earlier (by omega) (by omega)
      rw [IsOccurrence] at hearlier ⊢
      rw [Nat.add_assoc, Nat.mul_add] at hearlier
      omega
    · -- Up to the occurrence counted from, none is late enough.
      have hmul : n * i ≤ n * j := Nat.mul_le_mul_left n hle
      rw [IsOccurrence] at hearlier
      rw [Date.isAfter_eq_false_iff]
      omega

/-- The day one interval before the next one is the day counted from, or it is not late enough. -/
theorem close_of_nextAfter (h : (daily n positive).nextAfter previous now = .ok day) :
    day.ordinal - n = previous.ordinal ∨ day.ordinal - n ≤ now.ordinal := by
  obtain ⟨k, hone, hoccurs, _, hleast⟩ := nextAfter_eq_ok_iff.1 h
  obtain rfl | hlt := Nat.eq_or_lt_of_le hone
  · rw [IsOccurrence, Nat.mul_one] at hoccurs
    exact .inl (by omega)
  · obtain ⟨before, hbefore⟩ := hoccurs.exists_of_le (Nat.sub_le k 1)
    have hnot := hleast (k - 1) before (by omega) (by omega) hbefore
    rw [Date.isAfter_eq_false_iff] at hnot
    have hmul : n * k = n * (k - 1) + n := by
      rw [← Nat.mul_add_one, Nat.sub_add_cancel hone]
    rw [IsOccurrence] at hoccurs hbefore
    exact .inr (by omega)

theorem inRhythm_of_nextAfter (hprevious : Counts n start calls previous)
    (h : (daily n positive).nextAfter previous now = .ok day) :
    InRhythm n positive start previous now (calls + 1) day := by
  obtain ⟨j, hcalls, hj⟩ := hprevious
  obtain ⟨k, hone, hoccurs, hlater, _⟩ := nextAfter_eq_ok_iff.1 h
  refine ⟨⟨j + k, by omega, ?_⟩, ?_, hlater, close_of_nextAfter h, fun hnow => ?_⟩
  · rw [IsOccurrence] at hoccurs
    rw [Nat.mul_add]
    omega
  · exact (isOccurrence_zero _ previous).isAfter_of_lt hoccurs hone
  · exact nextAfter_of_occurrence hj hnow h

end Agenda.Repeat.Rule
