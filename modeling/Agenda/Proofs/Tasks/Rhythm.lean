import Mathlib.Data.Stream.Defs
import Agenda.Proofs.Repeat.Range
import Agenda.Proofs.Repeat.Rhythm
import Agenda.Proofs.Tasks.Conclusion
import Agenda.Proofs.Tasks.Dates

/-!
Completing a daily task over and over. Each completion counts from the date that the one before it
wrote, and still it comes to a day that a count from the first date comes to.
-/

namespace Agenda.Tasks

open Repeat.Rule (Counts InRhythm)

section Steps

variable {d : Directory} {id : String} {t : Task} {n calls : Nat} {positive : 0 < n}
  {start previous now : Date}

/-- The call is answered well and moves the task to this day, which is in its rhythm; nothing but
the date of the task is new. -/
structure Step.Keeps (step : Step) (id : String) (t : Task) (n : Nat) (positive : 0 < n)
    (start previous now : Date) (calls : Nat) (day : Date) : Prop where
  answered : (step.request.outcome step.before).1 = .ok .done
  moved : (Tasks.get id step.after).1 = .ok { t with date := day.compact }
  readable : Date.ofCompact? day.compact = some day
  rhythm : InRhythm n positive start previous now calls day

theorem exists_day_of_complete {date : String}
    (hrule : Repeat.Rule.ofText t.rule = .ok (.daily n positive))
    (hget : (Tasks.get id d).1 = .ok { t with date }) (hdate : Date.ofCompact? date = some previous)
    (hprevious : Counts n start calls previous) (hnow : now.year ≤ 9999)
    (hmoves : ∀ day, Step.Moves ⟨d, .complete id now, (Tasks.complete id now d).2⟩ day →
      day.year ≤ 9999) :
    ∃ day, Step.Keeps ⟨d, .complete id now, (Tasks.complete id now d).2⟩ id t n positive start
      previous now (calls + 1) day := by
  have hyear : previous.year ≤ 9999 := (Date.ofCompact?_eq_some_iff.1 hdate).2.2
  obtain ⟨day, hday⟩ :=
    Repeat.Rule.exists_nextAfter (Repeat.Rule.allowed_of_ofText hrule) hyear hnow
  have hnext : Repeat.NextOn now date t.rule day := ⟨previous, _, hdate, hrule, hday⟩
  obtain ⟨hok, hleft⟩ := complete_of_nextOn hget hnext
  have hdone : (Request.outcome (.complete id now) d).1 = .ok .done := acknowledged_of_ok hok
  have hshort : day.HasShortYear := ⟨hnext.year_nonneg, hmoves day ⟨⟨_, hdone⟩, _, hget, hnext⟩⟩
  exact ⟨day, hdone, hleft, Date.ofCompact?_compact hshort,
    Repeat.Rule.inRhythm_of_nextAfter hprevious hday⟩

theorem exists_days_of_steps {date : String} {nows : List Date}
    (hrule : Repeat.Rule.ofText t.rule = .ok (.daily n positive))
    (hget : (Tasks.get id d).1 = .ok { t with date }) (hdate : Date.ofCompact? date = some previous)
    (hprevious : Counts n start calls previous) (hnows : ∀ now ∈ nows, now.year ≤ 9999)
    (hmoves : ∀ step ∈ steps (nows.map (Request.complete id)) d, ∀ day, step.Moves day →
      day.year ≤ 9999) :
    ∃ days : Nat → Date, days 0 = previous ∧ ∀ i now (step : Step), nows[i]? = some now →
      (steps (nows.map (Request.complete id)) d)[i]? = some step →
        step.Keeps id t n positive start (days i) now (calls + i + 1) (days (i + 1)) := by
  induction nows generalizing d date previous calls with
  | nil => exact ⟨fun _ => previous, rfl, fun i now step hnow => by cases hnow⟩
  | cons now nows ih =>
      rw [List.map_cons, steps, List.forall_mem_cons] at hmoves
      rw [List.forall_mem_cons] at hnows
      obtain ⟨day, hfirst⟩ :=
        exists_day_of_complete hrule hget hdate hprevious hnows.1 hmoves.1
      -- The rest of the run begins with the date that the first call wrote.
      obtain ⟨days, hzero, hrest⟩ :=
        ih hfirst.moved hfirst.readable hfirst.rhythm.counts hnows.2 hmoves.2
      refine ⟨Stream'.cons previous days, rfl, ?_⟩
      intro i now' step hnow' hstep
      cases i with
      | zero =>
          cases hnow'
          cases hstep
          subst hzero
          exact hfirst
      | succ i =>
          have hkeeps := hrest i now' step hnow' hstep
          rw [Nat.add_right_comm calls 1 i] at hkeeps
          exact hkeeps

/-- However often a daily task is completed, and on whatever days, as long as no date leaves the
years that can be read: each call moves the task by whole intervals behind its date and behind the
day of the call, and no farther than needed; where its date was not late enough, to the day to which
one call would have moved the task from its first date. -/
theorem daily_keeps_rhythm {nows : List Date} (hget : (Tasks.get id d).1 = .ok t)
    (hrule : Repeat.Rule.ofText t.rule = .ok (.daily n positive))
    (hstart : Date.ofCompact? t.date = some start) (hnows : ∀ now ∈ nows, now.year ≤ 9999)
    (hmoves : ∀ step ∈ steps (nows.map (Request.complete id)) d, ∀ day, step.Moves day →
      day.year ≤ 9999) :
    ∃ days : Nat → Date, days 0 = start ∧ ∀ i now (step : Step), nows[i]? = some now →
      (steps (nows.map (Request.complete id)) d)[i]? = some step →
        step.Keeps id t n positive start (days i) now (i + 1) (days (i + 1)) := by
  have hcounts : Counts n start 0 start := ⟨0, Nat.le_refl 0, by rw [Nat.mul_zero]; omega⟩
  obtain ⟨days, hzero, hkeeps⟩ := exists_days_of_steps hrule hget hstart hcounts hnows hmoves
  refine ⟨days, hzero, fun i now step hnow hstep => ?_⟩
  have hstepKeeps := hkeeps i now step hnow hstep
  rw [Nat.zero_add] at hstepKeeps
  exact hstepKeeps

def weeklyTask (date : String) : Task := { id := "1", date, title := "a", rule := "d 7" }

def weeklyFiles : Directory :=
  { tasks := .file (Store.Rows.encode [weeklyTask "20240120"]),
    sequence := .file (Store.Sequence.encode 1) }

/-- Done early in January and again on the first of March, which skips four weeks. -/
theorem keepsRhythm_of_weekly :
    ∃ days : Nat → Date, days 0 = ⟨2024, 1, 20, by decide⟩ ∧ ∀ i now (step : Step),
      ([⟨2024, 1, 10, by decide⟩, ⟨2024, 3, 1, by decide⟩] : List Date)[i]? = some now →
      (steps ([⟨2024, 1, 10, by decide⟩, ⟨2024, 3, 1, by decide⟩].map (Request.complete "1"))
          weeklyFiles)[i]? = some step →
        step.Keeps "1" (weeklyTask "20240120") 7 (by decide) ⟨2024, 1, 20, by decide⟩ (days i) now
          (i + 1) (days (i + 1)) := by
  have hbefore : Store.Represents weeklyFiles ⟨[weeklyTask "20240120"], 1⟩ :=
    ⟨Store.Rows.decode_encode _, Store.Sequence.decode_encode (by decide), Slot.noConfusion⟩
  have hfound (date : String) :
      (⟨[weeklyTask date], 1⟩ : Store.Table).get "1" = .ok (weeklyTask date) := rfl
  have hnext : Repeat.NextOn ⟨2024, 1, 10, by decide⟩ "20240120" "d 7" ⟨2024, 1, 27, by decide⟩ :=
    ⟨_, .daily 7 (by decide), rfl, rfl, rfl⟩
  have hlater : Repeat.NextOn ⟨2024, 3, 1, by decide⟩ "20240127" "d 7" ⟨2024, 3, 2, by decide⟩ :=
    ⟨_, .daily 7 (by decide), rfl, rfl, rfl⟩
  have hfirst := represents_complete hbefore (hfound _) hnext
  refine daily_keeps_rhythm ?_ rfl rfl (by decide) ?_
  · rw [(agrees_get hbefore "1").1, hfound]
    rfl
  · simp only [List.map_cons, List.map_nil, steps, List.forall_mem_cons]
    refine ⟨?_, ?_, List.forall_mem_nil _⟩
    · rintro day ⟨_, u, hu, hday⟩
      cases get_of_represents hbefore (hfound _) hu
      rw [hday.unique hnext]
      decide
    · rintro day ⟨_, u, hu, hday⟩
      cases get_of_represents hfirst (hfound "20240127") hu
      rw [hday.unique hlater]
      decide

end Steps

end Agenda.Tasks
