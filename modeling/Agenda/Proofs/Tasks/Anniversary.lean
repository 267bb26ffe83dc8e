import Agenda.Proofs.Repeat.Anniversary
import Agenda.Proofs.Tasks.Completion

/-!
Completing a yearly task over and over. Each completion counts from the written date alone, so a
task of 29 February that once fell on the 28th stays there; every other task keeps its day.
-/

namespace Agenda

namespace Tasks

open Store

variable {d : Directory} {place : Nat} {id : String}

/-- The tasks can be read, and the one at this place, if it is there, comes back every year. -/
structure Yearly (d : Directory) (place : Nat) (id : String) : Prop where
  loads : ∃ tasks, loadTasks d = .ok tasks
  rule : ∀ t, Kept d place id t → Repeat.Rule.ofText t.rule = .ok .yearly

theorem Yearly.complete (h : Yearly d place id) (now : Date) :
    Yearly (Tasks.complete id now d).2 place id := by
  obtain ⟨tasks, htasks⟩ := h.loads
  constructor
  · obtain hleft | ⟨_, _, ⟨_, _, hleft⟩ | ⟨_, hleft⟩⟩ := loadTasks_complete htasks id now
    all_goals exact ⟨_, hleft⟩
  · intro u hu
    obtain ⟨t, ht, rfl | ⟨day, _, rfl⟩⟩ := kept_complete htasks hu
    · exact h.rule u ht
    · exact h.rule t ht

theorem Yearly.fallsOn_complete {now b : Date} (h : Yearly d place id)
    (hb : FallsOn (Tasks.complete id now d).2 place id b) :
    ∃ a, FallsOn d place id a ∧ (b = a ∨ ∃ years, a.addYears? years = some b) := by
  obtain ⟨tasks, htasks⟩ := h.loads
  obtain ⟨u, hu, hb⟩ := hb
  obtain ⟨t, ht, rfl | ⟨day, ⟨start, rule, hstart, hrule, hday⟩, rfl⟩⟩ := kept_complete htasks hu
  · exact ⟨b, ⟨u, ht, hb⟩, .inl rfl⟩
  · cases (h.rule t ht).symm.trans hrule
    have hshort : day.HasShortYear :=
      Date.isSome_ofCompact?_compact.1 (Option.isSome_of_eq_some hb)
    cases hb.symm.trans (Date.ofCompact?_compact hshort)
    obtain ⟨years, hyears⟩ := Repeat.Rule.exists_occurrence_of_nextAfter hday
    exact ⟨start, ⟨t, ht, hstart⟩, .inr ⟨years, hyears⟩⟩

/-- The task falls on anniversaries of the start, unless it is not there. -/
def Anchored (start : Date) (d : Directory) (place : Nat) (id : String) : Prop :=
  ∀ day, FallsOn d place id day → start.IsAnniversary day

/-- The task comes to a leap year only from a leap year. -/
def Step.LeapsFromLeap (step : Step) (place : Nat) (id : String) : Prop :=
  ∀ a b, FallsOn step.before place id a → FallsOn step.after place id b →
    isLeapYear b.year → isLeapYear a.year

theorem anchored_complete_iff {start : Date} (h : Yearly d place id)
    (hstart : Anchored start d place id) (now : Date) :
    Anchored start (Tasks.complete id now d).2 place id ↔
      (start.IsLeapDay →
        Step.LeapsFromLeap ⟨d, .complete id now, (Tasks.complete id now d).2⟩ place id) := by
  constructor
  · intro hafter hleapDay a b ha hb hleap
    obtain ⟨a', ha', rfl | ⟨years, hyears⟩⟩ := h.fallsOn_complete hb
    · rwa [ha.unique ha']
    · cases ha.unique ha'
      exact (Date.isAnniversary_addYears_iff (hstart a ha) hyears).1 (hafter b hb) hleapDay hleap
  · intro hleaps b hb
    obtain ⟨a, ha, rfl | ⟨years, hyears⟩⟩ := h.fallsOn_complete hb
    · exact hstart b ha
    · refine (Date.isAnniversary_addYears_iff (hstart a ha) hyears).2 ?_
      intro hleapDay
      exact hleaps hleapDay a b ha hb

theorem anchored_steps_iff {start : Date} {nows : List Date} (h : Yearly d place id)
    (hstart : Anchored start d place id) :
    (∀ step ∈ steps (nows.map (Request.complete id)) d, Anchored start step.after place id) ↔
      (start.IsLeapDay → ∀ step ∈ steps (nows.map (Request.complete id)) d,
        step.LeapsFromLeap place id) := by
  induction nows generalizing d with
  | nil => exact iff_of_true (List.forall_mem_nil _) fun _ => List.forall_mem_nil _
  | cons now nows ih =>
      rw [List.map_cons, steps, List.forall_mem_cons, List.forall_mem_cons, imp_and]
      -- Either side of the first step gives that the task is anchored where the next one starts.
      have hfirst := anchored_complete_iff h hstart now
      constructor
      · rintro ⟨hafter, hrest⟩
        exact ⟨hfirst.1 hafter, (ih (h.complete now) hafter).1 hrest⟩
      · rintro ⟨hleaps, hrest⟩
        exact ⟨hfirst.2 hleaps, (ih (h.complete now) (hfirst.2 hleaps)).2 hrest⟩

/-- However often a yearly task is completed, it stays at its place with all but its date, as long
as it is the first with its identifier. It falls on anniversaries of its start exactly as long as,
once it started on 29 February, it comes to no leap year from a common one. -/
theorem anchored_complete_steps_iff {pre post : List Task} {t : Task} {start : Date}
    (htasks : loadTasks d = .ok (pre ++ t :: post))
    (hrule : Repeat.Rule.ofText t.rule = .ok .yearly)
    (hstart : Date.ofCompact? t.date = some start) (nows : List Date) :
    ((∀ u ∈ pre, u.id ≠ t.id) → ∀ step ∈ steps (nows.map (Request.complete t.id)) d,
        ∃ date, loadTasks step.after = .ok (pre ++ { t with date } :: post)) ∧
      ((∀ step ∈ steps (nows.map (Request.complete t.id)) d,
          Anchored start step.after pre.length t.id) ↔
        (start.IsLeapDay → ∀ step ∈ steps (nows.map (Request.complete t.id)) d,
          step.LeapsFromLeap pre.length t.id)) := by
  have hkept : Kept d pre.length t.id t := by
    refine ⟨_, htasks, ?_, rfl⟩
    rw [List.getElem?_append_right (Nat.le_refl _), Nat.sub_self, List.getElem?_cons_zero]
  have hyearly : Yearly d pre.length t.id := by
    refine ⟨⟨_, htasks⟩, ?_⟩
    intro u hu
    cases hkept.unique hu
    exact hrule
  have hanchored : Anchored start d pre.length t.id := by
    rintro day ⟨u, hu, hday⟩
    cases hkept.unique hu
    cases hstart.symm.trans hday
    exact start.isAnniversary_self
  have hrepeats : t.repeats = true := by
    rw [Task.repeats, decide_eq_true_iff]
    intro hempty
    rw [hempty] at hrule
    cases hrule
  exact ⟨fun hfirst => exists_date_of_steps htasks hfirst hrepeats,
    anchored_steps_iff hyearly hanchored⟩

def yearlyTask (date : String) : Task := { id := "1", date, title := "a", rule := "y" }

def leapDayFiles : Directory :=
  { tasks := .file (Rows.encode [yearlyTask "20240229"]), sequence := .file (Sequence.encode 1) }

/-- Done in 2025, the task moves to the 28th, and done in 2027, it stays there in 2028. -/
theorem not_anchored_of_leap_day :
    ¬ ∀ step ∈ steps ([⟨2025, 1, 1, by decide⟩, ⟨2027, 12, 31, by decide⟩].map
        (Request.complete "1")) leapDayFiles,
      Anchored ⟨2024, 2, 29, by decide⟩ step.after 0 "1" := by
  intro hanchored
  have hbefore : Represents leapDayFiles ⟨[yearlyTask "20240229"], 1⟩ :=
    ⟨Rows.decode_encode _, Sequence.decode_encode (by decide), Slot.noConfusion⟩
  have hnext : Repeat.NextOn ⟨2025, 1, 1, by decide⟩ "20240229" "y" ⟨2025, 2, 28, by decide⟩ :=
    ⟨_, .yearly, rfl, rfl, rfl⟩
  have hlater : Repeat.NextOn ⟨2027, 12, 31, by decide⟩ "20250228" "y" ⟨2028, 2, 28, by decide⟩ :=
    ⟨_, .yearly, rfl, rfl, rfl⟩
  have hfound (date : String) :
      (⟨[yearlyTask date], 1⟩ : Table).get "1" = .ok (yearlyTask date) := rfl
  have hfirst := represents_complete hbefore (hfound _) hnext
  have hsecond := represents_complete hfirst (hfound "20250228") hlater
  have htasks : loadTasks leapDayFiles = .ok ([] ++ yearlyTask "20240229" :: []) := hbefore.tasks
  have hleaps := (anchored_complete_steps_iff htasks rfl rfl _).2.1 hanchored ⟨rfl, rfl⟩ _
    (List.mem_cons_of_mem _ List.mem_cons_self)
  have hleap : isLeapYear 2025 :=
    hleaps ⟨2025, 2, 28, by decide⟩ ⟨2028, 2, 28, by decide⟩
      ⟨_, ⟨_, hfirst.tasks, rfl, rfl⟩, rfl⟩ ⟨_, ⟨_, hsecond.tasks, rfl, rfl⟩, rfl⟩ rfl
  exact absurd hleap (by decide)

end Tasks

end Agenda
