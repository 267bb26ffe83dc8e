import Agenda.Proofs.Repeat.Order
import Agenda.Proofs.Task.Sound
import Agenda.Proofs.Tasks.Conclusion
import Agenda.Proofs.Tasks.Process

/-!
Completing a task next to another request. The task may change between the look-up and what follows
from it; then the completion acts on a task that is no longer there. It is told for every request of
the other client whether all orders of the calls come to what one order of the requests comes to.
-/

namespace Agenda.Tasks

open Store (Ready find put)

/-! The other request. -/

/-- The identifier of the task that a request is about, if it is about one. -/
def Request.target? : Request → Option String
  | add _ _ => none
  | update t _ => some t.id
  | complete id _ | delete id => some id

section Requests

variable {d : Directory} {tasks : List Task} {id : String} {now : Date} {t u v : Task}

theorem outcome_complete {c : Option String} (h : Ready d tasks) (hfind : find id tasks = .ok t)
    (hc : conclusion now t = .ok c) :
    Request.outcome (.complete id now) d = (.ok .done, put (concluded id tasks c) d) := by
  rw [Request.outcome, complete_of_conclusion h hfind hc]
  rfl

theorem update_of_accept (hid : u.id ≠ "") (ha : u.accept now = .ok v) (d : Directory) :
    Tasks.update now u d = lift (Store.update v d) := by
  rw [Tasks.update, if_neg hid, ha]

/-- A request about another task leaves this one to be found. -/
theorem exists_ready_of_target_ne {r : Request} (h : Ready d tasks) (hfind : find id tasks = .ok t)
    (hr : r.target? ≠ some id) :
    ∃ left, Ready (r.outcome d).2 left ∧ find id left = .ok t := by
  cases r with
  | add u now =>
      rw [Request.outcome, Tasks.add]
      cases u.accept now with
      | error fault => exact ⟨tasks, h, hfind⟩
      | ok v =>
          obtain ⟨more, hmore⟩ := h.insert { v with id := "" }
          exact ⟨_, hmore, Store.find_append_of_find hfind more⟩
  | update u now =>
      rw [Request.outcome, Tasks.update]
      split
      · exact ⟨tasks, h, hfind⟩
      · cases ha : u.accept now with
        | error fault => exact ⟨tasks, h, hfind⟩
        | ok v =>
            have hne : id ≠ v.id := by
              rw [Task.id_of_accept ha]
              exact fun hid => hr (congrArg some hid.symm)
            cases hu : find v.id tasks with
            | error e =>
                simp only [lift, h.update_missing hu]
                exact ⟨tasks, h, hfind⟩
            | ok w =>
                simp only [lift, h.update_found hu]
                refine ⟨_, h.put _, ?_⟩
                exact (Store.find_modifyFirst_of_ne hne (fun _ _ => rfl) _).trans hfind
  | complete id' now =>
      have hne : id ≠ id' := fun hid => hr (congrArg some hid.symm)
      rw [Request.outcome]
      cases hu : find id' tasks with
      | error e =>
          rw [complete_of_missing h hu]
          exact ⟨tasks, h, hfind⟩
      | ok u =>
          rw [complete_of_found h hu]
          cases hc : conclusion now u with
          | error cause =>
              rw [conclude_of_error hc]
              exact ⟨tasks, h, hfind⟩
          | ok c =>
              rw [conclude_of_found h hu hc]
              exact ⟨_, h.put _, (find_concluded_of_ne hne _ _).trans hfind⟩
  | delete id' =>
      have hne : id ≠ id' := fun hid => hr (congrArg some hid.symm)
      rw [Request.outcome, Tasks.delete, lift]
      cases hu : find id' tasks with
      | error e =>
          rw [h.delete_missing hu]
          exact ⟨tasks, h, hfind⟩
      | ok u =>
          rw [h.delete_found hu]
          exact ⟨_, h.put _, (Store.find_filter_of_ne hne _).trans hfind⟩

end Requests

/-! One request behind the other, or between. -/

/-- The outcome of two requests, the second of which is made when the first is answered. -/
def Request.andThen (r r' : Request) (d : Directory) : Joint :=
  ⟨(r.outcome d).1, (r'.outcome (r.outcome d).2).1, (r'.outcome (r.outcome d).2).2⟩

/-- An outcome of one request behind the other, in either order. -/
def Serial (r r' : Request) (d : Directory) (j : Joint) : Prop :=
  j = r.andThen r' d ∨ j = (r'.andThen r d).swap

/-- A request comes between the look-up of a completion, which found this task, and the rest. -/
def overtaken (id : String) (now : Date) (t : Task) (r : Request) (d : Directory) : Joint :=
  ⟨(acknowledged (conclude id now t (r.outcome d).2)).1, (r.outcome d).1,
    (conclude id now t (r.outcome d).2).2⟩

section Serial

variable {d : Directory} {tasks : List Task} {id id' : String} {now now' : Date} {t u v : Task}
  {r : Request} {j : Joint}

theorem serial_swap {r' : Request} : Serial r r' d j.swap ↔ Serial r' r d j := by
  obtain ⟨a, b, d'⟩ := j
  constructor
  · rintro (h | h)
    · exact .inr (congrArg Joint.swap h)
    · exact .inl (congrArg Joint.swap h)
  · rintro (h | h)
    · exact .inr (congrArg Joint.swap h)
    · exact .inl (congrArg Joint.swap h)

theorem serial_overtaken_of_target_ne (h : Ready d tasks) (hfind : find id tasks = .ok t)
    (hr : r.target? ≠ some id) : Serial (.complete id now) r d (overtaken id now t r d) := by
  obtain ⟨left, hleft, hfound⟩ := exists_ready_of_target_ne h hfind hr
  refine .inr ?_
  rw [Request.andThen, Joint.swap, overtaken, ← complete_of_found hleft hfound now]
  rfl

/-- A completion that cannot be carried out changes nothing. -/
theorem serial_overtaken_of_error {cause : Repeat.Error} (h : Ready d tasks)
    (hfind : find id tasks = .ok t) (hc : conclusion now t = .error cause) :
    Serial (.complete id now) r d (overtaken id now t r d) := by
  refine .inl ?_
  rw [overtaken, conclude_of_error hc, Request.andThen, Request.outcome, complete_of_found h hfind,
    conclude_of_error hc]
  rfl

/-- A request that changes nothing. -/
theorem serial_overtaken_of_same (h : Ready d tasks) (hfind : find id tasks = .ok t)
    (hr : (r.outcome d).2 = d) : Serial (.complete id now) r d (overtaken id now t r d) := by
  refine .inr ?_
  rw [Request.andThen, Joint.swap, overtaken, hr, ← complete_of_found h hfind now]
  rfl

/-- A request that takes the task away leaves nothing to complete. -/
theorem serial_overtaken_of_gone {c : Option String} (h : Ready d tasks)
    (hc : conclusion now t = .ok c)
    (hr : r.outcome d = (.ok .done, put (tasks.filter fun t => t.id ≠ id) d)) :
    Serial (.complete id now) r d (overtaken id now t r d) := by
  refine .inr ?_
  have hmissing := Store.find_filter_self id tasks
  rw [Request.andThen, Joint.swap, overtaken, hr, Request.outcome,
    conclude_of_missing (h.put _) hmissing hc, complete_of_missing (h.put _) hmissing]
  rfl

/-! An update of the same task. -/

/-- The tasks with this one in the place of the first with its identifier. -/
def replaced (v : Task) (tasks : List Task) : List Task := Store.modifyFirst v.id (fun _ => v) tasks

theorem outcome_update_of_found (h : Ready d tasks) (hid : u.id ≠ "") (ha : u.accept now = .ok v)
    (hfind : find v.id tasks = .ok t) :
    Request.outcome (.update u now) d = (.ok .done, put (replaced v tasks) d) := by
  rw [Request.outcome, update_of_accept hid ha, lift, h.update_found hfind]
  rfl

theorem outcome_update_of_missing {e : Store.Error} (h : Ready d tasks) (hid : u.id ≠ "")
    (ha : u.accept now = .ok v) (hfind : find v.id tasks = .error e) :
    Request.outcome (.update u now) d = (.error (.store e), d) := by
  rw [Request.outcome, update_of_accept hid ha, lift, h.update_missing hfind]
  rfl

theorem find_replaced (hfind : find v.id tasks = .ok t) : find v.id (replaced v tasks) = .ok v :=
  Store.find_modifyFirst hfind rfl

theorem replaced_concluded (v : Task) (tasks : List Task) (date : String) :
    replaced v (concluded v.id tasks (some date)) = replaced v tasks := by
  refine Store.modifyFirst_modifyFirst ?_ _ tasks
  exact fun _ _ => rfl

theorem concluded_replaced_eq_iff {date : String} (hfind : find v.id tasks = .ok t) :
    concluded v.id (replaced v tasks) (some date) = replaced v tasks ↔ date = v.date := by
  constructor
  · intro h
    have hfound := congrArg (find v.id) h
    rw [find_concluded (find_replaced hfind), find_replaced hfind] at hfound
    exact congrArg Task.date (Except.ok.inj hfound)
  · rintro rfl
    refine Store.modifyFirst_modifyFirst ?_ _ tasks
    exact fun _ _ => rfl

theorem overtaken_update {c : Option String} (h : Ready d tasks) (hid : u.id ≠ "")
    (ha : u.accept now' = .ok v) (hfind : find v.id tasks = .ok t) (hc : conclusion now t = .ok c) :
    overtaken v.id now t (.update u now') d =
      ⟨.ok .done, .ok .done, put (concluded v.id (replaced v tasks) c) d⟩ := by
  rw [overtaken, outcome_update_of_found h hid ha hfind,
    conclude_of_found (h.put _) (find_replaced hfind) hc, Store.put_put]
  rfl

theorem eq_update_andThen_complete_iff {c : Option String} (h : Ready d tasks) (hid : u.id ≠ "")
    (ha : u.accept now' = .ok v) (hfind : find v.id tasks = .ok t) :
    (⟨.ok .done, .ok .done, put (concluded v.id (replaced v tasks) c) d⟩ : Joint) =
        (Request.andThen (.update u now') (.complete v.id now) d).swap ↔
      conclusion now v = .ok c := by
  have hfound := find_replaced hfind
  rw [Request.andThen, outcome_update_of_found h hid ha hfind, Request.outcome,
    complete_of_found (h.put _) hfound, Joint.swap]
  cases hc : conclusion now v with
  | error cause =>
      rw [conclude_of_error hc]
      exact iff_of_false (fun heq => by cases heq) (fun heq => by cases heq)
  | ok c' =>
      rw [conclude_of_found (h.put _) hfound hc, Store.put_put]
      constructor
      · intro heq
        have hput := Store.eq_of_put_eq (congrArg Joint.left heq)
        rw [concluded_injective hfound hput]
      · rintro ⟨⟩
        rfl

theorem eq_complete_andThen_update_iff {c : Option String} (h : Ready d tasks) (hid : u.id ≠ "")
    (ha : u.accept now' = .ok v) (hfind : find v.id tasks = .ok t) (hc : conclusion now t = .ok c) :
    (⟨.ok .done, .ok .done, put (concluded v.id (replaced v tasks) c) d⟩ : Joint) =
        Request.andThen (.complete v.id now) (.update u now') d ↔ c = some v.date := by
  rw [Request.andThen, outcome_complete h hfind hc]
  cases c with
  | none =>
      rw [outcome_update_of_missing (h.put _) hid ha (find_concluded_none v.id tasks)]
      exact iff_of_false (fun heq => by cases heq) (fun heq => by cases heq)
  | some date =>
      rw [outcome_update_of_found (h.put _) hid ha (find_concluded hfind date), Store.put_put,
        replaced_concluded, Option.some.injEq, ← concluded_replaced_eq_iff hfind]
      constructor
      · exact fun heq => Store.eq_of_put_eq (congrArg Joint.left heq)
      · exact fun heq => by rw [heq]

/-- An update that comes between is harmless only if the new task is concluded like the one that was
found, or has the date already that this one gets. -/
theorem serial_overtaken_update_iff {c : Option String} (h : Ready d tasks) (hid : u.id ≠ "")
    (ha : u.accept now' = .ok v) (hfind : find v.id tasks = .ok t) (hc : conclusion now t = .ok c) :
    Serial (.complete v.id now) (.update u now') d (overtaken v.id now t (.update u now') d) ↔
      conclusion now v = .ok c ∨ c = some v.date := by
  rw [overtaken_update h hid ha hfind hc, Serial, eq_complete_andThen_update_iff h hid ha hfind hc,
    eq_update_andThen_complete_iff h hid ha hfind, or_comm]

/-! Another completion of the same task. -/

theorem conclusion_eq_some_iff {date : String} :
    conclusion now t = .ok (some date) ↔ Repeat.nextDate now t.date t.rule = .ok date := by
  rw [conclusion]
  split
  · cases Repeat.nextDate now t.date t.rule with
    | error e => exact iff_of_false (fun h => by cases h) (fun h => by cases h)
    | ok next =>
        constructor
        · rintro ⟨⟩
          rfl
        · rintro ⟨⟩
          rfl
  · rename_i honce
    have hrule : t.rule = "" := Task.repeats_eq_false_iff.1 (Bool.eq_false_iff.2 honce)
    rw [hrule]
    exact iff_of_false (fun h => by cases h) (fun h => by cases h)

/-- Whether a task goes does not depend on the day. -/
theorem conclusion_eq_none (h : conclusion now t = .ok none) (now' : Date) :
    conclusion now' t = .ok none := by
  rw [conclusion] at h ⊢
  split at h
  · cases hn : Repeat.nextDate now t.date t.rule with
    | error e => rw [hn] at h; cases h
    | ok next => rw [hn] at h; cases h
  · rename_i honce
    rw [if_neg honce]

theorem overtaken_complete {date date' : String} (h : Ready d tasks) (hfind : find id tasks = .ok t)
    (hc : conclusion now t = .ok (some date)) (hc' : conclusion now' t = .ok (some date')) :
    overtaken id now t (.complete id now') d =
      ⟨.ok .done, .ok .done, put (concluded id tasks (some date)) d⟩ := by
  rw [overtaken, outcome_complete h hfind hc',
    conclude_of_found (h.put _) (find_concluded hfind date') hc, Store.put_put, concluded_concluded]
  rfl

theorem eq_complete_andThen_complete_iff {date date' : String} (h : Ready d tasks)
    (hfind : find id tasks = .ok t) (hc : conclusion now t = .ok (some date)) :
    (⟨.ok .done, .ok .done, put (concluded id tasks (some date')) d⟩ : Joint) =
        Request.andThen (.complete id now) (.complete id now') d ↔
      Repeat.nextDate now' date t.rule = .ok date' := by
  have hfound := find_concluded hfind date
  have hiff : conclusion now' { t with date, id } = .ok (some date') ↔
    Repeat.nextDate now' date t.rule = .ok date' := conclusion_eq_some_iff
  rw [← hiff, Request.andThen, outcome_complete h hfind hc, Request.outcome,
    complete_of_found (h.put _) hfound]
  cases hc' : conclusion now' { t with date, id } with
  | error cause =>
      rw [conclude_of_error hc']
      exact iff_of_false (fun heq => by cases heq) (fun heq => by cases heq)
  | ok c =>
      rw [conclude_of_found (h.put _) hfound hc', Store.put_put]
      constructor
      · intro heq
        have hput := Store.eq_of_put_eq (congrArg Joint.left heq)
        rw [← concluded_concluded id tasks date date'] at hput
        rw [concluded_injective hfound hput]
      · rintro ⟨⟩
        rw [concluded_concluded]
        rfl

/-- A date is behind the one from which it was counted. -/
theorem not_nextDate_cycle {date date' rule : String}
    (h : Repeat.nextDate now date rule = .ok date') :
    Repeat.nextDate now' date' rule ≠ .ok date := by
  intro h'
  obtain ⟨start, hstart⟩ := Repeat.exists_start_of_nextDate h
  obtain ⟨start', hstart'⟩ := Repeat.exists_start_of_nextDate h'
  have hlt := Repeat.ordinal_lt_of_nextDate h hstart hstart'
  have hlt' := Repeat.ordinal_lt_of_nextDate h' hstart' hstart
  omega

/-- A completion between the other's look-up and its end is harmless only if counting on from the
new date comes to the same. -/
theorem serial_overtaken_complete_iff {date date' : String} (h : Ready d tasks)
    (hfind : find id tasks = .ok t) (hc : conclusion now t = .ok (some date))
    (hc' : conclusion now' t = .ok (some date')) :
    Serial (.complete id now) (.complete id now') d (overtaken id now t (.complete id now') d) ↔
      Repeat.nextDate now date' t.rule = .ok date := by
  rw [overtaken_complete h hfind hc hc', Serial, eq_complete_andThen_complete_iff h hfind hc,
    ← eq_complete_andThen_complete_iff h hfind hc']
  refine ⟨fun hserial => hserial.elim (fun hself => ?_) (congrArg Joint.swap),
    fun heq => .inr (congrArg Joint.swap heq)⟩
  exact absurd hself (not_nextDate_cycle hself)

end Serial

/-! All orders of the calls. -/

/-- The request gets in the way of a completion that found this task. It puts another task in its
place that is to be concluded in another way, and has not the date already that the found one is to
get; or it completes the task too, and there is a next date for both. -/
def Request.Disturbs (id : String) (now : Date) (t : Task) : Request → Prop
  | add _ _ | delete _ => False
  | update u now' =>
      u.id = id ∧ u.id ≠ "" ∧ ∃ v c, u.accept now' = .ok v ∧ conclusion now t = .ok c ∧
        conclusion now v ≠ .ok c ∧ c ≠ some v.date
  | complete id' now' =>
      id' = id ∧ ∃ date date', conclusion now t = .ok (some date) ∧
        conclusion now' t = .ok (some date')

section Orders

open Process (ifFound concluding)

variable {d : Directory} {tasks : List Task} {id id' : String} {now now' : Date} {t u v : Task}
  {r : Request} {j : Joint}

theorem serial_overtaken_of_not_disturbs (h : Ready d tasks) (hfind : find id tasks = .ok t)
    (hr : ¬ r.Disturbs id now t) : Serial (.complete id now) r d (overtaken id now t r d) := by
  by_cases htarget : r.target? = some id
  · cases hc : conclusion now t with
    | error cause => exact serial_overtaken_of_error h hfind hc
    | ok c =>
        cases r with
        | add u now' => cases htarget
        | update u now' =>
            cases htarget
            by_cases hid : u.id = ""
            · refine serial_overtaken_of_same h hfind ?_
              rw [Request.outcome, Tasks.update, if_pos hid]
              rfl
            · cases ha : u.accept now' with
              | error fault =>
                  refine serial_overtaken_of_same h hfind ?_
                  rw [Request.outcome, Tasks.update, if_neg hid, ha]
                  rfl
              | ok v =>
                  rw [← Task.id_of_accept ha] at hfind ⊢
                  rw [serial_overtaken_update_iff h hid ha hfind hc]
                  by_contra hneither
                  rw [not_or] at hneither
                  exact hr ⟨rfl, hid, v, c, ha, hc, hneither⟩
        | complete id' now' =>
            cases htarget
            cases hc' : conclusion now' t with
            | error cause =>
                refine serial_overtaken_of_same h hfind ?_
                rw [Request.outcome, complete_of_found h hfind, conclude_of_error hc']
                rfl
            | ok c' =>
                cases c' with
                | none => exact serial_overtaken_of_gone h hc (outcome_complete h hfind hc')
                | some date' =>
                    cases c with
                    | none =>
                        rw [conclusion_eq_none hc now'] at hc'
                        cases hc'
                    | some date => exact absurd ⟨rfl, date, date', hc, hc'⟩ hr
        | delete id' =>
            cases htarget
            refine serial_overtaken_of_gone h hc ?_
            rw [Request.outcome, Tasks.delete, lift, h.delete_found hfind]
            rfl
  · exact serial_overtaken_of_target_ne h hfind htarget

/-- What a completion that was overtaken comes to, from where it looked up its task. -/
theorem between_of_found (hget : Store.get id d = (.ok t, Store.taken d)) :
    Process.between id (ifFound (concluding id now)) r.process d =
      overtaken id now t r (Store.taken d) := by
  simp only [Process.between, Process.inTurn, hget, ifFound, alone_process,
    Process.alone_concluding, Joint.swap, overtaken]
  rfl

/-- A request that calls the store does not depend on whether the lock is taken already. -/
theorem outcome_taken (r : Request) (d : Directory) :
    r.outcome (Store.taken d) = r.outcome d ∨
      ∃ e, r.outcome d = (.error e, d) ∧ r.outcome (Store.taken d) = (.error e, Store.taken d) := by
  cases r with
  | add u now =>
      simp only [Request.outcome, Tasks.add]
      cases u.accept now with
      | error fault => exact .inr ⟨.refused fault, rfl, rfl⟩
      | ok v => exact .inl (by simp only [Store.insert, Store.perform_taken])
  | update u now =>
      simp only [Request.outcome, Tasks.update]
      split
      · exact .inr ⟨.refused .missingId, rfl, rfl⟩
      · cases u.accept now with
        | error fault => exact .inr ⟨.refused fault, rfl, rfl⟩
        | ok v => exact .inl (by simp only [Store.update, Store.perform_taken])
  | complete id now => exact .inl (congrArg acknowledged (complete_taken id now d))
  | delete id =>
      refine .inl ?_
      simp only [Request.outcome, Tasks.delete, Store.delete, Store.perform_taken]

theorem serial_taken :
    Serial (.complete id now) r (Store.taken d) j ↔ Serial (.complete id now) r d j := by
  have hfirst : Request.andThen (.complete id now) r (Store.taken d) =
      Request.andThen (.complete id now) r d := by
    rw [Request.andThen, Request.outcome, complete_taken]
    rfl
  have hsecond : Request.andThen r (.complete id now) (Store.taken d) =
      Request.andThen r (.complete id now) d := by
    rw [Request.andThen, Request.andThen]
    obtain heq | ⟨e, he, htaken⟩ := outcome_taken r d
    · rw [heq]
    · rw [he, htaken, Request.outcome, complete_taken]
      rfl
  rw [Serial, Serial, hfirst, hsecond]

theorem serial_between_of_not_disturbs
    (hr : ∀ t, (Store.get id d).1 = .ok t → ¬ r.Disturbs id now t) :
    Serial (.complete id now) r d
      (Process.between id (ifFound (concluding id now)) r.process d) := by
  have hleft := Store.snd_get id d
  cases hget : Store.get id d with
  | mk answer d' =>
      rw [hget] at hleft
      cases hleft
      cases answer with
      | error e =>
          -- Nothing is found, so the completion has ended with its look-up.
          refine .inl ?_
          have hcomplete : Tasks.complete id now d = (.error (.store e), Store.taken d) := by
            rw [Tasks.complete, Tasks.get, lift, hget]
            rfl
          simp only [Process.between, Process.inTurn, hget, ifFound, alone_process, Joint.swap,
            Request.andThen, Request.outcome, hcomplete]
          rfl
      | ok t =>
          obtain ⟨tasks, hready, hfind⟩ := Store.ready_of_get (congrArg Prod.fst hget)
          rw [between_of_found hget, ← serial_taken]
          exact serial_overtaken_of_not_disturbs hready hfind (hr t (congrArg Prod.fst hget))

theorem brief_concluding (id : String) (now : Date) (t : Task) : (concluding id now t).Brief := by
  rw [concluding]
  split
  · cases Repeat.nextDate now t.date t.rule with
    | error cause => exact .done _
    | ok next => exact .last Store.Request.noConfusion
  · exact .last Store.Request.noConfusion

theorem brief_ifFound (id : String) (now : Date) (answer : Except Store.Error Task) :
    (ifFound (concluding id now) answer).Brief := by
  cases answer with
  | error e => exact .done _
  | ok t => exact brief_concluding id now t

theorem inTurn_process {r' : Request} : r.process.InTurn r'.process d j ↔ Serial r r' d j := by
  simp only [Process.InTurn, Process.inTurn, alone_process, Serial, Request.andThen]

/-- The calls of the two requests come in turn, or one request comes between the look-up of the
other, which is then a completion, and the rest of it. -/
theorem overlap_cases (h : Overlap (Request.process (.complete id now)) r.process d j) :
    Serial (.complete id now) r d j ∨
      j = Process.between id (ifFound (concluding id now)) r.process d ∨
      ∃ id' now', r = .complete id' now' ∧ j = (Process.between id'
        (ifFound (concluding id' now')) (Request.process (.complete id now)) d).swap := by
  rw [← inTurn_process]
  have hbrief := brief_ifFound id now
  cases r with
  | complete id' now' =>
      obtain hturn | hfirst | hsecond := inTurn_or_between hbrief (brief_ifFound id' now') h
      · exact .inl hturn
      · exact .inr (.inl hfirst)
      · exact .inr (.inr ⟨id', now', rfl, hsecond⟩)
  | add u now' =>
      refine (inTurn_or_between_of_brief hbrief ?_ h).imp_right .inl
      rw [Request.process]
      cases u.accept now' with
      | error fault => exact .done _
      | ok v => exact .last Store.Request.noConfusion
  | update u now' =>
      refine (inTurn_or_between_of_brief hbrief ?_ h).imp_right .inl
      rw [Request.process, Process.updating]
      split
      · exact .done _
      · cases u.accept now' with
        | error fault => exact .done _
        | ok v => exact .last Store.Request.noConfusion
  | delete id' =>
      exact (inTurn_or_between_of_brief hbrief (.last Store.Request.noConfusion) h).imp_right .inl

/-- A request that gets in the way can come between. -/
theorem exists_overlap_not_serial (hget : (Store.get id d).1 = .ok t) (hr : r.Disturbs id now t) :
    ∃ j, Overlap (Request.process (.complete id now)) r.process d j ∧
      ¬ Serial (.complete id now) r d j := by
  obtain ⟨tasks, hready, hfind⟩ := Store.ready_of_get hget
  have hfound : Store.get id d = (.ok t, Store.taken d) := Prod.ext hget (Store.snd_get id d)
  have hbetween (now : Date) (r : Request) := overlap_between id (ifFound (concluding id now))
    r.process d
  cases r with
  | add _ _ | delete _ => exact hr.elim
  | update u now' =>
      obtain ⟨hid, hne, v, c, ha, hc, hother⟩ := hr
      refine ⟨_, hbetween now (.update u now'), ?_⟩
      have hv : v.id = id := (Task.id_of_accept ha).trans hid
      cases hv
      rw [between_of_found hfound, ← serial_taken,
        serial_overtaken_update_iff hready hne ha hfind hc]
      exact not_or.2 hother
  | complete id' now' =>
      obtain ⟨rfl, date, date', hc, hc'⟩ := hr
      -- Whichever completion ends last has counted from the old date; one of them shows it.
      by_cases hnext : Repeat.nextDate now date' t.rule = .ok date
      · refine ⟨_, (hbetween now' (.complete id' now)).swap, ?_⟩
        rw [between_of_found hfound, serial_swap, ← serial_taken,
          serial_overtaken_complete_iff hready hfind hc' hc]
        exact not_nextDate_cycle hnext
      · refine ⟨_, hbetween now (.complete id' now'), ?_⟩
        rw [between_of_found hfound, ← serial_taken,
          serial_overtaken_complete_iff hready hfind hc hc']
        exact hnext

/-- Whatever the store holds: all orders of the calls of a completion and of another request come to
what one order of the two requests comes to, with both answers and all entries, exactly if the other
one does not get in the way of completing the task that is found. -/
theorem overlaps_serial_iff (id : String) (now : Date) (r : Request) (d : Directory) :
    (∀ j, Overlap (Request.process (.complete id now)) r.process d j →
        Serial (.complete id now) r d j) ↔
      ∀ t, (Store.get id d).1 = .ok t → ¬ r.Disturbs id now t := by
  constructor
  · intro hall t hget hr
    obtain ⟨j, hj, hserial⟩ := exists_overlap_not_serial hget hr
    exact hserial (hall j hj)
  · intro hr j hj
    obtain hserial | rfl | ⟨id', now', rfl, rfl⟩ := overlap_cases hj
    · exact hserial
    · exact serial_between_of_not_disturbs hr
    · rw [serial_swap]
      apply serial_between_of_not_disturbs
      rintro t hget ⟨rfl, date, date', hc, hc'⟩
      exact hr t hget ⟨rfl, date', date, hc', hc⟩

end Orders

def januaryTask (rule : String) : Task := { id := "1", date := "20240120", title := "a", rule }

/-- A task that happens once. -/
def singleFiles : Directory :=
  { tasks := .file (Store.Rows.encode [januaryTask ""]),
    sequence := .file (Store.Sequence.encode 1),
    lock := .file [] }

/-- Between the look-up of a completion and its deletion an update gives the task a rule, and is
answered well; the task goes all the same. -/
theorem not_serial_of_update_between :
    ∃ j : Joint,
      Overlap (Request.process (.complete "1" ⟨2024, 1, 10, by decide⟩))
        (Request.process (.update (januaryTask "d 7") ⟨2024, 1, 10, by decide⟩))
        singleFiles j ∧
      ¬ Serial (.complete "1" ⟨2024, 1, 10, by decide⟩)
        (.update (januaryTask "d 7") ⟨2024, 1, 10, by decide⟩) singleFiles j ∧
      j.second = .ok .done ∧ Store.loadTasks j.left = .ok [] := by
  have hready : Ready singleFiles [januaryTask ""] := ⟨⟨[], rfl⟩, Store.Rows.decode_encode _⟩
  have hfind : find "1" [januaryTask ""] = .ok (januaryTask "") := rfl
  have hid : (januaryTask "d 7").id ≠ "" := by decide
  have haccept : (januaryTask "d 7").accept ⟨2024, 1, 10, by decide⟩ = .ok (januaryTask "d 7") :=
    rfl
  have honce : conclusion ⟨2024, 1, 10, by decide⟩ (januaryTask "") = .ok none := rfl
  have hget := hready.get "1"
  have htaken : Store.taken singleFiles = singleFiles :=
    (Store.snd_get "1" singleFiles).symm.trans (congrArg Prod.snd hget)
  have hover : overtaken "1" ⟨2024, 1, 10, by decide⟩ (januaryTask "")
      (.update (januaryTask "d 7") ⟨2024, 1, 10, by decide⟩) singleFiles =
        ⟨.ok .done, .ok .done, put [] singleFiles⟩ :=
    overtaken_update hready hid haccept hfind honce
  refine ⟨_, overlap_between "1"
    (Process.ifFound (Process.concluding "1" ⟨2024, 1, 10, by decide⟩)) _ _, ?_⟩
  rw [between_of_found (hget.trans (Prod.ext hfind htaken.symm)), htaken]
  refine ⟨?_, ?_, ?_⟩
  · intro hserial
    obtain hsame | hdate :=
      (serial_overtaken_update_iff hready hid haccept hfind honce).1 hserial
    · cases hsame
    · cases hdate
  · rw [hover]
  · rw [hover]
    exact Store.loadTasks_set_encode singleFiles []

end Agenda.Tasks
