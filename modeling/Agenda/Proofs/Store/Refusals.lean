import Agenda.Proofs.Store.Removal

/-!
Operations some of whose writes fail. The disk may refuse to replace a file: the file stays as it
was, and the operation ends with an error. Most operations write once, so a refusal leaves all as it
was. An insertion writes down its number first; where only its second write is refused, the number
is taken and no task has it, and the last number is still ahead of all that are kept. Where there is
no number behind the last one, an insertion comes to a sudden end in a build that checks its sums,
and its handle is poisoned; in a build that does not, numbers start again from zero.
-/

namespace Agenda.Store

/-- What the disk says to the writes of an operation, in their order: why it refuses one, or nothing
if it makes it. Behind the end of the list it refuses none. -/
abbrev Refusals := List (Option File.Error)

/-- Makes the writes in order, up to the first one that fails or is refused. -/
def commitAmid : Refusals → List (Entry × List UInt8) → Directory → Outcome Error Unit
  | _, [], d => (.ok (), d)
  | some e :: _, (entry, _) :: _, d => (.error (.file entry e), d)
  | refusals, (entry, content) :: writes, d =>
      match d.replace entry content with
      | .error e => (.error (.file entry e), d)
      | .ok d => commitAmid refusals.tail writes d

/-- Takes the lock, and carries out what is planned as far as the disk makes the writes. -/
def performAmid {α : Type} (refusals : Refusals) (plan : Plan α) (d : Directory) :
    Outcome Error α :=
  match d.create .lock with
  | .error e => (.error (.file .lock e), d)
  | .ok d =>
      match plan d with
      | .error e => (.error e, d)
      | .ok change =>
          match commitAmid refusals change.writes d with
          | (.error e, d) => (.error e, d)
          | (.ok (), d) => (.ok change.answer, d)

/-- Carries out a request on a disk that may refuse its writes. -/
def Request.onFilesAmid (arithmetic : Arithmetic) (refusals : Refusals) :
    Request → Directory → Outcome Error Answer
  | list limit, d => reply .tasks (performAmid refusals (Plan.list limit) d)
  | get id, d => reply .task (performAmid refusals (Plan.get id) d)
  | insert t, d => reply .id (performAmid refusals (Plan.insertWith arithmetic t) d)
  | update t, d => reply (fun _ => .done) (performAmid refusals (Plan.modify t.id fun _ => t) d)
  | updateDate id date, d =>
      reply (fun _ => .done) (performAmid refusals (Plan.modify id fun t => { t with date }) d)
  | delete id, d => reply (fun _ => .done) (performAmid refusals (Plan.delete id) d)
  | reopen, d => reply (fun _ => .done) (establish d)

/-- A request that is made through a handle, with what the disk says to its writes. -/
structure Call where
  handle : Nat
  refusals : Refusals
  request : Request

/-- Carries out a call, if its handle is none of the poisoned ones or is opened anew. -/
def Call.onFiles (arithmetic : Arithmetic) (poisoned : List Nat) (call : Call) (d : Directory) :
    Outcome Error Answer :=
  match call.request with
  | .reopen => reply (fun _ => .done) (establish d)
  | r =>
      if call.handle ∈ poisoned then (.error .poisoned, d)
      else r.onFilesAmid arithmetic call.refusals d

/-- The poisoned handles behind a call: a sudden end adds its handle, and a handle that was opened
anew is none of them. -/
def Call.poison (call : Call) (answer : Except Error Answer) (poisoned : List Nat) : List Nat :=
  match call.request, answer with
  | .reopen, .ok _ => poisoned.filter (· ≠ call.handle)
  | _, .error .overflow => call.handle :: poisoned
  | _, _ => poisoned

/-- The events of a run, from these poisoned handles on. -/
def historyAmid (arithmetic : Arithmetic) : List Call → List Nat → Directory → List Event
  | [], _, _ => []
  | call :: calls, poisoned, d =>
      let (answer, d') := call.onFiles arithmetic poisoned d
      ⟨d, call.request, answer, d'⟩ ::
        historyAmid arithmetic calls (call.poison answer poisoned) d'

/-! A disk that refuses nothing. -/

section Unrefused

theorem commitAmid_nil (writes : List (Entry × List UInt8)) (d : Directory) :
    commitAmid [] writes d = commit writes d := by
  induction writes generalizing d with
  | nil => rfl
  | cons write writes ih =>
      rw [commitAmid, commit]
      · cases d.replace write.1 write.2 with
        | error e => rfl
        | ok d' => exact ih d'
      · rintro _ _ ⟨⟩

theorem performAmid_nil {α : Type} (plan : Plan α) (d : Directory) :
    performAmid [] plan d = perform plan d := by
  simp only [performAmid, commitAmid_nil]
  rfl

theorem Request.onFilesAmid_nil (r : Request) (d : Directory) :
    r.onFilesAmid .checked [] d = r.onFiles d := by
  cases r <;> simp only [onFilesAmid, performAmid_nil] <;> rfl

theorem Call.onFiles_of_not_mem {call : Call} {poisoned : List Nat} (h : call.handle ∉ poisoned)
    (arithmetic : Arithmetic) (d : Directory) :
    call.onFiles arithmetic poisoned d =
      call.request.onFilesAmid arithmetic call.refusals d := by
  rw [onFiles]
  split
  · rename_i hr
    rw [hr]
    rfl
  · exact if_neg h

theorem Call.onFiles_of_mem {call : Call} {poisoned : List Nat} (h : call.handle ∈ poisoned)
    (hr : call.request ≠ .reopen) (arithmetic : Arithmetic) (d : Directory) :
    call.onFiles arithmetic poisoned d = (.error .poisoned, d) := by
  rw [onFiles]
  split
  · rename_i hreopen
    exact absurd hreopen hr
  · exact if_pos h

theorem Call.poison_nil {call : Call} {answer : Except Error Answer}
    (h : answer ≠ .error .overflow) : call.poison answer [] = [] := by
  unfold poison
  split
  · rfl
  · exact absurd rfl h
  · rfl

/-- Where no operation comes to a sudden end, the handles play no part. -/
theorem historyAmid_nil {schedule : List (Nat × Request)} {d : Directory}
    (h : ∀ e ∈ history schedule d, e.answer ≠ .error .overflow) :
    historyAmid .checked (schedule.map fun (handle, r) => ⟨handle, [], r⟩) [] d =
      history schedule d := by
  induction schedule generalizing d with
  | nil => rfl
  | cons step schedule ih =>
      rw [history, List.forall_mem_cons] at h
      simp only [List.map_cons, historyAmid, history, Call.onFiles_of_not_mem List.not_mem_nil,
        Request.onFilesAmid_nil, Call.poison_nil h.1, ih h.2]

end Unrefused

/-! What requests do. -/

section Effects

variable {d d' : Directory} {r : Request} {answer : Except Error Answer}

/-- All the writes are made, or an error comes behind some of them but not all. -/
theorem commitAmid_cases (refusals : Refusals) (writes : List (Entry × List UInt8))
    (d : Directory) :
    commitAmid refusals writes d = commit writes d ∨
      ∃ k < writes.length, ∃ e, commitAmid refusals writes d =
        (.error e, (commit (writes.take k) d).2) := by
  induction writes generalizing refusals d with
  | nil => exact .inl (by rw [commitAmid, commit])
  | cons write writes ih =>
      obtain ⟨entry, content⟩ := write
      by_cases hrefused : ∃ e rest, refusals = some e :: rest
      · obtain ⟨e, rest, rfl⟩ := hrefused
        exact .inr ⟨0, Nat.succ_pos _, .file entry e, by rw [commitAmid]; rfl⟩
      · have hstep : commitAmid refusals ((entry, content) :: writes) d =
            match d.replace entry content with
            | .error e => (.error (.file entry e), d)
            | .ok d => commitAmid refusals.tail writes d := by
          rw [commitAmid]
          rintro e rest rfl
          exact hrefused ⟨e, rest, rfl⟩
        rw [hstep, commit]
        cases hd : d.replace entry content with
        | error e => exact .inl rfl
        | ok d' =>
            obtain heq | ⟨k, hk, e, heq⟩ := ih refusals.tail d'
            · exact .inl heq
            · refine .inr ⟨k + 1, Nat.succ_lt_succ hk, e, ?_⟩
              simp only [heq, List.take_succ_cons, commit, hd]

/-- An operation is carried out as ever, or an error comes behind some of its writes. -/
theorem performAmid_cases {α : Type} (refusals : Refusals) (plan : Plan α) (d : Directory) :
    performAmid refusals plan d = perform plan d ∨
      ∃ locked change k e, SameFiles d locked ∧ plan locked = .ok change ∧
        k < change.writes.length ∧
        performAmid refusals plan d = (.error e, (commit (change.writes.take k) locked).2) := by
  rw [performAmid, perform]
  cases hl : d.create .lock with
  | error e => exact .inl rfl
  | ok locked =>
      simp only
      cases hp : plan locked with
      | error e => exact .inl rfl
      | ok change =>
          simp only
          obtain heq | ⟨k, hk, e, heq⟩ := commitAmid_cases refusals change.writes locked
          · left
            cases hcommit : commit change.writes locked with
            | mk result d' => cases result <;> simp only [heq, hcommit]
          · exact .inr ⟨locked, change, k, e, .of_create_lock hl, hp, hk, by rw [heq]⟩

/-- What a request answers and leaves where writes may be refused: its effect, or a number that is
taken and not given out. -/
inductive EffectAmid (d : Directory) : Request → Except Error Answer → Directory → Prop where
  | whole {r : Request} {answer : Except Error Answer} {d' : Directory}
      (effect : Effect d r answer d') : EffectAmid d r answer d'
  | gap {t : Task} {tasks : List Task} {last : Nat} {e : Error} {d' : Directory}
      (loaded : loadTasks d = .ok tasks) (counted : loadSequence d = .ok last)
      (same : d'.tasks = d.tasks) (number : loadSequence d' = .ok (nextNumber last tasks)) :
      EffectAmid d (.insert t) (.error e) d'

/-- The effect of a request that is one plan is known once it is known what is left behind some of
the plan's writes. -/
theorem EffectAmid.of_perform {α : Type} {refusals : Refusals} {plan : Plan α}
    {answer : α → Answer} (hfiles : r.onFiles d = reply answer (perform plan d))
    (hamid : r.onFilesAmid .checked refusals d = reply answer (performAmid refusals plan d))
    (hcut : ∀ locked change k e, SameFiles d locked → plan locked = .ok change →
      k < change.writes.length →
        EffectAmid d r (.error e) (commit (change.writes.take k) locked).2) :
    EffectAmid d r (r.onFilesAmid .checked refusals d).1 (r.onFilesAmid .checked refusals d).2 := by
  obtain heq | ⟨locked, change, k, e, hsame, hplan, hk, heq⟩ := performAmid_cases refusals plan d
  · rw [hamid, heq, ← hfiles]
    exact .whole (effect_onFiles r d)
  · rw [hamid, heq]
    exact hcut locked change k e hsame hplan hk

/-- Where there is one write at most, nothing was written before an error. -/
theorem EffectAmid.of_cut {writes : List (Entry × List UInt8)} {locked : Directory} {k : Nat}
    (hr : r ≠ .reopen) (hsame : SameFiles d locked) (hk : k < writes.length)
    (hone : writes.length ≤ 1) (e : Error) :
    EffectAmid d r (.error e) (commit (writes.take k) locked).2 := by
  obtain rfl : k = 0 := by omega
  exact .whole (.failed hr hsame)

theorem EffectAmid.of_modify {refusals : Refusals} {id : String} {f : Task → Task}
    (hr : r ≠ .reopen)
    (hfiles : r.onFiles d = reply (fun _ => .done) (perform (Plan.modify id f) d))
    (hamid : r.onFilesAmid .checked refusals d =
      reply (fun _ => .done) (performAmid refusals (Plan.modify id f) d)) :
    EffectAmid d r (r.onFilesAmid .checked refusals d).1 (r.onFilesAmid .checked refusals d).2 := by
  refine .of_perform hfiles hamid ?_
  intro locked change k e hsame hplan hk
  obtain ⟨tasks, t, _, _, rfl⟩ := Plan.modify_eq_ok hplan
  exact .of_cut hr hsame hk (Nat.le_refl 1) e

theorem effect_onFilesAmid (refusals : Refusals) (r : Request) (d : Directory) :
    EffectAmid d r (r.onFilesAmid .checked refusals d).1 (r.onFilesAmid .checked refusals d).2 := by
  cases r with
  | list limit =>
      refine .of_perform rfl rfl ?_
      intro locked change k e hsame hplan hk
      obtain ⟨tasks, _, rfl⟩ := Plan.list_eq_ok hplan
      exact .of_cut Request.noConfusion hsame hk (Nat.zero_le 1) e
  | get id =>
      refine .of_perform rfl rfl ?_
      intro locked change k e hsame hplan hk
      obtain ⟨tasks, t, _, _, rfl⟩ := Plan.get_eq_ok hplan
      exact .of_cut Request.noConfusion hsame hk (Nat.zero_le 1) e
  | insert t =>
      refine .of_perform rfl rfl ?_
      intro locked change k e hsame hplan hk
      obtain ⟨tasks, last, htasks, hlast, hroom, rfl⟩ := Plan.insert_eq_ok hplan
      simp only [List.length_cons, List.length_nil] at hk
      obtain rfl | rfl : k = 0 ∨ k = 1 := by omega
      · exact .whole (.failed Request.noConfusion hsame)
      · obtain ⟨old, hold⟩ := read_of_load hlast
        simp only [List.take_succ_cons, List.take_zero, commit_cons hold, commit]
        refine .gap (hsame.loadTasks ▸ htasks) (hsame.loadSequence ▸ hlast) hsame.tasks ?_
        rw [loadSequence, load_set_file, Sequence.decode_encode hroom]
  | update t => exact .of_modify Request.noConfusion rfl rfl
  | updateDate id date => exact .of_modify Request.noConfusion rfl rfl
  | delete id =>
      refine .of_perform rfl rfl ?_
      intro locked change k e hsame hplan hk
      obtain ⟨tasks, t, _, _, rfl⟩ := Plan.delete_eq_ok hplan
      exact .of_cut Request.noConfusion hsame hk (Nat.le_refl 1) e
  | reopen => exact .whole (effect_onFiles .reopen d)

theorem SameFiles.full (h : SameFiles d d') (hfull : Full d') : Full d := by
  obtain ⟨tasks, last, htasks, hlast, hlt⟩ := hfull
  exact ⟨tasks, last, h.loadTasks ▸ htasks, h.loadSequence ▸ hlast, hlt⟩

/-- As long as there is a number left for an insertion, all builds do the same. -/
theorem Request.onFilesAmid_eq_checked {arithmetic : Arithmetic}
    (h : arithmetic = .checked ∨ ∀ t, r = .insert t → ¬ Full d) (refusals : Refusals) :
    r.onFilesAmid arithmetic refusals d = r.onFilesAmid .checked refusals d := by
  obtain rfl | hroom := h
  · rfl
  · cases r with
    | insert t =>
        refine congrArg (reply _) ?_
        rw [performAmid, performAmid]
        cases hl : d.create .lock with
        | error e => rfl
        | ok locked =>
            have hleft := mt (SameFiles.of_create_lock hl).full (hroom t rfl)
            simp only [Plan.insertWith_of_not_full hleft]
    | list _ | get _ | update _ | updateDate _ _ | delete _ | reopen => rfl

/-- A call has the effect of its request, or its handle is poisoned and nothing happens. -/
theorem effect_onCall {arithmetic : Arithmetic} {call : Call}
    (h : arithmetic = .checked ∨ ∀ t, call.request = .insert t → ¬ Full d)
    (poisoned : List Nat) :
    EffectAmid d call.request (call.onFiles arithmetic poisoned d).1
      (call.onFiles arithmetic poisoned d).2 := by
  by_cases hpoisoned : call.handle ∈ poisoned
  · by_cases hr : call.request = .reopen
    · rw [Call.onFiles, hr]
      exact .whole (effect_onFiles .reopen d)
    · rw [Call.onFiles_of_mem hpoisoned hr]
      exact .whole (.failed hr (.refl d))
  · rw [Call.onFiles_of_not_mem hpoisoned, Request.onFilesAmid_eq_checked h]
    exact effect_onFilesAmid call.refusals call.request d

/-! What one request keeps. -/

theorem EffectAmid.tasks_of_error {t : Task} {e : Error}
    (h : EffectAmid d (.insert t) (.error e) d') : d'.tasks = d.tasks := by
  cases h with
  | whole effect => exact (effect.sameFiles_of_error Request.noConfusion rfl).tasks
  | gap _ _ same _ => exact same

theorem EffectAmid.exists_last_le {last : Nat} (h : EffectAmid d r answer d')
    (hlast : loadSequence d = .ok last) : ∃ last', loadSequence d' = .ok last' ∧ last ≤ last' := by
  cases h with
  | whole effect => exact effect.exists_last_le hlast
  | @gap t tasks last' _ _ _ counted _ number =>
      cases counted.symm.trans hlast
      exact ⟨_, number, Nat.le_of_lt (lt_nextNumber last tasks)⟩

theorem Event.number_of_given_amid {e : Event} {id : String} (hid : e.given? = some id)
    (h : EffectAmid e.before e.request e.answer e.after) :
    ∃ tasks last, loadSequence e.before = .ok last ∧ nextNumber last tasks ≤ Numeral.max64 ∧
      id = Numeral.text (nextNumber last tasks) ∧
      loadSequence e.after = .ok (nextNumber last tasks) := by
  obtain ⟨d, r, answer, d'⟩ := e
  cases h with
  | whole effect =>
      obtain ⟨tasks, last, _, hlast, hroom, hid, hafter⟩ := Event.number_of_given hid effect
      exact ⟨tasks, last, hlast, hroom, hid, hafter⟩
  | gap _ _ _ _ => cases hid

/-- Both files can be read, and the last number has reached every number in use. -/
def FilesCounted (d : Directory) : Prop :=
  ∃ tasks last, loadTasks d = .ok tasks ∧ loadSequence d = .ok last ∧ Counted tasks last

theorem Counted.modifyFirst {id : String} {f : Task → Task} {tasks : List Task} {last : Nat}
    (h : Counted tasks last) :
    Counted (modifyFirst id (fun t => { f t with id }) tasks) last := by
  refine forall_mem_modifyFirst h ?_
  rintro t rfl ht
  exact ht

theorem Effect.filesCounted (h : Effect d r answer d') (hd : FilesCounted d) : FilesCounted d' := by
  obtain ⟨tasks, last, htasks, hlast, hcounted⟩ := hd
  cases h with
  | failed _ same | listed _ same | got _ _ same =>
      exact ⟨tasks, last, same.loadTasks.trans htasks, same.loadSequence.trans hlast, hcounted⟩
  | inserted loaded counted room left number =>
      cases loaded.symm.trans htasks
      cases counted.symm.trans hlast
      refine ⟨_, _, left, number, ?_⟩
      rw [Counted, List.forall_mem_append, List.forall_mem_singleton]
      constructor
      · intro t ht n hn
        exact Nat.le_trans (hcounted t ht n hn) (Nat.le_of_lt (lt_nextNumber last tasks))
      · intro n hn
        cases (number?_text room).symm.trans hn
        exact Nat.le_refl _
  | changed _ loaded _ left same =>
      cases loaded.symm.trans htasks
      exact ⟨_, last, left, (loadSequence_congr same).trans hlast,
        hcounted.modifyFirst⟩
  | deleted loaded _ left same =>
      cases loaded.symm.trans htasks
      exact ⟨_, last, left, (loadSequence_congr same).trans hlast,
        fun t ht => hcounted t (List.mem_of_mem_filter ht)⟩
  | reopened established sequence =>
      obtain ⟨content, hfile⟩ := read_of_load htasks
      have hsame := established.eq_of_file hfile
      exact ⟨tasks, last, (loadTasks_congr hsame).trans htasks, sequence.loadSequence hlast,
        hcounted⟩

theorem EffectAmid.filesCounted (h : EffectAmid d r answer d') (hd : FilesCounted d) :
    FilesCounted d' := by
  cases h with
  | whole effect => exact effect.filesCounted hd
  | gap loaded counted same number =>
      obtain ⟨tasks, last, htasks, hlast, hcounted⟩ := hd
      obtain rfl := Except.ok.inj (loaded.symm.trans htasks)
      obtain rfl := Except.ok.inj (counted.symm.trans hlast)
      refine ⟨_, _, (loadTasks_congr same).trans loaded, number, ?_⟩
      intro t ht n hn
      exact Nat.le_trans (hcounted t ht n hn) (Nat.le_of_lt (lt_nextNumber _ _))

end Effects

/-! Runs. -/

/-- Events that begin where the one before has ended, each with the effect of its request. -/
inductive Run : Directory → List Event → Prop where
  | nil (d : Directory) : Run d []
  | cons {e : Event} {events : List Event}
      (effect : EffectAmid e.before e.request e.answer e.after) (rest : Run e.after events) :
      Run e.before (e :: events)

section Runs

variable {arithmetic : Arithmetic} {calls : List Call} {poisoned : List Nat} {events : List Event}
  {d : Directory} {e : Event} {id : String}

theorem run_historyAmid (h : arithmetic = .checked ∨ ∀ e ∈ historyAmid arithmetic calls poisoned d,
      ∀ t, e.request = .insert t → ¬ Full e.before) :
    Run d (historyAmid arithmetic calls poisoned d) := by
  induction calls generalizing poisoned d with
  | nil => exact .nil d
  | cons call calls ih =>
      simp only [historyAmid, List.forall_mem_cons] at h ⊢
      have heffect := effect_onCall (h.imp_right And.left) poisoned
      have hrest := ih (h.imp_right And.right)
      exact @Run.cons ⟨d, call.request, _, _⟩ _ heffect hrest

theorem Run.effect (h : Run d events) (he : e ∈ events) :
    EffectAmid e.before e.request e.answer e.after := by
  induction h with
  | nil => cases he
  | cons effect _ ih =>
      obtain rfl | he := List.mem_cons.1 he
      · exact effect
      · exact ih he

theorem Run.filesCounted (h : Run d events) (hd : FilesCounted d) (he : e ∈ events) :
    FilesCounted e.before ∧ FilesCounted e.after := by
  induction h with
  | nil => cases he
  | cons effect _ ih =>
      obtain rfl | he := List.mem_cons.1 he
      · exact ⟨hd, effect.filesCounted hd⟩
      · exact ih (effect.filesCounted hd) he

/-- What is given out from here on writes numbers above the last one, whatever is refused. -/
theorem Run.lt_of_given (h : Run d events) {last : Nat} (hlast : loadSequence d = .ok last)
    (he : e ∈ events) (hid : e.given? = some id) :
    ∃ n, last < n ∧ n ≤ Numeral.max64 ∧ id = Numeral.text n := by
  induction h generalizing last with
  | nil => cases he
  | cons effect _ ih =>
      obtain rfl | he := List.mem_cons.1 he
      · obtain ⟨tasks, last', hlast', hroom, rfl, _⟩ := Event.number_of_given_amid hid effect
        cases hlast.symm.trans hlast'
        exact ⟨_, lt_nextNumber last tasks, hroom, rfl⟩
      · obtain ⟨last', hlast', hle⟩ := effect.exists_last_le hlast
        obtain ⟨n, hlt, hroom, rfl⟩ := ih hlast' he
        exact ⟨n, Nat.lt_of_le_of_lt hle hlt, hroom, rfl⟩

/-- An identifier that is given out from here on is none of those that are kept here. -/
theorem Run.absent (h : Run d events) (hd : FilesCounted d) (he : e ∈ events)
    (hid : e.given? = some id) : Absent id d := by
  obtain ⟨tasks, last, htasks, hlast, hcounted⟩ := hd
  obtain ⟨n, hlt, hroom, rfl⟩ := h.lt_of_given hlast he hid
  refine ⟨tasks, htasks, fun t ht hid => ?_⟩
  have hle := hcounted t ht n (by rw [hid, number?_text hroom])
  omega

theorem Run.pairwise_given (h : Run d events) :
    (events.filterMap Event.given?).Pairwise NumberLT := by
  rw [List.pairwise_filterMap]
  induction h with
  | nil => exact List.Pairwise.nil
  | cons effect rest ih =>
      refine List.pairwise_cons.2 ⟨?_, ih⟩
      intro e he id hid id' hid'
      obtain ⟨tasks, last, _, hroom, rfl, hlast⟩ := Event.number_of_given_amid hid effect
      obtain ⟨n, hlt, hroom', rfl⟩ := rest.lt_of_given hlast he hid'
      exact ⟨_, n, number?_text hroom, number?_text hroom', hlt⟩

theorem Run.pairwise_absent (h : Run d events) (hd : FilesCounted d) :
    events.Pairwise fun a b => ∀ id, b.given? = some id → Absent id a.before := by
  induction h with
  | nil => exact List.Pairwise.nil
  | cons effect rest ih =>
      refine List.pairwise_cons.2 ⟨fun e he id hid => ?_, ih (effect.filesCounted hd)⟩
      exact (Run.cons effect rest).absent hd (List.mem_cons_of_mem _ he) hid

/-- Two insertions. The first one has written its number down when its task is refused. -/
def refusedFirst : List Call :=
  [⟨0, [none, some .nameTooLong], .insert { title := "a" }⟩, ⟨1, [], .insert { title := "b" }⟩]

-- Its number is not given out.
example : (historyAmid .checked refusedFirst [] opened).filterMap Event.given? = ["2"] := by
  decide +kernel

/-- A store whose last number is the largest one. -/
def atEnd : Directory :=
  { tasks := .file (Rows.encode [{ id := "5", title := "a" }]),
    sequence := .file (Sequence.encode Numeral.max64) }

theorem loadTasks_atEnd : loadTasks atEnd = .ok [{ id := "5", title := "a" }] :=
  Rows.decode_encode _

theorem loadSequence_atEnd : loadSequence atEnd = .ok Numeral.max64 :=
  Sequence.decode_encode (Nat.le_refl _)

theorem counted_atEnd : Counted [{ id := "5", title := "a" }] Numeral.max64 := by
  intro t ht n hn
  cases List.mem_singleton.1 ht
  exact Nat.le_trans (Nat.le_of_eq (Option.some.inj hn).symm) (by decide)

/-- What an insertion leaves there in a build that does not check its sums. -/
theorem loads_behind_end :
    (historyAmid .wrapping [⟨0, [], .insert { title := "b" }⟩] [] atEnd).map
        (fun e => (loadTasks e.after, loadSequence e.after)) =
      [(.ok [{ id := "5", title := "a" }, { id := "0", title := "b" }], .ok 0)] := by
  decide +kernel

end Runs

end Agenda.Store
