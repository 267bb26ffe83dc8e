import Agenda.Proofs.Store.Effect

/-!
What an operation leaves in the file of tasks, whatever the other entries are. Without a lock it
leaves all as it was, so nothing is asked of the lock, and an operation that gives out no number
does not read the last one.
-/

namespace Agenda.Store

variable {d : Directory} {tasks tasks' : List Task}

theorem loadTasks_get (h : loadTasks d = .ok tasks) (id : String) :
    loadTasks (Store.get id d).2 = .ok tasks :=
  (sameFiles_get id d).loadTasks.trans h

theorem find_of_get {id : String} {t : Task} (h : loadTasks d = .ok tasks)
    (hg : (Store.get id d).1 = .ok t) : find id tasks = .ok t := by
  obtain ⟨e, d', heq, _⟩ | ⟨locked, change, d', hsame, hplan, _, heq⟩ :=
    perform_cases (Plan.writable_get id) d
  · cases (congrArg Prod.fst heq).symm.trans hg
  · obtain ⟨held, u, hheld, hu, rfl⟩ := Plan.get_eq_ok hplan
    cases (hsame.loadTasks.trans h).symm.trans hheld
    cases (congrArg Prod.fst heq).symm.trans hg
    exact hu

/-- An operation that writes nothing but these tasks leaves the file as it was, or leaves them. -/
theorem loadTasks_perform {α : Type} {plan : Plan α} (h : loadTasks d = .ok tasks)
    (hwritable : plan.Writable)
    (hplan : ∀ locked change, loadTasks locked = .ok tasks → plan locked = .ok change →
      change.writes = [(.tasks, Rows.encode tasks')]) :
    loadTasks (perform plan d).2 = .ok tasks ∨ loadTasks (perform plan d).2 = .ok tasks' := by
  obtain ⟨e, d', heq, hsame⟩ | ⟨locked, change, d', hsame, hchange, hcommit, heq⟩ :=
    perform_cases hwritable d
  · rw [heq]
    exact .inl (hsame.loadTasks.trans h)
  · have hlocked : loadTasks locked = .ok tasks := hsame.loadTasks.trans h
    rw [hplan locked change hlocked hchange, commit_tasks hlocked] at hcommit
    cases hcommit
    rw [heq]
    exact .inr (loadTasks_set_encode locked tasks')

theorem loadTasks_modify (h : loadTasks d = .ok tasks) (id : String) (f : Task → Task) :
    loadTasks (perform (Plan.modify id f) d).2 = .ok tasks ∨
      loadTasks (perform (Plan.modify id f) d).2 =
        .ok (modifyFirst id (fun t => { f t with id }) tasks) := by
  apply loadTasks_perform h (Plan.writable_modify id f)
  intro locked change hlocked hchange
  obtain ⟨held, t, hheld, _, rfl⟩ := Plan.modify_eq_ok hchange
  cases hlocked.symm.trans hheld
  rfl

theorem loadTasks_delete (h : loadTasks d = .ok tasks) (id : String) :
    loadTasks (Store.delete id d).2 = .ok tasks ∨
      loadTasks (Store.delete id d).2 = .ok (tasks.filter fun t => t.id ≠ id) := by
  apply loadTasks_perform h (Plan.writable_delete id)
  intro locked change hlocked hchange
  obtain ⟨held, t, hheld, _, rfl⟩ := Plan.delete_eq_ok hchange
  cases hlocked.symm.trans hheld
  rfl

end Agenda.Store
