/-!
Depth-first visits. A path is visited when it is first met, and what it leads to is visited before
anything that comes behind it. Paths with the same key are taken for the same thing, and only the
first of them is visited; what the others lead to is passed over with them.
-/

namespace Agenda

variable {α κ : Type}

/-- With some visited already, going through a list leads to these visits in all, in their order. -/
inductive Visits (key : α → κ) (next : α → List α) : List α → List α → List α → Prop where
  | done (visited : List α) : Visits key next visited [] visited
  | again {a : α} {list visited after : List α} (known : key a ∈ visited.map key)
      (rest : Visits key next visited list after) : Visits key next visited (a :: list) after
  | first {a : α} {list visited between after : List α} (new : key a ∉ visited.map key)
      (below : Visits key next (visited ++ [a]) (next a) between)
      (rest : Visits key next between list after) : Visits key next visited (a :: list) after

namespace Visits

variable {key : α → κ} {next : α → List α} {list list' visited after after' : List α} {a b : α}

/-- There is one order. -/
theorem unique (h : Visits key next visited list after) (h' : Visits key next visited list after') :
    after = after' := by
  induction h generalizing after' with
  | done => cases h'; rfl
  | again known _ ih =>
      cases h' with
      | again _ rest => exact ih rest
      | first new _ _ => exact absurd known new
  | first new _ _ ihBelow ihRest =>
      cases h' with
      | again known _ => exact absurd known new
      | first _ below rest =>
          obtain rfl := ihBelow below
          exact ihRest rest

/-- One list behind another is gone through in two parts. -/
theorem exists_between (h : Visits key next visited (list ++ list') after) :
    ∃ between, Visits key next visited list between ∧ Visits key next between list' after := by
  induction list generalizing visited with
  | nil => exact ⟨visited, .done visited, h⟩
  | cons a list ih =>
      cases h with
      | again known rest =>
          obtain ⟨between, hfirst, hsecond⟩ := ih rest
          exact ⟨between, .again known hfirst, hsecond⟩
      | first new below rest =>
          obtain ⟨between, hfirst, hsecond⟩ := ih rest
          exact ⟨between, .first new below hfirst, hsecond⟩

theorem subset (h : Visits key next visited list after) : visited ⊆ after := by
  induction h with
  | done => exact List.Subset.refl _
  | again _ _ ih => exact ih
  | first _ _ _ ihBelow ihRest =>
      exact fun x hx => ihRest (ihBelow (List.mem_append_left _ hx))

theorem nodup (h : Visits key next visited list after) (hvisited : (visited.map key).Nodup) :
    (after.map key).Nodup := by
  induction h with
  | done => exact hvisited
  | again _ _ ih => exact ih hvisited
  | @first a list visited between after new _ _ ihBelow ihRest =>
      refine ihRest (ihBelow ?_)
      rw [List.map_append, List.map_singleton, List.nodup_append]
      refine ⟨hvisited, List.pairwise_singleton _ _, ?_⟩
      rintro k hk _ hlast rfl
      rw [List.mem_singleton.1 hlast] at hk
      exact new hk

/-- What holds of all that is started from, and of what it leads to, holds of all visits. -/
theorem forall_mem {P : α → Prop} (h : Visits key next visited list after)
    (hvisited : ∀ a ∈ visited, P a) (hlist : ∀ a ∈ list, P a)
    (hnext : ∀ a, P a → ∀ b ∈ next a, P b) : ∀ a ∈ after, P a := by
  induction h with
  | done => exact hvisited
  | again _ _ ih => exact ih hvisited (List.forall_mem_cons.1 hlist).2
  | first _ _ _ ihBelow ihRest =>
      obtain ⟨ha, hlist⟩ := List.forall_mem_cons.1 hlist
      refine ihRest (ihBelow ?_ (hnext _ ha)) hlist
      exact List.forall_mem_append.2 ⟨hvisited, List.forall_mem_singleton.2 ha⟩

/-- Whatever is gone through is visited under its key, and so is what new visits lead to. -/
theorem complete (h : Visits key next visited list after) :
    (∀ a ∈ list, key a ∈ after.map key) ∧
      ∀ a ∈ after, a ∈ visited ∨ ∀ b ∈ next a, key b ∈ after.map key := by
  induction h with
  | done => exact ⟨List.forall_mem_nil _, fun _ ha => .inl ha⟩
  | again known rest ih =>
      refine ⟨List.forall_mem_cons.2 ⟨?_, ih.1⟩, ih.2⟩
      exact List.map_subset key rest.subset known
  | @first a list visited between after new below rest ihBelow ihRest =>
      have hmono := List.map_subset key rest.subset
      have ha : a ∈ between := below.subset (List.mem_append_right _ (List.mem_singleton_self a))
      refine ⟨List.forall_mem_cons.2 ⟨hmono (List.mem_map_of_mem ha), ihRest.1⟩, ?_⟩
      intro b hb
      obtain hb | hb := ihRest.2 b hb
      · obtain hb | hb := ihBelow.2 b hb
        · obtain hb | hb := List.mem_append.1 hb
          · exact .inl hb
          · rw [List.mem_singleton.1 hb]
            exact .inr fun c hc => hmono (ihBelow.1 c hc)
        · exact .inr fun c hc => hmono (hb c hc)
      · exact .inr hb

end Visits

end Agenda
