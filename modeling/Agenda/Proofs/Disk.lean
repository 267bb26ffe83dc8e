import Agenda.Disk
import Agenda.Proofs.Path

/-!
Paths that are followed name by name. What a path leads to depends on the folder that it starts
from and on its names, so a path that is joined to another one leads on from where this one leads
to. The parent of a path to a file leads to the folder of the file, however the path is spelled.
-/

namespace Agenda.Disk

variable {d : Disk} {place place' : Place} {name path base : String}

/-- Follows names from a place on. -/
def walk (d : Disk) (place : Place) (ns : List (List Char)) : Except File.Error Place :=
  (ns.map String.ofList).foldlM d.follow place

theorem walk_cons (d : Disk) (place : Place) (n : List Char) (ns : List (List Char)) :
    d.walk place (n :: ns) = d.follow place (String.ofList n) >>= fun place => d.walk place ns := by
  rw [walk, List.map_cons, List.foldlM_cons]
  rfl

theorem walk_append (d : Disk) (place : Place) (ns ns' : List (List Char)) :
    d.walk place (ns ++ ns') = d.walk place ns >>= fun place => d.walk place ns' := by
  rw [walk, List.map_append, List.foldlM_append]
  rfl

theorem walk_singleton (d : Disk) (place : Place) (n : List Char) :
    d.walk place [n] = d.follow place (String.ofList n) := by
  rw [walk_cons]
  exact bind_pure _

/-- What one name more does: it has to be followed from a folder. -/
theorem follow_eq_ok (h : d.follow place name = .ok place') :
    d.node? place = some .folder ∧
      ((name = "" ∨ name = ".") ∧ place' = place ∨ name = ".." ∧ place' = place.tail ∨
        name ≠ "" ∧ place' = name :: place) := by
  rw [follow] at h
  split at h
  · rename_i hfolder
    refine ⟨hfolder, ?_⟩
    split at h
    · rename_i hdot
      cases h
      exact .inl ⟨hdot, rfl⟩
    · rename_i hdot
      split at h
      · rename_i hup
        cases h
        exact .inr (.inl ⟨hup, rfl⟩)
      · split at h
        · cases h
        · split at h
          · cases h
            exact .inr (.inr ⟨fun hempty => hdot (.inl hempty), rfl⟩)
          · cases h
  · cases h
  · cases h

theorem ofList_of_isDot {n : List Char} (h : Path.IsDot n) :
    String.ofList n = "" ∨ String.ofList n = "." := by
  obtain rfl | rfl := h
  · exact .inl rfl
  · exact .inr rfl

theorem follow_of_isDot {n : List Char} (hn : Path.IsDot n)
    (hfolder : d.node? place = some .folder) : d.follow place (String.ofList n) = .ok place := by
  rw [follow, hfolder]
  exact if_pos (ofList_of_isDot hn)

theorem eq_of_follow_isDot {n : List Char} (hn : Path.IsDot n)
    (h : d.follow place (String.ofList n) = .ok place') :
    place' = place ∧ d.node? place = some .folder := by
  obtain ⟨hfolder, _⟩ := follow_eq_ok h
  rw [follow_of_isDot hn hfolder] at h
  cases h
  exact ⟨rfl, hfolder⟩

theorem eq_of_walk_isDot {ns : List (List Char)} (hns : ∀ n ∈ ns, Path.IsDot n)
    (h : d.walk place ns = .ok place') : place' = place := by
  induction ns generalizing place with
  | nil => cases h; rfl
  | cons n ns ih =>
      rw [List.forall_mem_cons] at hns
      rw [walk_cons] at h
      obtain ⟨next, hnext, h⟩ := bind_eq_ok h
      rw [ih hns.2 h, (eq_of_follow_isDot hns.1 hnext).1]

/-- An empty name in front of others makes no difference: these ask for a folder as well. -/
theorem walk_empty (d : Disk) (place : Place) {ns : List (List Char)} (h : ns ≠ []) :
    d.walk place ([] :: ns) = d.walk place ns := by
  obtain ⟨n, rest, rfl⟩ := List.exists_cons_of_ne_nil h
  rw [walk_cons, walk_cons]
  cases hnode : d.node? place with
  | none => simp only [follow, hnode]; rfl
  | some node =>
      cases node with
      | folder => rw [follow_of_isDot (.inl rfl) hnode]; exact walk_cons d place n rest
      | file _ | device => simp only [follow, hnode]; rfl

/-! Places that names lead to. -/

/-- Folders lie above the place, and its names are names. -/
structure Grounded (d : Disk) (place : Place) : Prop where
  above : ∀ name folder, name :: folder <:+ place → d.node? folder = some .folder
  named : ∀ name ∈ place, name ≠ "" ∧ '/' ∉ name.toList

theorem grounded_nil (d : Disk) : d.Grounded [] :=
  ⟨fun _ _ h => absurd (List.suffix_nil.1 h) (List.cons_ne_nil _ _), List.forall_mem_nil _⟩

theorem Grounded.follow (h : d.Grounded place) (hname : '/' ∉ name.toList)
    (hfollow : d.follow place name = .ok place') : d.Grounded place' := by
  obtain ⟨hfolder, ⟨_, rfl⟩ | ⟨_, rfl⟩ | ⟨hne, rfl⟩⟩ := follow_eq_ok hfollow
  · exact h
  · refine ⟨fun n folder hsuffix => h.above n folder (hsuffix.trans (List.tail_suffix _)), ?_⟩
    exact fun n hn => h.named n (List.mem_of_mem_tail hn)
  · constructor
    · intro n folder hsuffix
      obtain heq | hsuffix := List.suffix_cons_iff.1 hsuffix
      · cases heq
        exact hfolder
      · exact h.above n folder hsuffix
    · exact List.forall_mem_cons.2 ⟨⟨hne, hname⟩, h.named⟩

theorem Grounded.walk {ns : List (List Char)} (h : d.Grounded place) (hns : ∀ n ∈ ns, '/' ∉ n)
    (hwalk : d.walk place ns = .ok place') : d.Grounded place' := by
  induction ns generalizing place with
  | nil => cases hwalk; exact h
  | cons n ns ih =>
      rw [List.forall_mem_cons] at hns
      rw [walk_cons] at hwalk
      obtain ⟨next, hnext, hwalk⟩ := bind_eq_ok hwalk
      exact ih (h.follow (by rw [String.toList_ofList]; exact hns.1) hnext) hns.2 hwalk

/-! What a path leads to, however long it is. -/

/-- The place from which a path starts: the root or the working folder. -/
def origin (d : Disk) (path : String) : Except File.Error Place :=
  if Path.isAbsolute path then .ok [] else d.walk [] (Path.names d.working)

def reach (d : Disk) (path : String) : Except File.Error Place :=
  d.origin path >>= fun place => d.walk place (Path.names path)

theorem names_ne_nil (path : String) : Path.names path ≠ [] := by
  obtain ⟨name, rest, h⟩ := Path.exists_names_eq path
  rw [h]
  exact List.cons_ne_nil _ _

theorem walk_names_join (d : Disk) (place : Place) (h : Path.isAbsolute path = false)
    (base : String) : d.walk place (Path.names (Path.join base path)) =
      d.walk place (Path.names base) >>= fun place => d.walk place (Path.names path) := by
  have hempty := walk_empty d place (names_ne_nil path)
  by_cases hbase : base = ""
  · subst hbase
    rw [Path.join_empty, ← walk_append]
    exact hempty.symm
  · obtain ⟨before, hnames | hnames, hjoin⟩ := Path.names_join h hbase
    · rw [hjoin, hnames, walk_append]
    · rw [hjoin, hnames, ← walk_append, List.append_assoc, List.singleton_append, walk_append,
        walk_append]
      congr 1
      funext next
      exact (walk_empty d next (names_ne_nil path)).symm

theorem reach_eq_walk (d : Disk) (path : String) :
    d.reach path = d.walk [] (Path.names (Path.join d.working path)) := by
  rw [reach, origin]
  split
  · rename_i h
    rw [Path.join_of_absolute h]
    rfl
  · rename_i h
    rw [walk_names_join d [] (Bool.eq_false_iff.2 h)]

theorem reach_join (d : Disk) (h : Path.isAbsolute path = false) (base : String) :
    d.reach (Path.join base path) =
      d.reach base >>= fun place => d.walk place (Path.names path) := by
  by_cases hbase : base = ""
  · subst hbase
    rw [Path.join_empty, reach, reach, origin, origin, h, bind_assoc]
    congr 1
    funext place
    rw [← walk_append]
    exact (walk_empty d place (names_ne_nil path)).symm
  · rw [reach, reach, origin, origin, Path.isAbsolute_join h hbase, bind_assoc]
    congr 1
    funext place
    exact walk_names_join d place h base

theorem grounded_of_origin (h : d.origin path = .ok place) : d.Grounded place := by
  rw [origin] at h
  split at h
  · cases h
    exact grounded_nil d
  · exact (grounded_nil d).walk (fun _ hn => Path.slash_not_mem_of_mem_names hn) h

theorem grounded_of_reach (h : d.reach path = .ok place) : d.Grounded place := by
  obtain ⟨start, hstart, h⟩ := bind_eq_ok h
  exact (grounded_of_origin hstart).walk (fun _ hn => Path.slash_not_mem_of_mem_names hn) h

/-! Looking up. -/

/-- The path is a text that the system looks up. -/
structure Lookable (path : String) : Prop where
  zero : '\x00' ∉ path.toList
  given : path ≠ ""
  short : path.utf8ByteSize ≤ maxPath

theorem isPresent_iff : d.isPresent path = true ↔ ∃ place, d.locate path = .ok place := by
  rw [isPresent]
  cases d.locate path with
  | error e => exact iff_of_false nofun nofun
  | ok place => exact iff_of_true rfl ⟨place, rfl⟩

theorem locate_of_lookable (h : Lookable path) : d.locate path = d.reach path := by
  have hzero : path.toList.contains '\x00' = false := by
    rw [Bool.eq_false_iff]
    exact fun hmem => h.zero (List.contains_iff_mem.1 hmem)
  rw [locate, names, hzero, if_neg Bool.false_ne_true, if_neg h.given,
    if_neg (Nat.not_lt.2 h.short), reach_eq_walk]
  rfl

theorem lookable_of_locate (h : d.locate path = .ok place) : Lookable path := by
  obtain ⟨ns, hns, _⟩ := bind_eq_ok h
  rw [names] at hns
  split at hns
  · cases hns
  · rename_i hzero
    split at hns
    · cases hns
    · rename_i hgiven
      split at hns
      · cases hns
      · rename_i hshort
        exact ⟨fun hmem => hzero (List.contains_iff_mem.2 hmem), hgiven, Nat.not_lt.1 hshort⟩

theorem reach_of_locate (h : d.locate path = .ok place) : d.reach path = .ok place := by
  rw [← locate_of_lookable (lookable_of_locate h), h]

/-! Parents. -/

/-- A path to a file has the file's own name for its last one. -/
theorem exists_last_name {ns : List (List Char)} {file : Place} (h : d.Grounded place)
    (hns : ∀ n ∈ ns, '/' ∉ n) (hne : ns ≠ []) (hwalk : d.walk place ns = .ok file)
    (hfile : d.node? file ≠ some .folder) :
    ∃ before n folder, ns = before ++ [n] ∧ ¬ Path.IsDot n ∧ file = String.ofList n :: folder ∧
      d.walk place before = .ok folder ∧ d.node? folder = some .folder := by
  obtain ⟨before, n, hconcat⟩ := (List.eq_nil_or_concat ns).resolve_left hne
  obtain rfl : ns = before ++ [n] := by rw [hconcat, List.concat_eq_append]
  rw [walk_append] at hwalk
  obtain ⟨folder, hbefore, hlast⟩ := bind_eq_ok hwalk
  rw [walk_singleton] at hlast
  have hgrounded := h.walk (fun m hm => hns m (List.mem_append_left _ hm)) hbefore
  have hdot : ¬ Path.IsDot n := by
    intro hdot
    obtain ⟨rfl, hfolder⟩ := eq_of_follow_isDot hdot hlast
    exact hfile hfolder
  obtain ⟨hfolder, ⟨_, rfl⟩ | ⟨_, rfl⟩ | ⟨_, rfl⟩⟩ := follow_eq_ok hlast
  · exact absurd hfolder hfile
  · -- Two dots lead to a folder, since one lies above every place.
    cases folder with
    | nil => exact absurd hfolder hfile
    | cons m above => exact absurd (hgrounded.above m above (List.suffix_refl _)) hfile
  · exact ⟨before, n, folder, rfl, hdot, rfl, hbefore, hfolder⟩

theorem reach_ofNames {absolute : Bool} {kept : List (List Char)} {folder : Place}
    (hproper : Path.Proper absolute kept) (habsolute : Path.isAbsolute path = absolute)
    (hstart : d.origin path = .ok place) (hwalk : d.walk place kept = .ok folder)
    (hfolder : d.node? folder = some .folder) :
    d.reach (Path.ofNames absolute kept) = .ok folder := by
  by_cases hkept : kept = []
  · subst hkept
    cases hwalk
    cases absolute with
    | true =>
        rw [origin, habsolute, if_pos rfl] at hstart
        cases hstart
        rfl
    | false =>
        rw [origin, habsolute, if_neg Bool.false_ne_true] at hstart
        have hempty : d.reach "" = d.walk [] (Path.names d.working) >>= fun place =>
          d.walk place [[]] := rfl
        have hname : d.walk place [[]] = .ok place := by
          rw [walk_singleton]
          exact follow_of_isDot (.inl rfl) hfolder
        show d.reach "" = .ok place
        rw [hempty, hstart]
        exact hname
  · obtain ⟨hnames, hkind⟩ := Path.names_ofNames hproper hkept
    rw [reach, origin, hkind, hnames, ← habsolute]
    rw [origin] at hstart
    rw [hstart]
    exact hwalk

theorem exists_parent {file : Place} (h : d.locate path = .ok file)
    (hfile : d.node? file ≠ some .folder) :
    ∃ base n folder, file = n :: folder ∧ Path.parent? path = some base ∧
      Path.Leads base path ∧ d.reach base = .ok folder := by
  have hgiven := (lookable_of_locate h).given
  obtain ⟨start, hstart, hwalk⟩ := bind_eq_ok (reach_of_locate h)
  obtain ⟨before, n, folder, hnames, hdot, rfl, hbefore, hfolder⟩ :=
    exists_last_name (grounded_of_origin hstart) (fun _ hn => Path.slash_not_mem_of_mem_names hn)
      (names_ne_nil path) hwalk hfile
  obtain ⟨kept, idle, rfl, hidle, hparent, hleads⟩ := Path.exists_parent hnames hdot
  rw [walk_append] at hbefore
  obtain ⟨next, hkept, hrest⟩ := bind_eq_ok hbefore
  obtain rfl := eq_of_walk_isDot hidle hrest
  have hproper : Path.Proper (Path.isAbsolute path) kept := by
    have hpath := Path.proper_names hgiven
    rw [hnames] at hpath
    exact hpath.of_append
  exact ⟨_, _, _, rfl, hparent, hleads, reach_ofNames hproper rfl hstart hkept hfolder⟩

/-- Where two paths lead to the same folder, a third one leads on from both alike. -/
theorem locate_join_congr {base' : String} {folder : Place} (h : d.reach base = .ok folder)
    (h' : d.reach base' = .ok folder) (hlook : Lookable (Path.join base' path))
    (hlocate : d.locate (Path.join base path) = .ok place) :
    d.locate (Path.join base' path) = .ok place := by
  by_cases habsolute : Path.isAbsolute path = true
  · rw [Path.join_of_absolute habsolute] at hlocate ⊢
    exact hlocate
  · have hrelative := Bool.eq_false_iff.2 habsolute
    have hreach := reach_of_locate hlocate
    rw [reach_join d hrelative, h] at hreach
    rw [locate_of_lookable hlook, reach_join d hrelative, h']
    exact hreach

/-! Canonical paths. -/

theorem toList_path (place : Place) :
    place.path.toList = '/' :: ['/'].intercalate (place.reverse.map String.toList) := by
  rw [Place.path, String.toList_append, String.toList_intercalate]
  rfl

theorem names_path (h : d.Grounded place) (hne : place ≠ []) :
    Path.names place.path = place.reverse.map String.toList := by
  have hslash : ∀ piece ∈ place.reverse.map String.toList, '/' ∉ piece := by
    rw [List.forall_mem_map]
    exact fun name hname => (h.named name (List.mem_reverse.1 hname)).2
  rw [Path.names_of_toList (toList_path place)]
  refine Lines.splitAt_intercalate ?_ hslash
  rw [ne_eq, List.map_eq_nil_iff, List.reverse_eq_nil_iff]
  exact hne

/-- Only the path of the root has no name. -/
theorem eq_nil_of_names_path (h : d.Grounded place) (hnames : Path.names place.path = [[]]) :
    place = [] := by
  by_cases hne : place = []
  · exact hne
  · rw [names_path h hne] at hnames
    obtain ⟨name, hname, hempty⟩ := List.map_eq_singleton_iff.1 hnames
    have hmem : name ∈ place := List.mem_reverse.1 (hname ▸ List.mem_singleton_self name)
    exact absurd (String.toList_eq_nil_iff.1 hempty) (h.named name hmem).1

/-- A canonical path has one place. -/
theorem eq_of_path_eq (h : d.Grounded place) (h' : d.Grounded place')
    (heq : place.path = place'.path) : place = place' := by
  have hempty : Path.names (Place.path []) = [[]] := rfl
  by_cases hne : place = []
  · subst hne
    exact (eq_nil_of_names_path h' (by rw [← heq, hempty])).symm
  · by_cases hne' : place' = []
    · subst hne'
      exact eq_nil_of_names_path h (by rw [heq, hempty])
    · have hnames := names_path h hne
      rw [heq, names_path h' hne', List.map_inj_right fun _ _ => String.toList_inj.1] at hnames
      exact (List.reverse_inj.1 hnames).symm

end Agenda.Disk
