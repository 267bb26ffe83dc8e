import Agenda.Proofs.Settings.Includes

/-!
Files that are read at different paths. The includes of a file start from the path at which it is
read, so they are spelled out differently each time. They lead to the same places all the same,
unless one of them gets too long.
-/

namespace Agenda.Settings

variable {disk : Disk} {env : Environment} {path path' base written : String} {place : Place}
  {line : Line} {lines : List Line}

/-- The path of the home folder, if there is one, does not start with a tilde. -/
def Environment.Settled (env : Environment) : Prop :=
  ∀ home, env.home = some home → home ≠ "" ∧ home.toList.head? ≠ some '~'

/-- The file includes a path that is not too long itself, but is so when it is spelled out from the
path of the file. -/
def Overlong (disk : Disk) (env : Environment) (path : String) : Prop :=
  ∃ place lines, readFile disk path = .ok (place, lines) ∧ ∃ line ∈ lines, ∃ written,
    Directive.ofLine line.text = .embed written ∧
      (Path.expandHome env.home written).utf8ByteSize ≤ Disk.maxPath ∧
      Disk.maxPath < (line.spelled env written).utf8ByteSize

theorem not_overlong (h : ∀ p ∈ named disk env path, p.utf8ByteSize ≤ Disk.maxPath) :
    ¬ Overlong disk env path := by
  rintro ⟨place, lines, hread, line, hline, written, hembed, _, hlong⟩
  refine Nat.not_le.2 hlong (h _ (mem_named_iff.2 ⟨place, lines, hread, ?_⟩))
  exact mem_spellings_iff.2 ⟨line, hline, written, hembed, rfl⟩

/-- The path does not start in the home folder, as it is written. -/
def Plain (env : Environment) (path : String) : Prop := env.home.isSome → ¬ Path.FromHome path

theorem expandHome_of_plain (h : Plain env path) : Path.expandHome env.home path = path := by
  cases hhome : env.home with
  | none => rfl
  | some home =>
      exact Path.expandHome_of_not_fromHome (h (by rw [hhome, Option.isSome_some])) _

theorem plain_expandHome (hsettled : env.Settled) (path : String) :
    Plain env (Path.expandHome env.home path) := by
  intro hsome
  obtain ⟨home, hhome⟩ := Option.isSome_iff_exists.1 hsome
  obtain ⟨hgiven, htilde⟩ := hsettled home hhome
  rw [hhome]
  exact Path.not_fromHome_expandHome hgiven htilde path

theorem Plain.join (h : Plain env path) (hleads : Path.Leads base path) (h' : Plain env path') :
    Plain env (Path.join base path') :=
  fun hsome => Path.not_fromHome_join (h hsome) hleads (h' hsome)

/-- What a line includes is seen from the parent of its file. -/
theorem spelled_eq (hparent : Path.parent? line.path = some base) (written : String) :
    line.spelled env written = Path.join base (Path.expandHome env.home written) := by
  rw [Line.spelled, hparent, Option.getD_some]

/-- Where the home folder is settled, it is read at the path at which it is looked for. -/
theorem target_eq (hsettled : env.Settled) (hpath : Plain env line.path)
    (hparent : Path.parent? line.path = some base) (hleads : Path.Leads base line.path)
    (written : String) : line.target env written = line.spelled env written := by
  rw [Line.target, spelled_eq hparent]
  exact expandHome_of_plain (hpath.join hleads (plain_expandHome hsettled written))

/-- A file's parent, from which its lines go on. -/
theorem exists_parent_of_readFile (h : readFile disk path = .ok (place, lines)) :
    ∃ base n folder, place = n :: folder ∧ Path.parent? path = some base ∧
      Path.Leads base path ∧ disk.reach base = .ok folder := by
  obtain ⟨hlocate, _, content, _, hcontent, _⟩ := readFile_eq_ok h
  refine Disk.exists_parent hlocate fun hfolder => ?_
  rw [Disk.contentAt, hfolder] at hcontent
  cases hcontent

theorem plain_of_mem_included (hsettled : env.Settled) (h : Plain env path)
    (hnext : path' ∈ included disk env path) : Plain env path' := by
  obtain ⟨place, lines, hread, hmem⟩ := mem_included_iff.1 hnext
  obtain ⟨line, hline, written, _, _, rfl⟩ := mem_targets_iff.1 hmem
  obtain ⟨base, _, _, _, hparent, hleads, _⟩ := exists_parent_of_readFile hread
  obtain rfl := path_of_readFile hread hline
  rw [target_eq hsettled h hparent hleads, spelled_eq hparent]
  exact h.join hleads (plain_expandHome hsettled written)

theorem plain_of_reachable (hsettled : env.Settled) (h : Reachable disk env path path')
    (hpath : Plain env path) : Plain env path' := by
  induction h with
  | refl => exact hpath
  | tail _ hnext ih => exact plain_of_mem_included hsettled ih hnext

theorem expandHome_ne_empty (hsettled : env.Settled) (hwritten : written ≠ "") :
    Path.expandHome env.home written ≠ "" := by
  unfold Path.expandHome
  split
  · rename_i home rest hhome _
    exact Path.join_ne_empty (hsettled home hhome).1 _
  · exact hwritten

/-- What can be looked up as seen from one path can be so as seen from another one, unless it gets
too long. -/
theorem lookable_join {base' next : String} (hleads : Path.Leads base' path')
    (hpath' : Disk.Lookable path') (hnext : next ≠ "") (h : Disk.Lookable (Path.join base next))
    (hshort : (Path.join base' next).utf8ByteSize ≤ Disk.maxPath) :
    Disk.Lookable (Path.join base' next) where
  zero := by
    intro hzero
    obtain hzero | hzero | hzero := Path.mem_of_mem_join hzero
    · obtain hzero | hzero := hleads.mem hzero
      · cases hzero
      · exact hpath'.zero hzero
    · cases hzero
    · exact h.zero ((Path.suffix_join base next).mem hzero)
  given := by
    intro hempty
    have hsuffix := Path.suffix_join base' next
    rw [hempty] at hsuffix
    exact Path.toList_ne_nil hnext (List.suffix_nil.1 hsuffix)
  short := hshort

/-- At another path of a file, what it includes is found at the same places. -/
theorem exists_included_eq (hsettled : env.Settled) (hpath : Plain env path)
    (hpath' : Plain env path') (h : disk.canonicalize path' = disk.canonicalize path)
    (hshort : ¬ Overlong disk env path') {next : String} (hnext : next ∈ included disk env path) :
    ∃ next' ∈ included disk env path', disk.canonicalize next' = disk.canonicalize next := by
  obtain ⟨place, lines, hread, hmem⟩ := mem_included_iff.1 hnext
  obtain ⟨line, hline, written, hembed, hpresent, rfl⟩ := mem_targets_iff.1 hmem
  obtain ⟨found, hfound⟩ := Disk.isPresent_iff.1 hpresent
  -- The line is read at the other path as well.
  have hlocate' := Disk.locate_eq_of_canonicalize_eq (locate_of_readFile hread) h
  obtain ⟨lines', hread', hlines'⟩ := readFile_congr hread hlocate'
  obtain ⟨line', hline', htext⟩ := hlines' line hline
  rw [← htext] at hembed
  obtain ⟨base, n, folder, hplace, hparent, hleads, hreach⟩ := exists_parent_of_readFile hread
  obtain ⟨base', n', folder', hplace', hparent', hleads', hreach'⟩ :=
    exists_parent_of_readFile hread'
  obtain ⟨rfl, rfl⟩ := List.cons.inj (hplace.symm.trans hplace')
  obtain rfl := path_of_readFile hread hline
  obtain rfl := path_of_readFile hread' hline'
  have hspelled : line.spelled env written = Path.join base (Path.expandHome env.home written) :=
    spelled_eq hparent written
  have hspelled' : line'.spelled env written = Path.join base' (Path.expandHome env.home written) :=
    spelled_eq hparent' written
  rw [hspelled] at hfound
  have hlook := Disk.lookable_of_locate hfound
  have hlook' : Disk.Lookable (Path.join base' (Path.expandHome env.home written)) := by
    refine lookable_join hleads' (Disk.lookable_of_locate hlocate')
      (expandHome_ne_empty hsettled (embed_ne_empty hembed)) hlook ?_
    refine Nat.le_of_not_lt fun hlong => hshort ?_
    refine ⟨place, lines', hread', line', hline', written, hembed, ?_, hspelled' ▸ hlong⟩
    exact Nat.le_trans (Path.utf8ByteSize_le_join base _) hlook.short
  have hfound' := Disk.locate_join_congr hreach hreach' hlook' hfound
  have hpresent' : disk.isPresent (line'.spelled env written) = true :=
    Disk.isPresent_iff.2 ⟨found, hspelled' ▸ hfound'⟩
  refine ⟨line'.target env written, mem_included_iff.2 ⟨place, lines', hread', ?_⟩, ?_⟩
  · exact mem_targets_iff.2 ⟨line', hline', written, hembed, hpresent', rfl⟩
  · rw [target_eq hsettled hpath hparent hleads, target_eq hsettled hpath' hparent' hleads',
      hspelled, hspelled', Disk.canonicalize_of_locate hfound,
      Disk.canonicalize_of_locate hfound']

/-- Whether a file is fit does not depend on the path at which it is read. -/
theorem unfit_congr (h : disk.canonicalize path' = disk.canonicalize path)
    (hunfit : Unfit disk path) : Unfit disk path' := by
  cases hread : readFile disk path' with
  | error e => exact .inl ⟨e, hread⟩
  | ok r =>
      obtain ⟨place, lines'⟩ := r
      have hlocate' := locate_of_readFile hread
      have hlocate := Disk.locate_eq_of_canonicalize_eq hlocate' h.symm
      obtain ⟨lines, hlines, _⟩ := readFile_congr hread hlocate
      obtain ⟨e, herror⟩ | ⟨_, _, hsame, line, hline, hwrong⟩ := hunfit
      · rw [hlines] at herror
        cases herror
      · obtain ⟨rfl, rfl⟩ := Prod.mk.inj (Except.ok.inj (hlines.symm.trans hsame))
        obtain ⟨_, hagain, htexts⟩ := readFile_congr hlines hlocate'
        obtain ⟨line', hline', htext⟩ := htexts line hline
        exact .inr ⟨_, _, hagain, line', hline', htext ▸ hwrong⟩

/-- Where no path gets too long for them, the visits come to everything that is reachable. -/
theorem exists_visited_of_reachable {root : String} {visited : List String}
    (hsettled : env.Settled) (hroot : Plain env root)
    (hvisited : Visits disk.canonicalize (included disk env) [] [root] visited)
    (hshort : ∀ p ∈ visited, ¬ Overlong disk env p) (h : Reachable disk env root path) :
    ∃ p ∈ visited, disk.canonicalize p = disk.canonicalize path := by
  obtain ⟨hstart, hcomplete⟩ := hvisited.complete
  have hplain : ∀ p ∈ visited, Plain env p := hvisited.forall_mem (List.forall_mem_nil _)
    (List.forall_mem_singleton.2 hroot) fun p hp q hq => plain_of_mem_included hsettled hp hq
  induction h with
  | refl => exact List.mem_map.1 (hstart root (List.mem_singleton_self root))
  | tail hpath hnext ih =>
      obtain ⟨p, hp, heq⟩ := ih
      obtain ⟨q, hq, hcanonical⟩ := exists_included_eq hsettled
        (plain_of_reachable hsettled hpath hroot) (hplain p hp) heq (hshort p hp) hnext
      have hkey := (hcomplete p hp).resolve_left List.not_mem_nil q hq
      rw [hcanonical] at hkey
      exact List.mem_map.1 hkey

end Agenda.Settings
