import Agenda.Proofs.Disk
import Agenda.Proofs.Settings.Visits
import Agenda.Settings.RcFile
import Mathlib.Logic.Relation

/-!
What is read where files of settings include each other. The files are visited depth first, each at
the first path that leads to it.
-/

namespace Agenda

namespace Disk

/-- The path of the place that a path leads to. -/
def canonicalize (d : Disk) (path : String) : Except File.Error String :=
  (d.locate path).map Place.path

variable {d : Disk} {path path' : String} {place : Place}

theorem locate_of_canonicalize {c : String} (h : d.canonicalize path = .ok c) :
    ∃ place, d.locate path = .ok place ∧ c = place.path := by
  rw [canonicalize] at h
  cases hl : d.locate path with
  | error e => rw [hl] at h; cases h
  | ok place =>
      rw [hl] at h
      cases h
      exact ⟨place, rfl, rfl⟩

theorem canonicalize_of_locate (h : d.locate path = .ok place) :
    d.canonicalize path = .ok place.path := by
  rw [canonicalize, h]
  rfl

/-- Paths with one canonical path lead to one place. -/
theorem locate_eq_of_canonicalize_eq (h : d.locate path = .ok place)
    (heq : d.canonicalize path' = d.canonicalize path) : d.locate path' = .ok place := by
  rw [canonicalize_of_locate h] at heq
  obtain ⟨place', hplace', hpath⟩ := locate_of_canonicalize heq
  rw [hplace', eq_of_path_eq (grounded_of_reach (reach_of_locate h))
    (grounded_of_reach (reach_of_locate hplace')) hpath]

end Disk

namespace Settings

/-! What the files say. -/

/-- The paths that the file at a path includes, as they are spelled out from there, whether or not
something is there. -/
def named (disk : Disk) (env : Environment) (path : String) : List String :=
  match readFile disk path with
  | .error _ => []
  | .ok (_, lines) => spellings env lines

/-- The paths at which the files are read that the file at a path includes. -/
def included (disk : Disk) (env : Environment) (path : String) : List String :=
  match readFile disk path with
  | .error _ => []
  | .ok (_, lines) => targets disk env lines

/-- Includes lead from the one path to the other. -/
def Reachable (disk : Disk) (env : Environment) : String → String → Prop :=
  Relation.ReflTransGen fun path path' => path' ∈ included disk env path

theorem Reachable.next {disk : Disk} {env : Environment} {root path path' : String}
    (h : Reachable disk env root path) (hnext : path' ∈ included disk env path) :
    Reachable disk env root path' :=
  Relation.ReflTransGen.tail h hnext

/-- A line that is not blank, and neither includes a file nor has an equals sign. -/
def IsWrong (line : List Char) : Prop :=
  withoutComment line ≠ [] ∧ ¬ "include ".toList <+: withoutComment line ∧
    '=' ∉ withoutComment line

instance (line : List Char) : Decidable (IsWrong line) := inferInstanceAs (Decidable (_ ∧ _ ∧ _))

/-- The file cannot be read or has no canonical path, or a line of it is wrong. -/
def Unfit (disk : Disk) (path : String) : Prop :=
  (∃ e, readFile disk path = .error e) ∨
    ∃ place lines, readFile disk path = .ok (place, lines) ∧ ∃ line ∈ lines, IsWrong line.text

theorem unfit_iff {disk : Disk} {path : String} {place : Place} {lines : List Line}
    (h : readFile disk path = .ok (place, lines)) :
    Unfit disk path ↔ ∃ line ∈ lines, IsWrong line.text := by
  rw [Unfit, h]
  constructor
  · rintro (⟨e, heq⟩ | ⟨_, _, heq, hwrong⟩)
    · cases heq
    · cases heq
      exact hwrong
  · exact fun hwrong => .inr ⟨place, lines, rfl, hwrong⟩

instance (disk : Disk) (path : String) : Decidable (Unfit disk path) :=
  match h : readFile disk path with
  | .error e => .isTrue (.inl ⟨e, h⟩)
  | .ok (_, _) => decidable_of_iff _ (unfit_iff h).symm

/-! Lines. -/

section Lines

theorem dropStart?_eq_some_iff {start cs rest : List Char} :
    dropStart? start cs = some rest ↔ cs = start ++ rest := by
  induction start generalizing cs with
  | nil => exact ⟨fun h => Option.some.inj h, fun h => congrArg some h⟩
  | cons s start ih =>
      cases cs with
      | nil => exact ⟨nofun, nofun⟩
      | cons c cs =>
          rw [dropStart?]
          split
          · rename_i heq
            rw [ih, heq, List.cons_append, List.cons_inj_right]
          · rename_i hne
            refine ⟨nofun, fun heq => absurd ?_ hne⟩
            rw [List.cons_append, List.cons.injEq] at heq
            exact heq.1.symm

theorem ofText?_eq_none_iff {cs : List Char} : Assignment.ofText? cs = none ↔ '=' ∉ cs := by
  rw [Assignment.ofText?, Option.map_eq_none_iff, Lines.splitFirst?_eq_none_iff]

theorem ofLine_eq_invalid_iff {line : List Char} :
    Directive.ofLine line = .invalid ↔ IsWrong line := by
  rw [Directive.ofLine, IsWrong]
  by_cases hblank : withoutComment line = []
  · rw [hblank]
    exact iff_of_false nofun fun h => h.1 rfl
  · simp only [List.isEmpty_iff, if_neg hblank]
    cases hstart : dropStart? "include ".toList (withoutComment line) with
    | some rest =>
        refine iff_of_false nofun fun h => h.2.1 ?_
        exact ⟨rest, (dropStart?_eq_some_iff.1 hstart).symm⟩
    | none =>
        have hprefix : ¬ "include ".toList <+: withoutComment line := by
          rintro ⟨rest, heq⟩
          rw [dropStart?_eq_some_iff.2 heq.symm] at hstart
          cases hstart
        cases htext : Assignment.ofText? (withoutComment line) with
        | some assignment =>
            refine iff_of_false nofun fun h => ?_
            rw [ofText?_eq_none_iff.2 h.2.2] at htext
            cases htext
        | none => exact iff_of_true rfl ⟨hblank, hprefix, ofText?_eq_none_iff.1 htext⟩

theorem isBlank_of_getLast?_withoutComment {line : List Char} {c : Char}
    (h : (withoutComment line).getLast? = some c) : Blank.isBlank c = false := by
  rw [withoutComment] at h
  split at h
  · exact Blank.isBlank_of_getLast?_trim h
  · exact Blank.isBlank_of_getLast?_trim h

/-- Where a line includes a path, the path is not blank: the line does not end with a blank. -/
theorem embed_ne_empty {line : List Char} {written : String}
    (h : Directive.ofLine line = .embed written) : written ≠ "" := by
  rw [Directive.ofLine] at h
  split at h
  · cases h
  · split at h
    · rename_i rest hrest
      cases h
      intro hempty
      have hline := dropStart?_eq_some_iff.1 hrest
      have hrest : Blank.trim rest = [] := by
        rw [← String.toList_ofList (l := Blank.trim rest), hempty]
        rfl
      obtain ⟨c, hc⟩ : ∃ c, (' ' :: rest).getLast? = some c :=
        ⟨_, List.getLast?_eq_some_getLast (List.cons_ne_nil ' ' rest)⟩
      have hlast : (withoutComment line).getLast? = some c := by
        have hsplit : withoutComment line = "include".toList ++ ' ' :: rest := hline
        rw [hsplit, List.getLast?_append, hc, Option.some_or]
      have hblank := isBlank_of_getLast?_withoutComment hlast
      obtain rfl | hmem := List.mem_cons.1 (List.mem_of_getLast? hc)
      · cases hblank
      · exact List.ne_nil_of_mem (Blank.mem_trim hmem hblank) hrest
    · split at h <;> cases h

theorem mem_spellings_iff {env : Environment} {lines : List Line} {path : String} :
    path ∈ spellings env lines ↔ ∃ line ∈ lines, ∃ written,
      Directive.ofLine line.text = .embed written ∧ path = line.spelled env written := by
  rw [spellings, List.mem_filterMap]
  refine exists_congr fun line => and_congr_right fun _ => ?_
  split
  · rename_i written h
    rw [h]
    constructor
    · intro heq
      exact ⟨written, rfl, (Option.some.inj heq).symm⟩
    · rintro ⟨written', heq, rfl⟩
      cases heq
      rfl
  · rename_i h
    exact iff_of_false nofun fun ⟨written, heq, _⟩ => h written heq

theorem mem_targets_iff {disk : Disk} {env : Environment} {lines : List Line} {path : String} :
    path ∈ targets disk env lines ↔ ∃ line ∈ lines, ∃ written,
      Directive.ofLine line.text = .embed written ∧
        disk.isPresent (line.spelled env written) = true ∧ path = line.target env written := by
  rw [targets, List.mem_map]
  constructor
  · rintro ⟨spelled, hspelled, rfl⟩
    obtain ⟨hspelled, hpresent⟩ := List.mem_filter.1 hspelled
    obtain ⟨line, hline, written, hembed, rfl⟩ := mem_spellings_iff.1 hspelled
    exact ⟨line, hline, written, hembed, hpresent, rfl⟩
  · rintro ⟨line, hline, written, hembed, hpresent, rfl⟩
    refine ⟨line.spelled env written, List.mem_filter.2 ⟨?_, hpresent⟩, rfl⟩
    exact mem_spellings_iff.2 ⟨line, hline, written, hembed, rfl⟩

theorem mem_named_iff {disk : Disk} {env : Environment} {path path' : String} :
    path' ∈ named disk env path ↔ ∃ place lines, readFile disk path = .ok (place, lines) ∧
      path' ∈ spellings env lines := by
  rw [named]
  cases h : readFile disk path with
  | error e => exact iff_of_false List.not_mem_nil fun ⟨_, _, heq, _⟩ => nomatch heq
  | ok r =>
      obtain ⟨place, lines⟩ := r
      constructor
      · exact fun hmem => ⟨place, lines, rfl, hmem⟩
      · rintro ⟨_, _, heq, hmem⟩
        cases heq
        exact hmem

theorem mem_included_iff {disk : Disk} {env : Environment} {path path' : String} :
    path' ∈ included disk env path ↔ ∃ place lines, readFile disk path = .ok (place, lines) ∧
      path' ∈ targets disk env lines := by
  rw [included]
  cases h : readFile disk path with
  | error e => exact iff_of_false List.not_mem_nil fun ⟨_, _, heq, _⟩ => nomatch heq
  | ok r =>
      obtain ⟨place, lines⟩ := r
      constructor
      · exact fun hmem => ⟨place, lines, rfl, hmem⟩
      · rintro ⟨_, _, heq, hmem⟩
        cases heq
        exact hmem

/-- Paths among which a path stands with all that they include are all that it leads to. -/
theorem mem_of_reachable {disk : Disk} {env : Environment} {root path : String}
    {list : List String} (h : Reachable disk env root path) (hroot : root ∈ list)
    (hlist : ∀ p ∈ list, included disk env p ⊆ list) : path ∈ list := by
  induction h with
  | refl => exact hroot
  | tail _ hnext ih => exact hlist _ ih hnext

end Lines

/-! Files. -/

section Files

variable {disk : Disk} {path path' : String} {place : Place} {lines : List Line}

theorem readFile_eq_ok (h : readFile disk path = .ok (place, lines)) :
    disk.locate path = .ok place ∧ place.path.utf8ByteSize ≤ Disk.maxPath ∧
      ∃ content cs, disk.contentAt place = .ok content ∧ Utf8.decode? content = some cs ∧
        lines = numbered path (Lines.lines cs) := by
  rw [readFile] at h
  split at h
  · cases h
  · rename_i content hcontent
    split at h
    · cases h
    · rename_i cs hcs
      split at h
      · cases h
      · rename_i found hfound
        cases h
        obtain ⟨hlocate, hshort⟩ := Disk.resolve_eq_ok hfound
        exact ⟨hlocate, hshort, content, cs, Disk.contentAt_of_read hcontent hlocate, hcs, rfl⟩

theorem locate_of_readFile (h : readFile disk path = .ok (place, lines)) :
    disk.locate path = .ok place :=
  (readFile_eq_ok h).1

theorem mem_numbered {texts : List (List Char)} {line : Line} (h : line ∈ numbered path texts) :
    line.path = path ∧ line.text ∈ texts := by
  obtain ⟨⟨text, i⟩, hmem, rfl⟩ := List.mem_map.1 h
  exact ⟨rfl, (List.mem_zipIdx' hmem).2 ▸ List.getElem_mem _⟩

theorem exists_numbered {texts : List (List Char)} {text : List Char} (h : text ∈ texts)
    (path : String) : ∃ line ∈ numbered path texts, line.text = text := by
  obtain ⟨i, hi⟩ := List.getElem?_of_mem h
  refine ⟨⟨path, i + 1, text⟩, List.mem_map.2 ⟨(text, i), ?_, rfl⟩, rfl⟩
  exact List.mem_zipIdx_iff_getElem?.2 hi

theorem path_of_readFile {line : Line} (h : readFile disk path = .ok (place, lines))
    (hline : line ∈ lines) : line.path = path := by
  obtain ⟨_, _, _, _, _, _, rfl⟩ := readFile_eq_ok h
  exact (mem_numbered hline).1

theorem readFile_of_locate {content : List UInt8} {cs : List Char}
    (hlocate : disk.locate path = .ok place) (hshort : place.path.utf8ByteSize ≤ Disk.maxPath)
    (hcontent : disk.contentAt place = .ok content) (hcs : Utf8.decode? content = some cs) :
    readFile disk path = .ok (place, numbered path (Lines.lines cs)) := by
  have hread : disk.read path = .ok content := by
    rw [Disk.read, hlocate]
    exact hcontent
  have hresolve : disk.resolve path = .ok place := by
    rw [Disk.resolve, hlocate]
    exact if_neg (Nat.not_lt.2 hshort)
  simp only [readFile, hread, hcs, hresolve]

/-- At another path of the same place the same lines are read. -/
theorem readFile_congr (h : readFile disk path = .ok (place, lines))
    (hlocate : disk.locate path' = .ok place) :
    ∃ lines', readFile disk path' = .ok (place, lines') ∧
      ∀ line ∈ lines, ∃ line' ∈ lines', line'.text = line.text := by
  obtain ⟨_, hshort, content, cs, hcontent, hcs, rfl⟩ := readFile_eq_ok h
  refine ⟨_, readFile_of_locate hlocate hshort hcontent hcs, fun line hline => ?_⟩
  exact exists_numbered (mem_numbered hline).2 path'

end Files

end Settings

end Agenda
