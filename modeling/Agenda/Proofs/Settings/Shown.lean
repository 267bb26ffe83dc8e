import Agenda.Proofs.Settings.Flattening
import Agenda.Proofs.Settings.Loading

/-!
What is shown of settings is itself a file of settings. Everything that a file can assign is written
on one line from which the same assignment is read, and the paths of the files are comments, so the
text loads again and every key has the value that was shown.
-/

namespace Agenda

namespace Assignment

/-- The assignment is one that a line of a file can make: no part of it would be read as the end of
the line, as a comment or as an include, and no blank would be trimmed. -/
structure Written (a : Assignment) : Prop where
  key_trimmed : Blank.trim a.1.toList = a.1.toList
  value_trimmed : Blank.trim a.2.toList = a.2.toList
  parted : '=' ∉ a.1.toList
  included : ¬ "include ".toList <+: a.1.toList
  key_spelled : ∀ c ∈ a.1.toList, c ≠ '#' ∧ c ≠ '\n'
  value_spelled : ∀ c ∈ a.2.toList, c ≠ '#' ∧ c ≠ '\n'

/-- The line on which an assignment is shown. -/
def shown (a : Assignment) : List Char := a.1.toList ++ '=' :: a.2.toList

namespace Written

variable {a : Assignment}

theorem spelled_shown (h : a.Written) {c : Char} (hc : c ∈ a.shown) : c ≠ '#' ∧ c ≠ '\n' := by
  obtain hc | hc := List.mem_append.1 hc
  · exact h.key_spelled c hc
  · obtain rfl | hc := List.mem_cons.1 hc
    · decide
    · exact h.value_spelled c hc

theorem isBlank_of_head?_shown (h : a.Written) {c : Char} (hc : a.shown.head? = some c) :
    Blank.isBlank c = false := by
  rw [shown, List.head?_append] at hc
  obtain hc | ⟨_, hc⟩ := Option.or_eq_some_iff.1 hc
  · rw [← h.key_trimmed] at hc
    exact Blank.isBlank_of_head?_trim hc
  · cases hc
    rfl

theorem isBlank_of_getLast?_shown (h : a.Written) {c : Char} (hc : a.shown.getLast? = some c) :
    Blank.isBlank c = false := by
  rw [shown, List.getLast?_append, List.getLast?_cons] at hc
  cases hlast : a.2.toList.getLast? with
  | none =>
      rw [hlast] at hc
      cases hc
      rfl
  | some last =>
      rw [hlast] at hc
      cases hc
      rw [← h.value_trimmed] at hlast
      exact Blank.isBlank_of_getLast?_trim hlast

theorem trim_shown (h : a.Written) : Blank.trim a.shown = a.shown :=
  Blank.trim_eq_self (fun _ => h.isBlank_of_head?_shown) fun _ => h.isBlank_of_getLast?_shown

theorem dropCarriageReturn_shown (h : a.Written) :
    Lines.dropCarriageReturn a.shown = a.shown := by
  rw [Lines.dropCarriageReturn, if_neg]
  intro hlast
  cases h.isBlank_of_getLast?_shown hlast

theorem not_prefix_shown (h : a.Written) : ¬ "include ".toList <+: a.shown := by
  rintro ⟨rest, heq⟩
  obtain ⟨key, hkey, _⟩ | ⟨back, hback, hrest⟩ := List.append_eq_append_iff.1 heq
  · exact h.included ⟨key, hkey.symm⟩
  · cases back with
    | nil =>
        rw [List.append_nil] at hback
        exact h.included ⟨[], by rw [← hback, List.append_nil]⟩
    | cons c back =>
        have hmem : c ∈ "include ".toList := by
          rw [hback]
          exact List.mem_append_right _ List.mem_cons_self
        rw [List.cons_append, List.cons.injEq] at hrest
        rw [← hrest.1] at hmem
        revert hmem
        decide

theorem ofText?_shown (h : a.Written) : ofText? a.shown = some a := by
  simp only [ofText?, shown, Lines.splitFirst?_append h.parted, Option.map_some, h.key_trimmed,
    h.value_trimmed, String.ofList_toList]

end Written

end Assignment

namespace Settings

variable {disk : Disk} {env : Environment} {given : Option String} {met after : List Place}
  {lines : List Line} {said : List Assignment} {s : Settings} {a : Assignment}

/-! Lines. -/

theorem withoutComment_of_not_mem {line : List Char} (h : '#' ∉ line) :
    withoutComment line = Blank.trim line := by
  rw [withoutComment, Lines.splitFirst?_eq_none_iff.2 h]

/-- What is left of a line is a trimmed part of it in front of a comment. -/
theorem exists_withoutComment_eq (line : List Char) :
    ∃ front, withoutComment line = Blank.trim front ∧ front <+: line ∧ '#' ∉ front := by
  rw [withoutComment]
  split
  · rename_i before after hsplit
    obtain ⟨rfl, hbefore⟩ := Lines.splitFirst?_eq_some_iff.1 hsplit
    exact ⟨before, rfl, List.prefix_append _ _, hbefore⟩
  · rename_i hsplit
    exact ⟨line, rfl, List.prefix_rfl, Lines.splitFirst?_eq_none_iff.1 hsplit⟩

theorem ofLine_eq_assign {line : List Char} (h : Directive.ofLine line = .assign a) :
    ¬ "include ".toList <+: withoutComment line ∧
      Assignment.ofText? (withoutComment line) = some a := by
  rw [Directive.ofLine] at h
  split at h
  · cases h
  · split at h
    · cases h
    · rename_i hstart
      split at h
      · rename_i htext
        cases h
        refine ⟨?_, htext⟩
        rintro ⟨rest, heq⟩
        rw [dropStart?_eq_some_iff.2 heq.symm] at hstart
        cases hstart
      · cases h

/-- What a line assigns can be written. -/
theorem written_of_ofLine {line : List Char} (h : Directive.ofLine line = .assign a)
    (hline : '\n' ∉ line) : a.Written := by
  obtain ⟨hinclude, htext⟩ := ofLine_eq_assign h
  obtain ⟨front, hfront, hpart, hcomment⟩ := exists_withoutComment_eq line
  rw [hfront] at hinclude htext
  obtain ⟨⟨key, value⟩, hsplit, rfl⟩ := Option.map_eq_some_iff.1 htext
  obtain ⟨hparts, hkey⟩ := Lines.splitFirst?_eq_some_iff.1 hsplit
  have hspelled : ∀ c ∈ Blank.trim front, c ≠ '#' ∧ c ≠ '\n' := by
    intro c hc
    have hmem := Blank.mem_of_mem_trim hc
    constructor
    · rintro rfl
      exact hcomment hmem
    · rintro rfl
      exact hline (hpart.mem hmem)
  rw [hparts] at hspelled hinclude
  have hfirst : ∀ c ∈ key.head?, Blank.isBlank c = false := by
    intro c hc
    have hhead : (Blank.trim front).head? = some c := by
      rw [hparts, List.head?_append, hc, Option.some_or]
    exact Blank.isBlank_of_head?_trim hhead
  constructor <;> simp only [String.toList_ofList]
  case key_trimmed | value_trimmed => exact Blank.trim_trim _
  case parted => exact fun hmem => hkey (Blank.mem_of_mem_trim hmem)
  case included =>
      intro hstart
      exact hinclude ((hstart.trans (Blank.trim_prefix hfirst)).trans (List.prefix_append _ _))
  case key_spelled =>
      exact fun c hc => hspelled c (List.mem_append_left _ (Blank.mem_of_mem_trim hc))
  case value_spelled =>
      intro c hc
      exact hspelled c
        (List.mem_append_right _ (List.mem_cons_of_mem _ (Blank.mem_of_mem_trim hc)))

theorem ofLine_shown (h : a.Written) : Directive.ofLine a.shown = .assign a := by
  have hcomment : '#' ∉ a.shown := fun hmem => (h.spelled_shown hmem).1 rfl
  have hgiven : a.shown.isEmpty = false := by
    rw [List.isEmpty_eq_false_iff, Assignment.shown]
    exact List.append_ne_nil_of_right_ne_nil _ (List.cons_ne_nil _ _)
  have hstart : dropStart? "include ".toList a.shown = none := by
    rw [Option.eq_none_iff_forall_ne_some]
    intro rest hrest
    exact h.not_prefix_shown ⟨rest, (dropStart?_eq_some_iff.1 hrest).symm⟩
  simp only [Directive.ofLine, withoutComment_of_not_mem hcomment, h.trim_shown, hgiven,
    Bool.false_eq_true, if_false, hstart, h.ofText?_shown]

theorem ofLine_comment {line : List Char} (h : line.head? = some '#') :
    Directive.ofLine (Lines.dropCarriageReturn line) = .nothing := by
  obtain ⟨rest, rfl⟩ := List.head?_eq_some_iff.1 h
  obtain hnil | ⟨front, hfront, _⟩ :=
    List.prefix_cons_iff.1 (Lines.dropCarriageReturn_prefix ('#' :: rest))
  · rw [hnil]
    rfl
  · rw [hfront]
    rfl

/-! What loading gives can be written. -/

theorem newline_not_mem_of_readFile {path : String} {place : Place} {line : Line}
    (h : readFile disk path = .ok (place, lines)) (hline : line ∈ lines) : '\n' ∉ line.text := by
  obtain ⟨_, _, _, _, _, _, rfl⟩ := readFile_eq_ok h
  exact Lines.not_mem_of_mem_lines (mem_numbered hline).2

theorem Flattens.written (h : Flattens disk env met lines said after)
    (hlines : ∀ line ∈ lines, '\n' ∉ line.text) : ∀ a ∈ said, a.Written := by
  induction h with
  | done => exact List.forall_mem_nil _
  | silent _ _ ih | absent _ _ _ ih | again _ _ _ _ _ ih =>
      exact ih (List.forall_mem_cons.1 hlines).2
  | assign tells _ ih =>
      obtain ⟨hline, hlines⟩ := List.forall_mem_cons.1 hlines
      exact List.forall_mem_cons.2 ⟨written_of_ofLine tells hline, ih hlines⟩
  | first _ _ read _ _ _ ihBelow ihRest =>
      refine List.forall_mem_append.2 ⟨ihBelow fun line hline => ?_, ?_⟩
      · exact newline_not_mem_of_readFile read hline
      · exact ihRest (List.forall_mem_cons.1 hlines).2

theorem FileTells.written (h : FileTells disk env given said) : ∀ a ∈ said, a.Written := by
  cases h with
  | nothing => exact List.forall_mem_nil _
  | file _ read flat => exact flat.written fun _ => newline_not_mem_of_readFile read

theorem written_defaults : ∀ a ∈ defaults.assignments, a.Written := by
  have hlines : ∀ a ∈ defaults.assignments,
      Directive.ofLine a.shown = .assign a ∧ '\n' ∉ a.shown := by decide
  exact fun a ha => written_of_ofLine (hlines a ha).1 (hlines a ha).2

/-! Entries. -/

theorem mem_assignments_of_get? {key value : String} (h : s.get? key = some value) :
    (key, value) ∈ s.assignments := by
  obtain ⟨before, after, heq, _⟩ := List.lookup_eq_some_iff.1 h
  rw [← List.mem_reverse, heq]
  exact List.mem_append_right _ List.mem_cons_self

theorem exists_get?_of_mem_keys {key : String} (h : key ∈ s.keys) :
    ∃ value, s.get? key = some value := by
  rw [← Option.isSome_iff_exists, get?, List.lookup_isSome_iff]
  obtain ⟨a, ha, rfl⟩ := List.mem_map.1 (List.mem_eraseDups.1 h)
  exact ⟨a, List.mem_reverse.2 ha, beq_self_eq_true _⟩

theorem mem_keys_of_get? {key value : String} (h : s.get? key = some value) : key ∈ s.keys :=
  List.mem_eraseDups.2 (List.mem_map_of_mem (mem_assignments_of_get? h))

theorem mem_assignments_of_mem_entries (h : a ∈ s.entries) : a ∈ s.assignments := by
  obtain ⟨key, hkey, rfl⟩ := List.mem_map.1 h
  obtain ⟨value, hvalue⟩ := exists_get?_of_mem_keys (List.mem_mergeSort.1 hkey)
  rw [hvalue]
  exact mem_assignments_of_get? hvalue

/-- The entries hold the value of every key. -/
theorem lookup_entries (s : Settings) (key : String) :
    s.entries.reverse.lookup key = s.get? key := by
  rw [entries, ← List.map_reverse]
  by_cases hkey : key ∈ s.keys
  · obtain ⟨value, hvalue⟩ := exists_get?_of_mem_keys hkey
    rw [List.lookup_graph _ (List.mem_reverse.2 (List.mem_mergeSort.2 hkey)), hvalue]
    rfl
  · have hnone : s.get? key = none := by
      rw [Option.eq_none_iff_forall_ne_some]
      exact fun value hvalue => hkey (mem_keys_of_get? hvalue)
    rw [hnone, List.lookup_eq_none_iff, List.forall_mem_map]
    intro other hother
    rw [bne_iff_ne]
    rintro rfl
    exact hkey (List.mem_mergeSort.1 (List.mem_reverse.1 hother))

/-- Settings that a file with these entries gives have the same values. -/
theorem get?_of_entries (hs : s.assignments = defaults.assignments ++ said)
    (loaded : List String) (key : String) :
    (Settings.mk (defaults.assignments ++ s.entries) loaded).get? key = s.get? key := by
  have hdefault : s.get? key =
      (said.reverse.lookup key).or (defaults.assignments.reverse.lookup key) := by
    rw [get?, hs, List.reverse_append, List.lookup_append]
  rw [get?, List.reverse_append, List.lookup_append, lookup_entries, hdefault, Option.or_assoc,
    Option.or_self]

/-! Loading what is shown. -/

/-- The lines of a shown text: an assignment or a comment each. -/
def shownLines (s : Settings) : List (List Char) :=
  s.entries.map Assignment.shown ++ s.loaded.map fun path => "# loaded ".toList ++ path.toList

theorem toList_text (s : Settings) :
    s.text.toList = s.shownLines.flatMap fun line => line ++ ['\n'] := by
  rw [text, String.toList_append, String.toList_join, String.toList_join, shownLines,
    List.flatMap_append, List.flatMap_map, List.flatMap_map, List.flatMap_map, List.flatMap_map]
  simp only [String.toList_append, Assignment.shown, List.append_assoc]
  rfl

/-- Lines that assign, and behind them lines that say nothing, add their assignments. -/
theorem loadOn_of_directives {silent : Nat}
    (h : lines.map (fun line => Directive.ofLine line.text) =
      said.map .assign ++ List.replicate silent .nothing) (met : List Place) (s : Settings) :
    loadOn disk env met s lines = .ok { s with assignments := s.assignments ++ said } := by
  induction lines generalizing said silent s with
  | nil =>
      obtain ⟨hsaid, _⟩ := List.append_eq_nil_iff.1 h.symm
      rw [List.map_eq_nil_iff.1 hsaid, loadOn, List.append_nil]
  | cons line lines ih =>
      cases said with
      | nil =>
          cases silent with
          | zero => cases h
          | succ silent =>
              obtain ⟨htells, hrest⟩ := List.cons.inj h
              rw [loadOn]
              simp only [htells]
              exact @ih [] silent hrest s
      | cons a said =>
          obtain ⟨htells, hrest⟩ := List.cons.inj h
          rw [loadOn]
          simp only [htells]
          rw [ih hrest, List.append_assoc, List.singleton_append]

theorem map_text_numbered (path : String) (texts : List (List Char)) :
    (numbered path texts).map Line.text = texts := by
  rw [numbered, List.map_map]
  exact List.zipIdx_map_fst 0 texts

theorem lines_text (hwritten : ∀ a ∈ s.entries, a.Written)
    (hpaths : ∀ path ∈ s.loaded, '\n' ∉ path.toList) :
    (Lines.lines s.text.toList).map Directive.ofLine =
      s.entries.map .assign ++ List.replicate s.loaded.length .nothing := by
  have hlines : ∀ line ∈ s.shownLines, '\n' ∉ line := by
    refine List.forall_mem_append.2 ⟨List.forall_mem_map.2 fun a ha hmem => ?_, ?_⟩
    · exact ((hwritten a ha).spelled_shown hmem).2 rfl
    · refine List.forall_mem_map.2 fun path hpath hmem => ?_
      obtain hmem | hmem := List.mem_append.1 hmem
      · revert hmem
        decide
      · exact hpaths path hpath hmem
  rw [toList_text, Lines.lines_flatMap hlines, shownLines, List.map_map, List.map_append,
    List.map_map, List.map_map, ← List.map_const']
  congr 1
  · refine List.map_congr_left fun a ha => ?_
    simp only [Function.comp_apply, (hwritten a ha).dropCarriageReturn_shown,
      ofLine_shown (hwritten a ha)]
  · refine List.map_congr_left fun path _ => ?_
    have hcomment : ("# loaded ".toList ++ path.toList).head? = some '#' := rfl
    rw [Function.comp_apply, Function.comp_apply, ofLine_comment hcomment]

/-- What is shown of settings that were loaded is a file that gives them again, wherever it can be
read and has a canonical path. -/
theorem shown_loads_again (h : load disk env given = .ok s)
    (hpaths : ∀ path ∈ s.loaded, '\n' ∉ path.toList) :
    ∃ text, (∀ context d, context.settings = s →
        Program.dispatch context .show d = (.ok (.text text), d)) ∧
      ∀ disk' env' given' path place, rcPath? env' disk' given' = some path →
        disk'.read (Path.expandHome env'.home path) = .ok (Utf8.encodeText text) →
        disk'.resolve (Path.expandHome env'.home path) = .ok place →
        ∃ s', load disk' env' given' = .ok s' ∧ ∀ key, s'.get? key = s.get? key := by
  obtain ⟨said, htells, hsaid⟩ := fileTells_of_load h
  have hassigned : ∀ a ∈ s.assignments, a.Written := by
    rw [hsaid]
    exact List.forall_mem_append.2 ⟨written_defaults, htells.written⟩
  have hwritten : ∀ a ∈ s.entries, a.Written := fun a ha =>
    hassigned a (mem_assignments_of_mem_entries ha)
  refine ⟨s.text, fun context d hcontext => by rw [← hcontext]; rfl, ?_⟩
  intro disk' env' given' path place hpath hread hresolve
  obtain ⟨hlocate, hshort⟩ := Disk.resolve_eq_ok hresolve
  have hcontent := Disk.contentAt_of_read hread hlocate
  have hfile := readFile_of_locate hlocate hshort hcontent (Utf8.decode?_encode s.text.toList)
  have hdirectives := lines_text hwritten hpaths
  rw [← map_text_numbered (Path.expandHome env'.home path) (Lines.lines s.text.toList),
    List.map_map] at hdirectives
  rw [load_of_ok hpath hfile]
  exact ⟨_, loadOn_of_directives hdirectives _ _, get?_of_entries hsaid _⟩

/-- One key is empty and has a value that looks like an include, another key looks like one. -/
def oddText : List Char := "= include b\r\ninclude\t= a=b # c\n".toList

def odd : Disk where
  nodes := [(["a"], .file (Utf8.encode oddText))]
  working := "/"

def oddSettings : Settings where
  assignments := defaults.assignments ++ [("", "include b"), ("include", "a=b")]
  loaded := ["/a"]

theorem load_odd : load odd { home := none } (some "/a") = .ok oddSettings := by
  have hread : readFile odd "/a" = .ok (["a"], numbered "/a" (Lines.lines oddText)) :=
    readFile_of_locate rfl (by decide) rfl (Utf8.decode?_encode _)
  have hdirectives :
      (numbered "/a" (Lines.lines oddText)).map (fun line => Directive.ofLine line.text) =
        [("", "include b"), ("include", "a=b")].map .assign ++ List.replicate 0 .nothing := rfl
  rw [load_of_ok rfl hread, loadOn_of_directives hdirectives]
  rfl

/-- The shown text, kept in another file. -/
def oddShown : Disk where
  nodes := [(["b"], .file (Utf8.encodeText oddSettings.text))]
  working := "/"

theorem shown_loads_again_odd :
    load odd { home := none } (some "/a") = .ok oddSettings ∧
      (∀ path ∈ oddSettings.loaded, '\n' ∉ path.toList) ∧
      oddSettings.get? "" = some "include b" ∧ oddSettings.get? "include" = some "a=b" ∧
      ∃ s', load oddShown { home := none } (some "/b") = .ok s' ∧
        ∀ key, s'.get? key = oddSettings.get? key := by
  have hpaths : ∀ path ∈ oddSettings.loaded, '\n' ∉ path.toList := by decide
  obtain ⟨text, hshow, hload⟩ := shown_loads_again load_odd hpaths
  obtain rfl : oddSettings.text = text := by
    cases hshow ⟨oddSettings, false, ⟨2024, 1, 10, by decide⟩, ""⟩ {} rfl
    rfl
  exact ⟨load_odd, hpaths, rfl, rfl,
    hload oddShown { home := none } (some "/b") "/b" ["b"] rfl rfl rfl⟩

end Settings

end Agenda
