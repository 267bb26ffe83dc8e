import Agenda.Program.Run
import Agenda.Proofs.Settings.Includes
import Agenda.Proofs.Text.Utf8
import Mathlib.Data.List.Forall2

/-!
Settings as one sequence of assignments. Files that include each other are written out as one: what
a file says stands in the place of the line that meets it first, and a line says nothing where there
is no file at the path that it spells out. The environment and the command line come behind that,
and a key has the value that is assigned to it last.
-/

namespace Agenda.Settings

variable {disk : Disk} {env : Environment} {met after after' : List Place}
  {lines lines' : List Line} {said said' : List Assignment} {s s' : Settings}

/-- The files at some places have been met. The lines say these assignments if what a file says
stands in the place of the line that meets it first, and the files at these places are met then. -/
inductive Flattens (disk : Disk) (env : Environment) :
    List Place → List Line → List Assignment → List Place → Prop where
  | done (met : List Place) : Flattens disk env met [] [] met
  | silent {met after : List Place} {line : Line} {lines : List Line} {said : List Assignment}
      (tells : Directive.ofLine line.text = .nothing)
      (rest : Flattens disk env met lines said after) :
      Flattens disk env met (line :: lines) said after
  | assign {met after : List Place} {line : Line} {lines : List Line} {said : List Assignment}
      {assignment : Assignment} (tells : Directive.ofLine line.text = .assign assignment)
      (rest : Flattens disk env met lines said after) :
      Flattens disk env met (line :: lines) (assignment :: said) after
  | absent {met after : List Place} {line : Line} {lines : List Line} {said : List Assignment}
      {written : String} (tells : Directive.ofLine line.text = .embed written)
      (absent : ¬ disk.isPresent (line.spelled env written))
      (rest : Flattens disk env met lines said after) :
      Flattens disk env met (line :: lines) said after
  | again {met after : List Place} {line : Line} {lines included : List Line}
      {said : List Assignment} {written : String} {place : Place}
      (tells : Directive.ofLine line.text = .embed written)
      (present : disk.isPresent (line.spelled env written))
      (read : readFile disk (line.target env written) = .ok (place, included))
      (known : place ∈ met) (rest : Flattens disk env met lines said after) :
      Flattens disk env met (line :: lines) said after
  | first {met between after : List Place} {line : Line} {lines included : List Line}
      {said inner : List Assignment} {written : String} {place : Place}
      (tells : Directive.ofLine line.text = .embed written)
      (present : disk.isPresent (line.spelled env written))
      (read : readFile disk (line.target env written) = .ok (place, included))
      (new : place ∉ met) (below : Flattens disk env (place :: met) included inner between)
      (rest : Flattens disk env between lines said after) :
      Flattens disk env met (line :: lines) (inner ++ said) after

/-- Lines behind others go on where the others end. -/
theorem Flattens.exists_between (h : Flattens disk env met (lines ++ lines') said after) :
    ∃ front between back, Flattens disk env met lines front between ∧
      Flattens disk env between lines' back after ∧ said = front ++ back := by
  induction lines generalizing met said with
  | nil => exact ⟨[], met, said, .done met, h, rfl⟩
  | cons line lines ih =>
      cases h with
      | silent tells rest =>
          obtain ⟨front, between, back, hfront, hback, rfl⟩ := ih rest
          exact ⟨front, between, back, .silent tells hfront, hback, rfl⟩
      | assign tells rest =>
          obtain ⟨front, between, back, hfront, hback, rfl⟩ := ih rest
          exact ⟨_ :: front, between, back, .assign tells hfront, hback, rfl⟩
      | absent tells absent rest =>
          obtain ⟨front, between, back, hfront, hback, rfl⟩ := ih rest
          exact ⟨front, between, back, .absent tells absent hfront, hback, rfl⟩
      | again tells present read known rest =>
          obtain ⟨front, between, back, hfront, hback, rfl⟩ := ih rest
          exact ⟨front, between, back, .again tells present read known hfront, hback, rfl⟩
      | first tells present read new below rest =>
          obtain ⟨front, between, back, hfront, hback, rfl⟩ := ih rest
          exact ⟨_ ++ front, between, back, .first tells present read new below hfront, hback,
            (List.append_assoc _ _ _).symm⟩

/-- Going through lines adds what they say when they are flattened. -/
theorem flattens_of_loadOn (h : loadOn disk env met s lines = .ok s') :
    ∃ said after, Flattens disk env met lines said after ∧
      s'.assignments = s.assignments ++ said := by
  fun_induction loadOn disk env met s lines with
  | case1 met s =>
      cases h
      exact ⟨[], met, .done met, (List.append_nil _).symm⟩
  | case2 met s line lines tells ih =>
      obtain ⟨said, after, hflat, heq⟩ := ih h
      exact ⟨said, after, .silent tells hflat, heq⟩
  | case3 met s line lines tells => cases h
  | case4 met s line lines assignment tells ih =>
      obtain ⟨said, after, hflat, heq⟩ := ih h
      refine ⟨assignment :: said, after, .assign tells hflat, ?_⟩
      rw [heq, List.append_assoc, List.singleton_append]
  | case5 met s line lines written tells hpresent e hread => cases h
  | case6 met s line lines written tells hpresent place included hread known ih =>
      obtain ⟨said, after, hflat, heq⟩ := ih h
      exact ⟨said, after, .again tells hpresent hread known hflat, heq⟩
  | case7 met s line lines written tells hpresent place included hread new ih =>
      obtain ⟨said, after, hflat, heq⟩ := ih h
      obtain ⟨inner, between, said, hinner, hrest, rfl⟩ := hflat.exists_between
      exact ⟨inner ++ said, after, .first tells hpresent hread new hinner hrest, heq⟩
  | case8 met s line lines written tells habsent ih =>
      obtain ⟨said, after, hflat, heq⟩ := ih h
      exact ⟨said, after, .absent tells habsent hflat, heq⟩

theorem loadOn_embed {line : Line} {included : List Line} {written : String} {place : Place}
    (tells : Directive.ofLine line.text = .embed written)
    (present : disk.isPresent (line.spelled env written))
    (read : readFile disk (line.target env written) = .ok (place, included)) (met : List Place)
    (s : Settings) (lines : List Line) :
    loadOn disk env met s (line :: lines) =
      if place ∈ met then loadOn disk env met s lines
      else
        loadOn disk env (place :: met) { s with loaded := s.loaded ++ [place.path] }
          (included ++ lines) := by
  rw [loadOn]
  simp only [tells, if_pos present]
  split
  · rename_i herror
    cases read.symm.trans herror
  · rename_i hread
    cases read.symm.trans hread
    rw [dite_eq_ite]

/-- Lines that can be flattened are gone through, and others behind them afterwards. -/
theorem Flattens.loadOn_append (h : Flattens disk env met lines said after) (s : Settings)
    (rest : List Line) :
    ∃ loaded, loadOn disk env met s (lines ++ rest) =
      loadOn disk env after ⟨s.assignments ++ said, loaded⟩ rest := by
  induction h generalizing s rest with
  | done met => exact ⟨s.loaded, by rw [List.append_nil, List.nil_append]⟩
  | silent tells _ ih =>
      obtain ⟨loaded, heq⟩ := ih s rest
      refine ⟨loaded, ?_⟩
      rw [List.cons_append, loadOn]
      simp only [tells, heq]
  | @assign _ _ _ _ _ assignment tells _ ih =>
      obtain ⟨loaded, heq⟩ := ih { s with assignments := s.assignments ++ [assignment] } rest
      refine ⟨loaded, ?_⟩
      rw [List.append_assoc, List.singleton_append] at heq
      rw [List.cons_append, loadOn]
      simp only [tells, heq]
  | absent tells habsent _ ih =>
      obtain ⟨loaded, heq⟩ := ih s rest
      refine ⟨loaded, ?_⟩
      rw [List.cons_append, loadOn]
      simp only [tells, if_neg habsent, heq]
  | again tells present read known _ ih =>
      obtain ⟨loaded, heq⟩ := ih s rest
      refine ⟨loaded, ?_⟩
      rw [List.cons_append, loadOn_embed tells present read, if_pos known, heq]
  | @first _ _ _ _ lines included _ _ _ place tells present read new _ _ ihBelow ihRest =>
      obtain ⟨loaded, hbelow⟩ :=
        ihBelow { s with loaded := s.loaded ++ [place.path] } (lines ++ rest)
      obtain ⟨loaded', hrest⟩ := ihRest ⟨s.assignments ++ _, loaded⟩ rest
      refine ⟨loaded', ?_⟩
      rw [List.cons_append, loadOn_embed tells present read, if_neg new, hbelow, hrest,
        List.append_assoc]

theorem Flattens.exists_loadOn (h : Flattens disk env met lines said after) (s : Settings) :
    ∃ loaded, loadOn disk env met s lines = .ok ⟨s.assignments ++ said, loaded⟩ := by
  obtain ⟨loaded, heq⟩ := h.loadOn_append s []
  rw [List.append_nil, loadOn] at heq
  exact ⟨loaded, heq⟩

/-- Lines are flattened in one way. -/
theorem Flattens.unique (h : Flattens disk env met lines said after)
    (h' : Flattens disk env met lines said' after') : said = said' := by
  obtain ⟨loaded, heq⟩ := h.exists_loadOn ⟨[], []⟩
  obtain ⟨loaded', heq'⟩ := h'.exists_loadOn ⟨[], []⟩
  cases heq.symm.trans heq'
  rfl

/-! What is said about settings. -/

/-- The rc file with all that it includes tells these assignments, none if there is no rc file. -/
inductive FileTells (disk : Disk) (env : Environment) (given : Option String) :
    List Assignment → Prop where
  | nothing (unset : rcPath? env disk given = none) : FileTells disk env given []
  | file {path : String} {place : Place} {lines : List Line} {said : List Assignment}
      {after : List Place} (named : rcPath? env disk given = some path)
      (read : readFile disk (Path.expandHome env.home path) = .ok (place, lines))
      (flat : Flattens disk env [place] lines said after) : FileTells disk env given said

/-- A variable that is not blank assigns its value, without the blanks around it. -/
inductive VariableTells (key : String) : Option String → List Assignment → Prop where
  | unset : VariableTells key none []
  | blank {text : String} (blank : Blank.trimText text = "") : VariableTells key (some text) []
  | value {text : String} (given : Blank.trimText text ≠ "") :
      VariableTells key (some text) [(key, Blank.trimText text)]

/-- A pair of the command line is an assignment, without one mark in front of its key. -/
inductive PairTells : Assignment → Assignment → Prop where
  | marked (key value : String) : PairTells ("rc." ++ key, value) (key, value)
  | plain {key : String} (unmarked : ¬ "rc.".toList <+: key.toList) (value : String) :
      PairTells (key, value) (key, value)

/-- All that is said about settings, in the order in which it counts. -/
inductive Sequence (surroundings : Program.Surroundings) (invocation : Usage.Invocation)
    (disk : Disk) : List Assignment → Prop where
  | intro {file port data pairs : List Assignment}
      (rcFile : FileTells disk surroundings.environment invocation.rcFile file)
      (portVariable : VariableTells "server.port" surroundings.environment.port port)
      (dataVariable : VariableTells "data.location" surroundings.environment.data data)
      (commandLine : List.Forall₂ PairTells invocation.overrides pairs) :
      Sequence surroundings invocation disk
        (defaults.assignments ++ file ++ port ++ data ++ pairs)

/-- The value of the last assignment to a key, or none where no assignment has the key. -/
def LastGives (sequence : List Assignment) (key : String) : Option String → Prop
  | some value => ∃ before after, sequence = before ++ (key, value) :: after ∧
      ∀ assignment ∈ after, assignment.1 ≠ key
  | none => ∀ assignment ∈ sequence, assignment.1 ≠ key

section Sequence

variable {given : Option String} {key : String} {surroundings : Program.Surroundings}
  {invocation : Usage.Invocation} {sequence : List Assignment}

theorem FileTells.unique (h : FileTells disk env given said) (h' : FileTells disk env given said') :
    said = said' := by
  cases h with
  | nothing hnone =>
      cases h' with
      | nothing _ => rfl
      | file hpath _ _ => cases hnone.symm.trans hpath
  | file hpath hread hflat =>
      cases h' with
      | nothing hnone => cases hnone.symm.trans hpath
      | file hpath' hread' hflat' =>
          cases hpath.symm.trans hpath'
          cases hread.symm.trans hread'
          exact hflat.unique hflat'

theorem fileTells_of_load (h : load disk env given = .ok s) :
    ∃ said, FileTells disk env given said ∧ s.assignments = defaults.assignments ++ said := by
  rw [load] at h
  split at h
  · rename_i hnone
    cases h
    exact ⟨[], .nothing hnone, (List.append_nil _).symm⟩
  · rename_i path hpath
    split at h
    · cases h
    · rename_i place lines hread
      obtain ⟨said, after, hflat, heq⟩ := flattens_of_loadOn h
      exact ⟨said, .file hpath hread hflat, heq⟩

theorem FileTells.exists_load (h : FileTells disk env given said) :
    ∃ loaded, load disk env given = .ok ⟨defaults.assignments ++ said, loaded⟩ := by
  cases h with
  | nothing hnone => exact ⟨[], by simp only [load, hnone, List.append_nil]; rfl⟩
  | file hpath hread hflat =>
      simp only [load, hpath, hread]
      exact hflat.exists_loadOn _

theorem variableTells_iff {value : Option String} :
    VariableTells key value said ↔ said = variableOverride key value := by
  constructor
  · rintro (_ | hblank | hgiven)
    · rfl
    · simp only [variableOverride, Option.map_some, hblank]
    · simp only [variableOverride, Option.map_some]
  · rintro rfl
    cases value with
    | none => exact .unset
    | some text =>
        rw [variableOverride, Option.map_some]
        split
        · rename_i heq
          cases heq
        · rename_i heq
          exact .blank (Option.some.inj heq)
        · rename_i hgiven heq
          cases heq
          exact .value hgiven

theorem withoutMark_marked (key value : String) :
    Assignment.withoutMark ("rc." ++ key, value) = (key, value) := by
  have hmark : ("rc." ++ key).toList = 'r' :: 'c' :: '.' :: key.toList := String.toList_append
  simp only [Assignment.withoutMark, hmark, String.ofList_toList]

theorem pairTells_iff {pair assignment : Assignment} :
    PairTells pair assignment ↔ pair.withoutMark = assignment := by
  constructor
  · rintro (⟨key, value⟩ | ⟨hplain, value⟩)
    · exact withoutMark_marked key value
    · rw [Assignment.withoutMark]
      split
      · rename_i rest heq
        exact absurd ⟨rest, heq.symm⟩ hplain
      · rfl
  · rintro rfl
    obtain ⟨key, value⟩ := pair
    by_cases hmark : "rc.".toList <+: key.toList
    · obtain ⟨rest, heq⟩ := hmark
      have hkey : key = "rc." ++ String.ofList rest := by
        rw [← String.ofList_toList (s := key), ← heq]
        exact String.ofList_append
      rw [hkey, withoutMark_marked]
      exact .marked _ value
    · rw [Assignment.withoutMark]
      split
      · rename_i rest heq
        exact absurd ⟨rest, heq.symm⟩ hmark
      · exact .plain hmark value

theorem forall₂_pairTells_iff {pairs assignments : List Assignment} :
    List.Forall₂ PairTells pairs assignments ↔
      pairs.map Assignment.withoutMark = assignments := by
  have hrel : PairTells = fun pair assignment => pair.withoutMark = assignment := by
    funext pair assignment
    exact propext pairTells_iff
  rw [hrel, ← List.forall₂_map_left_iff, List.forall₂_eq_eq_eq]

theorem map_withoutMark_variableOverride (hplain : ¬ "rc.".toList <+: key.toList)
    (value : Option String) :
    (variableOverride key value).map Assignment.withoutMark = variableOverride key value := by
  rw [variableOverride]
  split
  · rfl
  · rfl
  · rw [List.map_singleton, pairTells_iff.1 (.plain hplain _)]

/-- The keys that the environment assigns have no mark. -/
theorem map_withoutMark_overrides (env : Environment) :
    env.overrides.map Assignment.withoutMark = env.overrides := by
  rw [Environment.overrides, List.map_append, map_withoutMark_variableOverride (by decide),
    map_withoutMark_variableOverride (by decide)]

theorem sequence_iff :
    Sequence surroundings invocation disk sequence ↔
      ∃ file, FileTells disk surroundings.environment invocation.rcFile file ∧
        sequence = defaults.assignments ++ file ++
          (surroundings.environment.overrides ++ invocation.overrides).map
            Assignment.withoutMark := by
  rw [List.map_append, map_withoutMark_overrides, Environment.overrides]
  constructor
  · rintro ⟨hfile, hport, hdata, hcommandLine⟩
    refine ⟨_, hfile, ?_⟩
    rw [variableTells_iff.1 hport, variableTells_iff.1 hdata,
      ← forall₂_pairTells_iff.1 hcommandLine]
    simp only [List.append_assoc]
  · rintro ⟨file, hfile, rfl⟩
    have h := Sequence.intro hfile (variableTells_iff.2 rfl) (variableTells_iff.2 rfl)
      (forall₂_pairTells_iff.2 rfl)
    simpa only [List.append_assoc] using h

theorem lastGives_iff {value : Option String} :
    LastGives sequence key value ↔ sequence.reverse.lookup key = value := by
  cases value with
  | none =>
      rw [LastGives, List.lookup_eq_none_iff]
      simp only [List.mem_reverse, bne_iff_ne, ne_comm]
  | some value =>
      rw [LastGives, List.lookup_eq_some_iff]
      constructor
      · rintro ⟨before, after, rfl, hafter⟩
        refine ⟨after.reverse, before.reverse, by simp, ?_⟩
        simpa only [List.mem_reverse, bne_iff_ne, ne_comm] using hafter
      · rintro ⟨after, before, heq, hafter⟩
        refine ⟨before.reverse, after.reverse, ?_, ?_⟩
        · rw [← List.reverse_reverse sequence, heq]
          simp
        · simpa only [List.mem_reverse, bne_iff_ne, ne_comm] using hafter

theorem Sequence.exists_settings (h : Sequence surroundings invocation disk sequence) :
    ∃ s, Program.settings surroundings invocation disk = .ok s := by
  obtain ⟨file, hfile, -⟩ := sequence_iff.1 h
  obtain ⟨loaded, hload⟩ := hfile.exists_load
  exact ⟨_, by rw [Program.settings, hload]; rfl⟩

/-- There is one sequence of all that is said about settings, and a key has the value that its last
assignment there gives. -/
theorem last_assignment_counts (h : Program.settings surroundings invocation disk = .ok s) :
    ∃ sequence, (∀ other, Sequence surroundings invocation disk other ↔ other = sequence) ∧
      ∀ key, LastGives sequence key (s.get? key) := by
  obtain ⟨loaded, hload, hs⟩ := bind_eq_ok h
  obtain ⟨file, hfile, heq⟩ := fileTells_of_load hload
  cases hs
  refine ⟨_, fun other => ?_, fun key => lastGives_iff.2 rfl⟩
  rw [sequence_iff]
  constructor
  · rintro ⟨file', hfile', rfl⟩
    rw [hfile'.unique hfile, ← heq]
    rfl
  · rintro rfl
    exact ⟨file, hfile, by rw [← heq]; rfl⟩

def outerText : List Char := "k = 1\ninclude b\nj = 2\ninclude ./b\ninclude c".toList

def innerText : List Char := "k = 3\nj = 4\ninclude /a".toList

/-- Two files that include each other. -/
def nested : Disk where
  nodes := [(["a"], .file (Utf8.encode outerText)), (["b"], .file (Utf8.encode innerText))]
  working := "/"

def onRoad : Program.Surroundings where
  environment := { home := none, port := some " 80 ", data := some " " }
  clock := ⟨2023, 9, 14, by decide⟩
  terminal := false

/-- One key has two marks, of which one counts. -/
def marked : Usage.Invocation where
  verbose := 0
  quiet := 0
  overrides := [("rc.rc.m", "5"), ("color", "off")]
  rcFile := some "/a"
  data := none
  command := .show

theorem readFile_outer :
    readFile nested "/a" = .ok (["a"], numbered "/a" (Lines.lines outerText)) :=
  readFile_of_locate rfl (by decide) rfl (Utf8.decode?_encode _)

theorem readFile_inner {path : String} (h : nested.locate path = .ok ["b"]) :
    readFile nested path = .ok (["b"], numbered path (Lines.lines innerText)) :=
  readFile_of_locate h (by decide) rfl (Utf8.decode?_encode _)

/-- The inner file stands in the place of the second line of the outer one. -/
theorem flattens_nested : Flattens nested onRoad.environment [["a"]]
    (numbered "/a" (Lines.lines outerText)) [("k", "1"), ("k", "3"), ("j", "4"), ("j", "2")]
    [["b"], ["a"]] := by
  have hbelow : Flattens nested onRoad.environment [["b"], ["a"]]
      (numbered "/b" (Lines.lines innerText)) [("k", "3"), ("j", "4")] [["b"], ["a"]] :=
    .assign rfl (.assign rfl (.again rfl rfl readFile_outer (by decide) (.done _)))
  have hrest : Flattens nested onRoad.environment [["b"], ["a"]]
      (numbered "/a" (Lines.lines outerText)).tail.tail [("j", "2")] [["b"], ["a"]] :=
    .assign rfl (.again rfl rfl (readFile_inner rfl) (by decide)
      (.absent rfl (by decide) (.done _)))
  refine .assign rfl ?_
  change Flattens _ _ _ _ ([("k", "3"), ("j", "4")] ++ [("j", "2")]) _
  exact .first rfl rfl (readFile_inner rfl) (by decide) hbelow hrest

theorem last_assignment_nested :
    ∃ s, Program.settings onRoad marked nested = .ok s ∧ s.get? "k" = some "3" ∧
      s.get? "j" = some "2" ∧ s.get? "server.port" = some "80" ∧
      s.get? "data.location" = some "~/.sked" ∧ s.get? "color" = some "off" ∧
      s.get? "rc.m" = some "5" ∧ s.get? "m" = none := by
  have hsequence : Sequence onRoad marked nested _ :=
    .intro (.file rfl readFile_outer flattens_nested) (.value (by decide)) (.blank (by decide))
      (.cons (.marked "rc.m" "5") (.cons (.plain (by decide) "off") .nil))
  obtain ⟨s, hs⟩ := hsequence.exists_settings
  obtain ⟨sequence, hunique, hlast⟩ := last_assignment_counts hs
  obtain rfl := (hunique _).1 hsequence
  have hget := fun key => (lastGives_iff.1 (hlast key)).symm
  exact ⟨s, hs, hget "k", hget "j", hget "server.port", hget "data.location", hget "color",
    hget "rc.m", hget "m"⟩

end Sequence

end Agenda.Settings
