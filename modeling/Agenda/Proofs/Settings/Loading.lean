import Agenda.Proofs.Settings.Spelling
import Agenda.Proofs.Text.Utf8

/-!
Loading visits the files depth first, as their includes lead from one to the next. It fails only
over a file that the includes lead to. It reads all that they lead to unless a path gets too long on
the way: a file is included by the path that was spelled out first.
-/

namespace Agenda.Settings

variable {disk : Disk} {env : Environment} {path root : String} {place : Place}
  {places : List Place} {lines : List Line} {s s' : Settings} {visited : List String}

/-! Going through lines. -/

theorem targets_append (disk : Disk) (env : Environment) (lines lines' : List Line) :
    targets disk env (lines ++ lines') = targets disk env lines ++ targets disk env lines' := by
  rw [targets, spellings, List.filterMap_append, List.filter_append, List.map_append]
  rfl

theorem spellings_cons_of_embed {line : Line} {written : String}
    (h : Directive.ofLine line.text = .embed written) (env : Environment) (lines : List Line) :
    spellings env (line :: lines) = line.spelled env written :: spellings env lines := by
  rw [spellings, List.filterMap_cons, h]
  rfl

theorem targets_cons_of_ne {line : Line}
    (h : ∀ written, Directive.ofLine line.text ≠ .embed written) (disk : Disk) (env : Environment)
    (lines : List Line) : targets disk env (line :: lines) = targets disk env lines := by
  have hspellings : spellings env (line :: lines) = spellings env lines := by
    rw [spellings, List.filterMap_cons]
    split
    · rfl
    · rename_i heq
      split at heq
      · rename_i written hembed
        exact absurd hembed (h written)
      · cases heq
  rw [targets, hspellings]
  rfl

theorem targets_cons_of_present {line : Line} {written : String}
    (hline : Directive.ofLine line.text = .embed written)
    (hpresent : disk.isPresent (line.spelled env written) = true) (lines : List Line) :
    targets disk env (line :: lines) = line.target env written :: targets disk env lines := by
  rw [targets, spellings_cons_of_embed hline, List.filter_cons_of_pos hpresent]
  rfl

theorem targets_cons_of_absent {line : Line} {written : String}
    (hline : Directive.ofLine line.text = .embed written)
    (habsent : ¬ disk.isPresent (line.spelled env written) = true) (lines : List Line) :
    targets disk env (line :: lines) = targets disk env lines := by
  rw [targets, spellings_cons_of_embed hline, List.filter_cons_of_neg habsent]
  rfl

theorem included_of_readFile (h : readFile disk path = .ok (place, lines)) (env : Environment) :
    included disk env path = targets disk env lines := by
  rw [included, h]

theorem not_isWrong_of_embed {line : Line} {written : String}
    (hline : Directive.ofLine line.text = .embed written) :
    ¬ IsWrong line.text := by
  intro hwrong
  rw [ofLine_eq_invalid_iff.2 hwrong] at hline
  cases hline

/-- What is kept while lines are gone through, for the paths visited so far. -/
structure Kept (disk : Disk) (visited : List String) (places : List Place)
    (loaded : List String) : Prop where
  located : visited.map disk.locate = places.reverse.map .ok
  canonical : loaded = places.reverse.map Place.path

theorem Kept.visit {loaded : List String} (h : Kept disk visited places loaded)
    (hlocate : disk.locate path = .ok place) :
    Kept disk (visited ++ [path]) (place :: places) (loaded ++ [place.path]) where
  located := by
    rw [List.map_append, h.located, List.reverse_cons, List.map_append, List.map_singleton,
      List.map_singleton, hlocate]
  canonical := by rw [h.canonical, List.reverse_cons, List.map_append, List.map_singleton]

theorem Kept.map_canonicalize {loaded : List String} (h : Kept disk visited places loaded) :
    visited.map disk.canonicalize = loaded.map .ok := by
  have hmap : visited.map disk.canonicalize =
      (visited.map disk.locate).map (Except.map Place.path) := by rw [List.map_map]; rfl
  rw [hmap, h.located, h.canonical, List.map_map, List.map_map]
  rfl

theorem Kept.mem_iff {loaded : List String} (h : Kept disk visited places loaded)
    (hlocate : disk.locate path = .ok place) :
    disk.canonicalize path ∈ visited.map disk.canonicalize ↔ place ∈ places := by
  have hplaces : Except.ok place ∈ visited.map disk.locate ↔ place ∈ places := by
    rw [h.located, List.mem_map]
    constructor
    · rintro ⟨_, hmem, heq⟩
      cases heq
      exact List.mem_reverse.1 hmem
    · exact fun hmem => ⟨place, List.mem_reverse.2 hmem, rfl⟩
  rw [← hplaces, List.mem_map, List.mem_map]
  constructor
  · rintro ⟨path', hmem, heq⟩
    exact ⟨path', hmem, Disk.locate_eq_of_canonicalize_eq hlocate heq⟩
  · rintro ⟨path', hmem, heq⟩
    refine ⟨path', hmem, ?_⟩
    rw [Disk.canonicalize_of_locate heq, Disk.canonicalize_of_locate hlocate]

/-- With some paths visited already, lines are gone through to their end: these are the visits after
them, and no fault is met. -/
structure Passed (disk : Disk) (env : Environment) (visited : List String) (lines : List Line)
    (after : List String) : Prop where
  visits : Visits disk.canonicalize (included disk env) visited (targets disk env lines) after
  right : ∀ line ∈ lines, ¬ IsWrong line.text
  fit : ∀ p ∈ after, p ∈ visited ∨ ¬ Unfit disk p

namespace Passed

variable {line : Line} {after : List String} {written : String} {included : List Line}

theorem nil (disk : Disk) (env : Environment) (visited : List String) :
    Passed disk env visited [] visited :=
  ⟨.done visited, List.forall_mem_nil _, fun _ hp => .inl hp⟩

theorem skip (h : Passed disk env visited lines after)
    (hline : ∀ written, Directive.ofLine line.text ≠ .embed written)
    (hright : Directive.ofLine line.text ≠ .invalid) :
    Passed disk env visited (line :: lines) after where
  visits := by
    rw [targets_cons_of_ne hline]
    exact h.visits
  right := List.forall_mem_cons.2 ⟨mt ofLine_eq_invalid_iff.2 hright, h.right⟩
  fit := h.fit

theorem absent (h : Passed disk env visited lines after)
    (hline : Directive.ofLine line.text = .embed written)
    (habsent : ¬ disk.isPresent (line.spelled env written) = true) :
    Passed disk env visited (line :: lines) after where
  visits := by
    rw [targets_cons_of_absent hline habsent]
    exact h.visits
  right := List.forall_mem_cons.2 ⟨not_isWrong_of_embed hline, h.right⟩
  fit := h.fit

theorem again (h : Passed disk env visited lines after)
    (hline : Directive.ofLine line.text = .embed written)
    (hpresent : disk.isPresent (line.spelled env written) = true)
    (hknown : disk.canonicalize (line.target env written) ∈ visited.map disk.canonicalize) :
    Passed disk env visited (line :: lines) after where
  visits := by
    rw [targets_cons_of_present hline hpresent]
    exact .again hknown h.visits
  right := List.forall_mem_cons.2 ⟨not_isWrong_of_embed hline, h.right⟩
  fit := h.fit

/-- The lines of a file that is new are gone through in front of the others. -/
theorem first (h : Passed disk env (visited ++ [line.target env written]) (included ++ lines) after)
    (hline : Directive.ofLine line.text = .embed written)
    (hpresent : disk.isPresent (line.spelled env written) = true)
    (hread : readFile disk (line.target env written) = .ok (place, included))
    (hnew : disk.canonicalize (line.target env written) ∉ visited.map disk.canonicalize) :
    Passed disk env visited (line :: lines) after where
  visits := by
    have hvisits := h.visits
    rw [targets_append] at hvisits
    obtain ⟨between, hbelow, hrest⟩ := hvisits.exists_between
    rw [targets_cons_of_present hline hpresent]
    rw [← included_of_readFile hread] at hbelow
    exact .first hnew hbelow hrest
  right := List.forall_mem_cons.2
    ⟨not_isWrong_of_embed hline, (List.forall_mem_append.1 h.right).2⟩
  fit := by
    intro p hp
    obtain hp | hp := h.fit p hp
    · obtain hp | hp := List.mem_append.1 hp
      · exact .inl hp
      · rw [List.mem_singleton.1 hp]
        refine .inr (mt (unfit_iff hread).1 ?_)
        rintro ⟨line, hline, hwrong⟩
        exact h.right line (List.mem_append_left _ hline) hwrong
    · exact .inr hp

end Passed

/-- Where lines are gone through without an error, what is kept afterwards are the visits. -/
theorem passed_of_loadOn (h : loadOn disk env places s lines = .ok s')
    (hkept : Kept disk visited places s.loaded) :
    ∃ after places', Passed disk env visited lines after ∧ Kept disk after places' s'.loaded := by
  fun_induction loadOn disk env places s lines generalizing visited with
  | case1 places s =>
      cases h
      exact ⟨visited, places, .nil disk env visited, hkept⟩
  | case2 places s line lines hline ih =>
      obtain ⟨after, places', hpassed, hafter⟩ := ih h hkept
      exact ⟨after, places', hpassed.skip (by simp [hline]) (by simp [hline]), hafter⟩
  | case3 places s line lines hline => cases h
  | case4 places s line lines assignment hline ih =>
      obtain ⟨after, places', hpassed, hafter⟩ := ih h hkept
      exact ⟨after, places', hpassed.skip (by simp [hline]) (by simp [hline]), hafter⟩
  | case5 places s line lines written hline hpresent e hread => cases h
  | case6 places s line lines written hline hpresent place included hread hknown ih =>
      obtain ⟨after, places', hpassed, hafter⟩ := ih h hkept
      have hcanonical := (hkept.mem_iff (locate_of_readFile hread)).2 hknown
      exact ⟨after, places', hpassed.again hline hpresent hcanonical, hafter⟩
  | case7 places s line lines written hline hpresent place included hread hnew ih =>
      have hlocate := locate_of_readFile hread
      obtain ⟨after, places', hpassed, hafter⟩ := ih h (hkept.visit hlocate)
      have hcanonical := mt (hkept.mem_iff hlocate).1 hnew
      exact ⟨after, places', hpassed.first hline hpresent hread hcanonical, hafter⟩
  | case8 places s line lines written hline habsent ih =>
      obtain ⟨after, places', hpassed, hafter⟩ := ih h hkept
      exact ⟨after, places', hpassed.absent hline habsent, hafter⟩

/-- The line stands in a file that the includes lead to. -/
def Found (disk : Disk) (env : Environment) (root : String) (line : Line) : Prop :=
  ∃ path place lines, Reachable disk env root path ∧ readFile disk path = .ok (place, lines) ∧
    line ∈ lines

theorem reachable_target {line : Line} {written : String} (h : Found disk env root line)
    (hline : Directive.ofLine line.text = .embed written)
    (hpresent : disk.isPresent (line.spelled env written) = true) :
    Reachable disk env root (line.target env written) := by
  obtain ⟨path, place, lines, hreachable, hread, hmem⟩ := h
  refine hreachable.next (mem_included_iff.2 ⟨place, lines, hread, ?_⟩)
  exact mem_targets_iff.2 ⟨line, hmem, written, hline, hpresent, rfl⟩

/-- Going through lines fails only over what the includes lead to. -/
theorem exists_unfit_of_loadOn {e : Error} (h : loadOn disk env places s lines = .error e)
    (hlines : ∀ line ∈ lines, Found disk env root line) :
    ∃ p, Reachable disk env root p ∧ Unfit disk p := by
  fun_induction loadOn disk env places s lines with
  | case1 places s => cases h
  | case2 _ _ _ _ _ ih | case4 _ _ _ _ _ _ ih | case6 _ _ _ _ _ _ _ _ _ _ _ ih
  | case8 _ _ _ _ _ _ _ ih => exact ih h (List.forall_mem_cons.1 hlines).2
  | case3 places s line lines hline =>
      obtain ⟨path, place, lines, hreachable, hread, hmem⟩ := (List.forall_mem_cons.1 hlines).1
      exact ⟨path, hreachable,
        .inr ⟨place, lines, hread, line, hmem, ofLine_eq_invalid_iff.1 hline⟩⟩
  | case5 places s line lines written hline hpresent e hread =>
      have hreachable := reachable_target (List.forall_mem_cons.1 hlines).1 hline hpresent
      exact ⟨_, hreachable, .inl ⟨e, hread⟩⟩
  | case7 places s line lines written hline hpresent place included hread hnew ih =>
      obtain ⟨hfirst, hrest⟩ := List.forall_mem_cons.1 hlines
      have hreachable := reachable_target hfirst hline hpresent
      refine ih h (List.forall_mem_append.2 ⟨?_, hrest⟩)
      exact fun line hmem => ⟨_, place, included, hreachable, hread, hmem⟩

/-! Loading. -/

theorem load_of_error {given : Option String} {e : Error} (h : rcPath? env disk given = some path)
    (hread : readFile disk (Path.expandHome env.home path) = .error e) :
    load disk env given = .error e := by
  simp only [load, h, hread]

theorem load_of_ok {given : Option String} (h : rcPath? env disk given = some path)
    (hread : readFile disk (Path.expandHome env.home path) = .ok (place, lines)) :
    load disk env given =
      loadOn disk env [place] { defaults with loaded := [place.path] } lines := by
  simp only [load, h, hread]

theorem exists_unfit_of_load {given : Option String} {e : Error}
    (h : rcPath? env disk given = some path) (he : load disk env given = .error e) :
    ∃ p, Reachable disk env (Path.expandHome env.home path) p ∧ Unfit disk p := by
  cases hread : readFile disk (Path.expandHome env.home path) with
  | error e' => exact ⟨_, .refl, .inl ⟨e', hread⟩⟩
  | ok r =>
      obtain ⟨place, lines⟩ := r
      rw [load_of_ok h hread] at he
      exact exists_unfit_of_loadOn he fun line hline => ⟨_, place, lines, .refl, hread, hline⟩

/-- Loading visits the files from the rc file on, and all of them are fit. -/
theorem visits_of_load {given : Option String} (h : rcPath? env disk given = some path)
    (hs : load disk env given = .ok s) :
    ∃ visited, Visits disk.canonicalize (included disk env) []
        [Path.expandHome env.home path] visited ∧
      visited.map disk.canonicalize = s.loaded.map .ok ∧ ∀ p ∈ visited, ¬ Unfit disk p := by
  cases hread : readFile disk (Path.expandHome env.home path) with
  | error e =>
      rw [load_of_error h hread] at hs
      cases hs
  | ok r =>
      obtain ⟨place, lines⟩ := r
      rw [load_of_ok h hread] at hs
      have hkept : Kept disk [Path.expandHome env.home path] [place] [place.path] :=
        ⟨congrArg (· :: []) (locate_of_readFile hread), rfl⟩
      obtain ⟨visited, places, hpassed, hafter⟩ := passed_of_loadOn hs hkept
      refine ⟨visited, ?_, hafter.map_canonicalize, ?_⟩
      · refine .first List.not_mem_nil ?_ (.done visited)
        rw [included_of_readFile hread]
        exact hpassed.visits
      · intro p hp
        obtain hp | hp := hpassed.fit p hp
        · rw [List.mem_singleton.1 hp, unfit_iff hread]
          exact fun ⟨line, hline, hwrong⟩ => hpassed.right line hline hwrong
        · exact hp

/-- Where all that the includes lead to is fit, loading gives what the visits lead to. -/
theorem exists_load {given : Option String} {list visited loaded : List String}
    (h : rcPath? env disk given = some path) (hroot : Path.expandHome env.home path ∈ list)
    (hlist : ∀ p ∈ list, included disk env p ⊆ list) (hfit : ∀ p ∈ list, ¬ Unfit disk p)
    (hvisits : Visits disk.canonicalize (included disk env) [] [Path.expandHome env.home path]
      visited)
    (hcanonical : visited.map disk.canonicalize = loaded.map .ok) :
    ∃ s, load disk env given = .ok s ∧ s.loaded = loaded := by
  cases hload : load disk env given with
  | error e =>
      obtain ⟨p, hp, hunfit⟩ := exists_unfit_of_load h hload
      exact absurd hunfit (hfit p (mem_of_reachable hp hroot hlist))
  | ok s =>
      obtain ⟨visited', hvisits', hcanonical', -⟩ := visits_of_load h hload
      obtain rfl := hvisits.unique hvisits'
      rw [hcanonical, List.map_inj_right fun _ _ => Except.ok.inj] at hcanonical'
      exact ⟨s, rfl, hcanonical'.symm⟩

/-- Loading fails only over a file that the includes lead to. Otherwise it has visited the files
depth first, each of them once and at the first path that leads to it. In a settled environment
these are all that the includes lead to, unless one of them includes a path that gets too long. -/
theorem load_visits_includes {given : Option String} (h : rcPath? env disk given = some path) :
    (∀ e, load disk env given = .error e →
      ∃ p, Reachable disk env (Path.expandHome env.home path) p ∧ Unfit disk p) ∧
    ∀ s, load disk env given = .ok s → ∃ visited,
      Visits disk.canonicalize (included disk env) [] [Path.expandHome env.home path] visited ∧
      visited.map disk.canonicalize = s.loaded.map .ok ∧ s.loaded.Nodup ∧
      (∀ p ∈ visited, Reachable disk env (Path.expandHome env.home path) p ∧ ¬ Unfit disk p) ∧
      (env.Settled → (∀ p ∈ visited, ¬ Overlong disk env p) →
        ∀ p, Reachable disk env (Path.expandHome env.home path) p →
          ¬ Unfit disk p ∧ ∃ c ∈ s.loaded, disk.canonicalize p = .ok c) := by
  refine ⟨fun e he => exists_unfit_of_load h he, fun s hs => ?_⟩
  obtain ⟨visited, hvisits, hcanonical, hfit⟩ := visits_of_load h hs
  have hnodup := hvisits.nodup List.nodup_nil
  rw [hcanonical] at hnodup
  refine ⟨visited, hvisits, hcanonical, ?_, ?_, ?_⟩
  · exact List.Pairwise.of_map _ (fun _ _ hne heq => hne (congrArg _ heq)) hnodup
  · have hreachable : ∀ p ∈ visited, Reachable disk env (Path.expandHome env.home path) p :=
      hvisits.forall_mem (List.forall_mem_nil _) (List.forall_mem_singleton.2 .refl)
        fun _ hp _ hq => hp.next hq
    exact fun p hp => ⟨hreachable p hp, hfit p hp⟩
  · intro hsettled hshort p hp
    obtain ⟨q, hq, heq⟩ :=
      exists_visited_of_reachable hsettled (plain_expandHome hsettled path) hvisits hshort hp
    refine ⟨fun hunfit => hfit q hq (unfit_congr heq hunfit), ?_⟩
    have hmem := List.mem_map_of_mem (f := disk.canonicalize) hq
    rw [hcanonical, heq] at hmem
    obtain ⟨c, hc, hok⟩ := List.mem_map.1 hmem
    exact ⟨c, hc, hok.symm⟩

/-- Two files that include each other, and one of them itself. -/
def circle : Disk where
  nodes := [(["a"], .file (Utf8.encode "include b\ninclude ./a".toList)),
    (["b"], .file (Utf8.encode "k = v\ninclude /a\ninclude c".toList))]
  working := "/"

theorem included_circle : included circle { home := none } "/a" = ["/b", "/./a"] ∧
    included circle { home := none } "/b" = ["/a"] ∧
    included circle { home := none } "/./a" = ["/b", "/./a"] := by
  decide +kernel

theorem visits_circle : Visits circle.canonicalize (included circle { home := none }) [] ["/a"]
    ["/a", "/b"] := by
  obtain ⟨ha, hb, -⟩ := included_circle
  refine .first List.not_mem_nil ?_ (.done _)
  rw [ha]
  refine .first (by decide) ?_ (.again (by decide) (.done _))
  rw [hb]
  exact .again (by decide) (.done _)

theorem load_visits_circle :
    ∃ s, load circle { home := none } (some "/a") = .ok s ∧ s.loaded = ["/a", "/b"] ∧
      ∀ p, Reachable circle { home := none } "/a" p →
        ¬ Unfit circle p ∧ ∃ c ∈ ["/a", "/b"], circle.canonicalize p = .ok c := by
  have hclosed : ∀ p ∈ ["/a", "/b", "/./a"], included circle { home := none } p ⊆
      ["/a", "/b", "/./a"] := by
    obtain ⟨ha, hb, hself⟩ := included_circle
    simp [ha, hb, hself]
  obtain ⟨s, hs, hloaded⟩ := @exists_load circle { home := none } "/a" (some "/a")
    ["/a", "/b", "/./a"] _ ["/a", "/b"] rfl List.mem_cons_self hclosed (by decide +kernel)
    visits_circle rfl
  obtain ⟨-, hok⟩ := @load_visits_includes circle { home := none } "/a" (some "/a") rfl
  obtain ⟨visited, hvisits, -, -, -, hall⟩ := hok s hs
  obtain rfl := hvisits.unique visits_circle
  refine ⟨s, hs, hloaded, hloaded ▸ hall nofun fun p hp => not_overlong ?_⟩
  revert p
  decide +kernel

/-! A path that gets too long. -/

/-- Down into a folder and up again, over and over. -/
def detour : Nat → String
  | 0 => "d/.."
  | n + 1 => Path.join "d/.." (detour n)

theorem isAbsolute_detour (n : Nat) : Path.isAbsolute (detour n) = false := by
  induction n with
  | zero => rfl
  | succ n ih =>
      rw [detour, Path.isAbsolute_join ih (by decide)]
      rfl

theorem getLast?_detour (n : Nat) : (detour n).toList.getLast? = some '.' := by
  induction n with
  | zero => rfl
  | succ n ih =>
      obtain ⟨before, hbefore⟩ := Path.suffix_join "d/.." (detour n)
      rw [detour, ← hbefore, List.getLast?_append, ih, Option.some_or]

theorem detour_ne_empty (n : Nat) : detour n ≠ "" := by
  intro hempty
  have hlast := getLast?_detour n
  rw [hempty] at hlast
  cases hlast

theorem join_detour (n : Nat) (h : Path.isAbsolute path = false) :
    Path.join (detour n) path = detour n ++ "/" ++ path := by
  rw [Path.join, h, Bool.false_or, if_neg (by simpa using detour_ne_empty n), getLast?_detour,
    if_neg (by decide)]

theorem utf8ByteSize_detour (n : Nat) : (detour n).utf8ByteSize = 5 * n + 4 := by
  induction n with
  | zero => rfl
  | succ n ih =>
      have hstart : ("d/.." ++ "/").utf8ByteSize = 5 := rfl
      have hjoin : detour (n + 1) = "d/.." ++ "/" ++ detour n :=
        join_detour 0 (isAbsolute_detour n)
      rw [hjoin, String.utf8ByteSize_append, hstart, ih]
      omega

theorem names_detour (n : Nat) : ∃ before, Path.names (detour n) = before ++ [['.', '.']] := by
  induction n with
  | zero => exact ⟨[['d']], rfl⟩
  | succ n ih =>
      obtain ⟨before, hbefore⟩ := ih
      obtain ⟨start, _, hjoin⟩ := Path.names_join (isAbsolute_detour n) (detour_ne_empty 0)
      exact ⟨start ++ before, by rw [List.append_assoc, ← hbefore]; exact hjoin⟩

theorem zero_not_mem_detour (n : Nat) : '\x00' ∉ (detour n).toList := by
  induction n with
  | zero => decide
  | succ n ih =>
      intro hmem
      obtain hmem | hmem | hmem := Path.mem_of_mem_join hmem
      · exact absurd hmem (by decide)
      · cases hmem
      · exact ih hmem

/-- A file that includes itself by its canonical path. -/
def spur : Disk where
  nodes := [(["m"], .file (Utf8.encode "include /m\ninclude bbbbbb".toList)),
    (["bbbbbb"], .file []), (["d"], .folder)]
  working := "/"

theorem reach_relative (h : Path.isAbsolute path = false) :
    spur.reach path = spur.walk [] (Path.names path) := by
  rw [Disk.reach, Disk.origin, h]
  rfl

theorem reach_detour (n : Nat) : spur.reach (detour n) = .ok [] := by
  induction n with
  | zero => rfl
  | succ n ih =>
      have hstart : spur.reach "d/.." = .ok [] := rfl
      rw [detour, Disk.reach_join _ (isAbsolute_detour n), hstart]
      rwa [reach_relative (isAbsolute_detour n)] at ih

/-- The path of the file as the system looks it up, and hardly any longer. -/
def winding : String := Path.join (detour 817) "m"

theorem locate_winding : spur.locate winding = .ok ["m"] := by
  have hm : Path.isAbsolute "m" = false := rfl
  have hlook : Disk.Lookable winding := by
    refine ⟨?_, Path.join_ne_empty (detour_ne_empty _) _, ?_⟩
    · intro hmem
      obtain hmem | hmem | hmem := Path.mem_of_mem_join hmem
      · exact zero_not_mem_detour _ hmem
      · cases hmem
      · exact absurd hmem (by decide)
    · rw [winding, join_detour _ hm, String.utf8ByteSize_append, String.utf8ByteSize_append,
        utf8ByteSize_detour]
      decide
  rw [Disk.locate_of_lookable hlook, winding, Disk.reach_join _ hm, reach_detour]
  rfl

theorem included_spur : included spur { home := none } "/m" = ["/m", "/bbbbbb"] ∧
    included spur { home := none } "/bbbbbb" = [] := by
  decide +kernel

theorem isPresent_beside_winding :
    spur.isPresent (Path.join (detour 817) "bbbbbb") = false := by
  rw [Bool.eq_false_iff]
  intro hpresent
  obtain ⟨place, hplace⟩ := Disk.isPresent_iff.1 hpresent
  have hshort := (Disk.lookable_of_locate hplace).short
  rw [join_detour _ rfl, String.utf8ByteSize_append, String.utf8ByteSize_append,
    utf8ByteSize_detour] at hshort
  exact absurd hshort (by decide)

theorem readFile_winding : readFile spur winding = .ok (["m"],
    [⟨winding, 1, "include /m".toList⟩, ⟨winding, 2, "include bbbbbb".toList⟩]) := by
  have hlines : Lines.lines "include /m\ninclude bbbbbb".toList =
      ["include /m".toList, "include bbbbbb".toList] := rfl
  rw [readFile_of_locate locate_winding (by decide) rfl (Utf8.decode?_encode _), hlines]
  rfl

theorem parent?_winding : Path.parent? winding = some (detour 817) := by
  obtain ⟨before, hbefore⟩ := names_detour 817
  have hup : ¬ Path.IsDot ['.', '.'] := by simp [Path.IsDot]
  have hm : ¬ Path.IsDot ['m'] := by simp [Path.IsDot]
  exact Path.parent?_join hbefore hup rfl hm rfl

theorem spelled_winding (n : Nat) (text : List Char) (written : String) :
    (Line.mk winding n text).spelled { home := none } written = Path.join (detour 817) written := by
  have hnone : Path.expandHome none written = written := rfl
  rw [Line.spelled, hnone, parent?_winding, Option.getD_some]

theorem included_winding : included spur { home := none } winding = ["/m"] := by
  have hm : Directive.ofLine "include /m".toList = .embed "/m" := rfl
  have hb : Directive.ofLine "include bbbbbb".toList = .embed "bbbbbb" := rfl
  have hspelled : (Line.mk winding 1 "include /m".toList).spelled { home := none } "/m" = "/m" := by
    rw [spelled_winding, Path.join_of_absolute rfl]
  have hpresent : spur.isPresent "/m" = true := rfl
  rw [included_of_readFile readFile_winding, targets_cons_of_present hm (hspelled ▸ hpresent),
    targets_cons_of_absent hb, Line.target, hspelled]
  · rfl
  · rw [spelled_winding, isPresent_beside_winding]
    exact Bool.false_ne_true

/-- Only the file itself is loaded, although by its canonical path it includes another one. -/
theorem load_winding :
    ∃ s, load spur { home := none } (some winding) = .ok s ∧ s.loaded = ["/m"] := by
  have hwinding : spur.canonicalize winding = spur.canonicalize "/m" := by
    rw [Disk.canonicalize_of_locate locate_winding]
    rfl
  refine @exists_load spur { home := none } winding (some winding) [winding, "/m", "/bbbbbb"]
    [winding] ["/m"] rfl List.mem_cons_self ?_ ?_ ?_ ?_
  · simp [included_winding, included_spur]
  · have hfit : ∀ p ∈ ["/m", "/bbbbbb"], ¬ Unfit spur p := by decide +kernel
    refine List.forall_mem_cons.2 ⟨fun hunfit => ?_, hfit⟩
    exact hfit "/m" List.mem_cons_self (unfit_congr hwinding.symm hunfit)
  · refine .first List.not_mem_nil ?_ (.done _)
    have hroot : Path.expandHome none winding = winding := rfl
    rw [hroot, included_winding]
    refine .again ?_ (.done _)
    rw [← hwinding]
    exact List.mem_cons_self
  · rw [List.map_singleton, hwinding]
    rfl

/-- A file in a home folder whose path starts with a tilde. -/
def tilde : Disk where
  nodes := [(["m", "x", "~"], .file (Utf8.encode "include /~/x/m\ninclude b".toList)),
    (["b", "x", "~"], .file []), (["b", "x", "x", "~"], .file []), (["x", "x", "~"], .folder),
    (["x", "~"], .folder), (["~"], .folder)]
  working := "/"

theorem included_tilde :
    included tilde { home := some "~/x" } "~/x/m" = ["/~/x/m", "~/x/x/b"] ∧
      included tilde { home := some "~/x" } "/~/x/m" = ["/~/x/m", "/~/x/b"] ∧
      included tilde { home := some "~/x" } "/~/x/b" = [] ∧
      included tilde { home := some "~/x" } "~/x/x/b" = [] := by
  decide +kernel

theorem closed_tilde : ∀ p ∈ ["~/x/m", "/~/x/m", "/~/x/b", "~/x/x/b"],
    included tilde { home := some "~/x" } p ⊆ ["~/x/m", "/~/x/m", "/~/x/b", "~/x/x/b"] := by
  obtain ⟨hroot, hm, hb, hfar⟩ := included_tilde
  simp [hroot, hm, hb, hfar]

theorem expandHome_tilde : Path.expandHome (some "~/x") "~/m" = "~/x/m" := rfl

/-- The other file is found beside the first one, but its path is expanded once more. -/
theorem load_tilde : ∃ s, load tilde { home := some "~/x" } (some "~/m") = .ok s ∧
    s.loaded = ["/~/x/m", "/~/x/x/b"] := by
  refine @exists_load tilde { home := some "~/x" } "~/m" (some "~/m")
    ["~/x/m", "/~/x/m", "/~/x/b", "~/x/x/b"] ["~/x/m", "~/x/x/b"] ["/~/x/m", "/~/x/x/b"] rfl ?_
    closed_tilde (by decide +kernel) ?_ rfl
  · rw [expandHome_tilde]
    exact List.mem_cons_self
  · obtain ⟨hroot, -, -, hfar⟩ := included_tilde
    rw [expandHome_tilde]
    refine .first List.not_mem_nil ?_ (.done _)
    rw [hroot]
    refine .again (by decide) (.first (by decide) ?_ (.done _))
    rw [hfar]
    exact .done _

/-- Loading can pass over what the includes lead to, when a path gets too long, and when the path of
the home folder starts with a tilde. -/
theorem load_misses_reachable :
    (¬ ∀ (disk : Disk) (env : Environment) (given : Option String) (path : String) (s : Settings),
      env.Settled → rcPath? env disk given = some path → load disk env given = .ok s →
        ∀ p, Reachable disk env (Path.expandHome env.home path) p →
          ∃ c ∈ s.loaded, disk.canonicalize p = .ok c) ∧
    ¬ ∀ (disk : Disk) (env : Environment) (given : Option String) (path : String) (s : Settings),
      (∀ p, Reachable disk env (Path.expandHome env.home path) p → ¬ Overlong disk env p) →
        rcPath? env disk given = some path → load disk env given = .ok s →
          ∀ p, Reachable disk env (Path.expandHome env.home path) p →
            ∃ c ∈ s.loaded, disk.canonicalize p = .ok c := by
  constructor
  · intro hall
    obtain ⟨s, hs, hloaded⟩ := load_winding
    have hfirst : "/m" ∈ included spur { home := none } winding := by
      rw [included_winding]
      exact List.mem_cons_self
    have hsecond : "/bbbbbb" ∈ included spur { home := none } "/m" := by
      rw [included_spur.1]
      exact List.mem_cons_of_mem _ List.mem_cons_self
    have hreachable : Reachable spur { home := none } (Path.expandHome none winding) "/bbbbbb" := by
      have hroot : Path.expandHome none winding = winding := rfl
      rw [hroot]
      exact (Reachable.next .refl hfirst).next hsecond
    obtain ⟨c, hc, hcanonical⟩ := hall spur { home := none } (some winding) winding s nofun rfl hs
      "/bbbbbb" hreachable
    rw [hloaded, List.mem_singleton] at hc
    subst hc
    revert hcanonical
    decide
  · intro hall
    obtain ⟨s, hs, hloaded⟩ := load_tilde
    obtain ⟨hroot, hm, -⟩ := included_tilde
    have hfirst : "/~/x/m" ∈ included tilde { home := some "~/x" } "~/x/m" := by
      rw [hroot]
      exact List.mem_cons_self
    have hsecond : "/~/x/b" ∈ included tilde { home := some "~/x" } "/~/x/m" := by
      rw [hm]
      exact List.mem_cons_of_mem _ List.mem_cons_self
    have hshort : ∀ p ∈ ["~/x/m", "/~/x/m", "/~/x/b", "~/x/x/b"],
        ∀ q ∈ named tilde { home := some "~/x" } p, q.utf8ByteSize ≤ Disk.maxPath := by
      decide +kernel
    have hall := hall tilde { home := some "~/x" } (some "~/m") "~/m" s
    rw [expandHome_tilde] at hall
    obtain ⟨c, hc, hcanonical⟩ := hall
      (fun p hp => not_overlong (hshort p (mem_of_reachable hp List.mem_cons_self closed_tilde)))
      rfl hs "/~/x/b" ((Reachable.next .refl hfirst).next hsecond)
    rw [hloaded] at hc
    revert c
    decide

end Agenda.Settings
