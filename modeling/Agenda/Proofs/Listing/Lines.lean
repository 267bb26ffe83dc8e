import Agenda.Proofs.Listing.Limits

/-!
The lines of a table. Each task has one as long as no cell holds a line feed. Of a comment nothing
but its first line is shown, and identifiers and dates are no free text, but titles and rules are
shown as they are.
-/

namespace Agenda.Listing

open Tasks (Labelled Stored)

variable {colored : Bool} {today : Date} {stored tasks : List Task} {text : String} {t : Task}

/-- The text consists of so many lines, each with a line feed at its end. -/
def OnLines (n : Nat) (text : String) : Prop :=
  ∃ lines : List (List Char), lines.length = n ∧ (∀ line ∈ lines, '\n' ∉ line) ∧
    text.toList = lines.flatMap fun line => line ++ ['\n']

theorem count_flatMap_ended (blocks : List (List Char)) :
    (blocks.flatMap fun block => block ++ ['\n']).count '\n' =
      blocks.length + blocks.flatten.count '\n' := by
  induction blocks with
  | nil => rfl
  | cons block blocks ih =>
      rw [List.flatMap_cons, List.count_append, List.count_append, ih, List.count_singleton_self,
        List.flatten_cons, List.count_append, List.length_cons]
      omega

theorem count_flatten_eq_zero_iff {blocks : List (List Char)} :
    blocks.flatten.count '\n' = 0 ↔ ∀ block ∈ blocks, '\n' ∉ block := by
  rw [List.count_eq_zero, List.mem_flatten]
  exact ⟨fun h block hblock hnewline => h ⟨block, hblock, hnewline⟩,
    fun h ⟨block, hblock, hnewline⟩ => h block hblock hnewline⟩

/-- There are as many lines as line feeds, so a text of so many blocks is on so many lines only if
no block holds one. -/
theorem onLines_length_iff {blocks : List (List Char)}
    (htext : text.toList = blocks.flatMap fun block => block ++ ['\n']) :
    OnLines blocks.length text ↔ ∀ block ∈ blocks, '\n' ∉ block := by
  constructor
  · rintro ⟨lines, hlength, hlines, heq⟩
    have hcount := congrArg (List.count '\n') (htext.symm.trans heq)
    rw [count_flatMap_ended, count_flatMap_ended, count_flatten_eq_zero_iff.2 hlines] at hcount
    exact count_flatten_eq_zero_iff.1 (by omega)
  · intro h
    exact ⟨blocks, rfl, h, htext⟩

/-! Rows of cells. -/

theorem toList_line (cells : List String) :
    (line cells).toList = (cells.flatMap fun cell => cell.toList ++ [' ']) ++ ['\n'] := by
  rw [line, String.toList_append, String.toList_join, List.flatMap_map]
  simp only [String.toList_append]
  rfl

theorem onLines_join_iff (rows : List (List String)) :
    OnLines rows.length (String.join (rows.map line)) ↔
      ∀ row ∈ rows, ∀ cell ∈ row, '\n' ∉ cell.toList := by
  have htext : (String.join (rows.map line)).toList =
      (rows.map fun row => row.flatMap fun cell => cell.toList ++ [' ']).flatMap fun block =>
        block ++ ['\n'] := by
    rw [String.toList_join, List.flatMap_map, List.flatMap_map]
    simp only [toList_line]
  have hlines := onLines_length_iff htext
  rw [List.length_map] at hlines
  rw [hlines, List.forall_mem_map]
  refine forall₂_congr fun row _ => ?_
  rw [List.mem_flatMap]
  constructor
  · intro h cell hcell hnewline
    exact h ⟨cell, hcell, List.mem_append_left _ hnewline⟩
  · rintro h ⟨cell, hcell, hnewline⟩
    obtain hnewline | hnewline := List.mem_append.1 hnewline
    · exact h cell hcell hnewline
    · cases List.mem_singleton.1 hnewline

theorem newline_mem_append_repeated {c : Char} (hc : c ≠ '\n') (n : Nat) :
    '\n' ∈ (text ++ repeated n c).toList ↔ '\n' ∈ text.toList := by
  rw [String.toList_append, List.mem_append]
  exact or_iff_left fun hmem => hc (eq_of_mem_repeated hmem).symm

/-- A table is on as many lines as it has tasks and two more if no cell holds a line feed. -/
theorem onLines_laidOut_iff (widths : Column → Nat) (gaps : Task → Column → Nat) (colored : Bool)
    (today : Date) (tasks : List Task) :
    OnLines (2 + tasks.length) (laidOut widths gaps colored today tasks) ↔
      ∀ t ∈ tasks, ∀ column : Column, '\n' ∉ (column.cell colored today t).toList := by
  have hlength : (rows widths gaps colored today tasks).length = 2 + tasks.length := by
    rw [rows, List.length_cons, List.length_cons, List.length_map]
    omega
  rw [laidOut, ← hlength, onLines_join_iff, rows, List.forall_mem_cons, List.forall_mem_cons]
  constructor
  · rintro ⟨_, _, h⟩ t ht column hnewline
    exact h _ (List.mem_map_of_mem ht) _ (List.mem_map_of_mem (mem_all column))
      ((newline_mem_append_repeated (by decide) _).2 hnewline)
  · intro h
    refine ⟨?_, ?_, ?_⟩
    · refine List.forall_mem_map.2 fun column _ => ?_
      rw [newline_mem_append_repeated (by decide)]
      cases column <;> decide
    · refine List.forall_mem_map.2 fun column _ hnewline => ?_
      exact absurd (eq_of_mem_repeated hnewline) (by decide)
    · refine List.forall_mem_map.2 fun t ht => List.forall_mem_map.2 fun column _ => ?_
      rw [newline_mem_append_repeated (by decide)]
      exact h t ht column

/-! Kept tasks. -/

theorem newline_mem_paint {color : String} (hcolor : '\n' ∉ color.toList) :
    '\n' ∈ (paint colored color text).toList ↔ '\n' ∈ text.toList := by
  cases colored with
  | false => exact Iff.rfl
  | true =>
      have hend : '\n' ∉ "\x1b[0m".toList := by decide
      rw [toList_paint_true]
      simp only [List.mem_cons, List.mem_append, hcolor, hend, Char.reduceEq, false_or, or_false]

theorem newline_not_mem_firstLine (text : String) : '\n' ∉ (firstLine text).toList := by
  obtain hnil | hline := firstLine_cases text
  · rw [hnil]
    exact List.not_mem_nil
  · exact Lines.not_mem_of_mem_lines hline

/-- Only the title and the rule of a kept task can put a line feed into its cells. -/
theorem newline_not_mem_cells_iff {last : Nat} (h : Labelled last t) :
    (∀ column : Column, '\n' ∉ (column.cell colored today t).toList) ↔
      '\n' ∉ t.title.toList ∧ '\n' ∉ t.rule.toList := by
  have hid : '\n' ∉ t.id.toList :=
    Width.not_mem_of_isPrintable (isPrintable_of_mem_id h) (by decide)
  have hdate : '\n' ∉ t.date.toList :=
    Width.not_mem_of_isPrintable (isPrintable_of_mem_date h) (by decide)
  constructor
  · exact fun hcells => ⟨hcells .title, hcells .rule⟩
  · rintro ⟨htitle, hrule⟩ column
    cases column with
    | id => exact mt (newline_mem_paint (by decide)).1 hid
    | date =>
        rw [Column.cell]
        split
        · exact mt (newline_mem_paint (by decide)).1 hdate
        · exact hdate
    | title => exact htitle
    | rule => exact hrule
    | comment => exact newline_not_mem_firstLine t.comment

/-- What is printed of tasks that a run has kept is on one line for each and two more exactly if no
title and no rule holds a line feed, whatever identifiers, dates and comments are. -/
theorem on_lines_of_stored_iff {requests : List Tasks.Request} (hstored : Stored requests stored)
    (hlisted : tasks ⊆ stored) (colored : Bool) (today : Date) :
    (∀ text, printed Width.width colored today tasks = .ok text →
        (OnLines (2 + tasks.length) text ↔
          ∀ t ∈ tasks, '\n' ∉ t.title.toList ∧ '\n' ∉ t.rule.toList)) ∧
      ((∃ text, printed Width.width colored today tasks = .ok text ∧
          OnLines (2 + tasks.length) text) ↔
        ∀ t ∈ tasks, Narrow t ∧ '\n' ∉ t.title.toList ∧ '\n' ∉ t.rule.toList) := by
  have hlabelled := Tasks.labelled_of_stored hstored hlisted
  have hlines : OnLines (2 + tasks.length) (table Width.width colored today tasks) ↔
      ∀ t ∈ tasks, '\n' ∉ t.title.toList ∧ '\n' ∉ t.rule.toList := by
    rw [table_eq_laidOut, onLines_laidOut_iff]
    exact forall₂_congr fun t ht => newline_not_mem_cells_iff (hlabelled t ht)
  refine ⟨fun text htext => ?_, ?_⟩
  · rw [← (printed_eq_ok_iff.1 htext).2]
    exact hlines
  · simp only [printed_eq_ok_iff, columnWidth_le_maxWidth_iff hlabelled, and_assoc, exists_and_left,
      exists_eq_left', hlines, forall_and]

/-- A kept task with a line feed in its title. -/
def titled : Task := { id := "1", title := "a\nb", date := "20240110" }

/-- A kept task with a line feed between the words of its rule. -/
def ruled : Task := { id := "1", title := "a", date := "20240117", rule := "d\n7" }

theorem stored_titled : Stored [.add { title := "a\nb" } ⟨2024, 1, 10, by decide⟩] [titled] :=
  Tasks.stored_add (u := { title := "a\nb", date := "20240110" }) rfl

theorem stored_ruled :
    Stored [.add { title := "a", rule := "d\n7" } ⟨2024, 1, 10, by decide⟩] [ruled] :=
  Tasks.stored_add (u := { title := "a", date := "20240117", rule := "d\n7" }) rfl

theorem printed_titled : printed Width.width false ⟨2024, 1, 10, by decide⟩ [titled] =
    .ok (table Width.width false ⟨2024, 1, 10, by decide⟩ [titled]) := rfl

theorem printed_ruled : printed Width.width false ⟨2024, 1, 10, by decide⟩ [ruled] =
    .ok (table Width.width false ⟨2024, 1, 10, by decide⟩ [ruled]) := rfl

theorem not_on_lines_of_newline :
    (Stored [.add { title := "a\nb" } ⟨2024, 1, 10, by decide⟩] [titled] ∧
      ∃ text, printed Width.width false ⟨2024, 1, 10, by decide⟩ [titled] = .ok text ∧
        ¬ OnLines 3 text) ∧
    Stored [.add { title := "a", rule := "d\n7" } ⟨2024, 1, 10, by decide⟩] [ruled] ∧
      ∃ text, printed Width.width false ⟨2024, 1, 10, by decide⟩ [ruled] = .ok text ∧
        ¬ OnLines 3 text := by
  have htitled := (on_lines_of_stored_iff stored_titled (List.Subset.refl _) false
    ⟨2024, 1, 10, by decide⟩).1 _ printed_titled
  have hruled := (on_lines_of_stored_iff stored_ruled (List.Subset.refl _) false
    ⟨2024, 1, 10, by decide⟩).1 _ printed_ruled
  refine ⟨⟨stored_titled, _, printed_titled, fun hlines => ?_⟩,
    stored_ruled, _, printed_ruled, fun hlines => ?_⟩
  · exact (htitled.1 hlines titled (List.mem_singleton_self _)).1 (by decide)
  · exact (hruled.1 hlines ruled (List.mem_singleton_self _)).2 (by decide)

end Agenda.Listing
