import Agenda.Listing
import Agenda.Proofs.Text.Lines
import Mathlib.Logic.Basic
import Mathlib.Order.Bounds.Defs

/-!
The layout of the table. What a colour adds to a cell is not seen, so neither the widths of the
columns nor the blanks behind the cells depend on it, whatever sequences the tasks themselves hold.
-/

namespace Agenda.Listing

variable {width : List Char → Nat} {colored : Bool} {today : Date} {tasks : List Task}
  {text shown color : String} {column : Column}

/-! Colours are not seen. -/

/-- The end of a colour changes nothing, also behind a text that ends within a sequence. -/
theorem visibleFrom_append_reset (escaped : Bool) (cs : List Char) :
    visibleFrom escaped (cs ++ "\x1b[0m".toList) = visibleFrom escaped cs := by
  induction cs generalizing escaped with
  | nil => cases escaped <;> rfl
  | cons c cs ih => simp only [List.cons_append, visibleFrom, ih]

theorem visibleFrom_true_append {cs : List Char} (h : 'm' ∉ cs) (rest : List Char) :
    visibleFrom true (cs ++ 'm' :: rest) = visibleFrom false rest := by
  induction cs with
  | nil => rfl
  | cons c cs ih =>
      rw [List.mem_cons, not_or] at h
      rw [List.cons_append, visibleFrom, if_pos rfl, decide_eq_true (Ne.symm h.1), ih h.2]

theorem toList_paint_true (color text : String) :
    (paint true color text).toList =
      '\x1b' :: '[' :: (color.toList ++ 'm' :: (text.toList ++ "\x1b[0m".toList)) := by
  rw [paint, if_pos rfl]
  simp

theorem visibleFrom_paint (hcolor : 'm' ∉ color.toList) (text : String) (rest : List Char) :
    visibleFrom false ((paint true color text).toList ++ rest) =
      visibleFrom false (text.toList ++ ("\x1b[0m".toList ++ rest)) := by
  have h := visibleFrom_true_append hcolor (text.toList ++ ("\x1b[0m".toList ++ rest))
  rw [toList_paint_true]
  simpa [visibleFrom] using h

theorem visible_paint (hcolor : 'm' ∉ color.toList) (colored : Bool) (text : String) :
    visible (paint colored color text) = visible text := by
  cases colored with
  | false => rfl
  | true =>
      have h := visibleFrom_paint hcolor text []
      rw [List.append_nil, List.append_nil, visibleFrom_append_reset] at h
      exact h

theorem visible_cell (colored : Bool) (today : Date) (t : Task) (column : Column) :
    visible (column.cell colored today t) = visible (column.cell false today t) := by
  cases column with
  | id => exact visible_paint (by decide) colored t.id
  | date =>
      rw [Column.cell, Column.cell]
      split
      · exact visible_paint (by decide) colored t.date
      · rfl
  | title | rule | comment => rfl

/-! Widths of columns. -/

theorem columnWidth_uncolored (width : List Char → Nat) (colored : Bool) (today : Date)
    (tasks : List Task) (column : Column) :
    columnWidth width colored today tasks column = columnWidth width false today tasks column := by
  rw [columnWidth, columnWidth, widest, widest, List.map_cons, List.map_cons, List.map_map,
    List.map_map]
  simp only [Function.comp_def, visible_cell colored]

theorem visible_header (column : Column) : visible column.header = column.header.toList := by
  cases column <;> rfl

theorem isGreatest_widest (width : List Char → Nat) {texts : List String} (h : texts ≠ []) :
    IsGreatest {n | ∃ text ∈ texts, n = width (visible text)} (widest width texts) := by
  have heq : widest width texts = (texts.map fun text => width (visible text)).max?.getD 0 := by
    rw [widest, List.foldl_max, Nat.zero_max]
  rw [heq]
  constructor
  · cases hmax : (texts.map fun text => width (visible text)).max? with
    | none => exact absurd (List.map_eq_nil_iff.1 (List.max?_eq_none_iff.1 hmax)) h
    | some n =>
        obtain ⟨text, htext, hn⟩ := List.mem_map.1 (List.max?_mem hmax)
        exact ⟨text, htext, hn.symm⟩
  · rintro n ⟨text, htext, rfl⟩
    exact List.le_max?_getD_of_mem (List.mem_map_of_mem htext)

theorem isGreatest_columnWidth (width : List Char → Nat) (colored : Bool) (today : Date)
    (tasks : List Task) (column : Column) :
    IsGreatest {n | n = width column.header.toList ∨
        ∃ t ∈ tasks, n = width (visible (column.cell colored today t))}
      (columnWidth width colored today tasks column) := by
  have h := isGreatest_widest width (List.cons_ne_nil column.header
    (tasks.map fun t => column.cell colored today t))
  simpa only [columnWidth, List.mem_cons, List.mem_map, exists_eq_or_imp, visible_header,
    exists_exists_and_eq_and] using h

theorem width_cell_le {t : Task} (ht : t ∈ tasks) (colored : Bool) (column : Column) :
    width (visible (column.cell colored today t)) ≤
      columnWidth width false today tasks column := by
  rw [← columnWidth_uncolored width colored]
  exact (isGreatest_columnWidth width colored today tasks column).2 (.inr ⟨t, ht, rfl⟩)

/-! Layout. -/

/-- The texts of the table, line by line: the headers, the rule and the cells of each task, for
columns of these widths and with so many blanks behind each cell. -/
def rows (widths : Column → Nat) (gaps : Task → Column → Nat) (colored : Bool) (today : Date)
    (tasks : List Task) : List (List String) :=
  (Column.all.map fun column =>
      column.header ++ repeated (widths column - column.header.length) ' ') ::
    (Column.all.map fun column => repeated (widths column) '-') ::
    tasks.map fun t => Column.all.map fun column =>
      column.cell colored today t ++ repeated (gaps t column) ' '

def laidOut (widths : Column → Nat) (gaps : Task → Column → Nat) (colored : Bool) (today : Date)
    (tasks : List Task) : String :=
  String.join ((rows widths gaps colored today tasks).map line)

/-- What is left of its column behind a cell. -/
def gap (width : List Char → Nat) (today : Date) (tasks : List Task) (t : Task) (column : Column) :
    Nat :=
  columnWidth width false today tasks column - width (visible (column.cell false today t))

theorem table_eq_laidOut (width : List Char → Nat) (colored : Bool) (today : Date)
    (tasks : List Task) :
    table width colored today tasks = laidOut (columnWidth width false today tasks)
      (gap width today tasks) colored today tasks := by
  simp only [table, laidOut, rows, gap, padded, List.map_cons, List.map_map, Function.comp_def,
    String.join_cons, String.append_assoc, columnWidth_uncolored width colored,
    visible_cell colored]

/-! What is seen of the whole table. -/

/-- Before any other text, the text is seen as the other one. -/
def Shows (text shown : String) : Prop :=
  ∀ rest, visibleFrom false (text.toList ++ rest) = shown.toList ++ visibleFrom false rest

theorem Shows.append {text' shown' : String} (h : Shows text shown) (h' : Shows text' shown') :
    Shows (text ++ text') (shown ++ shown') := by
  intro rest
  rw [String.toList_append, String.toList_append, List.append_assoc, h, h', List.append_assoc]

theorem Shows.visible_eq (h : Shows text shown) : visible text = shown.toList := by
  have hrest := h []
  rw [List.append_nil] at hrest
  exact hrest.trans (List.append_nil _)

theorem shows_self (h : '\x1b' ∉ text.toList) : Shows text text := by
  intro rest
  revert h
  induction text.toList with
  | nil => exact fun _ => rfl
  | cons c cs ih =>
      intro h
      rw [List.mem_cons, not_or] at h
      rw [List.cons_append, visibleFrom, if_neg Bool.false_ne_true, if_neg (Ne.symm h.1), ih h.2,
        List.cons_append]

theorem shows_paint (hcolor : 'm' ∉ color.toList) (h : '\x1b' ∉ text.toList) :
    Shows (paint true color text) text := by
  intro rest
  rw [visibleFrom_paint hcolor, shows_self h]
  rfl

theorem shows_join {α : Type} {f g : α → String} {list : List α}
    (h : ∀ a ∈ list, Shows (f a) (g a)) :
    Shows (String.join (list.map f)) (String.join (list.map g)) := by
  induction list with
  | nil => exact fun _ => rfl
  | cons a list ih =>
      rw [List.forall_mem_cons] at h
      rw [List.map_cons, List.map_cons, String.join_cons, String.join_cons]
      exact h.1.append (ih h.2)

theorem toList_repeated (n : Nat) (c : Char) : (repeated n c).toList = List.replicate n c :=
  String.toList_ofList

theorem eq_of_mem_repeated {n : Nat} {c d : Char} (h : d ∈ (repeated n c).toList) : d = c :=
  List.eq_of_mem_replicate (toList_repeated n c ▸ h)

theorem shows_repeated {c : Char} (h : c ≠ '\x1b') (n : Nat) :
    Shows (repeated n c) (repeated n c) :=
  shows_self fun hmem => h (eq_of_mem_repeated hmem).symm

theorem shows_line {f g : Column → String} (h : ∀ column, Shows (f column) (g column)) :
    Shows (line (Column.all.map f)) (line (Column.all.map g)) := by
  rw [line, line, List.map_map, List.map_map]
  exact Shows.append (shows_join fun column _ => (h column).append (shows_self (by decide)))
    (shows_self (by decide))

/-- No text of the task holds an escape. -/
def Plain (t : Task) : Prop := ∀ field, '\x1b' ∉ (t.get field).toList

theorem firstLine_cases (text : String) :
    (firstLine text).toList = [] ∨ (firstLine text).toList ∈ Lines.lines text.toList := by
  rw [firstLine, String.toList_ofList]
  cases hhead : (Lines.lines text.toList).head? with
  | none => exact .inl rfl
  | some first => exact .inr (List.mem_of_mem_head? hhead)

theorem mem_of_mem_firstLine {c : Char} (h : c ∈ (firstLine text).toList) : c ∈ text.toList := by
  obtain hnil | hline := firstLine_cases text
  · rw [hnil] at h
    cases h
  · exact Lines.mem_of_mem_lines hline h

theorem shows_cell {t : Task} (h : Plain t) (today : Date) (column : Column) :
    Shows (column.cell true today t) (column.cell false today t) := by
  cases column with
  | id => exact shows_paint (by decide) (h .id)
  | date =>
      rw [Column.cell, Column.cell]
      split
      · exact shows_paint (by decide) (h .date)
      · exact shows_self (h .date)
  | title => exact shows_self (h .title)
  | rule => exact shows_self (h .rule)
  | comment => exact shows_self fun hc => h .comment (mem_of_mem_firstLine hc)

theorem shows_laidOut (h : ∀ t ∈ tasks, Plain t) (widths : Column → Nat)
    (gaps : Task → Column → Nat) (today : Date) :
    Shows (laidOut widths gaps true today tasks) (laidOut widths gaps false today tasks) := by
  simp only [laidOut, rows, List.map_cons, String.join_cons, List.map_map]
  refine Shows.append ?_ (Shows.append ?_ (shows_join fun t ht => ?_))
  · refine shows_line fun column => Shows.append (shows_self ?_) (shows_repeated (by decide) _)
    cases column <;> decide
  · exact shows_line fun column => shows_repeated (by decide) _
  · exact shows_line fun column =>
      (shows_cell (h t ht) today column).append (shows_repeated (by decide) _)

theorem visible_table (h : ∀ t ∈ tasks, Plain t) (width : List Char → Nat) (today : Date) :
    visible (table width true today tasks) = (table width false today tasks).toList := by
  rw [table_eq_laidOut, table_eq_laidOut]
  exact (shows_laidOut h _ _ today).visible_eq

theorem tooWide?_uncolored (width : List Char → Nat) (colored : Bool) (today : Date)
    (tasks : List Task) :
    tooWide? width colored today tasks = tooWide? width false today tasks := by
  simp only [tooWide?, columnWidth_uncolored width colored]

/-- A column is as wide as its header or the widest of its cells. Every cell is followed by as many
blanks as its column is wider than what is seen of the cell, and by one more, in the same way with
and without colours. Where the tasks hold no escape, the colours are all that tells both tables
apart. -/
theorem color_keeps_layout (width : List Char → Nat) (today : Date) (tasks : List Task) :
    ∃ (widths : Column → Nat) (gaps : Task → Column → Nat),
      (∀ colored column, IsGreatest {n | n = width column.header.toList ∨
          ∃ t ∈ tasks, n = width (visible (column.cell colored today t))} (widths column)) ∧
      (∀ colored, ∀ t ∈ tasks, ∀ column,
        width (visible (column.cell colored today t)) + gaps t column = widths column) ∧
      (∀ colored, table width colored today tasks = laidOut widths gaps colored today tasks) ∧
      ((∀ t ∈ tasks, Plain t) →
        visible (table width true today tasks) = (table width false today tasks).toList ∧
        (printed width true today tasks).map visible =
          (printed width false today tasks).map String.toList) := by
  refine ⟨columnWidth width false today tasks, gap width today tasks, ?_, ?_,
    fun colored => table_eq_laidOut width colored today tasks, ?_⟩
  · intro colored column
    rw [← columnWidth_uncolored width colored]
    exact isGreatest_columnWidth width colored today tasks column
  · intro colored t ht column
    rw [visible_cell colored]
    exact Nat.add_sub_cancel' (width_cell_le ht false column)
  · intro hplain
    have hvisible := visible_table hplain width today
    refine ⟨hvisible, ?_⟩
    rw [printed, printed, tooWide?_uncolored width true]
    split
    · rfl
    · exact congrArg Except.ok hvisible

end Agenda.Listing
