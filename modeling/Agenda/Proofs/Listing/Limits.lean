import Agenda.Proofs.Listing.Layout
import Agenda.Proofs.Tasks.Labels
import Agenda.Proofs.Text.Width

/-!
Which tables are printed. The identifiers and dates that a run keeps are short, so no more than the
texts that came with the tasks can make a column too wide: a title, a rule, or the first line of a
comment.
-/

namespace Agenda.Listing

open Tasks (Labelled Stored)
open Width (IsPrintable)

variable {width : List Char → Nat} {colored : Bool} {today : Date} {stored tasks : List Task}
  {text : String} {t : Task}

/-! Columns that are not too wide. -/

theorem columnWidth_le_iff {column : Column} {n : Nat} :
    columnWidth width colored today tasks column ≤ n ↔
      width column.header.toList ≤ n ∧
        ∀ t ∈ tasks, width (visible (column.cell false today t)) ≤ n := by
  have hgreatest := isGreatest_columnWidth width colored today tasks column
  constructor
  · intro h
    refine ⟨Nat.le_trans (hgreatest.2 (.inl rfl)) h, fun t ht => ?_⟩
    rw [← visible_cell colored]
    exact Nat.le_trans (hgreatest.2 (.inr ⟨t, ht, rfl⟩)) h
  · rintro ⟨hheader, hcells⟩
    obtain heq | ⟨t, ht, heq⟩ := hgreatest.1
    · exact heq ▸ hheader
    · rw [heq, visible_cell]
      exact hcells t ht

theorem mem_all (column : Column) : column ∈ Column.all := by cases column <;> decide

theorem tooWide?_eq_none_iff : tooWide? width colored today tasks = none ↔
    ∀ column, columnWidth width colored today tasks column ≤ maxWidth := by
  rw [tooWide?, List.find?_eq_none]
  constructor
  · intro h column
    exact Nat.not_lt.1 fun hlt => h column (mem_all column) (decide_eq_true hlt)
  · intro h column _ hlt
    exact Nat.not_lt.2 (h column) (of_decide_eq_true hlt)

theorem printed_eq_ok_iff : printed width colored today tasks = .ok text ↔
    (∀ column, columnWidth width colored today tasks column ≤ maxWidth) ∧
      table width colored today tasks = text := by
  rw [← tooWide?_eq_none_iff, printed]
  cases tooWide? width colored today tasks with
  | none => simp only [Except.ok.injEq, true_and]
  | some column => simp only [reduceCtorEq, false_and]

theorem lt_of_printed_eq_error {column : Column}
    (h : printed width colored today tasks = .error column) :
    maxWidth < columnWidth width colored today tasks column := by
  rw [printed] at h
  split at h
  · rename_i hfind
    cases h
    rw [tooWide?] at hfind
    have hwide := List.find?_some hfind
    exact of_decide_eq_true hwide
  · cases h

/-! Identifiers and dates. -/

theorem isPrintable_of_isDigit {c : Char} (h : c.isDigit) : IsPrintable c := by
  have hzero : '0'.toNat = 48 := rfl
  have hnine : '9'.toNat = 57 := rfl
  have hc := Char.isDigit_iff_toNat.1 h
  rw [IsPrintable]
  omega

theorem isPrintable_of_mem_yearText {year : Int} {c : Char} (h : c ∈ (Date.yearText year).toList) :
    IsPrintable c := by
  rw [Date.yearText] at h
  split at h
  · exact isPrintable_of_isDigit (Numeral.isDigit_of_mem_padded h)
  · rw [String.toList_append, List.mem_append] at h
    obtain h | h := h
    · split at h <;> (cases List.mem_singleton.1 h; decide)
    · exact isPrintable_of_isDigit (Numeral.isDigit_of_mem_padded h)

theorem isPrintable_of_mem_compact {day : Date} {c : Char} (h : c ∈ day.compact.toList) :
    IsPrintable c := by
  rw [Date.toList_compact, List.mem_append, List.mem_append] at h
  obtain (h | h) | h := h
  · exact isPrintable_of_mem_yearText h
  · exact isPrintable_of_isDigit (Numeral.isDigit_of_mem_padded h)
  · exact isPrintable_of_isDigit (Numeral.isDigit_of_mem_padded h)

theorem length_yearText_le (day : Date) : (Date.yearText day.year).toList.length ≤ 7 := by
  have hmin : Date.minYear = -262143 := rfl
  have hmax : Date.maxYear = 262142 := rfl
  have hyear := day.valid.1
  rw [Date.yearText]
  split
  · exact Numeral.length_padded_le (by decide) (by decide) (by omega)
  · have habs : (Numeral.padded 4 day.year.natAbs).toList.length ≤ 6 :=
      Numeral.length_padded_le (by decide) (by decide) (by omega)
    rw [String.toList_append, List.length_append]
    split <;> exact Nat.add_le_add_left habs 1

theorem length_compact_le (day : Date) : day.compact.toList.length ≤ 11 := by
  have hyear := length_yearText_le day
  have hmonth := Numeral.length_padded (by decide) day.month_lt
  have hday := Numeral.length_padded (by decide) day.day_lt
  rw [Date.toList_compact, List.length_append, List.length_append]
  omega

theorem width_visible_of_isPrintable (h : ∀ c ∈ text.toList, IsPrintable c) :
    Width.width (visible text) = text.toList.length := by
  have hescape : '\x1b' ∉ text.toList := Width.not_mem_of_isPrintable h (by decide)
  rw [(shows_self hescape).visible_eq, Width.width_of_isPrintable h]

theorem isPrintable_of_mem_id {last : Nat} (h : Labelled last t) :
    ∀ c ∈ t.id.toList, IsPrintable c := by
  obtain ⟨n, _, hid⟩ := h.id
  rw [hid, Numeral.text, String.toList_ofList]
  exact fun c hc => isPrintable_of_isDigit (Numeral.isDigit_of_mem_digits hc)

theorem isPrintable_of_mem_date {last : Nat} (h : Labelled last t) :
    ∀ c ∈ t.date.toList, IsPrintable c := by
  obtain ⟨day, hdate⟩ := h.date
  rw [hdate]
  exact fun c hc => isPrintable_of_mem_compact hc

theorem width_id_le (h : Labelled Numeral.max64 t) : Width.width (visible t.id) ≤ 20 := by
  obtain ⟨n, hn, hid⟩ := h.id
  rw [width_visible_of_isPrintable (isPrintable_of_mem_id h), hid, Numeral.text,
    String.toList_ofList]
  exact Numeral.length_digits_le (by decide) (Nat.lt_of_le_of_lt hn (by decide))

theorem width_date_le (h : Labelled Numeral.max64 t) : Width.width (visible t.date) ≤ 11 := by
  obtain ⟨day, hdate⟩ := h.date
  rw [width_visible_of_isPrintable (isPrintable_of_mem_date h), hdate]
  exact length_compact_le day

theorem cell_date_uncolored (today : Date) (t : Task) :
    Column.cell false today t .date = t.date := by
  rw [Column.cell]
  exact ite_self _

/-! Kept tasks. -/

/-- Neither title nor rule nor the first line of the comment is too wide to be printed. -/
structure Narrow (t : Task) : Prop where
  title : Width.width (visible t.title) ≤ maxWidth
  rule : Width.width (visible t.rule) ≤ maxWidth
  comment : Width.width (visible (firstLine t.comment)) ≤ maxWidth

theorem width_header_le (column : Column) : Width.width column.header.toList ≤ maxWidth := by
  cases column <;> decide

/-- The columns of identifiers and of dates are never too wide. -/
theorem columnWidth_le_of_labelled (h : ∀ t ∈ tasks, Labelled Numeral.max64 t)
    (colored : Bool) (today : Date) {column : Column} (hcolumn : column = .id ∨ column = .date) :
    columnWidth Width.width colored today tasks column ≤ maxWidth := by
  refine columnWidth_le_iff.2 ⟨width_header_le column, fun t ht => ?_⟩
  obtain rfl | rfl := hcolumn
  · exact Nat.le_trans (width_id_le (h t ht)) (by decide)
  · rw [cell_date_uncolored]
    exact Nat.le_trans (width_date_le (h t ht)) (by decide)

theorem columnWidth_le_maxWidth_iff (h : ∀ t ∈ tasks, Labelled Numeral.max64 t) (colored : Bool)
    (today : Date) :
    (∀ column, columnWidth Width.width colored today tasks column ≤ maxWidth) ↔
      ∀ t ∈ tasks, Narrow t := by
  constructor
  · intro hall t ht
    have hcell := fun column => (columnWidth_le_iff.1 (hall column)).2 t ht
    exact ⟨hcell .title, hcell .rule, hcell .comment⟩
  · intro hnarrow column
    cases column with
    | id => exact columnWidth_le_of_labelled h colored today (.inl rfl)
    | date => exact columnWidth_le_of_labelled h colored today (.inr rfl)
    | title => exact columnWidth_le_iff.2 ⟨width_header_le _, fun t ht => (hnarrow t ht).title⟩
    | rule => exact columnWidth_le_iff.2 ⟨width_header_le _, fun t ht => (hnarrow t ht).rule⟩
    | comment => exact columnWidth_le_iff.2 ⟨width_header_le _, fun t ht => (hnarrow t ht).comment⟩

/-- A table of tasks that a run has kept is printed exactly as long as none of them has a title, a
rule or a first line of a comment that is too wide. No identifier and no date ever stops it. -/
theorem printed_of_stored_iff {requests : List Tasks.Request} (hstored : Stored requests stored)
    (hlisted : tasks ⊆ stored) (colored : Bool) (today : Date) :
    ((∀ column, columnWidth Width.width colored today tasks column ≤ maxWidth) ↔
        ∀ t ∈ tasks, Narrow t) ∧
      ((∃ text, printed Width.width colored today tasks = .ok text) ↔ ∀ t ∈ tasks, Narrow t) ∧
      ∀ column, printed Width.width colored today tasks = .error column →
        column ≠ .id ∧ column ≠ .date := by
  have hlabelled := Tasks.labelled_of_stored hstored hlisted
  have hnarrow := columnWidth_le_maxWidth_iff hlabelled colored today
  refine ⟨hnarrow, ?_, fun column herror => ?_⟩
  · simp only [printed_eq_ok_iff, exists_and_left, exists_eq', and_true, hnarrow]
  · have hlt := lt_of_printed_eq_error herror
    rw [← not_or]
    exact fun hcolumn =>
      Nat.not_le.2 hlt (columnWidth_le_of_labelled hlabelled colored today hcolumn)

/-- A title of so many letters. -/
def lettered (n : Nat) : Task := { title := repeated n 'a' }

theorem width_lettered (n : Nat) : Width.width (visible (lettered n).title) = n := by
  rw [lettered, width_visible_of_isPrintable, toList_repeated, List.length_replicate]
  intro c hc
  rw [eq_of_mem_repeated hc]
  decide

theorem accept_lettered {n : Nat} (h : 0 < n) (now : Date) (hnow : now.HasShortYear) :
    (lettered n).accept now = .ok { lettered n with date := now.compact } := by
  have hstart : (lettered n).startText now = now.compact := if_pos rfl
  have hmem : 'a' ∈ (lettered n).title.toList := by
    rw [lettered, toList_repeated]
    exact List.mem_replicate.2 ⟨Nat.ne_of_gt h, rfl⟩
  refine Task.accept_eq_ok_iff.2 ⟨List.ne_nil_of_mem (Blank.mem_trim hmem rfl), now, _, ?_, ?_, rfl⟩
  · rw [hstart, Date.ofCompact?_compact hnow]
  · exact Task.acceptedDate_eq_ok_iff.2 (.inr (.inl ⟨now.isAfter_self, rfl, rfl⟩))

theorem exists_stored_lettered {n : Nat} (h : 0 < n) (now : Date) (hnow : now.HasShortYear) :
    ∃ t, Stored [.add (lettered n) now] [t] ∧ t.title = (lettered n).title :=
  ⟨_, Tasks.stored_add (accept_lettered h now hnow), rfl⟩

theorem not_printed_of_long_title :
    ∃ long, Stored [.add (lettered (maxWidth + 1)) ⟨2024, 1, 10, by decide⟩] [long] ∧
      (¬ ∀ column,
        columnWidth Width.width false ⟨2024, 1, 10, by decide⟩ [long] column ≤ maxWidth) ∧
      ¬ ∃ text, printed Width.width false ⟨2024, 1, 10, by decide⟩ [long] = .ok text := by
  obtain ⟨long, hstored, htitle⟩ :=
    exists_stored_lettered (Nat.succ_pos maxWidth) ⟨2024, 1, 10, by decide⟩ (by decide)
  obtain ⟨hwidths, hprinted, _⟩ :=
    printed_of_stored_iff hstored (List.Subset.refl _) false ⟨2024, 1, 10, by decide⟩
  have hwide : ¬ ∀ t ∈ [long], Narrow t := by
    intro h
    have hle := (h long (List.mem_singleton_self long)).title
    rw [htitle, width_lettered] at hle
    exact Nat.not_succ_le_self maxWidth hle
  exact ⟨long, hstored, fun h => hwide (hwidths.1 h), fun h => hwide (hprinted.1 h)⟩

end Agenda.Listing
