import Agenda.Text.Blank
import Agenda.Text.Lines

/-!
Splitting undoes the joining of pieces that do not hold the separator, and trimming leaves a text
alone that neither starts nor ends with a blank.
-/

namespace Agenda

namespace Lines

variable {α : Type} [BEq α] [LawfulBEq α] {separator : α}

theorem splitAt_cons_self (cs : List α) :
    splitAt separator (separator :: cs) = [] :: splitAt separator cs := by
  rw [splitAt, if_pos (beq_self_eq_true separator)]

omit [LawfulBEq α] in
theorem exists_splitAt_eq (separator : α) (cs : List α) :
    ∃ piece pieces, splitAt separator cs = piece :: pieces := by
  cases cs with
  | nil => exact ⟨_, _, rfl⟩
  | cons c cs =>
      rw [splitAt]
      split
      · exact ⟨_, _, rfl⟩
      · split <;> exact ⟨_, _, rfl⟩

theorem splitAt_cons_of_ne {c : α} {cs piece : List α} {pieces : List (List α)}
    (hc : c ≠ separator) (h : splitAt separator cs = piece :: pieces) :
    splitAt separator (c :: cs) = (c :: piece) :: pieces := by
  rw [splitAt, beq_false_of_ne hc, if_neg Bool.false_ne_true, h]

theorem splitAt_of_not_mem {piece : List α} (h : separator ∉ piece) :
    splitAt separator piece = [piece] := by
  induction piece with
  | nil => rfl
  | cons c piece ih =>
      rw [List.mem_cons, not_or] at h
      exact splitAt_cons_of_ne (Ne.symm h.1) (ih h.2)

theorem splitAt_append_cons (cs ds : List α) :
    splitAt separator (cs ++ separator :: ds) = splitAt separator cs ++ splitAt separator ds := by
  induction cs with
  | nil => exact splitAt_cons_self ds
  | cons c cs ih =>
      by_cases hc : c = separator
      · rw [hc, List.cons_append, splitAt_cons_self, splitAt_cons_self, ih, List.cons_append]
      · obtain ⟨piece, pieces, hs⟩ := exists_splitAt_eq separator cs
        rw [hs] at ih
        rw [List.cons_append, splitAt_cons_of_ne hc ih, splitAt_cons_of_ne hc hs]
        rfl

theorem splitAt_append {piece : List α} (h : separator ∉ piece) (rest : List α) :
    splitAt separator (piece ++ separator :: rest) = piece :: splitAt separator rest := by
  rw [splitAt_append_cons, splitAt_of_not_mem h, List.singleton_append]

/-- What is added at the end belongs to the last piece. -/
theorem exists_splitAt_concat {c : α} (hc : c ≠ separator) (cs : List α) :
    ∃ front last, splitAt separator cs = front ++ [last] ∧
      splitAt separator (cs ++ [c]) = front ++ [last ++ [c]] := by
  induction cs with
  | nil => exact ⟨[], [], rfl, splitAt_of_not_mem (by simpa using hc.symm)⟩
  | cons d cs ih =>
      obtain ⟨front, last, hcs, hcsc⟩ := ih
      by_cases hd : d = separator
      · refine ⟨[] :: front, last, ?_, ?_⟩
        · rw [hd, splitAt_cons_self, hcs, List.cons_append]
        · rw [hd, List.cons_append, splitAt_cons_self, hcsc, List.cons_append]
      · cases front with
        | nil =>
            exact ⟨[], d :: last, splitAt_cons_of_ne hd hcs, splitAt_cons_of_ne hd hcsc⟩
        | cons piece front =>
            exact ⟨(d :: piece) :: front, last, splitAt_cons_of_ne hd hcs,
              splitAt_cons_of_ne hd hcsc⟩

theorem intercalate_splitAt (separator : α) (cs : List α) :
    [separator].intercalate (splitAt separator cs) = cs := by
  induction cs with
  | nil => rfl
  | cons c cs ih =>
      obtain ⟨piece, pieces, hs⟩ := exists_splitAt_eq separator cs
      rw [hs] at ih
      by_cases hc : c = separator
      · rw [hc, splitAt_cons_self, hs, List.intercalate_cons_cons, ih]
        rfl
      · rw [splitAt_cons_of_ne hc hs]
        cases pieces with
        | nil =>
            rw [List.intercalate_singleton] at ih ⊢
            rw [ih]
        | cons next pieces =>
            rw [List.intercalate_cons_cons] at ih ⊢
            rw [List.cons_append, List.cons_append, ih]

theorem not_mem_of_mem_splitAt {cs piece : List α} (h : piece ∈ splitAt separator cs) :
    separator ∉ piece := by
  induction cs generalizing piece with
  | nil =>
      cases List.mem_singleton.1 h
      exact List.not_mem_nil
  | cons c cs ih =>
      by_cases hc : c = separator
      · rw [hc, splitAt_cons_self, List.mem_cons] at h
        obtain rfl | h := h
        · exact List.not_mem_nil
        · exact ih h
      · obtain ⟨first, pieces, hs⟩ := exists_splitAt_eq separator cs
        rw [splitAt_cons_of_ne hc hs, List.mem_cons] at h
        rw [hs] at ih
        obtain rfl | h := h
        · rw [List.mem_cons, not_or]
          exact ⟨Ne.symm hc, ih List.mem_cons_self⟩
        · exact ih (List.mem_cons_of_mem _ h)

theorem mem_of_mem_splitAt {cs piece : List α} {c : α} (hpiece : piece ∈ splitAt separator cs)
    (hc : c ∈ piece) : c ∈ cs := by
  induction cs generalizing piece with
  | nil =>
      cases List.mem_singleton.1 hpiece
      cases hc
  | cons d cs ih =>
      by_cases hd : d = separator
      · rw [hd, splitAt_cons_self, List.mem_cons] at hpiece
        obtain rfl | hpiece := hpiece
        · cases hc
        · exact List.mem_cons_of_mem _ (ih hpiece hc)
      · obtain ⟨first, pieces, hs⟩ := exists_splitAt_eq separator cs
        rw [splitAt_cons_of_ne hd hs, List.mem_cons] at hpiece
        rw [hs] at ih
        obtain rfl | hpiece := hpiece
        · exact List.mem_cons.2 ((List.mem_cons.1 hc).imp_right (ih List.mem_cons_self))
        · exact List.mem_cons_of_mem _ (ih (List.mem_cons_of_mem _ hpiece) hc)

/-- Pieces that are each followed by the separator come back with an empty piece behind them. -/
theorem splitAt_flatMap {pieces : List (List α)} (h : ∀ piece ∈ pieces, separator ∉ piece) :
    splitAt separator (pieces.flatMap fun piece => piece ++ [separator]) = pieces ++ [[]] := by
  induction pieces with
  | nil => rfl
  | cons piece pieces ih =>
      rw [List.flatMap_cons, List.append_assoc, List.singleton_append,
        splitAt_append (h piece List.mem_cons_self), List.cons_append,
        ih fun p hp => h p (List.mem_cons_of_mem _ hp)]

theorem splitAt_intercalate {pieces : List (List α)} (hne : pieces ≠ [])
    (h : ∀ piece ∈ pieces, separator ∉ piece) :
    splitAt separator ([separator].intercalate pieces) = pieces := by
  induction pieces with
  | nil => contradiction
  | cons piece pieces ih =>
      have hpiece := h piece List.mem_cons_self
      cases pieces with
      | nil => rw [List.intercalate_singleton, splitAt_of_not_mem hpiece]
      | cons next pieces =>
          have hrest := ih (List.cons_ne_nil _ _) fun p hp => h p (List.mem_cons_of_mem _ hp)
          rw [List.intercalate_cons_cons, List.append_assoc, List.singleton_append,
            splitAt_append hpiece, hrest]

theorem dropCarriageReturn_prefix (line : List Char) : dropCarriageReturn line <+: line := by
  rw [dropCarriageReturn]
  split
  · exact List.dropLast_prefix line
  · exact List.prefix_rfl

/-- A line is what a line feed leaves, but for a carriage return. -/
theorem exists_prefix_of_mem_lines {cs line : List Char} (h : line ∈ lines cs) :
    ∃ piece ∈ splitAt '\n' cs, line <+: piece := by
  rw [lines] at h
  revert h
  fun_induction ofPieces (splitAt '\n' cs) with
  | case1 => exact nofun
  | case2 => exact nofun
  | case3 last _ =>
      intro h
      exact ⟨last, List.mem_singleton_self last, List.mem_singleton.1 h ▸ List.prefix_rfl⟩
  | case4 piece pieces _ ih =>
      intro h
      obtain rfl | h := List.mem_cons.1 h
      · exact ⟨piece, List.mem_cons_self, dropCarriageReturn_prefix piece⟩
      · obtain ⟨whole, hwhole, hfront⟩ := ih h
        exact ⟨whole, List.mem_cons_of_mem _ hwhole, hfront⟩

theorem not_mem_of_mem_lines {cs line : List Char} (h : line ∈ lines cs) : '\n' ∉ line := by
  obtain ⟨piece, hpiece, hfront⟩ := exists_prefix_of_mem_lines h
  exact fun hc => not_mem_of_mem_splitAt hpiece (hfront.subset hc)

theorem mem_of_mem_lines {cs line : List Char} {c : Char} (h : line ∈ lines cs) (hc : c ∈ line) :
    c ∈ cs := by
  obtain ⟨piece, hpiece, hfront⟩ := exists_prefix_of_mem_lines h
  exact mem_of_mem_splitAt hpiece (hfront.subset hc)

theorem splitFirst?_append {before : List α} (h : separator ∉ before) (after : List α) :
    splitFirst? separator (before ++ separator :: after) = some (before, after) := by
  induction before with
  | nil => rw [List.nil_append, splitFirst?, if_pos (beq_self_eq_true separator)]
  | cons c before ih =>
      have hc : (c == separator) = false := by
        apply beq_false_of_ne
        rintro rfl
        exact h List.mem_cons_self
      rw [List.cons_append, splitFirst?, hc, if_neg Bool.false_ne_true,
        ih fun hm => h (List.mem_cons_of_mem _ hm)]
      rfl

theorem splitFirst?_eq_none_iff {cs : List α} :
    splitFirst? separator cs = none ↔ separator ∉ cs := by
  constructor
  · intro h hmem
    obtain ⟨before, after, rfl, hbefore⟩ := List.eq_append_cons_of_mem hmem
    rw [splitFirst?_append hbefore] at h
    cases h
  · intro h
    induction cs with
    | nil => rfl
    | cons c cs ih =>
        rw [List.mem_cons, not_or] at h
        rw [splitFirst?, beq_false_of_ne (Ne.symm h.1), if_neg Bool.false_ne_true, ih h.2]
        rfl

theorem splitFirst?_eq_some_iff {cs before after : List α} :
    splitFirst? separator cs = some (before, after) ↔
      cs = before ++ separator :: after ∧ separator ∉ before := by
  constructor
  · intro h
    have hmem : separator ∈ cs := by
      apply Decidable.byContradiction
      intro habsent
      rw [splitFirst?_eq_none_iff.2 habsent] at h
      cases h
    obtain ⟨front, back, rfl, hfront⟩ := List.eq_append_cons_of_mem hmem
    rw [splitFirst?_append hfront] at h
    cases h
    exact ⟨rfl, hfront⟩
  · rintro ⟨rfl, hbefore⟩
    exact splitFirst?_append hbefore after

theorem ofPieces_concat_nil (pieces : List (List Char)) :
    ofPieces (pieces ++ [[]]) = pieces.map dropCarriageReturn := by
  induction pieces with
  | nil => rfl
  | cons piece pieces ih =>
      obtain ⟨next, rest, hrest⟩ := List.exists_cons_of_ne_nil
        (List.append_ne_nil_of_right_ne_nil pieces (List.cons_ne_nil [] []))
      rw [hrest] at ih
      rw [List.cons_append, hrest, ofPieces, ih, List.map_cons]
      exact List.cons_ne_nil _ _

/-- A text that was written line by line has these lines again. -/
theorem lines_flatMap {pieces : List (List Char)} (h : ∀ piece ∈ pieces, '\n' ∉ piece) :
    lines (pieces.flatMap fun piece => piece ++ ['\n']) = pieces.map dropCarriageReturn := by
  rw [lines, splitAt_flatMap h, ofPieces_concat_nil]

end Lines

namespace Blank

theorem dropWhile_isBlank_eq_self {cs : List Char} (h : ∀ c ∈ cs.head?, isBlank c = false) :
    cs.dropWhile isBlank = cs := by
  cases cs with
  | nil => rfl
  | cons c cs =>
      apply List.dropWhile_cons_of_neg
      rw [h c rfl]
      exact Bool.false_ne_true

theorem trim_eq_self {cs : List Char} (hfirst : ∀ c ∈ cs.head?, isBlank c = false)
    (hlast : ∀ c ∈ cs.getLast?, isBlank c = false) : trim cs = cs := by
  rw [trim, trimStart, dropWhile_isBlank_eq_self hfirst, trimEnd, dropWhile_isBlank_eq_self,
    List.reverse_reverse]
  rwa [List.head?_reverse]

theorem isBlank_of_getLast?_trim {cs : List Char} {c : Char} (h : (trim cs).getLast? = some c) :
    isBlank c = false := by
  rw [trim, trimEnd, List.getLast?_reverse] at h
  have hhead := List.head?_dropWhile_not isBlank (trimStart cs).reverse
  rw [h] at hhead
  exact hhead

theorem trimStart_suffix (cs : List Char) : trimStart cs <:+ cs := List.dropWhile_suffix isBlank

theorem trimEnd_prefix (cs : List Char) : trimEnd cs <+: cs :=
  List.reverse_suffix.1 (by rw [trimEnd, List.reverse_reverse]; exact List.dropWhile_suffix isBlank)

theorem mem_of_mem_trim {cs : List Char} {c : Char} (h : c ∈ trim cs) : c ∈ cs := by
  have hstart : trim cs <+: trimStart cs := trimEnd_prefix (trimStart cs)
  exact (trimStart_suffix cs).mem (hstart.mem h)

theorem isBlank_of_head?_trim {cs : List Char} {c : Char} (h : (trim cs).head? = some c) :
    isBlank c = false := by
  obtain ⟨rest, hrest⟩ := trimEnd_prefix (trimStart cs)
  have hhead := List.head?_dropWhile_not isBlank cs
  have hstart : (cs.dropWhile isBlank).head? = some c := by
    rw [trim] at h
    rw [← trimStart, ← hrest, List.head?_append, h, Option.some_or]
  rw [hstart] at hhead
  exact hhead

/-- Trimming takes nothing from a text that was trimmed. -/
theorem trim_trim (cs : List Char) : trim (trim cs) = trim cs :=
  trim_eq_self (fun _ => isBlank_of_head?_trim) fun _ => isBlank_of_getLast?_trim

/-- A text that starts with no blank is only cut at its end. -/
theorem trim_prefix {cs : List Char} (h : ∀ c ∈ cs.head?, isBlank c = false) : trim cs <+: cs := by
  rw [trim, trimStart, dropWhile_isBlank_eq_self h]
  exact trimEnd_prefix cs

theorem mem_dropWhile_isBlank {cs : List Char} {c : Char} (h : c ∈ cs) (hc : isBlank c = false) :
    c ∈ cs.dropWhile isBlank := by
  induction cs with
  | nil => cases h
  | cons d cs ih =>
      rw [List.dropWhile_cons]
      split
      · rename_i hd
        obtain rfl | h := List.mem_cons.1 h
        · rw [hc] at hd
          cases hd
        · exact ih h
      · exact h

theorem mem_trim {cs : List Char} {c : Char} (h : c ∈ cs) (hc : isBlank c = false) :
    c ∈ trim cs := by
  have hstart : c ∈ (trimStart cs).reverse := List.mem_reverse.2 (mem_dropWhile_isBlank h hc)
  exact List.mem_reverse.2 (mem_dropWhile_isBlank hstart hc)

theorem trim_cons {c : Char} (hc : isBlank c = true) (cs : List Char) :
    trim (c :: cs) = trim cs := by
  rw [trim, trimStart, List.dropWhile_cons_of_pos hc]
  rfl

theorem trim_concat {c : Char} (hc : isBlank c = true) (cs : List Char) :
    trim (cs ++ [c]) = trim cs := by
  rw [trim, trim, trimStart, trimStart, List.dropWhile_append]
  split
  · rename_i hnil
    rw [List.isEmpty_iff.1 hnil, List.dropWhile_cons_of_pos hc, List.dropWhile_nil]
  · rw [trimEnd, List.reverse_append, List.reverse_singleton, List.singleton_append,
      List.dropWhile_cons_of_pos hc]
    rfl

theorem trim_eq_nil_iff {cs : List Char} : trim cs = [] ↔ ∀ c ∈ cs, isBlank c = true := by
  constructor
  · intro h c hc
    rw [← Bool.not_eq_false]
    intro hblank
    exact List.ne_nil_of_mem (mem_trim hc hblank) h
  · intro h
    induction cs with
    | nil => rfl
    | cons c cs ih =>
        obtain ⟨hc, hcs⟩ := List.forall_mem_cons.1 h
        rw [trim_cons hc, ih hcs]

end Blank

end Agenda
