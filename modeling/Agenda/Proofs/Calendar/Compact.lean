import Agenda.Calendar.Compact
import Agenda.Proofs.Text.Numeral

/-!
The compact texts are exactly the written forms of the dates of the years 0000 to 9999, and exactly
the rows of eight digits that spell out a year, a month and a day of that month. A date of another
year is written with a sign, which no reader of compact texts accepts.
-/

namespace Agenda.Date

theorem daysInMonth_le (year : Int) (month : Nat) : daysInMonth year month ≤ 31 := by
  simp only [daysInMonth]
  split
  · split <;> decide
  all_goals decide

theorem month_lt (d : Date) : d.month < 10 ^ 2 := by
  have := d.valid.2.1.2
  omega

theorem day_lt (d : Date) : d.day < 10 ^ 2 := by
  have := d.valid.2.2.2
  have := daysInMonth_le d.year d.month
  omega

theorem ofParts?_self (d : Date) : ofParts? d.year d.month d.day = some d := by
  rw [ofParts?, dif_pos d.valid]

theorem ofParts?_eq_some {year : Int} {month day : Nat} {d : Date}
    (h : ofParts? year month day = some d) : d.year = year ∧ d.month = month ∧ d.day = day := by
  rw [ofParts?] at h
  split at h
  · cases h
    exact ⟨rfl, rfl, rfl⟩
  · cases h

/-- The years that four digits write. -/
def HasShortYear (d : Date) : Prop := 0 ≤ d.year ∧ d.year ≤ 9999

instance (d : Date) : Decidable d.HasShortYear := inferInstanceAs (Decidable (_ ∧ _))

theorem yearText_of_hasShortYear {d : Date} (h : d.HasShortYear) :
    yearText d.year = Numeral.padded 4 d.year.toNat := if_pos h

theorem toList_compact (d : Date) : d.compact.toList =
    (yearText d.year).toList ++ (Numeral.padded 2 d.month).toList ++
      (Numeral.padded 2 d.day).toList := by
  rw [compact, String.toList_append, String.toList_append]

theorem compact_ne_empty (d : Date) : d.compact ≠ "" := by
  intro h
  have hlist := congrArg String.toList h
  rw [toList_compact, Numeral.toList_padded 2 d.day] at hlist
  simp [Numeral.digits_ne_nil] at hlist

/-- Eight digits are read as four, two and two. -/
theorem ofCompact?_of_rows {text : String} {ys ms ds : List Char}
    (htext : text.toList = ys ++ ms ++ ds) (hdigits : ∀ c ∈ ys ++ ms ++ ds, c.isDigit)
    (hy : ys.length = 4) (hm : ms.length = 2) (hd : ds.length = 2) :
    ofCompact? text =
      ofParts? (Numeral.value ys) (Numeral.value ms) (Numeral.value ds) := by
  have hlen : (ys ++ ms ++ ds).length = 8 := by
    rw [List.length_append, List.length_append, hy, hm, hd]
  have hyears : (ys ++ ms ++ ds).take 4 = ys := by
    rw [List.append_assoc, ← hy, List.take_left]
  have hmonths : ((ys ++ ms ++ ds).drop 4).take 2 = ms := by
    rw [List.append_assoc, ← hy, List.drop_left, ← hm, List.take_left]
  have hdays : (ys ++ ms ++ ds).drop 6 = ds := by
    have hsix : (ys ++ ms).length = 6 := by rw [List.length_append, hy, hm]
    rw [← hsix, List.drop_left]
  simp only [ofCompact?, htext]
  rw [if_pos ⟨hlen, List.all_eq_true.2 hdigits⟩, hyears, hmonths, hdays]

theorem ofCompact?_compact {d : Date} (h : d.HasShortYear) : ofCompact? d.compact = some d := by
  have hyear : d.year.toNat < 10 ^ 4 := by
    have := h.2
    omega
  have hnonneg : (d.year.toNat : Int) = d.year := Int.toNat_of_nonneg h.1
  have hrows := toList_compact d
  rw [yearText_of_hasShortYear h] at hrows
  rw [ofCompact?_of_rows hrows _ (Numeral.length_padded (by decide) hyear)
    (Numeral.length_padded (by decide) d.month_lt) (Numeral.length_padded (by decide) d.day_lt),
    Numeral.value_padded, Numeral.value_padded, Numeral.value_padded, hnonneg, ofParts?_self]
  intro c hc
  rw [List.mem_append, List.mem_append] at hc
  obtain (hc | hc) | hc := hc <;> exact Numeral.isDigit_of_mem_padded hc

theorem ofCompact?_compact_of_not {d : Date} (h : ¬ d.HasShortYear) :
    ofCompact? d.compact = none := by
  have hsign : ∃ c rest, d.compact.toList = c :: rest ∧ c.isDigit = false := by
    have hyear : ¬ (0 ≤ d.year ∧ d.year ≤ 9999) := h
    rw [toList_compact, yearText, if_neg hyear, String.toList_append]
    split
    · exact ⟨'-', _, rfl, rfl⟩
    · exact ⟨'+', _, rfl, rfl⟩
  obtain ⟨c, rest, hcs, hc⟩ := hsign
  simp only [ofCompact?, hcs]
  rw [if_neg]
  rintro ⟨_, hall⟩
  have hdigit := List.all_eq_true.1 hall c List.mem_cons_self
  rw [hc] at hdigit
  cases hdigit

theorem isSome_ofCompact?_compact {d : Date} :
    (ofCompact? d.compact).isSome ↔ d.HasShortYear := by
  by_cases h : d.HasShortYear
  · rw [ofCompact?_compact h]
    exact iff_of_true rfl h
  · rw [ofCompact?_compact_of_not h]
    exact iff_of_false Bool.false_ne_true h

theorem exists_rows {cs : List Char} (h : cs.length = 8) :
    ∃ ys ms ds : List Char, cs = ys ++ ms ++ ds ∧
      ys.length = 4 ∧ ms.length = 2 ∧ ds.length = 2 := by
  have hsplit : cs = cs.take 4 ++ (cs.drop 4).take 2 ++ (cs.drop 4).drop 2 := by
    rw [List.append_assoc, List.take_append_drop, List.take_append_drop]
  refine ⟨_, _, _, hsplit, ?_, ?_, ?_⟩
  · rw [List.length_take, h]; rfl
  · rw [List.length_take, List.length_drop, h]; rfl
  · rw [List.length_drop, List.length_drop, h]

theorem digits_of_ofCompact? {text : String} {d : Date} (h : ofCompact? text = some d) :
    text.toList.length = 8 ∧ ∀ c ∈ text.toList, c.isDigit := by
  simp only [ofCompact?] at h
  split at h
  · rename_i hcs
    exact ⟨hcs.1, List.all_eq_true.1 hcs.2⟩
  · cases h

/-- What is read consists of three rows of digits. -/
theorem exists_rows_of_ofCompact? {text : String} {d : Date} (h : ofCompact? text = some d) :
    ∃ ys ms ds : List Char, text.toList = ys ++ ms ++ ds ∧ (∀ c ∈ ys ++ ms ++ ds, c.isDigit) ∧
      ys.length = 4 ∧ ms.length = 2 ∧ ds.length = 2 := by
  obtain ⟨hlen, hdigits⟩ := digits_of_ofCompact? h
  obtain ⟨ys, ms, ds, hsplit, hlengths⟩ := exists_rows hlen
  exact ⟨ys, ms, ds, hsplit, hsplit ▸ hdigits, hlengths⟩

theorem eq_compact_of_ofCompact? {text : String} {d : Date} (h : ofCompact? text = some d) :
    text = d.compact ∧ d.HasShortYear := by
  obtain ⟨ys, ms, ds, htext, hdigits, hy, hm, hd⟩ := exists_rows_of_ofCompact? h
  have hys : ∀ c ∈ ys, c.isDigit := fun c hc =>
    hdigits c (List.mem_append_left _ (List.mem_append_left _ hc))
  have hms : ∀ c ∈ ms, c.isDigit := fun c hc =>
    hdigits c (List.mem_append_left _ (List.mem_append_right _ hc))
  have hds : ∀ c ∈ ds, c.isDigit := fun c hc => hdigits c (List.mem_append_right _ hc)
  rw [ofCompact?_of_rows htext hdigits hy hm hd] at h
  obtain ⟨hyear, hmonth, hday⟩ := ofParts?_eq_some h
  have hshort : d.HasShortYear := by
    have hlt := Numeral.value_lt hys
    rw [hy] at hlt
    rw [HasShortYear, hyear]
    omega
  refine ⟨?_, hshort⟩
  calc text = String.ofList text.toList := String.ofList_toList.symm
    _ = String.ofList ys ++ String.ofList ms ++ String.ofList ds := by
      rw [htext, String.ofList_append, String.ofList_append]
    _ = d.compact := by
      rw [compact, yearText_of_hasShortYear hshort, hyear, hmonth, hday, Int.toNat_natCast,
        Numeral.padded_value (by decide) hy hys, Numeral.padded_value (by decide) hm hms,
        Numeral.padded_value (by decide) hd hds]

theorem ofCompact?_eq_some_iff {text : String} {d : Date} :
    ofCompact? text = some d ↔ text = d.compact ∧ d.HasShortYear := by
  constructor
  · exact eq_compact_of_ofCompact?
  · rintro ⟨rfl, h⟩
    exact ofCompact?_compact h

/-! Spelling. -/

/-- Eight ASCII digits: four for the year, two for the month and two for the day. -/
structure Spells (text : String) (year : Int) (month day : Nat) : Prop where
  length : text.length = 8
  digits : ∀ c ∈ text.toList, c.isDigit
  number : Nat.ofDigitChars 10 text.toList 0 = (year * 100 + month) * 100 + day
  month_lt : month < 100
  day_lt : day < 100

theorem value_rows {ys ms ds : List Char} (hm : ms.length = 2) (hd : ds.length = 2) :
    Numeral.value (ys ++ ms ++ ds) =
      (Numeral.value ys * 100 + Numeral.value ms) * 100 + Numeral.value ds := by
  rw [Numeral.value_append, Numeral.value_append, hm, hd]
  rfl

theorem spells_of_rows {text : String} {ys ms ds : List Char} (htext : text.toList = ys ++ ms ++ ds)
    (hdigits : ∀ c ∈ ys ++ ms ++ ds, c.isDigit) (hy : ys.length = 4) (hm : ms.length = 2)
    (hd : ds.length = 2) :
    Spells text (Numeral.value ys) (Numeral.value ms) (Numeral.value ds) := by
  have hmonth := Numeral.value_lt fun c hc =>
    hdigits c (List.mem_append_left _ (List.mem_append_right _ hc))
  have hday := Numeral.value_lt fun c hc => hdigits c (List.mem_append_right _ hc)
  rw [hm] at hmonth
  rw [hd] at hday
  refine ⟨?_, htext ▸ hdigits, ?_, hmonth, hday⟩
  · rw [← String.length_toList, htext, List.length_append, List.length_append, hy, hm, hd]
  · rw [htext, ← Numeral.value_eq_ofDigitChars, value_rows hm hd]
    omega

/-- The rows of a text give what it spells, and nothing else. -/
theorem Spells.unique {text : String} {year year' : Int} {month month' day day' : Nat}
    (h : Spells text year month day) (h' : Spells text year' month' day') :
    year = year' ∧ month = month' ∧ day = day' := by
  have hnumber := h.number.symm.trans h'.number
  have := h.month_lt
  have := h'.month_lt
  have := h.day_lt
  have := h'.day_lt
  omega

theorem ofCompact?_of_spells {text : String} {year : Int} {month day : Nat}
    (h : Spells text year month day) : ofCompact? text = ofParts? year month day := by
  obtain ⟨ys, ms, ds, htext, hy, hm, hd⟩ := exists_rows (String.length_toList.trans h.length)
  have hdigits : ∀ c ∈ ys ++ ms ++ ds, c.isDigit := htext ▸ h.digits
  obtain ⟨hyear, hmonth, hday⟩ := h.unique (spells_of_rows htext hdigits hy hm hd)
  rw [ofCompact?_of_rows htext hdigits hy hm hd, hyear, hmonth, hday]

theorem ofCompact?_eq_some_iff_spells {text : String} {d : Date} :
    ofCompact? text = some d ↔ Spells text d.year d.month d.day := by
  constructor
  · intro h
    obtain ⟨ys, ms, ds, htext, hdigits, hy, hm, hd⟩ := exists_rows_of_ofCompact? h
    rw [ofCompact?_of_rows htext hdigits hy hm hd] at h
    obtain ⟨hyear, hmonth, hday⟩ := ofParts?_eq_some h
    rw [hyear, hmonth, hday]
    exact spells_of_rows htext hdigits hy hm hd
  · intro h
    rw [ofCompact?_of_spells h, ofParts?_self]

/-- A year that is spelled out lies inside the calendar. -/
theorem Spells.year_bounds {text : String} {year : Int} {month day : Nat}
    (h : Spells text year month day) : minYear ≤ year ∧ year ≤ maxYear := by
  have hlt := Numeral.value_lt h.digits
  have hmin : minYear = -262143 := rfl
  have hmax : maxYear = 262142 := rfl
  have := h.number
  have := h.month_lt
  have := h.day_lt
  rw [String.length_toList, h.length, Numeral.value_eq_ofDigitChars] at hlt
  omega

theorem ofCompact_eq_ok_iff {text : String} {d : Date} :
    ofCompact text = .ok d ↔ ofCompact? text = some d := by
  rw [ofCompact]
  cases ofCompact? text with
  | none => exact iff_of_false (fun h => by cases h) (fun h => by cases h)
  | some e => simp only [Except.ok.injEq, Option.some.injEq]

theorem ofCompact_eq_error_iff {text : String} {e : CompactError} :
    ofCompact text = .error e ↔ e.value = text ∧ ofCompact? text = none := by
  rw [ofCompact]
  cases ofCompact? text with
  | none =>
      cases e
      simp only [Except.error.injEq, CompactError.mk.injEq, and_true]
      exact eq_comm
  | some d => exact iff_of_false (fun h => by cases h) (fun h => by cases h.2)

theorem exists_ofCompact?_iff {text : String} :
    (∃ d, ofCompact? text = some d) ↔ ∃ year month day, Spells text year month day ∧
      (1 ≤ month ∧ month ≤ 12) ∧ 1 ≤ day ∧ day ≤ daysInMonth year month := by
  constructor
  · rintro ⟨d, hd⟩
    exact ⟨_, _, _, ofCompact?_eq_some_iff_spells.1 hd, d.valid.2⟩
  · rintro ⟨year, month, day, hspells, hvalid⟩
    exact ⟨⟨year, month, day, hspells.year_bounds, hvalid⟩,
      ofCompact?_eq_some_iff_spells.2 hspells⟩

/-- Reading accepts the texts that spell out a day of the calendar and returns that day, which is
written with the same text. Writing is undone by reading for the years 0000 to 9999 and refused for
all others, and what is refused comes back unchanged. -/
theorem spelled_dates_round_trip (text : String) (d : Date) :
    (ofCompact text = .ok d ↔ Spells text d.year d.month d.day) ∧
      ((∃ day, ofCompact text = .ok day) ↔ ∃ year month day, Spells text year month day ∧
        (1 ≤ month ∧ month ≤ 12) ∧ 1 ≤ day ∧ day ≤ daysInMonth year month) ∧
      (ofCompact text = .ok d ↔ text = d.compact ∧ d.HasShortYear) ∧
      (ofCompact d.compact = .ok d ↔ d.HasShortYear) ∧
      ((∃ e, ofCompact d.compact = .error e) ↔ ¬ d.HasShortYear) ∧
      ∀ e, ofCompact text = .error e ↔ e.value = text ∧ ∀ day, ofCompact text ≠ .ok day := by
  simp only [ofCompact_eq_ok_iff, ofCompact_eq_error_iff, ne_eq]
  refine ⟨ofCompact?_eq_some_iff_spells, exists_ofCompact?_iff, ofCompact?_eq_some_iff, ?_, ?_, ?_⟩
  · rw [ofCompact?_eq_some_iff, eq_self, true_and]
  · rw [← isSome_ofCompact?_compact, Option.not_isSome_iff_eq_none]
    exact ⟨fun ⟨_, _, h⟩ => h, fun h => ⟨⟨d.compact⟩, rfl, h⟩⟩
  · intro e
    rw [Option.eq_none_iff_forall_ne_some]

end Agenda.Date
