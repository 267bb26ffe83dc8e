import Agenda.Text.Blank

/-!
Words are the pieces of a text between its blanks, without the empty ones. So a blank splits the
words before it from those behind it, and a text has none only if it is all blank.
-/

namespace Agenda.Blank

/-- The letters collected so far, latest first, begin the first piece. -/
theorem wordsFrom_eq_filter (word cs : List Char) :
    wordsFrom word cs = (cs.splitOnPPrepend isBlank word).filter fun piece => !piece.isEmpty := by
  induction cs generalizing word with
  | nil => cases word <;> simp [wordsFrom]
  | cons c cs ih =>
      simp only [wordsFrom, List.splitOnPPrepend_cons_eq_if]
      split
      · cases word <;> simp [ih]
      · exact ih (c :: word)

theorem words_eq_filter_splitOnP (cs : List Char) :
    words cs = (cs.splitOnP isBlank).filter fun piece => !piece.isEmpty :=
  wordsFrom_eq_filter [] cs

theorem words_append_cons (cs ds : List Char) {c : Char} (hc : isBlank c = true) :
    words (cs ++ c :: ds) = words cs ++ words ds := by
  simp only [words_eq_filter_splitOnP, List.splitOnP_append_cons cs ds hc, List.filter_append]

theorem words_eq_singleton {cs : List Char} (hne : cs ≠ []) (hcs : ∀ c ∈ cs, isBlank c = false) :
    words cs = [cs] := by
  simp [words_eq_filter_splitOnP, List.splitOnP_eq_singleton hcs, hne]

theorem wordsFrom_eq_nil_iff {word cs : List Char} :
    wordsFrom word cs = [] ↔ word = [] ∧ ∀ c ∈ cs, isBlank c = true := by
  induction cs generalizing word with
  | nil => cases word <;> simp [wordsFrom]
  | cons c cs ih =>
      by_cases hc : isBlank c = true
      · cases word <;> simp [wordsFrom, hc, ih]
      · simp [wordsFrom, hc, ih]

theorem isBlank_of_isDigit {c : Char} (h : c.isDigit) : isBlank c = false := by
  have hc : 48 ≤ c.toNat ∧ c.toNat ≤ 57 := Char.isDigit_iff_toNat.1 h
  simp only [isBlank, Bool.or_eq_false_iff, Bool.and_eq_false_iff, decide_eq_false_iff_not,
    beq_eq_false_iff_ne]
  omega

theorem words_eq_nil_iff {cs : List Char} : words cs = [] ↔ ∀ c ∈ cs, isBlank c = true := by
  simp only [words, wordsFrom_eq_nil_iff, true_and]

end Agenda.Blank
