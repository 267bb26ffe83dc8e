import Agenda.Json.Literal

/-!
A written literal is read back. Each escape is undone on its own, whatever stands behind it, so a
text needs one induction over its characters. A numbered escape is the only one that looks further
than its own end, for the second half of a pair of surrogates.
-/

namespace Agenda.Json

theorem readLiteral_unit_none {a b c d : Char} (h : unit? a b c d = none) (rest : List Glyph) :
    readLiteral (some '\\' :: some 'u' :: some a :: some b :: some c :: some d :: rest) = none := by
  by_cases hr : ∃ e f g i tail,
      rest = some '\\' :: some 'u' :: some e :: some f :: some g :: some i :: tail
  · obtain ⟨e, f, g, i, tail, rfl⟩ := hr
    simp only [readLiteral, h]
  · rw [readLiteral.eq_5]
    · rw [h]
    · intro e f g i tail he
      exact hr ⟨e, f, g, i, tail, he⟩

/-- A numbered escape that is no surrogate stands for its character, also in front of another
numbered escape. -/
theorem readLiteral_unit {a b c d : Char} {n : Nat} (hn : unit? a b c d = some n)
    (hhigh : isHighSurrogate n = false) (hlow : isLowSurrogate n = false) (rest : List Glyph) :
    readLiteral (some '\\' :: some 'u' :: some a :: some b :: some c :: some d :: rest) =
      prepend (some (Char.ofNat n)) (readLiteral rest) := by
  -- The reader has one equation for an escape in front of another one, and one for the others.
  by_cases hr : ∃ e f g i tail,
      rest = some '\\' :: some 'u' :: some e :: some f :: some g :: some i :: tail
  · obtain ⟨e, f, g, i, tail, rfl⟩ := hr
    rw [readLiteral, hn]
    cases hu : unit? e f g i with
    | none => rw [readLiteral_unit_none hu]; rfl
    | some low => simp only [hhigh, hlow, Bool.false_and, Bool.or_false, Bool.false_eq_true, if_false]
  · rw [readLiteral.eq_5]
    · simp only [hn, hhigh, hlow, Bool.or_false, Bool.false_eq_true, if_false]
    · intro e f g i tail he
      exact hr ⟨e, f, g, i, tail, he⟩

theorem readLiteral_letter {letter c : Char} (h : unescape? letter = some c)
    (rest : List Glyph) :
    readLiteral (some '\\' :: some letter :: rest) = prepend (some c) (readLiteral rest) := by
  have hu : letter ≠ 'u' := by
    rintro rfl
    cases h
  rw [readLiteral.eq_6, h]
  · intro _ _ _ _ _ _ _ _ _ _
    exact hu
  · intro _ _ _ _ _ _
    exact hu

theorem readLiteral_plain {c : Char} (hquote : c ≠ '"') (hback : c ≠ '\\')
    (hc : ¬ c.toNat < 0x20) (rest : List Glyph) :
    readLiteral (some c :: rest) = prepend (some c) (readLiteral rest) := by
  rw [readLiteral.eq_7]
  · rw [if_neg (by rintro (h | h) <;> contradiction)]
  · exact hquote
  · intro _ _ _ _ _ _ _ _ _ _
    exact hback
  · intro _ _ _ _ _ _
    exact hback
  · intro _ _ _
    exact hback

/-- A control is written with two zeros and the two digits of its byte. -/
theorem unit?_hexByte : ∀ n < 0x20,
    unit? '0' '0' (Nat.digitChar (n / 16)) (Nat.digitChar (n % 16)) = some n := by
  decide

theorem readLiteral_escapeChar (c : Char) (rest : List Glyph) :
    readLiteral ((escapeChar c).map some ++ rest) = prepend (some c) (readLiteral rest) := by
  simp only [escapeChar]
  split
  case h_8 hquote hback _ _ _ _ _ =>
      split
      · rename_i hc
        have hhigh : isHighSurrogate c.toNat = false := by
          simp only [isHighSurrogate, Bool.and_eq_false_iff, decide_eq_false_iff_not]
          omega
        have hlow : isLowSurrogate c.toNat = false := by
          simp only [isLowSurrogate, Bool.and_eq_false_iff, decide_eq_false_iff_not]
          omega
        have h := readLiteral_unit (unit?_hexByte c.toNat hc) hhigh hlow rest
        rw [Char.ofNat_toNat] at h
        exact h
      · exact readLiteral_plain hquote hback (by assumption) rest
  all_goals exact readLiteral_letter rfl rest

theorem readLiteral_flatMap_escapeChar (cs : List Char) (rest : List Glyph) :
    readLiteral ((cs.flatMap escapeChar).map some ++ some '"' :: rest) =
      some (some cs, rest) := by
  induction cs with
  | nil => rw [List.flatMap_nil, List.map_nil, List.nil_append, readLiteral]
  | cons c cs ih =>
      rw [List.flatMap_cons, List.map_append, List.append_assoc, readLiteral_escapeChar, ih]
      rfl

/-! A written literal holds no control, so it stays on one line. -/

theorem toNat_of_mem_escapeChar {c d : Char} (h : d ∈ escapeChar c) : 0x20 ≤ d.toNat := by
  simp only [escapeChar] at h
  split at h
  case h_8 =>
      split at h
      · rename_i hc
        have hbyte : ∀ n < 0x20,
            (['\\', 'u', '0', '0'] ++ hexByte n).all fun d => 0x20 ≤ d.toNat := by
          decide
        exact of_decide_eq_true (List.all_eq_true.1 (hbyte c.toNat hc) d h)
      · rw [List.mem_singleton.1 h]
        omega
  all_goals
    simp only [List.mem_cons, List.not_mem_nil, or_false] at h
    obtain rfl | rfl := h <;> decide

theorem toNat_of_mem_literal {s : String} {d : Char} (h : d ∈ literal s) : 0x20 ≤ d.toNat := by
  simp only [literal, List.mem_append, List.mem_cons, List.mem_flatMap, List.not_mem_nil,
    or_false] at h
  obtain (rfl | ⟨c, _, hd⟩) | rfl := h
  · decide
  · exact toNat_of_mem_escapeChar hd
  · decide

end Agenda.Json
