import Agenda.Json.Token
import Agenda.Proofs.Json.Literal

/-!
Scanning what was written: each written token is taken off the front, and a written literal keeps
its text.
-/

namespace Agenda.Json.Token

theorem scan_cons_of_read? {c : Char} {gs rest : List Glyph} {token : Token}
    (hc : isBlank c = false) (h : read? c gs = some (token, rest)) :
    scan (some c :: gs) = (scan rest).map (token :: ·) := by
  rw [scan, hc, if_neg Bool.false_ne_true]
  split
  · rename_i hn
    rw [h] at hn
    cases hn
  · rename_i hs
    rw [h] at hs
    cases hs
    rfl

theorem scan_literal (s : String) (gs : List Glyph) :
    scan ((Json.literal s).map some ++ gs) = (scan gs).map (literal (some s.toList) :: ·) := by
  have hbody := readLiteral_flatMap_escapeChar s.toList gs
  rw [Json.literal, List.map_append, List.map_cons, List.cons_append, List.cons_append,
    List.append_assoc]
  apply scan_cons_of_read? rfl
  simp only [read?, List.map_cons, List.map_nil, List.cons_append, List.nil_append, hbody,
    Option.map_some]

theorem scan_colon (gs : List Glyph) : scan (some ':' :: gs) = (scan gs).map (colon :: ·) :=
  scan_cons_of_read? rfl rfl

theorem scan_comma (gs : List Glyph) : scan (some ',' :: gs) = (scan gs).map (comma :: ·) :=
  scan_cons_of_read? rfl rfl

theorem scan_beginRecord (gs : List Glyph) :
    scan (some '\x7b' :: gs) = (scan gs).map (beginRecord :: ·) :=
  scan_cons_of_read? rfl rfl

theorem scan_endRecord (gs : List Glyph) :
    scan (some '\x7d' :: gs) = (scan gs).map (endRecord :: ·) :=
  scan_cons_of_read? rfl rfl

end Agenda.Json.Token
