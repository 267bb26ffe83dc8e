import Agenda.Api.Form
import Agenda.Proofs.Task.Written
import Agenda.Proofs.Text.Lines
import Agenda.Proofs.Text.Utf8

/-!
Fields that are written into a query are read back, whatever their names and values hold. Letters
and digits stand for themselves and every other byte is escaped, so what is written has no character
that parts fields, or a name from its value.
-/

namespace Agenda.Form

def escapeByte (b : UInt8) : List Char :=
  if (Char.ofNat b.toNat).isAlphanum then [Char.ofNat b.toNat]
  else '%' :: Json.hexByte b.toNat

def escape (s : String) : List Char := (Utf8.encodeText s).flatMap escapeByte

def writeField (field : String × String) : List Char := escape field.1 ++ '=' :: escape field.2

/-- The query with these fields. -/
def write (fields : List (String × String)) : String :=
  String.ofList (['&'].intercalate (fields.map writeField))

/-! Characters of an escaped text. -/

def isPlain (c : Char) : Bool := c.isAlphanum || c = '%'

theorem toNat_of_isPlain {c : Char} (h : isPlain c = true) : c.toNat < 128 := by
  rw [isPlain, Bool.or_eq_true] at h
  obtain h | h := h
  · unfold Char.isAlphanum Char.isAlpha Char.isUpper Char.isLower Char.isDigit at h
    simp only [Bool.or_eq_true, Bool.and_eq_true, decide_eq_true_eq, UInt32.le_iff_toNat_le,
      ge_iff_le] at h
    have : c.toNat = c.val.toNat := rfl
    have : 'Z'.val.toNat = 90 := rfl
    have : 'z'.val.toNat = 122 := rfl
    have : '9'.val.toNat = 57 := rfl
    omega
  · cases of_decide_eq_true h
    decide

theorem isPlain_digitChar : ∀ k < 16, isPlain (Nat.digitChar k) = true := by decide

theorem isPlain_of_mem_escape {s : String} {c : Char} (h : c ∈ escape s) : isPlain c = true := by
  obtain ⟨b, _, h⟩ := List.mem_flatMap.1 h
  have hb := b.toNat_lt
  rw [escapeByte] at h
  split at h
  · rename_i halphanum
    cases List.mem_singleton.1 h
    rw [isPlain, halphanum, Bool.true_or]
  · simp only [Json.hexByte, List.mem_cons, List.not_mem_nil, or_false] at h
    obtain rfl | rfl | rfl := h
    · rfl
    · exact isPlain_digitChar _ (by omega)
    · exact isPlain_digitChar _ (by omega)

theorem not_mem_escape {s : String} {c : Char} (h : isPlain c = false) : c ∉ escape s := by
  intro hmem
  rw [isPlain_of_mem_escape hmem] at h
  cases h

/-! Their bytes. -/

theorem utf8EncodeChar_of_isPlain {c : Char} (h : isPlain c = true) :
    String.utf8EncodeChar c = [UInt8.ofNat c.toNat] := by
  have hc := toNat_of_isPlain h
  exact if_pos (Nat.le_of_lt_succ hc)

theorem ofNat_ne_of_isPlain {c separator : Char} (h : isPlain c = true)
    (hseparator : isPlain separator = false) (hsmall : separator.toNat < 128) :
    UInt8.ofNat c.toNat ≠ UInt8.ofNat separator.toNat := by
  intro heq
  have hc := toNat_of_isPlain h
  have hnat := congrArg UInt8.toNat heq
  rw [UInt8.toNat_ofNat_of_lt' (Nat.lt_trans hc (by decide)),
    UInt8.toNat_ofNat_of_lt' (Nat.lt_trans hsmall (by decide))] at hnat
  rw [Char.toNat_inj.1 hnat, hseparator] at h
  cases h

theorem not_mem_encode_escape {separator : Char} (hseparator : isPlain separator = false)
    (hsmall : separator.toNat < 128) (s : String) :
    UInt8.ofNat separator.toNat ∉ Utf8.encode (escape s) := by
  intro hmem
  obtain ⟨c, hc, hmem⟩ := List.mem_flatMap.1 hmem
  have hplain := isPlain_of_mem_escape hc
  rw [utf8EncodeChar_of_isPlain hplain, List.mem_singleton] at hmem
  exact ofNat_ne_of_isPlain hplain hseparator hsmall hmem.symm

/-! An escaped text is read back. -/

theorem unescape_cons {b : UInt8} (h : b ≠ 0x25) (bs : List UInt8) :
    unescape (b :: bs) = b :: unescape bs := by
  have hb : (b == 0x25) = false := beq_false_of_ne h
  match bs with
  | [] | [_] => simp only [unescape]
  | c :: d :: rest => rw [unescape, hb]

theorem hexDigit?_digitChar : ∀ k < 16,
    hexDigit? (UInt8.ofNat (Nat.digitChar k).toNat) = some k ∧
      (UInt8.ofNat (Nat.digitChar k).toNat == 0x2B) = false := by
  decide

theorem unescape_encode_hexByte {n : Nat} (h : n < 256) (bs : List UInt8) :
    unescape (blanks (Utf8.encode ('%' :: Json.hexByte n) ++ bs)) =
      UInt8.ofNat n :: unescape (blanks bs) := by
  have hhigh := hexDigit?_digitChar (n / 16) (by omega)
  have hlow := hexDigit?_digitChar (n % 16) (by omega)
  have hbytes : Utf8.encode ('%' :: Json.hexByte n) =
      [0x25, UInt8.ofNat (Nat.digitChar (n / 16)).toNat,
        UInt8.ofNat (Nat.digitChar (n % 16)).toNat] := by
    have h₁ := utf8EncodeChar_of_isPlain (isPlain_digitChar (n / 16) (by omega))
    have h₂ := utf8EncodeChar_of_isPlain (isPlain_digitChar (n % 16) (by omega))
    simp only [Utf8.encode, Json.hexByte, List.flatMap_cons, List.flatMap_nil, h₁, h₂]
    rfl
  have hblank : ((0x25 : UInt8) == 0x2B) = false := rfl
  rw [hbytes]
  simp only [blanks, List.cons_append, List.nil_append, List.map_cons, hhigh.2, hlow.2, hblank,
    Bool.false_eq_true, if_false]
  rw [unescape, hhigh.1, hlow.1]
  simp only [beq_self_eq_true, Nat.div_add_mod]

theorem encode_of_isAlphanum {b : UInt8} (h : (Char.ofNat b.toNat).isAlphanum = true) :
    Utf8.encode [Char.ofNat b.toNat] = [b] := by
  have hb := b.toNat_lt
  have hplain : isPlain (Char.ofNat b.toNat) = true := by rw [isPlain, h, Bool.true_or]
  have hnat : (Char.ofNat b.toNat).toNat = b.toNat := by
    rw [Char.ofNat, dif_pos (Or.inl (by omega))]
    rfl
  simp only [Utf8.encode, List.flatMap_cons, List.flatMap_nil, List.append_nil,
    utf8EncodeChar_of_isPlain hplain, hnat, UInt8.ofNat_toNat]

theorem unescape_encode_escapeByte (b : UInt8) (bs : List UInt8) :
    unescape (blanks (Utf8.encode (escapeByte b) ++ bs)) = b :: unescape (blanks bs) := by
  rw [escapeByte]
  split
  · rename_i halphanum
    have hpercent : b ≠ 0x25 := by
      rintro rfl
      exact absurd halphanum (by decide)
    have hplus : (b == 0x2B) = false := by
      apply beq_false_of_ne
      rintro rfl
      exact absurd halphanum (by decide)
    rw [encode_of_isAlphanum halphanum, List.singleton_append, blanks, List.map_cons, hplus,
      if_neg Bool.false_ne_true, unescape_cons hpercent]
    rfl
  · rw [unescape_encode_hexByte b.toNat_lt, UInt8.ofNat_toNat]

theorem unescape_encode_flatMap (bs : List UInt8) :
    unescape (blanks (Utf8.encode (bs.flatMap escapeByte))) = bs := by
  induction bs with
  | nil => simp only [List.flatMap_nil, Utf8.encode, blanks, List.map_nil, unescape]
  | cons b bs ih =>
      rw [List.flatMap_cons, Utf8.encode_append, unescape_encode_escapeByte, ih]

theorem text_encode_escape (s : String) : text (Utf8.encode (escape s)) = s := by
  rw [text, escape, unescape_encode_flatMap, Utf8.encodeText, Utf8.decode_encode, Utf8.repaired,
    List.map_map]
  simp only [Function.comp_def, Option.getD_some, List.map_id', String.ofList_toList]

/-! Fields. -/

def fieldBytes (f : String × String) : List UInt8 :=
  Utf8.encode (escape f.1) ++ 0x3D :: Utf8.encode (escape f.2)

theorem encode_writeField (f : String × String) : Utf8.encode (writeField f) = fieldBytes f := by
  rw [writeField, Utf8.encode_append, Utf8.encode_cons, fieldBytes]
  rfl

theorem encodeText_write (fields : List (String × String)) :
    Utf8.encodeText (write fields) = [0x26].intercalate (fields.map fieldBytes) := by
  rw [Utf8.encodeText, write, String.toList_ofList]
  induction fields with
  | nil => rfl
  | cons f fields ih =>
      cases fields with
      | nil =>
          simp only [List.map_cons, List.map_nil, List.intercalate_singleton, encode_writeField]
      | cons next fields =>
          simp only [List.map_cons, List.intercalate_cons_cons, Utf8.encode_append] at ih ⊢
          rw [ih, encode_writeField]
          rfl

theorem not_mem_fieldBytes (f : String × String) : 0x26 ∉ fieldBytes f := by
  have hescape := not_mem_encode_escape (show isPlain '&' = false by decide) (by decide)
  rw [fieldBytes, List.mem_append, List.mem_cons]
  rintro (h | h | h)
  · exact hescape f.1 h
  · exact absurd h (by decide)
  · exact hescape f.2 h

theorem field_fieldBytes (f : String × String) : field (fieldBytes f) = f := by
  have hname : 0x3D ∉ Utf8.encode (escape f.1) :=
    not_mem_encode_escape (show isPlain '=' = false by decide) (by decide) f.1
  rw [field, fieldBytes, Lines.splitFirst?_append hname]
  simp only [text_encode_escape]

theorem fields_write (written : List (String × String)) : fields (write written) = written := by
  rw [fields, encodeText_write]
  cases written with
  | nil => rfl
  | cons f written =>
      have hpieces : ∀ piece ∈ (f :: written).map fieldBytes, 0x26 ∉ piece := by
        rw [List.forall_mem_map]
        exact fun f _ => not_mem_fieldBytes f
      have hnonempty : ∀ piece ∈ (f :: written).map fieldBytes, (!piece.isEmpty) = true := by
        rw [List.forall_mem_map]
        exact fun f _ => by simp [fieldBytes]
      have hne : (f :: written).map fieldBytes ≠ [] := List.cons_ne_nil _ _
      rw [Lines.splitAt_intercalate hne hpieces, List.filter_eq_self.2 hnonempty, List.map_map]
      simp only [Function.comp_def, field_fieldBytes, List.map_id']

/-- Neither the query nor what stands in front of it ends before the query does. -/
theorem not_mem_write {c : Char} (hc : isPlain c = false) (hand : c ≠ '&') (heq : c ≠ '=')
    (fields : List (String × String)) : c ∉ (write fields).toList := by
  rw [write, String.toList_ofList]
  intro h
  obtain h | ⟨part, hpart, h⟩ := Task.mem_intercalate h
  · exact hand (List.mem_singleton.1 h)
  · obtain ⟨f, _, rfl⟩ := List.mem_map.1 hpart
    rw [writeField, List.mem_append, List.mem_cons] at h
    obtain h | h | h := h
    · exact not_mem_escape hc h
    · exact heq h
    · exact not_mem_escape hc h

end Agenda.Form
