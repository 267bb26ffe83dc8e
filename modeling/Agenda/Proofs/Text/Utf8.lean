import Agenda.Text.Utf8

/-!
Characters that were written as UTF-8 are read back one by one. Reading looks at four bytes at a
time, which hold a character whole; what follows it in these bytes does not matter. Where bytes are
broken, reading never goes on into a byte that can start a character.
-/

namespace Agenda.Utf8

theorem encode_cons (c : Char) (cs : List Char) :
    encode (c :: cs) = String.utf8EncodeChar c ++ encode cs := by
  simp only [encode, List.flatMap_cons]

theorem encode_append (cs cs' : List Char) : encode (cs ++ cs') = encode cs ++ encode cs' :=
  List.flatMap_append

/-- The first four bytes hold the first character. -/
theorem utf8DecodeChar?_take_four (c : Char) (bs : List UInt8) :
    ((String.utf8EncodeChar c ++ bs).take 4).toByteArray.utf8DecodeChar? 0 = some c := by
  have hlen : (String.utf8EncodeChar c).length ≤ 4 := by
    rw [String.length_utf8EncodeChar]
    exact c.utf8Size_le_four
  rw [List.take_append, List.take_of_length_le hlen, List.toByteArray_append]
  exact ByteArray.utf8DecodeChar?_utf8EncodeChar_append

theorem decode_utf8EncodeChar_append (c : Char) (bs : List UInt8) :
    decode (String.utf8EncodeChar c ++ bs) = some c :: decode bs := by
  have hfirst := utf8DecodeChar?_take_four c bs
  have hlen := String.length_utf8EncodeChar c
  cases hc : String.utf8EncodeChar c with
  | nil =>
      have := c.utf8Size_pos
      rw [hc, List.length_nil] at hlen
      omega
  | cons b tail =>
      rw [hc, List.length_cons] at hlen
      rw [hc, List.cons_append] at hfirst
      have hdrop : c.utf8Size - 1 = tail.length := by omega
      -- Reading drops as many bytes behind the first as the character it saw takes.
      rw [List.cons_append, decode]
      simp only [hfirst, hdrop, List.drop_left]

theorem decode_encode_append (cs : List Char) (bs : List UInt8) :
    decode (encode cs ++ bs) = cs.map some ++ decode bs := by
  induction cs with
  | nil => rfl
  | cons c cs ih =>
      rw [encode_cons, List.append_assoc, decode_utf8EncodeChar_append, ih, List.map_cons,
        List.cons_append]

theorem decode_encode (cs : List Char) : decode (encode cs) = cs.map some := by
  rw [← List.append_nil (encode cs), decode_encode_append, decode, List.append_nil]

@[simp] theorem characters?_map_some (cs : List Char) : characters? (cs.map some) = some cs := by
  induction cs with
  | nil => rfl
  | cons c cs ih => rw [List.map_cons, characters?, ih, Option.map_some]

theorem decode?_encode (cs : List Char) : decode? (encode cs) = some cs := by
  rw [decode?, decode_encode, characters?_map_some]

theorem characters?_append (gs gs' : List Glyph) :
    characters? (gs ++ gs') =
      (characters? gs).bind fun cs => (characters? gs').map (cs ++ ·) := by
  induction gs with
  | nil => simp [characters?]
  | cons g gs ih =>
      cases g with
      | none => rfl
      | some c =>
          rw [List.cons_append, characters?, characters?, ih]
          cases characters? gs <;> cases characters? gs' <;> rfl

theorem map_some_of_characters? {gs : List Glyph} {cs : List Char} (h : characters? gs = some cs) :
    cs.map some = gs := by
  induction gs generalizing cs with
  | nil => cases h; rfl
  | cons g gs ih =>
      cases g with
      | none => cases h
      | some c =>
          obtain ⟨cs', hcs, rfl⟩ := Option.map_eq_some_iff.1 h
          rw [List.map_cons, ih hcs]

theorem map_some_of_decode? {bytes : List UInt8} {cs : List Char} (h : decode? bytes = some cs) :
    cs.map some = decode bytes :=
  map_some_of_characters? h

/-! Bytes that need not be characters throughout. -/

/-- A character is seen where bytes begin with its encoding. -/
theorem decodeChar?_eq_some_iff {bs : List UInt8} {c : Char} :
    (bs.take 4).toByteArray.utf8DecodeChar? 0 = some c ↔ String.utf8EncodeChar c <+: bs := by
  constructor
  · intro h
    obtain ⟨rest, heq⟩ := ByteArray.exists_of_utf8DecodeChar?_eq_some h
    have hbytes := congrArg (fun b => b.data.toList) heq
    simp only [ByteArray.data_append, List.data_toByteArray, Array.toList_append] at hbytes
    exact (List.prefix_take_iff.1 ⟨_, hbytes.symm⟩).1
  · rintro ⟨rest, rfl⟩
    exact utf8DecodeChar?_take_four c rest

theorem isTail_of_isUTF8FirstByte {b : UInt8} (h : b.IsUTF8FirstByte) : isTail b = false := by
  have hall : ∀ n : Fin 256, (UInt8.ofFin n).IsUTF8FirstByte → isTail (UInt8.ofFin n) = false := by
    decide +kernel
  exact hall b.toFin h

theorem isTail_of_fitsSecond {first second : UInt8} (h : fitsSecond first second = true) :
    isTail second = true := by
  grind [fitsSecond, isTail]

/-- No byte but the first of a character can be a first one. -/
theorem eq_nil_of_utf8EncodeChar_eq {c : Char} {bs rest : List UInt8} {b : UInt8}
    (h : String.utf8EncodeChar c = bs ++ b :: rest) (hb : b.IsUTF8FirstByte) : bs = [] := by
  have hlen : bs.length < (String.utf8EncodeChar c).length := by
    rw [h, List.length_append, List.length_cons]
    omega
  have hget : (String.utf8EncodeChar c)[bs.length] = b := by
    simp only [h, List.getElem_append_right (Nat.le_refl _), Nat.sub_self, List.getElem_cons_zero]
  rw [← hget, UInt8.isUTF8FirstByte_getElem_utf8EncodeChar] at hb
  exact List.length_eq_zero_iff.1 hb

theorem prefix_append_iff {c : Char} {b : UInt8} {bs bs' : List UInt8}
    (h : ∀ b' ∈ bs'.head?, b'.IsUTF8FirstByte) :
    String.utf8EncodeChar c <+: b :: bs ++ bs' ↔ String.utf8EncodeChar c <+: b :: bs := by
  refine ⟨fun hc => ?_, fun hc => hc.trans (List.prefix_append _ _)⟩
  obtain hc' | ⟨rest, hrest⟩ :=
    List.prefix_or_prefix_of_prefix hc (List.prefix_append (b :: bs) bs')
  · exact hc'
  · cases rest with
    | nil =>
        rw [List.append_nil] at hrest
        exact hrest ▸ List.prefix_rfl
    | cons b' rest =>
        rw [← hrest, List.prefix_append_right_inj] at hc
        obtain ⟨back, rfl⟩ := hc
        cases eq_nil_of_utf8EncodeChar_eq hrest.symm (h b' rfl)

theorem brokenTail_append {first : UInt8} {bs bs' : List UInt8}
    (h : ∀ b ∈ bs'.head?, isTail b = false) :
    brokenTail first (bs ++ bs') = brokenTail first bs := by
  match bs, bs' with
  | [], [] | [_], [] | _ :: _ :: _, _ => rfl
  | [], second :: rest =>
      have hsecond : fitsSecond first second = false := by
        rw [← Bool.not_eq_true]
        exact fun hfits => absurd (isTail_of_fitsSecond hfits) (by simp [h second rfl])
      cases rest <;> simp [brokenTail, hsecond]
  | [second], third :: rest => simp [brokenTail, h third rfl]

theorem brokenTail_le (first : UInt8) (bs : List UInt8) : brokenTail first bs ≤ bs.length := by
  fun_cases brokenTail first bs <;> simp

/-- Bytes from one that starts a character are read on their own. -/
theorem decode_append {bs' : List UInt8} (bs : List UInt8)
    (h : ∀ b ∈ bs'.head?, b.IsUTF8FirstByte) : decode (bs ++ bs') = decode bs ++ decode bs' := by
  fun_induction decode bs with
  | case1 => rfl
  | case2 b bs c hchar ih =>
      have hprefix := decodeChar?_eq_some_iff.1 hchar
      have hlen : c.utf8Size - 1 ≤ bs.length := by
        have := hprefix.length_le
        rw [String.length_utf8EncodeChar, List.length_cons] at this
        omega
      have hchar' := decodeChar?_eq_some_iff.2 ((prefix_append_iff h).2 hprefix)
      rw [List.cons_append] at hchar' ⊢
      rw [decode]
      simp only [hchar', List.drop_append_of_le_length hlen, ih, List.cons_append]
  | case3 b bs hchar ih =>
      have hchar' : ((b :: (bs ++ bs')).take 4).toByteArray.utf8DecodeChar? 0 = none := by
        rw [Option.eq_none_iff_forall_ne_some] at hchar ⊢
        intro c hc
        have hprefix := (prefix_append_iff h).1 (decodeChar?_eq_some_iff.1 hc)
        exact hchar c (decodeChar?_eq_some_iff.2 hprefix)
      rw [List.cons_append, decode]
      simp only [hchar', brokenTail_append fun b hb => isTail_of_isUTF8FirstByte (h b hb),
        List.drop_append_of_le_length (brokenTail_le b bs), ih, List.cons_append]

theorem append_drop_of_prefix {c : Char} {b : UInt8} {bs : List UInt8}
    (h : String.utf8EncodeChar c <+: b :: bs) :
    String.utf8EncodeChar c ++ bs.drop (c.utf8Size - 1) = b :: bs := by
  obtain ⟨rest, hrest⟩ := h
  have hdrop : bs.drop (c.utf8Size - 1) = rest := by
    rw [← List.drop_succ_cons (a := b), Nat.sub_add_cancel c.utf8Size_pos, ← hrest,
      List.drop_left' (String.length_utf8EncodeChar c)]
  rw [hdrop, hrest]

theorem encode_of_decode {bytes : List UInt8} {cs : List Char} (h : decode bytes = cs.map some) :
    encode cs = bytes := by
  fun_induction decode bytes generalizing cs with
  | case1 =>
      cases List.map_eq_nil_iff.1 h.symm
      rfl
  | case2 b bs c hchar ih =>
      cases cs with
      | nil => cases h
      | cons c' cs =>
          obtain ⟨hc, hcs⟩ := List.cons.inj h
          cases hc
          rw [encode_cons, ih hcs, append_drop_of_prefix (decodeChar?_eq_some_iff.1 hchar)]
  | case3 b bs hchar ih =>
      cases cs with
      | nil => cases h
      | cons c' cs => cases h

/-- Bytes are characters throughout if they are the encoding of these characters. -/
theorem decode?_eq_some_iff {bytes : List UInt8} {cs : List Char} :
    decode? bytes = some cs ↔ encode cs = bytes := by
  constructor
  · exact fun h => encode_of_decode (map_some_of_decode? h).symm
  · rintro rfl
    exact decode?_encode cs

theorem utf8EncodeChar_subset_of_mem_decode {bs : List UInt8} {c : Char} (h : some c ∈ decode bs) :
    String.utf8EncodeChar c ⊆ bs := by
  fun_induction decode bs with
  | case1 => cases h
  | case2 b bs d hchar ih =>
      obtain h | h := List.mem_cons.1 h
      · cases h
        exact (decodeChar?_eq_some_iff.1 hchar).subset
      · exact fun x hx => List.mem_cons_of_mem _ (List.mem_of_mem_drop (ih h hx))
  | case3 b bs hchar ih =>
      obtain h | h := List.mem_cons.1 h
      · cases h
      · exact fun x hx => List.mem_cons_of_mem _ (List.mem_of_mem_drop (ih h hx))

theorem isUTF8FirstByte_of_head?_encode {cs : List Char} {b : UInt8}
    (h : (encode cs).head? = some b) : b.IsUTF8FirstByte := by
  cases cs with
  | nil => cases h
  | cons c cs =>
      have hlen : 0 < (String.utf8EncodeChar c).length := by
        rw [String.length_utf8EncodeChar]
        exact c.utf8Size_pos
      have hfirst := UInt8.isUTF8FirstByte_getElem_zero_utf8EncodeChar (c := c)
      rw [encode_cons, List.head?_append, List.head?_eq_getElem?, List.getElem?_eq_getElem hlen,
        Option.some_or] at h
      cases h
      exact hfirst

end Agenda.Utf8
