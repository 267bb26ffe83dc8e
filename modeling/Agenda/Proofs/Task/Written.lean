import Agenda.Proofs.Json.Token
import Agenda.Task.Written
import Mathlib.Data.List.Basic

/-!
A written task is read back with all five texts. The proof goes member by member over any list of
fields without repetition; which fields are written plays a part only at the end, where a field
that was left out is seen to be empty.
-/

namespace Agenda.Task

open Json

/-- The tokens of a member of the written record. -/
def memberTokens (t : Task) (field : Field) : List Token :=
  [.literal (some field.key.toList), .colon, .literal (some (t.get field).toList)]

theorem scan_member (t : Task) (field : Field) (gs : List Glyph) :
    Token.scan ((t.member field).map some ++ gs) =
      (Token.scan gs).map (t.memberTokens field ++ ·) := by
  simp only [member, List.map_append, List.map_cons, List.append_assoc, List.cons_append,
    Token.scan_literal, Token.scan_colon, Option.map_map]
  rfl

theorem scan_members (t : Task) (fields : List Field) (gs : List Glyph) :
    Token.scan (([','].intercalate (fields.map t.member)).map some ++ gs) =
      (Token.scan gs).map ([Token.comma].intercalate (fields.map t.memberTokens) ++ ·) := by
  induction fields with
  | nil => simp only [List.map_nil, List.intercalate_nil, List.nil_append, Option.map_id']
  | cons field fields ih =>
      cases fields with
      | nil => simp only [List.map_cons, List.map_nil, List.intercalate_singleton, scan_member]
      | cons next fields =>
          simp only [List.map_cons, List.intercalate_cons_cons, List.map_append,
            List.append_assoc, List.cons_append, List.nil_append] at ih ⊢
          rw [scan_member, Token.scan_comma, ih, Option.map_map, Option.map_map]
          rfl

theorem scan_recordOf (t : Task) (fields : List Field) :
    Token.scan ((recordOf fields t).map some) =
      some (.beginRecord ::
        [Token.comma].intercalate ((fields.filter t.isWritten).map t.memberTokens) ++
          [.endRecord]) := by
  simp only [recordOf, List.map_append, List.map_cons, List.map_nil, List.cons_append]
  rw [Token.scan_beginRecord, scan_members, Token.scan_endRecord, Token.scan]
  rfl

@[simp] theorem Field.ofKey?_key (field : Field) : Field.ofKey? field.key.toList = some field := by
  cases field <;> rfl

theorem Draft.put?_of_lookup_eq_none {draft : Draft} {field : Field} (text : List Char)
    (h : draft.lookup field = none) : draft.put? field text = some ((field, text) :: draft) := by
  rw [Draft.put?, h]
  exact if_neg Bool.false_ne_true

theorem readValue?_key {draft : Draft} {field : Field} (text : List Char) (rest : List Token)
    (h : draft.lookup field = none) :
    readValue? draft field.key.toList (.literal (some text) :: rest) =
      some ((field, text) :: draft, rest) := by
  simp only [readValue?, Field.ofKey?_key, Draft.put?_of_lookup_eq_none text h, Option.map_some]

theorem readMembers?_last (t : Task) {field : Field} {draft : Draft}
    (h : draft.lookup field = none) :
    readMembers? draft (t.memberTokens field ++ [.endRecord]) =
      some ((field, (t.get field).toList) :: draft) := by
  have hvalue := readValue?_key (t.get field).toList [.endRecord] h
  simp only [memberTokens, List.cons_append, List.nil_append]
  rw [readMembers?]
  split <;> simp_all

theorem readMembers?_comma (t : Task) {field : Field} {draft : Draft} (tokens : List Token)
    (h : draft.lookup field = none) :
    readMembers? draft (t.memberTokens field ++ .comma :: tokens) =
      readMembers? ((field, (t.get field).toList) :: draft) tokens := by
  have hvalue := readValue?_key (t.get field).toList (.comma :: tokens) h
  simp only [memberTokens, List.cons_append, List.nil_append]
  rw [readMembers?]
  split <;> simp_all

/-- The draft that the members of these fields make, the last one first. -/
def draftOf (t : Task) (fields : List Field) : Draft :=
  (fields.map fun field => (field, (t.get field).toList)).reverse

/-- Reading the members of these fields puts their texts in front of the draft. -/
theorem readMembers?_memberTokens (t : Task) {fields : List Field} {draft : Draft}
    (hne : fields ≠ []) (hnodup : fields.Nodup)
    (hnew : ∀ field ∈ fields, draft.lookup field = none) :
    readMembers? draft ([Token.comma].intercalate (fields.map t.memberTokens) ++ [.endRecord]) =
      some (t.draftOf fields ++ draft) := by
  -- The draft grows while the fields get fewer; what is read stays new, since no field comes twice.
  induction fields generalizing draft with
  | nil => contradiction
  | cons field fields ih =>
      have hfield := hnew field List.mem_cons_self
      cases fields with
      | nil =>
          simp only [List.map_cons, List.map_nil, List.intercalate_singleton]
          exact readMembers?_last t hfield
      | cons next fields =>
          have hnext : ∀ f ∈ next :: fields,
              List.lookup f ((field, (t.get field).toList) :: draft) = none := by
            intro f hf
            have hne : f ≠ field := by
              rintro rfl
              exact (List.nodup_cons.1 hnodup).1 hf
            rw [List.lookup_cons, beq_false_of_ne hne]
            exact hnew f (List.mem_cons_of_mem _ hf)
          have hrest := ih (List.cons_ne_nil _ _) (List.nodup_cons.1 hnodup).2 hnext
          rw [List.map_cons, List.map_cons, List.intercalate_cons_cons, List.append_assoc,
            List.append_assoc, List.singleton_append, readMembers?_comma t _ hfield,
            ← List.map_cons, hrest]
          simp only [draftOf, List.map_cons, List.reverse_cons, List.append_assoc,
            List.cons_append, List.nil_append]

theorem lookup_draftOf_of_mem (t : Task) {fields : List Field} {field : Field}
    (h : field ∈ fields) : (t.draftOf fields).lookup field = some (t.get field).toList := by
  rw [draftOf, ← List.map_reverse]
  exact List.lookup_graph (fun field => (t.get field).toList) (List.mem_reverse.2 h)

theorem lookup_draftOf_of_not_mem (t : Task) {fields : List Field} {field : Field}
    (h : field ∉ fields) : (t.draftOf fields).lookup field = none := by
  rw [draftOf, List.lookup_eq_none_iff]
  intro p hp
  obtain ⟨f, hf, rfl⟩ := List.mem_map.1 (List.mem_reverse.1 hp)
  rw [bne_iff_ne]
  rintro rfl
  exact h hf

/-- A field that is not written is empty. -/
theorem get_of_isWritten_eq_false {t : Task} {field : Field} (h : t.isWritten field = false) :
    t.get field = "" := by
  cases field with
  | id | date | title => cases h
  | comment | rule => exact of_not_not (of_decide_eq_false h)

theorem get_draftOf_written (t : Task) (field : Field) :
    (t.draftOf (Field.all.filter t.isWritten)).get field = t.get field := by
  have hall : field ∈ Field.all := by cases field <;> decide
  rw [Draft.get]
  cases hw : t.isWritten field with
  | true =>
      rw [lookup_draftOf_of_mem t (List.mem_filter.2 ⟨hall, hw⟩), Option.getD_some,
        String.ofList_toList]
  | false =>
      have hout : field ∉ Field.all.filter t.isWritten := by
        intro hf
        rw [(List.mem_filter.1 hf).2] at hw
        cases hw
      rw [lookup_draftOf_of_not_mem t hout, get_of_isWritten_eq_false hw]
      rfl

theorem task_draftOf_written (t : Task) :
    (t.draftOf (Field.all.filter t.isWritten)).task = t := by
  simp only [Draft.task, get_draftOf_written, get]

theorem draft?_beginRecord {tokens : List Token} {draft : Draft}
    (h : readMembers? [] tokens = some draft) :
    draft? (.beginRecord :: tokens) = some draft := by
  rw [draft?, h]
  rintro rfl
  rw [readMembers?] at h
  · cases h
  · rintro _ _ ⟨⟩

theorem ofJson?_json (t : Task) : ofJson? t.json = some t := by
  have hid : Field.id ∈ Field.all.filter t.isWritten := by
    rw [List.mem_filter]
    exact ⟨by decide, rfl⟩
  have hnodup : (Field.all.filter t.isWritten).Nodup := List.Pairwise.filter _ (by decide)
  have hnew : ∀ field ∈ Field.all.filter t.isWritten, List.lookup field ([] : Draft) = none :=
    fun _ _ => rfl
  have hread := readMembers?_memberTokens t (List.ne_nil_of_mem hid) hnodup hnew
  rw [ofJson?, ofGlyphs?, json, scan_recordOf, Option.bind_some, List.cons_append,
    draft?_beginRecord hread, Option.map_some, List.append_nil, task_draftOf_written]

/-! The written form starts and ends with a brace, and no line ends inside it. -/

theorem mem_intercalate {α : Type} {x : α} {separator : List α} {parts : List (List α)}
    (h : x ∈ separator.intercalate parts) : x ∈ separator ∨ ∃ part ∈ parts, x ∈ part := by
  induction parts with
  | nil => cases h
  | cons part parts ih =>
      cases parts with
      | nil =>
          rw [List.intercalate_singleton] at h
          exact .inr ⟨part, List.mem_cons_self, h⟩
      | cons next parts =>
          rw [List.intercalate_cons_cons, List.append_assoc, List.mem_append, List.mem_append] at h
          obtain h | h | h := h
          · exact .inr ⟨part, List.mem_cons_self, h⟩
          · exact .inl h
          · obtain h | ⟨p, hp, h⟩ := ih h
            · exact .inl h
            · exact .inr ⟨p, List.mem_cons_of_mem _ hp, h⟩

theorem toNat_of_mem_member {t : Task} {field : Field} {c : Char} (h : c ∈ t.member field) :
    0x20 ≤ c.toNat := by
  rw [member, List.mem_append, List.mem_cons] at h
  obtain h | rfl | h := h
  · exact toNat_of_mem_literal h
  · decide
  · exact toNat_of_mem_literal h

theorem toNat_of_mem_json {t : Task} {c : Char} (h : c ∈ t.json) : 0x20 ≤ c.toNat := by
  rw [json, recordOf, List.mem_append, List.mem_cons, List.mem_singleton] at h
  obtain (rfl | h) | rfl := h
  · decide
  · obtain h | ⟨part, hp, h⟩ := mem_intercalate h
    · rw [List.mem_singleton.1 h]
      decide
    · obtain ⟨field, _, rfl⟩ := List.mem_map.1 hp
      exact toNat_of_mem_member h
  · decide

theorem exists_json_eq (t : Task) : ∃ cs, t.json = '\x7b' :: cs ++ ['\x7d'] := ⟨_, rfl⟩

end Agenda.Task
