import Agenda.Json.Skip
import Agenda.Task

/-!
The JSON form of a task. It is written as a record, without the comment and the rule where they are
empty. It is read from a record, in which unknown members are passed over and missing ones are
empty, or from a list of the five texts in their order, which may end early. A member may not occur
twice, and a known one has to be a text.
-/

namespace Agenda.Task

open Json

/-- A comment or a rule is written only where there is one. -/
def isWritten (t : Task) (field : Field) : Bool :=
  match field with
  | .comment | .rule => t.get field ≠ ""
  | .id | .date | .title => true

def member (t : Task) (field : Field) : List Char :=
  literal field.key ++ ':' :: literal (t.get field)

/-- The record with these of the task's members, as far as they are written. -/
def recordOf (fields : List Field) (t : Task) : List Char :=
  '\x7b' :: [','].intercalate ((fields.filter t.isWritten).map t.member) ++ ['\x7d']

def json (t : Task) : List Char := recordOf Field.all t

def jsonText (t : Task) : String := String.ofList t.json

abbrev Draft := List (Field × List Char)

namespace Draft

def get (draft : Draft) (field : Field) : String :=
  String.ofList ((draft.lookup field).getD [])

/-- The task that a draft amounts to; what is missing is empty. -/
def task (draft : Draft) : Task :=
  { id := draft.get .id, date := draft.get .date, title := draft.get .title,
    comment := draft.get .comment, rule := draft.get .rule }

/-- Adds a text, unless its field has one. -/
def put? (draft : Draft) (field : Field) (text : List Char) : Option Draft :=
  if (draft.lookup field).isSome then none else some ((field, text) :: draft)

end Draft

/-- Reads a member's value and adds it to the draft, if the key is a field's. -/
def readValue? (draft : Draft) (key : List Char) (tokens : List Token) :
    Option (Draft × List Token) :=
  match Field.ofKey? key, tokens with
  | none, tokens => (skip tokens).map (draft, ·)
  | some field, .literal (some text) :: rest => (draft.put? field text).map (·, rest)
  | some _, _ => none

theorem length_readValue? {draft draft' : Draft} {key : List Char} {tokens rest : List Token}
    (h : readValue? draft key tokens = some (draft', rest)) : rest.length < tokens.length := by
  unfold readValue? at h
  split at h
  · obtain ⟨_, hs, h⟩ := Option.map_eq_some_iff.1 h
    cases h
    exact length_skip hs
  · obtain ⟨_, _, h⟩ := Option.map_eq_some_iff.1 h
    cases h
    exact Nat.lt_succ_self _
  · cases h

/-- Reads the members of a record from the first key on; the record has to be all there is. -/
def readMembers? (draft : Draft) : List Token → Option Draft
  | .literal (some key) :: .colon :: tokens =>
      match _h : readValue? draft key tokens with
      | some (draft, .comma :: rest) => readMembers? draft rest
      | some (draft, [.endRecord]) => some draft
      | _ => none
  | _ => none
termination_by tokens => tokens.length
decreasing_by
  have := length_readValue? _h
  simp only [List.length_cons] at this ⊢
  omega

/-- Reads the texts of a list from its first one on; the list has to be all there is. -/
def readTexts? (draft : Draft) : List Field → List Token → Option Draft
  | field :: _, [.literal (some text), .endList] => some ((field, text) :: draft)
  | field :: fields, .literal (some text) :: .comma :: rest =>
      readTexts? ((field, text) :: draft) fields rest
  | _, _ => none

def draft? : List Token → Option Draft
  | [.beginRecord, .endRecord] => some []
  | .beginRecord :: tokens => readMembers? [] tokens
  | [.beginList, .endList] => some []
  | .beginList :: tokens => readTexts? [] Field.all tokens
  | _ => none

/-- Reads a task from what may hold broken characters. -/
def ofGlyphs? (gs : List Glyph) : Option Task :=
  ((Token.scan gs).bind draft?).map Draft.task

def ofJson? (cs : List Char) : Option Task := ofGlyphs? (cs.map some)

end Agenda.Task
