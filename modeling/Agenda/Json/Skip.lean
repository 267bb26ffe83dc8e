import Agenda.Json.Token

/-!
Passing over a JSON value whose content does not matter. Its brackets are kept on a stack, so a
value may be nested to any depth.
-/

namespace Agenda.Json

inductive Bracket where
  | list
  | record
  deriving DecidableEq

/-- What has to come next inside the value that is being passed over. -/
inductive Expected where
  | value
  | valueOrEnd
  | key
  | keyOrEnd
  | colon
  | commaOrEnd
  deriving DecidableEq

/-- What one token leads to: what has to come next and the brackets then open, or nothing if the
token may not stand here. -/
def advance? : Expected → List Bracket → Token → Option (Expected × List Bracket)
  | .value, stack, .literal _ | .value, stack, .atom
  | .valueOrEnd, stack, .literal _ | .valueOrEnd, stack, .atom => some (.commaOrEnd, stack)
  | .value, stack, .beginList | .valueOrEnd, stack, .beginList => some (.valueOrEnd, .list :: stack)
  | .value, stack, .beginRecord | .valueOrEnd, stack, .beginRecord =>
      some (.keyOrEnd, .record :: stack)
  | .valueOrEnd, .list :: stack, .endList | .commaOrEnd, .list :: stack, .endList
  | .keyOrEnd, .record :: stack, .endRecord | .commaOrEnd, .record :: stack, .endRecord =>
      some (.commaOrEnd, stack)
  | .key, stack, .literal _ | .keyOrEnd, stack, .literal _ => some (.colon, stack)
  | .colon, stack, .colon => some (.value, stack)
  | .commaOrEnd, .list :: stack, .comma => some (.value, .list :: stack)
  | .commaOrEnd, .record :: stack, .comma => some (.key, .record :: stack)
  | _, _, _ => none

/-- Goes on until the value is complete and gives the tokens behind it. -/
def skipOn : Expected → List Bracket → List Token → Option (List Token)
  | _, _, [] => none
  | expected, stack, token :: rest =>
      match advance? expected stack token with
      | none => none
      | some (.commaOrEnd, []) => some rest
      | some (expected, stack) => skipOn expected stack rest

def skip (tokens : List Token) : Option (List Token) := skipOn .value [] tokens

theorem length_skipOn {expected : Expected} {stack : List Bracket} {tokens rest : List Token}
    (h : skipOn expected stack tokens = some rest) : rest.length < tokens.length := by
  induction tokens generalizing expected stack with
  | nil => cases h
  | cons token tokens ih =>
      simp only [skipOn] at h
      split at h
      · cases h
      · cases h; exact Nat.lt_succ_self _
      · exact Nat.lt_succ_of_lt (ih h)

theorem length_skip {tokens rest : List Token} (h : skip tokens = some rest) :
    rest.length < tokens.length :=
  length_skipOn h

end Agenda.Json
