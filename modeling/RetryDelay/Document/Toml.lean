import RetryDelay.Document.Scalar
import RetryDelay.Document.Toml.Token

/-!
Flat TOML documents as lists of entries in text order: one line for each key, which may be bare or
quoted, and its value. A document with two entries of one key is malformed, and so is one in which
anything else is wrong, wherever it stands.
-/

set_option autoImplicit false

namespace RetryDelay.Document.Toml

def Token.key? : Token → Option String
  | .bare s =>
    if s.all fun c => c.isAlphanum || c == '_' || c == '-' then some (String.ofList s) else none
  | .text s => some s
  | _ => none

def Token.value? : Token → Option Value
  | .bare s => readScalar? s
  | .text s => some (.text s)
  | .block s => some (.text s)
  | _ => none

inductive Place where
  | lineStart
  | lineRest
  /-- In a sequence, inside `depth` others; `ready` where the next value may begin. -/
  | sequence (depth : Nat) (ready : Bool)
  deriving DecidableEq

def maxNesting : Nat := 79

/-- The entries of the tokens from a place on. A sequence counts as such from its opening bracket;
what is in it is only checked. -/
def entriesFrom : Place → List Token → Option (List (String × Value))
  | .lineStart, [] => some []
  | .lineRest, [] => some []
  | .sequence .., [] => none
  | .lineStart, .lineEnd :: ts => entriesFrom .lineStart ts
  | .lineRest, .lineEnd :: ts => entriesFrom .lineStart ts
  | .lineRest, _ => none
  | .lineStart, k :: .equals :: .openSequence :: ts =>
    match k.key? with
    | none => none
    | some key => (entriesFrom (.sequence 0 true) ts).map ((key, .sequence) :: ·)
  | .lineStart, k :: .equals :: v :: ts =>
    match k.key?, v.value? with
    | some key, some value => (entriesFrom .lineRest ts).map ((key, value) :: ·)
    | _, _ => none
  | .lineStart, _ => none
  | .sequence depth ready, .lineEnd :: ts => entriesFrom (.sequence depth ready) ts
  | .sequence depth ready, .comma :: ts =>
    if ready then none else entriesFrom (.sequence depth true) ts
  | .sequence depth ready, .openSequence :: ts =>
    if ready ∧ depth + 1 < maxNesting then entriesFrom (.sequence (depth + 1) true) ts else none
  | .sequence 0 _, .closeSequence :: ts => entriesFrom .lineRest ts
  | .sequence (depth + 1) _, .closeSequence :: ts => entriesFrom (.sequence depth false) ts
  | .sequence depth ready, v :: ts =>
    if ready ∧ v.value?.isSome then entriesFrom (.sequence depth false) ts else none

def dropByteOrderMark : List Char → List Char
  | '\ufeff' :: s => s
  | s => s

def entries? (s : String) : Option (List (String × Value)) :=
  match entriesFrom .lineStart (tokens (unifyLines (dropByteOrderMark s.toList))) with
  | none => none
  | some es => if (es.map Prod.fst).Nodup then some es else none

end RetryDelay.Document.Toml
