import RetryDelay.Document.Scalar
import RetryDelay.Document.Json.Quoted

set_option autoImplicit false

namespace RetryDelay.Document.Json

inductive Token where
  | openMap
  | closeMap
  | openSequence
  | closeSequence
  | comma
  | colon
  | scalar (v : Value)
  /-- From here on the text has no tokens. -/
  | bad
  deriving DecidableEq

def isSpace (c : Char) : Bool := c == ' ' || c == '\t' || c == '\n' || c == '\r'

def readToken : List Char → Token × List Char
  | [] => (.bad, [])
  | '\x7b' :: s => (.openMap, s)
  | '\x7d' :: s => (.closeMap, s)
  | '[' :: s => (.openSequence, s)
  | ']' :: s => (.closeSequence, s)
  | ',' :: s => (.comma, s)
  | ':' :: s => (.colon, s)
  | 'n' :: 'u' :: 'l' :: 'l' :: s => (.scalar .null, s)
  | 't' :: 'r' :: 'u' :: 'e' :: s => (.scalar (.boolean true), s)
  | 'f' :: 'a' :: 'l' :: 's' :: 'e' :: s => (.scalar (.boolean false), s)
  | '"' :: s =>
    match readString s with
    | none => (.bad, [])
    | some (t, rest) => (.scalar (.text t), rest)
  | s =>
    match readNumber s with
    | none => (.bad, [])
    | some (v, rest) => (.scalar v, rest)

theorem length_readToken {c : Char} {s : List Char} :
    (readToken (c :: s)).2.length < (c :: s).length := by
  generalize h : c :: s = cs
  have hpos : 0 < cs.length := by rw [← h]; simp
  unfold readToken
  split
  case h_1 => simp at hpos
  case h_11 =>
    split
    next => simp
    next t rest ht => have := length_of_readString ht; simp only [List.length_cons]; omega
  case h_12 =>
    split
    next => simpa using hpos
    next v rest hv => exact length_of_readNumber hv
  all_goals simp only [List.length_cons]; omega

def tokens (s : List Char) : List Token :=
  match h : s.dropWhile isSpace with
  | [] => []
  | c :: t =>
    have : (readToken (c :: t)).2.length < s.length := by
      have hs := (List.dropWhile_suffix isSpace (l := s)).length_le
      rw [h] at hs
      exact Nat.lt_of_lt_of_le length_readToken hs
    (readToken (c :: t)).1 :: tokens (readToken (c :: t)).2
termination_by s.length

def Token.value? : Token → Option Value
  | .scalar v => some v
  | .openSequence => some .sequence
  | .openMap => some .map
  | _ => none

end RetryDelay.Document.Json
