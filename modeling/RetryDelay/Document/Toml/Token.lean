import RetryDelay.Document.Toml.Quoted

set_option autoImplicit false

namespace RetryDelay.Document.Toml

inductive Token where
  | lineEnd
  | equals
  | comma
  | openSequence
  | closeSequence
  | bare (s : List Char)
  | text (s : String)
  | block (s : String)
  | bad
  deriving DecidableEq

def unifyLines : List Char → List Char
  | '\r' :: '\n' :: s => '\n' :: unifyLines s
  | c :: s => c :: unifyLines s
  | [] => []

def isBare (c : Char) : Bool := c.isAlphanum || c == '_' || c == '-' || c == '+' || c == '.'

def ofString (make : String → Token) : Option (List Char × List Char) → Token × List Char
  | none => (.bad, [])
  | some (cs, rest) => (make (String.ofList cs), rest)

def readToken : List Char → Token × List Char
  | [] => (.bad, [])
  | '\n' :: s => (.lineEnd, s)
  | '=' :: s => (.equals, s)
  | ',' :: s => (.comma, s)
  | '[' :: s => (.openSequence, s)
  | ']' :: s => (.closeSequence, s)
  | '"' :: '"' :: '"' :: s => ofString .block (readBasicBlock .plain (skipLineEnd s))
  | '"' :: s => ofString .text (readBasic s)
  | '\x27' :: '\x27' :: '\x27' :: s => ofString .block (readLiteralBlock (skipLineEnd s))
  | '\x27' :: s => ofString .text (readLiteral s)
  | c :: s =>
    if isBare c then (.bare (c :: s.takeWhile isBare), s.dropWhile isBare) else (.bad, [])

theorem length_ofString {make : String → Token} {r : Option (List Char × List Char)} {n : Nat}
    (hr : ∀ t rest, r = some (t, rest) → rest.length < n) (hn : 0 < n) :
    (ofString make r).2.length < n := by
  unfold ofString
  split
  next => exact hn
  next t rest => exact hr t rest rfl

theorem length_readToken {c : Char} {s : List Char} :
    (readToken (c :: s)).2.length < (c :: s).length := by
  generalize h : c :: s = cs
  have hpos : 0 < cs.length := by rw [← h]; simp
  unfold readToken
  split
  case h_1 => simp at hpos
  case h_7 s' =>
    refine length_ofString (fun t rest ht => ?_) hpos
    have h1 := length_of_readBasicBlock ht
    have h2 := length_skipLineEnd s'
    simp only [List.length_cons]; omega
  case h_8 =>
    refine length_ofString (fun t rest ht => ?_) hpos
    have h1 := length_of_readBasic ht
    simp only [List.length_cons]; omega
  case h_9 s' =>
    refine length_ofString (fun t rest ht => ?_) hpos
    have h1 := length_of_readLiteralBlock ht
    have h2 := length_skipLineEnd s'
    simp only [List.length_cons]; omega
  case h_10 =>
    refine length_ofString (fun t rest ht => ?_) hpos
    have h1 := length_of_readLiteral ht
    simp only [List.length_cons]; omega
  case h_11 =>
    split
    next => exact Nat.lt_succ_of_le (List.dropWhile_suffix isBare).length_le
    next => simp
  all_goals simp

def tokens (s : List Char) : List Token :=
  match h : s.dropWhile isSpace with
  | [] => []
  | c :: t =>
    have hs : (c :: t).length ≤ s.length := by
      rw [← h]; exact (List.dropWhile_suffix isSpace (l := s)).length_le
    if c = '#' then
      have : (t.dropWhile (· != '\n')).length < s.length := by
        have ht := (List.dropWhile_suffix (· != '\n') (l := t)).length_le
        simp only [List.length_cons] at hs
        omega
      if (t.takeWhile (· != '\n')).all isAllowed then tokens (t.dropWhile (· != '\n')) else [.bad]
    else
      have : (readToken (c :: t)).2.length < s.length := Nat.lt_of_lt_of_le length_readToken hs
      (readToken (c :: t)).1 :: tokens (readToken (c :: t)).2
termination_by s.length

end RetryDelay.Document.Toml
