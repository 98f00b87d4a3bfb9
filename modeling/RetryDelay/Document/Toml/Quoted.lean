import RetryDelay.Text.Digits

set_option autoImplicit false

namespace RetryDelay.Document.Toml
open Text

def isSpace (c : Char) : Bool := c == ' ' || c == '\t'

def isAllowed (c : Char) : Bool := c == '\t' || (decide (0x20 ≤ c.toNat) && c.toNat != 0x7f)

def escaped? : Char → Option Char
  | '"' => some '"'
  | '\\' => some '\\'
  | 'b' => some '\x08'
  | 'f' => some '\x0c'
  | 'n' => some '\n'
  | 'r' => some '\r'
  | 't' => some '\t'
  | _ => none

def numbered? (ds : List Char) : Option Char :=
  (numberInBase? 16 ds).bind fun n => if n.isValidChar then some (Char.ofNat n) else none

def consChar (c : Option Char) (r : Option (List Char × List Char)) :
    Option (List Char × List Char) :=
  match c, r with
  | some c, some (cs, rest) => some (c :: cs, rest)
  | _, _ => none

theorem rest_of_consChar {c : Option Char} {r : Option (List Char × List Char)}
    {cs rest : List Char} (h : consChar c r = some (cs, rest)) :
    ∃ cs', r = some (cs', rest) := by
  unfold consChar at h
  split at h
  next => cases h; exact ⟨_, rfl⟩
  next => cases h

def readBasic : List Char → Option (List Char × List Char)
  | [] => none
  | '"' :: s => some ([], s)
  | '\\' :: 'u' :: a :: b :: c :: d :: s => consChar (numbered? [a, b, c, d]) (readBasic s)
  | '\\' :: 'U' :: a :: b :: c :: d :: e :: f :: g :: h :: s =>
    consChar (numbered? [a, b, c, d, e, f, g, h]) (readBasic s)
  | '\\' :: e :: s => consChar (escaped? e) (readBasic s)
  | c :: s => consChar (if isAllowed c ∧ c ≠ '\\' then some c else none) (readBasic s)

theorem length_of_readBasic {s cs rest : List Char} (h : readBasic s = some (cs, rest)) :
    rest.length < s.length := by
  fun_induction readBasic s generalizing cs rest with
  | case1 => cases h
  | case2 => cases h; simp
  | case3 | case4 | case5 | case6 =>
    rename_i ih
    obtain ⟨cs', h'⟩ := rest_of_consChar h
    have := ih h'
    simp only [List.length_cons]; omega

def readLiteral : List Char → Option (List Char × List Char)
  | [] => none
  | '\x27' :: s => some ([], s)
  | c :: s => consChar (if isAllowed c then some c else none) (readLiteral s)

theorem length_of_readLiteral {s cs rest : List Char} (h : readLiteral s = some (cs, rest)) :
    rest.length < s.length := by
  fun_induction readLiteral s generalizing cs rest with
  | case1 => cases h
  | case2 => cases h; simp
  | case3 =>
    rename_i ih
    obtain ⟨cs', h'⟩ := rest_of_consChar h
    have := ih h'
    simp only [List.length_cons]; omega

inductive Fold where
  | plain
  /-- After a backslash and blanks, where the line has to end. -/
  | opened
  /-- On the lines that a backslash folds, up to the next character that is no blank. -/
  | folding
  deriving DecidableEq

/-- A block with escapes after its opening quotes, and what follows. Up to two quotes may stand
before the closing three. -/
def readBasicBlock : Fold → List Char → Option (List Char × List Char)
  | _, [] => none
  | .opened, c :: s =>
    if isSpace c then readBasicBlock .opened s
    else if c = '\n' then readBasicBlock .folding s
    else none
  | _, '"' :: '"' :: '"' :: '"' :: '"' :: s => some (['"', '"'], s)
  | _, '"' :: '"' :: '"' :: '"' :: s => some (['"'], s)
  | _, '"' :: '"' :: '"' :: s => some ([], s)
  | _, '\\' :: 'u' :: a :: b :: c :: d :: s =>
    consChar (numbered? [a, b, c, d]) (readBasicBlock .plain s)
  | _, '\\' :: 'U' :: a :: b :: c :: d :: e :: f :: g :: h :: s =>
    consChar (numbered? [a, b, c, d, e, f, g, h]) (readBasicBlock .plain s)
  | _, '\\' :: e :: s =>
    if isSpace e then readBasicBlock .opened s
    else if e = '\n' then readBasicBlock .folding s
    else consChar (escaped? e) (readBasicBlock .plain s)
  | fold, c :: s =>
    if fold = .folding ∧ (isSpace c ∨ c = '\n') then readBasicBlock .folding s
    else consChar (if c = '\n' ∨ (isAllowed c ∧ c ≠ '\\') then some c else none)
      (readBasicBlock .plain s)

theorem length_of_readBasicBlock {fold : Fold} {s cs rest : List Char}
    (h : readBasicBlock fold s = some (cs, rest)) : rest.length < s.length := by
  fun_induction readBasicBlock fold s generalizing cs rest with
  | case1 | case4 => cases h
  | case5 | case6 | case7 => cases h; simp only [List.length_cons]; omega
  | case2 | case3 | case10 | case11 | case13 =>
    rename_i ih
    have := ih h
    simp only [List.length_cons]; omega
  | case8 | case9 | case12 | case14 =>
    rename_i ih
    obtain ⟨cs', h'⟩ := rest_of_consChar h
    have := ih h'
    simp only [List.length_cons]; omega

def readLiteralBlock : List Char → Option (List Char × List Char)
  | [] => none
  | '\x27' :: '\x27' :: '\x27' :: '\x27' :: '\x27' :: s => some (['\x27', '\x27'], s)
  | '\x27' :: '\x27' :: '\x27' :: '\x27' :: s => some (['\x27'], s)
  | '\x27' :: '\x27' :: '\x27' :: s => some ([], s)
  | c :: s => consChar (if c = '\n' ∨ isAllowed c then some c else none) (readLiteralBlock s)

theorem length_of_readLiteralBlock {s cs rest : List Char}
    (h : readLiteralBlock s = some (cs, rest)) : rest.length < s.length := by
  fun_induction readLiteralBlock s generalizing cs rest with
  | case1 => cases h
  | case2 | case3 | case4 => cases h; simp only [List.length_cons]; omega
  | case5 =>
    rename_i ih
    obtain ⟨cs', h'⟩ := rest_of_consChar h
    have := ih h'
    simp only [List.length_cons]; omega

def skipLineEnd : List Char → List Char
  | '\n' :: s => s
  | s => s

theorem length_skipLineEnd (s : List Char) : (skipLineEnd s).length ≤ s.length := by
  unfold skipLineEnd; split <;> simp

end RetryDelay.Document.Toml
