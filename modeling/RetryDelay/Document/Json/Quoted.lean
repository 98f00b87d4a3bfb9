import RetryDelay.Text.Digits

set_option autoImplicit false

namespace RetryDelay.Document.Json
open Text

def escaped? : Char → Option Char
  | '"' => some '"'
  | '\\' => some '\\'
  | '/' => some '/'
  | 'b' => some '\x08'
  | 'f' => some '\x0c'
  | 'n' => some '\n'
  | 'r' => some '\r'
  | 't' => some '\t'
  | _ => none

inductive Piece where
  | char (c : Char)
  | unit (n : Nat)
  deriving DecidableEq

def readPieces : List Char → Option (List Piece × List Char)
  | [] => none
  | '"' :: s => some ([], s)
  | '\\' :: 'u' :: a :: b :: c :: d :: s =>
    match numberInBase? 16 [a, b, c, d], readPieces s with
    | some n, some (ps, rest) => some (.unit n :: ps, rest)
    | _, _ => none
  | '\\' :: e :: s =>
    match escaped? e, readPieces s with
    | some c, some (ps, rest) => some (.char c :: ps, rest)
    | _, _ => none
  | c :: s =>
    if c = '\\' ∨ c.toNat < 0x20 then none
    else (readPieces s).map fun (ps, rest) => (.char c :: ps, rest)

theorem length_of_readPieces {s rest : List Char} {ps : List Piece}
    (h : readPieces s = some (ps, rest)) : rest.length < s.length := by
  fun_induction readPieces s generalizing ps rest with
  | case1 => cases h
  | case2 s => cases h; simp
  | case3 a b c d s n ps' rest' hp hn ih => cases h; have := ih hp; simp; omega
  | case4 => cases h
  | case5 => cases h; rename_i ih; have := ih (by assumption); simp; omega
  | case6 => cases h
  | case7 => cases h
  | case8 =>
    rename_i ih
    obtain ⟨⟨ps', rest'⟩, hp, he⟩ := Option.map_eq_some_iff.1 h
    cases he
    have := ih hp
    simp; omega

/-- The characters of a string. Units of a surrogate pair belong together; one alone is no
character. -/
def joinUnits : List Piece → Option (List Char)
  | [] => some []
  | .char c :: ps => (joinUnits ps).map (c :: ·)
  | .unit high :: .unit low :: ps =>
    if 0xd800 ≤ high ∧ high < 0xdc00 then
      if 0xdc00 ≤ low ∧ low < 0xe000 then
        (joinUnits ps).map (Char.ofNat (0x10000 + (high - 0xd800) * 0x400 + (low - 0xdc00)) :: ·)
      else none
    else if 0xdc00 ≤ high ∧ high < 0xe000 then none
    else (joinUnits (.unit low :: ps)).map (Char.ofNat high :: ·)
  | .unit n :: ps =>
    if 0xd800 ≤ n ∧ n < 0xe000 then none else (joinUnits ps).map (Char.ofNat n :: ·)

def readString (s : List Char) : Option (String × List Char) :=
  match readPieces s with
  | none => none
  | some (ps, rest) => (joinUnits ps).map fun cs => (String.ofList cs, rest)

theorem length_of_readString {s rest : List Char} {t : String}
    (h : readString s = some (t, rest)) : rest.length < s.length := by
  unfold readString at h
  split at h
  next => cases h
  next ps r hp =>
    obtain ⟨cs, _, he⟩ := Option.map_eq_some_iff.1 h
    cases he
    exact length_of_readPieces hp

end RetryDelay.Document.Json
