import RetryDelay.Binary64.Decimal

set_option autoImplicit false

namespace RetryDelay.Binary64
open Text

structure Layout where
  tie : Tie
  inFull : Int → Bool
  afterWhole : List Char
  positive : List Char

/-- Messages write every place out: `1`, `0.5`, and all zeros of the largest number. -/
def Layout.message : Layout := ⟨.upper, fun _ => true, [], []⟩

/-- Listings write exponents from `10 ^ 16` on and below `10 ^ -4`: `1.0`, `1e16`, `1.5e-7`. -/
def Layout.listing : Layout := ⟨.upper, fun e => decide (-4 ≤ e ∧ e ≤ 15), ['.', '0'], []⟩

/-- JSON writes exponents from `10 ^ 16` on and below `10 ^ -5`: `1.0`, `1e+16`, `1e-6`. -/
def Layout.json : Layout := ⟨.even, fun e => decide (-5 ≤ e ∧ e ≤ 15), ['.', '0'], ['+']⟩

/-- As in messages, but whole numbers show that they are no integers: `1.0`. -/
def Layout.pointed : Layout := ⟨.upper, fun _ => true, ['.', '0'], []⟩

def Digits.inFull (afterWhole : List Char) (d : Digits) : List Char :=
  if d.point ≤ 0 then ['0', '.'] ++ List.replicate (-d.point).toNat '0' ++ d.figures
  else
    let before := d.point.toNat
    if before < d.figures.length then d.figures.take before ++ ['.'] ++ d.figures.drop before
    else d.figures ++ List.replicate (before - d.figures.length) '0' ++ afterWhole

def Digits.scientific (positive : List Char) (d : Digits) : List Char :=
  let exponent := d.point - 1
  d.figures.take 1 ++ (if d.figures.length ≤ 1 then [] else '.' :: d.figures.drop 1) ++ ['e']
    ++ (if exponent < 0 then ['-'] else positive) ++ Text.digits exponent.natAbs

def Layout.place (l : Layout) (d : Digits) : List Char :=
  if l.inFull (d.point - 1) then d.inFull l.afterWhole else d.scientific l.positive

def sign (negative : Bool) : List Char := if negative then ['-'] else []

def chars (l : Layout) : Binary64 → List Char
  | .nan => ['N', 'a', 'N']
  | .infinity negative => sign negative ++ ['i', 'n', 'f']
  | .finite negative units _ => sign negative ++ l.place (shortest l.tie units)

def text (l : Layout) (x : Binary64) : String := String.ofList (x.chars l)

end RetryDelay.Binary64
