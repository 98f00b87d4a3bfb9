import RetryDelay.Binary64.Basic
import RetryDelay.Text.Digits

/-!
Decimals, the double nearest to each, and the shortest digits of a double: of all decimals that read
back as it, those with the fewest digits, and of these the nearest. Only the two neighbours of the
value on each decimal grid can be the nearest of that grid, so for one digit, two digits and so on
up to seventeen both are tried. When both read back and are equally near, the tie rule of the writer
chooses.
-/

set_option autoImplicit false

namespace RetryDelay

structure Decimal where
  digits : Nat
  exponent : Int
  deriving DecidableEq

namespace Decimal

def ofParts (whole fraction : List Char) (exponent : Int) : Decimal :=
  ⟨Text.digitsValue (whole ++ fraction), exponent - fraction.length⟩

def units (d : Decimal) : Nat × Nat :=
  match d.exponent with
  | .ofNat e => (d.digits * 10 ^ e * Binary64.unit, 1)
  | .negSucc e => (d.digits * Binary64.unit, 10 ^ (e + 1))

def isHuge (d : Decimal) : Bool := d.digits ≠ 0 && decide (310 ≤ d.exponent)

def isTiny (d : Decimal) : Bool := d.digits == 0 || decide (d.exponent + d.digits.log2 < -400)

/-- Exponents far outside the range of doubles are answered without computing their powers. -/
def toBinary64 (negative : Bool) (d : Decimal) : Binary64 :=
  if d.isHuge then .infinity negative
  else if d.isTiny then .finite negative 0 Binary64.representable_zero
  else Binary64.round negative d.units.1 d.units.2

end Decimal

end RetryDelay

namespace RetryDelay.Binary64
open Text

/-- The fraction `units / 10 ^ k`, its value counted in ones: numerator and denominator. -/
def onGrid (units : Nat) : Int → Nat × Nat
  | .ofNat k => (units, unit * 10 ^ k)
  | .negSucc k => (units * 10 ^ (k + 1), unit)

def readsBack (units : Nat) (d : Decimal) : Bool := nearest d.units.1 d.units.2 == units

def nearestMultiple (tie : Tie) (units : Nat) (k : Int) : Nat :=
  roundDiv tie (onGrid units k).1 (onGrid units k).2

def gridPoint (tie : Tie) (units : Nat) (k : Int) : Option Nat :=
  let below := (onGrid units k).1 / (onGrid units k).2
  let best := nearestMultiple tie units k
  let other := if best = below then below + 1 else below
  if readsBack units ⟨best, k⟩ then some best
  else if readsBack units ⟨other, k⟩ then some other
  else none

/-- The place of the first digit of a positive value: it lies between `10 ^ (place - 1)` and
`10 ^ place`. -/
def place (units : Nat) : Int := (digits (units * 10 ^ (324 : Nat) / unit)).length - 324

/-- Decimal figures with a point before the first of them, moved `point` places to the right. -/
structure Digits where
  figures : List Char
  point : Int
  deriving DecidableEq

def Digits.ofMultiple (n : Nat) (k : Int) : Digits :=
  ⟨dropLastZeros (Text.digits n), (Text.digits n).length + k⟩

/-- The shortest digits of a magnitude: on the first grid that has one, the nearest decimal that
reads back. The exact digits stand in should seventeen not be enough. -/
def shortest (tie : Tie) (units : Nat) : Digits :=
  if units = 0 then ⟨['0'], 1⟩
  else
    let found := (List.range 17).findSome? fun (n : Nat) =>
      let k := place units - (n + 1)
      (gridPoint tie units k).map (Digits.ofMultiple · k)
    found.getD (.ofMultiple (units * 5 ^ (1074 : Nat)) (-1074))

end RetryDelay.Binary64
