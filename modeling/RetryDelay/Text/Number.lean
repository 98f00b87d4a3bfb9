import RetryDelay.Binary64.Decimal

set_option autoImplicit false

namespace RetryDelay.Text

def splitSign : List Char → Bool × List Char
  | '-' :: s => (true, s)
  | '+' :: s => (false, s)
  | s => (false, s)

def readDigits? (s : List Char) : Option Nat :=
  if s ≠ [] ∧ s.all Char.isDigit then some (digitsValue s) else none

def readInt? (s : List Char) : Option Int :=
  let (negative, s) := splitSign s
  (readDigits? s).map fun n => if negative then -(n : Int) else n

def toInt64? (z : Int) : Option Int64 :=
  if -2 ^ (63 : Nat) ≤ z ∧ z < 2 ^ (63 : Nat) then some (Int64.ofInt z) else none

theorem toInt64?_eq_some_iff {n : Int} {z : Int64} : toInt64? n = some z ↔ z.toInt = n := by
  constructor
  · intro h
    unfold toInt64? at h
    split at h
    · next hrange => rw [← Option.some.inj h, Int64.toInt_ofInt_of_le hrange.1 hrange.2]
    · cases h
  · rintro rfl
    rw [toInt64?, if_pos ⟨z.le_toInt, z.toInt_lt⟩, Int64.ofInt_toInt]

def readInt64? (s : List Char) : Option Int64 := (readInt? s).bind toInt64?

def splitFraction : List Char → List Char × List Char
  | '.' :: s => splitDigits s
  | s => ([], s)

/-- The size of an exponent. Digits are taken while their value is below `65536`; those after them
are not counted. -/
def exponentSize (ds : List Char) : Nat :=
  ds.foldl (fun e d => if e < 65536 then 10 * e + (d.toNat - 48) else e) 0

def signedExponent (negative : Bool) (ds : List Char) : Int :=
  if negative then -(exponentSize ds : Int) else exponentSize ds

/-- An exponent that is the whole text, or nothing in place of zero. -/
def readExponent? : List Char → Option Int
  | [] => some 0
  | c :: s =>
    let (negative, ds) := splitSign s
    if (c = 'e' ∨ c = 'E') ∧ ds ≠ [] ∧ ds.all Char.isDigit then some (signedExponent negative ds)
    else none

def readDecimal? (s : List Char) : Option Decimal :=
  let (whole, s) := splitDigits s
  let (fraction, s) := splitFraction s
  if whole = [] ∧ fraction = [] then none
  else (readExponent? s).map (.ofParts whole fraction)

def readBinary64? (s : List Char) : Option Binary64 :=
  let (negative, s) := splitSign s
  let name := s.map Char.toLower
  if name = ['i', 'n', 'f'] ∨ name = ['i', 'n', 'f', 'i', 'n', 'i', 't', 'y'] then
    some (.infinity negative)
  else if name = ['n', 'a', 'n'] then some .nan
  else (readDecimal? s).map (Decimal.toBinary64 negative)

end RetryDelay.Text
