import RetryDelay.Binary64.Layout
import RetryDelay.Text.Number
import RetryDelay.Text.Quoted

/-!
What a document gives for a value, as far as one who expects a number looks at it, and how values
without parts are written. A number of JSON is an integer if it has neither fraction nor exponent
and fits a word, and otherwise a double, which has to be in range; it has no leading zeros, a point
stands between digits, and up to 768 digits give the nearest double. The bare values of TOML are
booleans, integers in four bases and floats; an underscore may stand between two digits, and a
decimal number has no leading zero.
-/

set_option autoImplicit false

namespace RetryDelay.Document
open Text

inductive Value where
  | null
  | boolean (b : Bool)
  | integer (z : Int)
  | float (x : Binary64)
  | text (s : String)
  | sequence
  | map
  deriving DecidableEq

def Value.description (l : Binary64.Layout) : Value → String
  | null => "null"
  | boolean b => "boolean `" ++ (if b then "true" else "false") ++ "`"
  | integer z => "integer `" ++ toString z ++ "`"
  | float x => "floating point `" ++ x.text l ++ "`"
  | text s => "string " ++ quoted s
  | sequence => "sequence"
  | map => "map"

end RetryDelay.Document

namespace RetryDelay.Document.Json
open Text

def readFraction (s : List Char) : Option (Option (List Char) × List Char) :=
  match s with
  | '.' :: t =>
    let (ds, t) := splitDigits t
    if ds = [] then none else some (some ds, t)
  | s => some (none, s)

theorem length_of_readFraction {s rest : List Char} {f : Option (List Char)}
    (h : readFraction s = some (f, rest)) : rest.length ≤ s.length := by
  unfold readFraction at h
  split at h
  next t =>
    dsimp only at h
    split at h
    next => cases h
    next =>
      cases h
      have := length_splitDigits t
      simp only [List.length_cons]; omega
  next => cases h; exact Nat.le_refl _

def readExponent (s : List Char) : Option (Option Int × List Char) :=
  match s with
  | [] => some (none, [])
  | e :: t =>
    if e = 'e' ∨ e = 'E' then
      let (negative, t) := splitSign t
      let (ds, t) := splitDigits t
      if ds = [] then none
      else some (some (if negative then -(digitsValue ds : Int) else digitsValue ds), t)
    else some (none, s)

theorem length_of_readExponent {s rest : List Char} {e : Option Int}
    (h : readExponent s = some (e, rest)) : rest.length ≤ s.length := by
  unfold readExponent at h
  split at h
  next => cases h; simp
  next c t =>
    split at h
    next =>
      dsimp only at h
      split at h
      next => cases h
      next =>
        cases h
        have h1 := length_splitDigits (splitSign t).2
        have h2 : (splitSign t).2.length ≤ t.length := by
          unfold splitSign; split <;> simp
        simp only [List.length_cons]; omega
    next => cases h; simp

/-- A number without fraction and exponent. It is an integer if it fits a word of 64 bits, one
without sign for those that are not negative; all others, and the negative zero, are doubles. -/
def wholeNumber (negative : Bool) (n : Nat) : Value :=
  if negative then
    if 0 < n ∧ n ≤ 2 ^ (63 : Nat) then .integer (-n) else .float (Decimal.toBinary64 true ⟨n, 0⟩)
  else if n < 2 ^ (64 : Nat) then .integer n else .float (Decimal.toBinary64 false ⟨n, 0⟩)

/-- How many digits tell every double and every point halfway between two of them. -/
def exactDigits : Nat := 768

/-- The decimal of a number. Its first `exactDigits` digits count each by itself and all after them
as a single `1`, zeros included, which takes a halfway point away from zero. Zeros in front and at
the end of the fraction do not count. -/
def decimal (whole fraction : List Char) (exponent : Int) : Decimal :=
  let places := dropLastZeros fraction
  let ds := (whole ++ places).dropWhile (· == '0')
  if ds.length ≤ exactDigits then .ofParts whole fraction exponent
  else
    ⟨digitsValue (ds.take exactDigits ++ ['1']),
      exponent - places.length + (ds.drop (exactDigits + 1)).length⟩

def number (negative : Bool) (whole : List Char) :
    Option (List Char) → Option Int → Value
  | none, none => wholeNumber negative (digitsValue whole)
  | fraction, exponent =>
    .float ((decimal whole (fraction.getD []) (exponent.getD 0)).toBinary64 negative)

def inRange? : Value → Option Value
  | .float (.infinity _) => none
  | v => some v

def readUnsigned (negative : Bool) (s : List Char) : Option (Value × List Char) :=
  let (whole, s) := splitDigits s
  if whole = [] ∨ (whole.head? = some '0' ∧ whole ≠ ['0']) then none
  else match readFraction s with
    | none => none
    | some (fraction, s) =>
      match readExponent s with
      | none => none
      | some (exponent, s) => (inRange? (number negative whole fraction exponent)).map (·, s)

theorem length_of_readUnsigned {negative : Bool} {s rest : List Char} {v : Value}
    (h : readUnsigned negative s = some (v, rest)) : rest.length < s.length := by
  have hs := length_splitDigits s
  unfold readUnsigned at h
  dsimp only at h
  split at h
  next => cases h
  next hw =>
    have hpos : 0 < (splitDigits s).1.length :=
      List.length_pos_iff.2 fun h0 => hw (Or.inl h0)
    split at h
    next => cases h
    next f t hf =>
      split at h
      next => cases h
      next e t' he =>
        obtain ⟨v', _, hv⟩ := Option.map_eq_some_iff.1 h
        cases hv
        have h1 := length_of_readFraction hf
        have h2 := length_of_readExponent he
        omega

def readNumber : List Char → Option (Value × List Char)
  | '-' :: s => readUnsigned true s
  | s => readUnsigned false s

theorem length_of_readNumber {s rest : List Char} {v : Value}
    (h : readNumber s = some (v, rest)) : rest.length < s.length := by
  unfold readNumber at h
  split at h
  next => have := length_of_readUnsigned h; simp only [List.length_cons]; omega
  next => exact length_of_readUnsigned h

end RetryDelay.Document.Json

namespace RetryDelay.Document.Toml
open Text

def ungroup (isDigit : Char → Bool) : List Char → Option (List Char)
  | [] => none
  | [c] => if isDigit c then some [c] else none
  | c :: '_' :: s => if isDigit c then (ungroup isDigit s).map (c :: ·) else none
  | c :: s => if isDigit c then (ungroup isDigit s).map (c :: ·) else none

def readBase? (base : Nat) (s : List Char) : Option Value :=
  match (ungroup Char.isAlphanum s).bind (numberInBase? base) with
  | none => none
  | some n => if n < 2 ^ (63 : Nat) then some (.integer n) else none

def readWhole? (s : List Char) : Option (List Char) :=
  match ungroup Char.isDigit s with
  | some ['0'] => some ['0']
  | some ('0' :: _) => none
  | ds => ds

def readExponent? (s : List Char) : Option Int :=
  let (negative, s) := splitSign s
  (ungroup Char.isDigit s).map (signedExponent negative)

def isGrouped (c : Char) : Bool := c.isDigit || c == '_'

def readFloat? (negative : Bool) (whole fraction : List Char) (exponent : Int) : Option Value :=
  let x := (Decimal.ofParts whole fraction exponent).toBinary64 negative
  if x = .infinity false then none else some (.float x)

def readInteger? (negative : Bool) (whole : List Char) : Option Value :=
  let n := digitsValue whole
  let z : Int := if negative then -n else n
  if (toInt64? z).isSome then some (.integer z) else none

def readRest? (negative : Bool) (whole fraction : List Char) : List Char → Option Value
  | [] => readFloat? negative whole fraction 0
  | e :: s =>
    if e = 'e' ∨ e = 'E' then (readExponent? s).bind (readFloat? negative whole fraction) else none

def readNumber? (negative : Bool) (s : List Char) : Option Value :=
  match readWhole? (s.takeWhile isGrouped), s.dropWhile isGrouped with
  | none, _ => none
  | some whole, [] => readInteger? negative whole
  | some whole, '.' :: s =>
    (ungroup Char.isDigit (s.takeWhile isGrouped)).bind fun fraction =>
      readRest? negative whole fraction (s.dropWhile isGrouped)
  | some whole, s => readRest? negative whole [] s

def readScalar? : List Char → Option Value
  | ['t', 'r', 'u', 'e'] => some (.boolean true)
  | ['f', 'a', 'l', 's', 'e'] => some (.boolean false)
  | '0' :: 'x' :: s => readBase? 16 s
  | '0' :: 'o' :: s => readBase? 8 s
  | '0' :: 'b' :: s => readBase? 2 s
  | s =>
    let (negative, s) := splitSign s
    if s = ['i', 'n', 'f'] then some (.float (.infinity negative))
    else if s = ['n', 'a', 'n'] then some (.float .nan)
    else readNumber? negative s

end RetryDelay.Document.Toml
