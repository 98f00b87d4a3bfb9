set_option autoImplicit false

namespace RetryDelay.Text

def digits (n : Nat) : List Char := Nat.toDigits 10 n

/-- The number that a run of decimal digits writes; no digits at all write zero. -/
def digitsValue (ds : List Char) : Nat := Nat.ofDigitChars 10 ds 0

@[simp] theorem digitsValue_digits (n : Nat) : digitsValue (digits n) = n :=
  Nat.ofDigitChars_ten_toDigits

theorem digitsValue_zeros_append (k : Nat) (ds : List Char) :
    digitsValue (List.replicate k '0' ++ ds) = digitsValue ds := by
  simp [digitsValue, Nat.ofDigitChars_append]

theorem digits_ne_nil (n : Nat) : digits n ≠ [] := Nat.toDigits_ne_nil

theorem isDigit_of_mem_digits {n : Nat} {c : Char} (h : c ∈ digits n) : c.isDigit = true :=
  Nat.isDigit_of_mem_toDigits (by decide) (by decide) h

def digitValue? (c : Char) : Option Nat :=
  if c.isDigit then some (c.toNat - 48)
  else if 'a' ≤ c ∧ c ≤ 'f' then some (c.toNat - 87)
  else if 'A' ≤ c ∧ c ≤ 'F' then some (c.toNat - 55)
  else none

def numberInBase? (base : Nat) (ds : List Char) : Option Nat :=
  ds.foldlM (fun n d => match digitValue? d with
    | some v => if v < base then some (base * n + v) else none
    | none => none) 0

def splitDigits (s : List Char) : List Char × List Char :=
  (s.takeWhile Char.isDigit, s.dropWhile Char.isDigit)

theorem splitDigits_append {ds rest : List Char} (hds : ∀ c ∈ ds, c.isDigit = true)
    (hrest : ∀ c ∈ rest.head?, c.isDigit = false) : splitDigits (ds ++ rest) = (ds, rest) := by
  induction ds with
  | nil => cases rest <;> simp_all [splitDigits]
  | cons d ds ih => simp_all [splitDigits]

theorem length_splitDigits (s : List Char) :
    (splitDigits s).1.length + (splitDigits s).2.length = s.length := by
  rw [← List.length_append, splitDigits, List.takeWhile_append_dropWhile]

def padded (width n : Nat) : List Char := (digits n).leftpad width '0'

def dropLastZeros (ds : List Char) : List Char := (ds.reverse.dropWhile (· == '0')).reverse

theorem length_dropLastZeros_le (ds : List Char) : (dropLastZeros ds).length ≤ ds.length := by
  have := (ds.reverse.dropWhile_sublist (· == '0')).length_le
  simpa [dropLastZeros] using this

/-- The point and the places of `n / 10 ^ width`, for `n` below `10 ^ width`; nothing for zero. -/
def fraction (width n : Nat) : List Char :=
  if n = 0 then [] else '.' :: dropLastZeros (padded width n)

end RetryDelay.Text
