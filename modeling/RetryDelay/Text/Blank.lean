set_option autoImplicit false

namespace RetryDelay.Text

/-- Whether a character has the property `White_Space`. -/
def isBlank (c : Char) : Bool :=
  let n := c.toNat
  decide (9 ≤ n ∧ n ≤ 13) || n == 0x20 || n == 0x85 || n == 0xa0 || n == 0x1680
    || decide (0x2000 ≤ n ∧ n ≤ 0x200a) || n == 0x2028 || n == 0x2029 || n == 0x202f
    || n == 0x205f || n == 0x3000

theorem isBlank_eq_false_of_isDigit {c : Char} (h : c.isDigit = true) : isBlank c = false := by
  simp only [Char.isDigit, Bool.and_eq_true, decide_eq_true_eq, ge_iff_le, UInt32.le_iff_toNat_le]
    at h
  have h1 : 48 ≤ c.toNat := h.1
  have h2 : c.toNat ≤ 57 := h.2
  simp only [isBlank, Bool.or_eq_false_iff, decide_eq_false_iff_not, beq_eq_false_iff_ne]
  omega

def trimRight (s : List Char) : List Char := (s.reverse.dropWhile isBlank).reverse

def trim (s : List Char) : List Char := trimRight (s.dropWhile isBlank)

theorem dropWhile_append_of_all {s t : List Char} (h : ∀ c ∈ s, isBlank c = true) :
    (s ++ t).dropWhile isBlank = t.dropWhile isBlank := by
  induction s with
  | nil => rfl
  | cons c s ih => simp_all

theorem trim_append {l s r : List Char} (hl : ∀ c ∈ l, isBlank c = true)
    (hr : ∀ c ∈ r, isBlank c = true) (hhead : ∀ c ∈ s.head?, isBlank c = false)
    (hlast : ∀ c ∈ s.getLast?, isBlank c = false) : trim (l ++ s ++ r) = s := by
  have keep : ∀ u : List Char, (∀ c ∈ u.head?, isBlank c = false) → u.dropWhile isBlank = u := by
    intro u hu
    cases u <;> simp_all
  simp only [trim, trimRight, List.append_assoc]
  rw [dropWhile_append_of_all hl]
  cases s with
  | nil =>
    have h : r.dropWhile isBlank = [] := by
      rw [← List.append_nil r, dropWhile_append_of_all hr]; rfl
    rw [List.nil_append, h]; rfl
  | cons c s =>
    rw [keep (c :: s ++ r) (by simpa using hhead), List.reverse_append,
      dropWhile_append_of_all (by simpa using hr), keep _ (by rw [List.head?_reverse]; exact hlast),
      List.reverse_reverse]

end RetryDelay.Text
