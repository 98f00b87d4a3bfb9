import Mathlib.Data.List.Induction
import RetryDelay.Text.Number
import RetryDelay.Proofs.Numeral

set_option autoImplicit false

namespace RetryDelay

namespace Text

theorem digitsValue_singleton (c : Char) : digitsValue [c] = c.toNat - 48 := by
  simp [digitsValue, Nat.ofDigitChars]

theorem digitsValue_lt {ds : List Char} (h : ∀ c ∈ ds, c.isDigit = true) :
    digitsValue ds < 10 ^ ds.length := by
  induction ds with
  | nil => exact Nat.one_pos
  | cons c cs ih =>
    obtain ⟨hc, hcs⟩ := List.forall_mem_cons.1 h
    have hlt := ih hcs
    have hle : digitsValue [c] ≤ 9 := by
      simp only [Char.isDigit, Bool.and_eq_true, decide_eq_true_eq, ge_iff_le,
        UInt32.le_iff_toNat_le] at hc
      have : c.toNat ≤ 57 := hc.2
      rw [digitsValue_singleton]
      omega
    have hcons : digitsValue (c :: cs) = 10 ^ cs.length * digitsValue [c] + digitsValue cs :=
      digitsValue_append [c] cs
    have hmul := Nat.mul_le_mul_left (10 ^ cs.length) hle
    rw [hcons, List.length_cons, Nat.pow_succ]
    omega

theorem digitsValue_concat (ds : List Char) (d : Char) :
    digitsValue (ds ++ [d]) = 10 * digitsValue ds + (d.toNat - 48) := by
  rw [digitsValue_append, digitsValue_singleton]
  rfl

theorem exponentSize_concat (ds : List Char) (d : Char) :
    exponentSize (ds ++ [d]) = if exponentSize ds < 65536
      then 10 * exponentSize ds + (d.toNat - 48) else exponentSize ds := by
  rw [exponentSize, List.foldl_append]
  rfl

theorem exponentSize_eq {ds : List Char} (h : digitsValue ds < 65536) :
    exponentSize ds = digitsValue ds := by
  induction ds using List.reverseRecOn with
  | nil => rfl
  | append_singleton ds d ih =>
    rw [digitsValue_concat] at h ⊢
    rw [exponentSize_concat, ih (by omega), if_pos (by omega)]

theorem le_exponentSize {ds : List Char} (h : 65536 ≤ digitsValue ds) :
    65536 ≤ exponentSize ds := by
  induction ds using List.reverseRecOn with
  | nil => exact absurd h (by decide)
  | append_singleton ds d ih =>
    rw [exponentSize_concat]
    by_cases hlt : digitsValue ds < 65536
    · rw [digitsValue_concat] at h
      rw [exponentSize_eq hlt, if_pos hlt]
      exact h
    · have hle := ih (Nat.not_lt.1 hlt)
      rw [if_neg (Nat.not_lt.2 hle)]
      exact hle

end Text

open Text

def Power.counted (p : Power) : Int := signedExponent (decide (p.sign = ['-'])) p.digits

theorem Power.counted_eq_value {p : Power} (h : digitsValue p.digits < 65536) :
    p.counted = p.value := by
  rw [counted, signedExponent, exponentSize_eq h, value]
  simp only [decide_eq_true_eq]

namespace Binary64

theorem log2_digitsValue_lt {ds : List Char} (h : ∀ c ∈ ds, c.isDigit = true) (hne : ds ≠ []) :
    (digitsValue ds).log2 < 4 * ds.length := by
  by_cases h0 : digitsValue ds = 0
  · rw [h0]
    have := List.length_pos_iff.2 hne
    simp
    omega
  · refine (Nat.log2_lt h0).2 (Nat.lt_of_lt_of_le (digitsValue_lt h) ?_)
    rw [Nat.pow_mul]
    exact Nat.pow_le_pow_left (by decide) _

theorem point_shortest (tie : Tie) {units : Nat} (h : Representable units) :
    -4000 < (shortest tie units).point ∧ (shortest tie units).point < 2000 := by
  by_cases h0 : units = 0
  · rw [h0, shortest_zero]
    decide
  · have hnearest := nearest_shortest tie h
    have hproper := proper_shortest tie units
    have hlength : (shortest tie units).figures.length ≤ 768 := length_shortest tie h
    generalize shortest tie units = d at *
    have hhuge : ¬d.decimal.isHuge = true := fun hd => by
      have := Decimal.nearest_of_isHuge hd
      have := h.2
      omega
    have htiny : ¬d.decimal.isTiny = true := fun hd => by
      have := Decimal.nearest_of_isTiny hd
      omega
    have hlog := log2_digitsValue_lt hproper.isDigit hproper.ne_nil
    simp only [Decimal.isTiny, Bool.or_eq_true, beq_iff_eq, decide_eq_true_eq, not_or] at htiny
    simp only [Decimal.isHuge, Bool.and_eq_true, decide_eq_true_eq, not_and] at hhuge
    have hexp := hhuge htiny.1
    simp only [Digits.decimal] at htiny hexp
    omega

theorem Layout.digitsValue_power_lt (l : Layout) {units : Nat} (h : Representable units) :
    ∀ p ∈ (l.numeral (shortest l.tie units)).power, digitsValue p.digits < 65536 := by
  intro p hp
  have hpoint := point_shortest l.tie h
  unfold numeral at hp
  split at hp
  · rw [Digits.power_full] at hp
    cases hp
  · cases hp
    rw [digitsValue_digits]
    omega

end Binary64

end RetryDelay
