import Mathlib.Algebra.Order.Field.Rat
import Mathlib.Data.Nat.Cast.Order.Field
import Mathlib.Tactic.FieldSimp
import RetryDelay.Binary64.Decimal
import RetryDelay.Proofs.Rounding

set_option autoImplicit false

namespace RetryDelay

namespace Text

theorem digitsValue_append (ds es : List Char) :
    digitsValue (ds ++ es) = 10 ^ es.length * digitsValue ds + digitsValue es := by
  rw [digitsValue, Nat.ofDigitChars_append, Nat.ofDigitChars_eq_ofDigitChars_zero]
  rfl

theorem digitsValue_append_zeros (ds : List Char) (k : Nat) :
    digitsValue (ds ++ List.replicate k '0') = 10 ^ k * digitsValue ds := by
  rw [digitsValue, digitsValue, Nat.ofDigitChars_append, Nat.ofDigitChars_replicate_zero]

end Text

namespace Binary64

theorem nearest_congr {n c m d : Nat} (hc : 0 < c) (hd : 0 < d) (h : n * d = m * c) :
    nearest n c = nearest m d :=
  Nat.le_antisymm (nearest_mono hc hd (Nat.le_of_eq h)) (nearest_mono hd hc (Nat.le_of_eq h.symm))

theorem nearest_eq_zero {num den : Nat} (h : 2 * num < den) : nearest num den = 0 := by
  have hq : num / den = 0 := Nat.div_eq_of_lt (by omega)
  have hr : num % den = num := Nat.mod_eq_of_lt (by omega)
  have hs : spacing 0 = 1 := rfl
  rw [nearest, hq, hs, Nat.mul_one, Nat.mul_one, roundDiv, hq, hr, if_neg]
  omega

theorem nearest_pow (k : Nat) : nearest (2 ^ k) 1 = 2 ^ k := by
  have hs := spacing_pos (2 ^ k)
  have hdvd : spacing (2 ^ k) ∣ 2 ^ k := by
    rw [spacing, Nat.log2_two_pow]
    exact Nat.pow_dvd_pow 2 (Nat.sub_le k 52)
  simp only [nearest, Nat.div_one, Nat.one_mul, roundDiv_of_dvd hs hdvd]
  exact Nat.div_mul_cancel hdvd

theorem limit_le_nearest {n k : Nat} (hk : 1024 ≤ k) (h : 2 ^ k * unit ≤ n) :
    limit ≤ nearest n 1 := by
  calc limit ≤ 2 ^ (k + 1074) := limit_le_pow (by omega)
    _ = nearest (2 ^ (k + 1074)) 1 := (nearest_pow _).symm
    _ ≤ nearest n 1 := nearest_mono Nat.one_pos Nat.one_pos
      (Nat.mul_le_mul_right 1 (by rwa [pow_mul_unit] at h))

end Binary64

open Binary64

namespace Decimal

def toRat (d : Decimal) : ℚ := d.digits * 10 ^ d.exponent

theorem units_pos (d : Decimal) : 0 < d.units.2 := by
  unfold units
  split
  · exact Nat.one_pos
  · exact Nat.pow_pos (by decide)

theorem units_eq (d : Decimal) : (d.units.1 : ℚ) = d.toRat * unit * d.units.2 := by
  obtain ⟨n, e⟩ := d
  cases e with
  | ofNat e =>
    simp only [units, toRat, Int.ofNat_eq_natCast, zpow_natCast]
    push_cast
    ring
  | negSucc e =>
    simp only [units, toRat, zpow_negSucc]
    push_cast
    have hne : (10 : ℚ) ^ (e + 1) ≠ 0 := pow_ne_zero _ (by norm_num)
    rw [mul_right_comm, inv_mul_cancel_right₀ hne]

theorem nearest_units_congr {a b : Decimal} (h : a.toRat = b.toRat) :
    nearest a.units.1 a.units.2 = nearest b.units.1 b.units.2 := by
  refine nearest_congr a.units_pos b.units_pos ?_
  have hq : (a.units.1 : ℚ) * b.units.2 = b.units.1 * a.units.2 := by
    rw [a.units_eq, b.units_eq, h]
    ring
  exact_mod_cast hq

theorem two_pow_le_ten_pow {a b k e : Nat} (h : 2 ^ a ≤ 10 ^ b) (he : b * k ≤ e) :
    2 ^ (a * k) ≤ 10 ^ e := by
  calc 2 ^ (a * k) = (2 ^ a) ^ k := Nat.pow_mul 2 a k
    _ ≤ (10 ^ b) ^ k := Nat.pow_le_pow_left h k
    _ = 10 ^ (b * k) := (Nat.pow_mul 10 b k).symm
    _ ≤ 10 ^ e := Nat.pow_le_pow_right (by decide) he

theorem two_pow_le_of_large {e : Nat} (he : 310 ≤ e) : 2 ^ (205 * 5) ≤ 10 ^ e :=
  two_pow_le_ten_pow (b := 62) (by norm_num) (by omega)

theorem limit_le_ten_pow {e : Nat} (he : 310 ≤ e) : limit ≤ 10 ^ e * unit := by
  calc limit ≤ 2 ^ (205 * 5 + 1074) := limit_le_pow (by decide)
    _ = 2 ^ (205 * 5) * unit := (pow_mul_unit _).symm
    _ ≤ 10 ^ e * unit := Nat.mul_le_mul_right unit (two_pow_le_of_large he)

theorem nearest_of_isHuge {d : Decimal} (h : d.isHuge = true) :
    limit ≤ nearest d.units.1 d.units.2 := by
  obtain ⟨n, e⟩ := d
  simp only [isHuge, Bool.and_eq_true, decide_eq_true_eq] at h
  obtain ⟨hn, he⟩ := h
  obtain ⟨e, rfl⟩ := Int.eq_ofNat_of_zero_le (a := e) (by omega)
  have hp := two_pow_le_of_large (e := e) (by omega)
  refine limit_le_nearest (by decide) (Nat.mul_le_mul_right unit (Nat.le_trans hp ?_))
  exact Nat.le_mul_of_pos_left _ (Nat.pos_of_ne_zero hn)

theorem nearest_of_isTiny {d : Decimal} (h : d.isTiny = true) :
    nearest d.units.1 d.units.2 = 0 := by
  obtain ⟨n, e⟩ := d
  simp only [isTiny, Bool.or_eq_true, beq_iff_eq, decide_eq_true_eq] at h
  refine nearest_eq_zero ?_
  by_cases hn : n = 0
  · have hzero : (units ⟨n, e⟩).1 = 0 := by
      rw [hn]
      cases e <;> simp [units]
    rw [hzero]
    exact units_pos _
  · have he : e + n.log2 < -400 := h.resolve_left hn
    obtain ⟨k, rfl⟩ := Int.eq_negSucc_of_lt_zero (a := e) (by omega)
    have hlt : n < 2 ^ (n.log2 + 1) := Nat.lt_log2_self
    calc 2 * (n * unit) < 2 * (2 ^ (n.log2 + 1) * unit) :=
          Nat.mul_lt_mul_of_pos_left (Nat.mul_lt_mul_of_pos_right hlt unit_pos) (by decide)
      _ = 2 ^ (n.log2 + 1 + 1074 + 1) := by rw [pow_mul_unit]; exact Nat.pow_succ'.symm
      _ ≤ 2 ^ (3 * (n.log2 + 401)) := Nat.pow_le_pow_right (by decide) (by omega)
      _ ≤ 10 ^ (k + 1) := two_pow_le_ten_pow (b := 1) (by decide) (by omega)

/-- Reading a decimal rounds its value once, whatever its exponent. -/
theorem toBinary64_eq_round (negative : Bool) (d : Decimal) :
    d.toBinary64 negative = round negative d.units.1 d.units.2 := by
  unfold toBinary64
  split
  next hhuge => rw [Binary64.round, dif_neg (Nat.not_lt.2 (nearest_of_isHuge hhuge))]
  next =>
    split
    next htiny =>
      have h0 := nearest_of_isTiny htiny
      simp only [Binary64.round, h0, dif_pos representable_zero.2]
    next => rfl

theorem toBinary64_of_nearest (negative : Bool) {d : Decimal} {n : Nat} (hn : Representable n)
    (h : nearest d.units.1 d.units.2 = n) : d.toBinary64 negative = .finite negative n hn := by
  rw [toBinary64_eq_round]
  simp only [Binary64.round, h, dif_pos hn.2]

end Decimal

end RetryDelay
