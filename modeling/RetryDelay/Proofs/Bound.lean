import RetryDelay.Proofs.Decimal

set_option autoImplicit false

namespace RetryDelay

namespace Binary64

/-- The least count of units that is too large for a double: it lies halfway between the largest
finite value and the first count beyond. -/
def overflow : Nat := limit - limit / 2 ^ (54 : Nat)

theorem limit_eq_pow {k : Nat} (h : k = 2098) : limit = 2 ^ k := by rw [h, limit]

theorem overflow_eq_mul_pow {k : Nat} (h : k = 2044) :
    limit = 2 ^ 54 * 2 ^ k ∧ overflow = (2 ^ 54 - 1) * 2 ^ k := by
  have hlimit : limit = 2 ^ 54 * 2 ^ k := by
    rw [← Nat.pow_add, limit_eq_pow (k := 54 + k) (by omega)]
  refine ⟨hlimit, ?_⟩
  rw [overflow, hlimit, Nat.mul_div_cancel_left _ (by decide)]
  omega

theorem nearest_overflow : nearest overflow 1 = limit := by
  obtain ⟨e, he⟩ : ∃ e, e = 2044 := ⟨_, rfl⟩
  obtain ⟨hlimit, hoverflow⟩ := overflow_eq_mul_pow he
  have hpos : 0 < 2 ^ e := Nat.two_pow_pos e
  have hlog : overflow.log2 = e + 53 := by
    rw [Nat.log2_eq_iff (by omega), hoverflow, Nat.pow_add, Nat.pow_add, Nat.pow_add]
    omega
  have hspacing : spacing overflow = 2 * 2 ^ e := by
    rw [spacing, hlog, show e + 53 - 52 = e + 1 by omega, Nat.pow_succ']
  have hsplit : overflow = 2 ^ e + 2 * 2 ^ e * (2 ^ 53 - 1) := by omega
  have hdiv : overflow / (2 * 2 ^ e) = 2 ^ 53 - 1 := by
    rw [hsplit, Nat.add_mul_div_left _ _ (by omega), Nat.div_eq_of_lt (by omega)]
    omega
  have hmod : overflow % (2 * 2 ^ e) = 2 ^ e := by
    rw [hsplit, Nat.add_mul_mod_self_left, Nat.mod_eq_of_lt (by omega)]
  have hstep : nearest overflow 1 = roundDiv .even overflow (2 * 2 ^ e) * (2 * 2 ^ e) := by
    simp only [nearest, Nat.div_one, Nat.one_mul, hspacing]
  rw [hstep, roundDiv, hdiv, hmod, if_pos (.inr ⟨rfl, .inr (by decide)⟩), hlimit]
  omega

theorem log2_le_of_lt_overflow {n e : Nat} (he : e = 2044) (h : n < overflow) :
    n.log2 ≤ e + 53 := by
  by_cases h0 : n = 0
  · simp [h0]
  · refine Nat.le_of_lt_succ ((Nat.log2_lt h0).2 ?_)
    rw [Nat.pow_succ, Nat.pow_add]
    have := (overflow_eq_mul_pow he).2
    omega

theorem nearest_lt_limit_iff {num den : Nat} (hd : 0 < den) :
    nearest num den < limit ↔ num < overflow * den := by
  constructor
  · intro h
    refine Nat.lt_of_not_le fun hle => Nat.not_le.2 h ?_
    rw [← nearest_overflow]
    exact nearest_mono Nat.one_pos hd (by omega)
  · intro h
    obtain ⟨e, he⟩ : ∃ e, e = 2044 := ⟨_, rfl⟩
    obtain ⟨hlimit, hoverflow⟩ := overflow_eq_mul_pow he
    have hpos : 0 < 2 ^ e := Nat.two_pow_pos e
    have hdiv : num / den < overflow := Nat.div_lt_of_lt_mul (Nat.mul_comm _ den ▸ h)
    rcases Nat.lt_or_eq_of_le (log2_le_of_lt_overflow he hdiv) with hlt | heq
    · have hspacing : spacing (num / den) ≤ 2 ^ e :=
        Nat.pow_le_pow_right Nat.two_pos (by omega)
      have hle := nearest_le_mul_spacing num den
      omega
    · have hspacing : spacing (num / den) = 2 * 2 ^ e := by
        rw [spacing, heq, show e + 53 - 52 = e + 1 by omega, Nat.pow_succ']
      have hstep : 0 < den * (2 * 2 ^ e) := Nat.mul_pos hd (by omega)
      have herror := (roundDiv_error .even num hstep).1
      rw [nearest, hspacing]
      generalize roundDiv .even num (den * (2 * 2 ^ e)) = m at herror ⊢
      have hm : m < 2 ^ 53 := by
        refine Nat.lt_of_mul_lt_mul_right (a := den * (2 * 2 ^ e)) ?_
        have hdouble : den * (2 * 2 ^ e) = 2 * (2 ^ e * den) := by ring
        rw [hoverflow, Nat.mul_assoc] at h
        rw [hdouble] at herror ⊢
        omega
      calc m * (2 * 2 ^ e) < 2 ^ 53 * (2 * 2 ^ e) := Nat.mul_lt_mul_of_pos_right hm (by omega)
        _ = limit := by rw [hlimit]; omega

end Binary64

open Binary64

namespace Decimal

/-- The least number that is too large for a double. -/
def bound : ℚ := 2 ^ 1024 - 2 ^ 970

theorem bound_eq_natCast : ∃ b : Nat, bound = b ∧ overflow = b * unit := by
  obtain ⟨k, hk⟩ : ∃ k, k = 970 := ⟨_, rfl⟩
  refine ⟨(2 ^ 54 - 1) * 2 ^ k, ?_, ?_⟩
  · have hlow : (2 : ℚ) ^ 970 = 2 ^ k := by rw [hk]
    have hhigh : (2 : ℚ) ^ 1024 = 2 ^ 54 * 2 ^ k := by rw [← pow_add, hk]
    rw [bound, hlow, hhigh]
    push_cast
    ring
  · rw [(overflow_eq_mul_pow (k := k + 1074) (by omega)).2, Nat.mul_assoc, pow_mul_unit]

theorem nearest_lt_limit_iff_lt_bound (d : Decimal) :
    nearest d.units.1 d.units.2 < limit ↔ d.toRat < bound := by
  obtain ⟨b, hb, hoverflow⟩ := bound_eq_natCast
  have hden : (0 : ℚ) < unit * d.units.2 := by
    exact_mod_cast Nat.mul_pos unit_pos d.units_pos
  rw [nearest_lt_limit_iff d.units_pos, hoverflow, hb, ← mul_lt_mul_iff_left₀ hden,
    ← mul_assoc, ← d.units_eq, ← mul_assoc, ← @Nat.cast_lt ℚ, Nat.cast_mul, Nat.cast_mul]

theorem bound_le_ten_pow {e : Nat} (he : 310 ≤ e) : bound ≤ 10 ^ e := by
  obtain ⟨b, hb, hoverflow⟩ := bound_eq_natCast
  have hlimit := limit_le_ten_pow he
  have hle : overflow ≤ limit := Nat.sub_le _ _
  have hbe : b ≤ 10 ^ e := Nat.le_of_mul_le_mul_right (by omega) unit_pos
  rw [hb]
  exact_mod_cast hbe

/-- What an exact reader takes for a number of too many digits is in range with it: the bound lies
on the grid of the digits that count. -/
theorem lt_bound_of_cut {d cut : Decimal} {n e : Nat} {k : Int} (he : 310 ≤ e) (hn : 10 ^ e ≤ n)
    (hd : n * 10 ^ k ≤ d.toRat) (hcut : cut.toRat = (n + 1 / 10) * 10 ^ k) (h : d.toRat < bound) :
    cut.toRat < bound := by
  have hlt := lt_of_le_of_lt hd h
  cases k with
  | ofNat j =>
    -- So large a number has too many digits before the point.
    rw [Int.ofNat_eq_natCast, zpow_natCast] at hlt
    have hpow : n * 10 ^ j < 10 ^ e := by exact_mod_cast lt_of_lt_of_le hlt (bound_le_ten_pow he)
    have hpos : 0 < 10 ^ j := Nat.pow_pos (by decide)
    have := Nat.le_mul_of_pos_right n hpos
    omega
  | negSucc j =>
    obtain ⟨b, hb, -⟩ := bound_eq_natCast
    rw [hb] at hlt ⊢
    have hpos : (0 : ℚ) < 10 ^ (j + 1) := by positivity
    rw [zpow_negSucc, mul_inv_lt_iff₀ hpos] at hlt
    have hnb : n + 1 ≤ b * 10 ^ (j + 1) := by exact_mod_cast hlt
    have hnb' : (n + 1 : ℚ) ≤ b * 10 ^ (j + 1) := by exact_mod_cast hnb
    rw [hcut, zpow_negSucc, mul_inv_lt_iff₀ hpos]
    linarith

theorem toBinary64_of_lt_bound (negative : Bool) {d : Decimal} (h : d.toRat < bound) :
    ∃ units hu, d.toBinary64 negative = .finite negative units hu := by
  have hlt := d.nearest_lt_limit_iff_lt_bound.2 h
  exact ⟨_, representable_nearest hlt, toBinary64_of_nearest negative _ rfl⟩

end Decimal

end RetryDelay
