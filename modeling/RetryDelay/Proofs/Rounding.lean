import Mathlib.Tactic.Linarith
import Mathlib.Tactic.Ring
import RetryDelay.Binary64.Basic

/-!
What rounding to the nearest double does to a magnitude. No double is nearer to what is rounded. It
keeps the order of fractions, so a bound that is itself a double survives it, and it is off by at
most one part in `2 ^ 53` of all but the least magnitudes.
-/

set_option autoImplicit false

namespace RetryDelay

theorem div_le_div_of_mul_le {n c m d : Nat} (hc : 0 < c) (hd : 0 < d) (h : n * d ≤ m * c) :
    n / c ≤ m / d := by
  rw [Nat.le_div_iff_mul_le hd]
  refine Nat.le_of_mul_le_mul_right (c := c) ?_ hc
  calc n / c * d * c = n / c * c * d := by ring
    _ ≤ n * d := Nat.mul_le_mul_right d (Nat.div_mul_le_self n c)
    _ ≤ m * c := h

theorem roundDiv_mono {tie : Tie} {n c m d : Nat} (hc : 0 < c) (hd : 0 < d)
    (h : n * d ≤ m * c) : roundDiv tie n c ≤ roundDiv tie m d := by
  have hn := Nat.div_add_mod n c
  have hm := Nat.div_add_mod m d
  have hq := div_le_div_of_mul_le hc hd h
  rcases Nat.lt_or_eq_of_le hq with hlt | heq
  · have h₁ := roundDiv_le tie n c
    have h₂ := le_roundDiv tie m d
    omega
  · -- The quotients agree, so the remainders are in the order of the fractions.
    have hr : n % c * d ≤ m % d * c := by
      rw [heq] at hn
      nlinarith
    simp only [roundDiv, heq]
    by_cases hup : c < 2 * (n % c) ∨ 2 * (n % c) = c ∧ (tie = .upper ∨ m / d % 2 = 1)
    · have hup' : d < 2 * (m % d) ∨ 2 * (m % d) = d ∧ (tie = .upper ∨ m / d % 2 = 1) := by
        rcases hup with hup | ⟨hhalf, hodd⟩
        · left; nlinarith
        · have hge : d ≤ 2 * (m % d) := by nlinarith
          rcases Nat.lt_or_eq_of_le hge with hlt | heq
          · exact .inl hlt
          · exact .inr ⟨heq.symm, hodd⟩
      rw [if_pos hup, if_pos hup']
    · rw [if_neg hup]; split <;> omega

theorem roundDiv_error (tie : Tie) (n : Nat) {d : Nat} (hd : 0 < d) :
    2 * (roundDiv tie n d * d) ≤ 2 * n + d ∧ 2 * n ≤ 2 * (roundDiv tie n d * d) + d := by
  have hn := Nat.div_add_mod n d
  have he : n / d * d = d * (n / d) := Nat.mul_comm _ _
  have hr := Nat.mod_lt n hd
  simp only [roundDiv]
  split
  next hup =>
    have hge : d ≤ 2 * (n % d) := by
      rcases hup with hup | hup <;> omega
    rw [Nat.add_mul]; omega
  next hdown =>
    have hle : 2 * (n % d) ≤ d := Nat.le_of_not_lt fun h => hdown (.inl h)
    omega

theorem roundDiv_closest (tie : Tie) (n : Nat) {d : Nat} (hd : 0 < d) (k : Nat) :
    ((roundDiv tie n d * d : Nat) - n : ℤ).natAbs ≤ ((k * d : Nat) - n : ℤ).natAbs := by
  have he := roundDiv_error tie n hd
  rcases Nat.lt_trichotomy k (roundDiv tie n d) with hlt | rfl | hgt
  · have hstep := Nat.mul_le_mul_right d hlt
    rw [Nat.succ_mul] at hstep
    omega
  · exact Nat.le_refl _
  · have hstep := Nat.mul_le_mul_right d hgt
    rw [Nat.succ_mul] at hstep
    omega

namespace Binary64

theorem pow_mul_unit (k : Nat) : 2 ^ k * unit = 2 ^ (k + 1074) := by rw [unit, Nat.pow_add]

theorem spacing_pos (n : Nat) : 0 < spacing n := Nat.two_pow_pos _

theorem lt_mul_spacing (n : Nat) : n < 2 ^ 53 * spacing n := by
  rw [spacing, ← Nat.pow_add]
  exact Nat.lt_of_lt_of_le Nat.lt_log2_self (Nat.pow_le_pow_right (by decide) (by omega))

theorem spacing_eq_one_or_le (n : Nat) : spacing n = 1 ∨ 2 ^ 52 * spacing n ≤ n := by
  by_cases h : n.log2 ≤ 52
  · left; simp [spacing, Nat.sub_eq_zero_of_le h]
  · right
    have h0 : n ≠ 0 := by rintro rfl; simp at h
    rw [spacing, ← Nat.pow_add, show 52 + (n.log2 - 52) = n.log2 by omega]
    exact Nat.log2_self_le h0

theorem log2_le_log2 {n m : Nat} (h : n ≤ m) : n.log2 ≤ m.log2 := by
  by_cases hn : n = 0
  · simp [hn]
  · rw [Nat.le_log2 (by omega)]
    exact Nat.le_trans (Nat.log2_self_le hn) h

theorem spacing_mono {n m : Nat} (h : n ≤ m) :
    spacing n = spacing m ∨ 2 * spacing n ≤ spacing m := by
  have hl := log2_le_log2 h
  rcases Nat.lt_or_ge (n.log2 - 52) (m.log2 - 52) with hlt | hge
  · right
    rw [spacing, spacing, ← Nat.pow_succ']
    exact Nat.pow_le_pow_right (by decide) hlt
  · left
    rw [spacing, spacing, show n.log2 - 52 = m.log2 - 52 by omega]

theorem spacing_dvd_spacing {n m : Nat} (h : n ≤ m) : spacing n ∣ spacing m :=
  Nat.pow_dvd_pow 2 (Nat.sub_le_sub_right (log2_le_log2 h) 52)

theorem div_mul_spacing_lt (num den : Nat) : num / (den * spacing (num / den)) < 2 ^ 53 := by
  rw [← Nat.div_div_eq_div_mul]
  exact Nat.div_lt_of_lt_mul (by rw [Nat.mul_comm]; exact lt_mul_spacing _)

theorem nearest_le_mul_spacing (num den : Nat) :
    nearest num den ≤ 2 ^ 53 * spacing (num / den) := by
  have hq := div_mul_spacing_lt num den
  have hr := roundDiv_le .even num (den * spacing (num / den))
  exact Nat.mul_le_mul_right _ (by omega)

theorem mul_spacing_le_nearest {num den : Nat} (h : spacing (num / den) ≠ 1) :
    2 ^ 52 * spacing (num / den) ≤ nearest num den := by
  have hs := (spacing_eq_one_or_le (num / den)).resolve_left h
  refine Nat.mul_le_mul_right _ (Nat.le_trans ?_ (le_roundDiv .even _ _))
  rwa [← Nat.div_div_eq_div_mul, Nat.le_div_iff_mul_le (spacing_pos _)]

theorem nearest_mono {n c m d : Nat} (hc : 0 < c) (hd : 0 < d) (h : n * d ≤ m * c) :
    nearest n c ≤ nearest m d := by
  have hq := div_le_div_of_mul_le hc hd h
  rcases spacing_mono hq with hs | hs
  · rw [nearest, nearest, hs]
    have hp := spacing_pos (m / d)
    refine Nat.mul_le_mul_right _ (roundDiv_mono (Nat.mul_pos hc hp) (Nat.mul_pos hd hp) ?_)
    calc n * (d * spacing (m / d)) = n * d * spacing (m / d) := by ring
      _ ≤ m * c * spacing (m / d) := Nat.mul_le_mul_right _ h
      _ = m * (c * spacing (m / d)) := by ring
  · have hp := spacing_pos (n / c)
    have hn := nearest_le_mul_spacing n c
    have hm : 2 ^ 52 * spacing (m / d) ≤ nearest m d := mul_spacing_le_nearest (by omega)
    omega

theorem nearest_le_of_representable {num den n : Nat} (hd : 0 < den) (hr : Representable n)
    (h : num ≤ n * den) : nearest num den ≤ n := by
  rw [← nearest_one_of_representable hr]
  exact nearest_mono hd Nat.one_pos (by omega)

theorem le_nearest_of_representable {num den n : Nat} (hd : 0 < den) (hr : Representable n)
    (h : n * den ≤ num) : n ≤ nearest num den := by
  rw [← nearest_one_of_representable hr]
  exact nearest_mono Nat.one_pos hd (by omega)

theorem nearest_mul_den (num den : Nat) : nearest num den * den
    = roundDiv .even num (den * spacing (num / den)) * (den * spacing (num / den)) := by
  rw [nearest]; ring

theorem nearest_half_step (num : Nat) {den : Nat} (hd : 0 < den) :
    2 * (nearest num den * den) ≤ 2 * num + den * spacing (num / den) ∧
      2 * num ≤ 2 * (nearest num den * den) + den * spacing (num / den) := by
  rw [nearest_mul_den]
  exact roundDiv_error .even num (Nat.mul_pos hd (spacing_pos (num / den)))

/-- A magnitude is a multiple of the steps around a number, or is below all magnitudes with such
steps while the number is not. -/
theorem spacing_dvd_or_lt {m : Nat} (hm : Representable m) (q : Nat) :
    spacing q ∣ m ∨ m < 2 ^ 52 * spacing q ∧ 2 ^ 52 * spacing q ≤ q := by
  rcases spacing_eq_one_or_le q with hone | hle
  · exact .inl (hone ▸ one_dvd m)
  rcases Nat.lt_or_ge m (2 ^ 52 * spacing q) with hlt | hge
  · exact .inr ⟨hlt, hle⟩
  · left
    have h0 : m ≠ 0 := by
      have := spacing_pos q
      omega
    rw [spacing, ← Nat.pow_add] at hge
    have hlog := (Nat.le_log2 h0).2 hge
    have hs : spacing q ∣ spacing m := Nat.pow_dvd_pow 2 (by omega)
    exact hs.trans (Nat.dvd_of_mod_eq_zero hm.1)

/-- The law of rounding: no magnitude is nearer to a fraction than the one it is rounded to. -/
theorem nearest_closest (num : Nat) {den m : Nat} (hd : 0 < den) (hm : Representable m) :
    ((nearest num den * den : Nat) - num : ℤ).natAbs ≤ ((m * den : Nat) - num : ℤ).natAbs := by
  have hstep : 0 < den * spacing (num / den) := Nat.mul_pos hd (spacing_pos _)
  rw [nearest_mul_den]
  rcases spacing_dvd_or_lt hm (num / den) with ⟨k, rfl⟩ | ⟨hlt, hle⟩
  · have hmultiple : spacing (num / den) * k * den = k * (den * spacing (num / den)) := by ring
    rw [hmultiple]
    exact roundDiv_closest .even num hstep k
  · -- The least magnitude with these steps is a multiple of them and lies between the two.
    have hbelow : m * den ≤ 2 ^ 52 * (den * spacing (num / den)) := by
      calc m * den ≤ 2 ^ 52 * spacing (num / den) * den := Nat.mul_le_mul_right den hlt.le
        _ = 2 ^ 52 * (den * spacing (num / den)) := by ring
    have habove : 2 ^ 52 * (den * spacing (num / den)) ≤ num := by
      calc 2 ^ 52 * (den * spacing (num / den)) = 2 ^ 52 * spacing (num / den) * den := by ring
        _ ≤ num / den * den := Nat.mul_le_mul_right den hle
        _ ≤ num := Nat.div_mul_le_self num den
    have hclose := roundDiv_closest .even num hstep (2 ^ 52)
    omega

theorem nearest_error {num den : Nat} (hd : 0 < den) (h : 2 ^ 52 * den ≤ num) :
    2 ^ 53 * (nearest num den * den) ≤ (2 ^ 53 + 1) * num ∧
      (2 ^ 53 - 1) * num ≤ 2 ^ 53 * (nearest num den * den) := by
  have he := nearest_half_step num hd
  have hs : 2 ^ 52 * (den * spacing (num / den)) ≤ num := by
    rcases spacing_eq_one_or_le (num / den) with hs | hs
    · rw [hs, Nat.mul_one]; exact h
    · calc 2 ^ 52 * (den * spacing (num / den)) = 2 ^ 52 * spacing (num / den) * den := by ring
        _ ≤ num / den * den := Nat.mul_le_mul_right den hs
        _ ≤ num := Nat.div_mul_le_self num den
  omega

end Binary64

end RetryDelay
