import RetryDelay.Proofs.Delay

/-!
How far a delay is from the exact formula. Chance is to leave `t * (1 - j * (1 - u))` of a nominal
delay of `t` nanoseconds, with jitter `j` and the random part `u` of one. What is left differs from
that by the roundings, which are one part in `2 ^ 51` of the part under jitter, and by the cut to
whole nanoseconds, which only lengthens it.
-/

set_option autoImplicit false

namespace RetryDelay

open Binary64

theorem toNat_shiftRight_twelve (x : UInt64) : (x >>> 12).toNat = x.toNat / 2 ^ 12 := by
  rw [UInt64.toNat_shiftRight, Nat.shiftRight_eq_div_pow]
  rfl

/-- The units between neighbouring random numbers. -/
def grain : Nat := 2 ^ (1022 : Nat)

theorem grain_pos : 0 < grain := by unfold grain; apply Nat.two_pow_pos

theorem unit_eq_mul_pow {k n : Nat} (h : k + n = 1074) : unit = 2 ^ k * 2 ^ n := by
  rw [unit, ← h, Nat.pow_add]

theorem unit_eq_grains : unit = 2 ^ (52 : Nat) * grain := by
  unfold grain; apply unit_eq_mul_pow; rfl

theorem complement_eq_grains (x : UInt64) :
    complement x = (2 ^ (52 : Nat) - x.toNat / 2 ^ (12 : Nat)) * grain := by
  rw [complement, toNat_shiftRight_twelve, grain]

theorem grains_le_unit {k : Nat} (h : k ≤ 2 ^ 52) : k * grain ≤ unit := by
  rw [unit_eq_grains]
  exact Nat.mul_le_mul_right grain h

theorem grains_div_unit (k : Nat) : ((k * grain : Nat) : ℚ) / unit = k / 2 ^ 52 := by
  have hg : (grain : ℚ) ≠ 0 := Nat.cast_ne_zero.2 grain_pos.ne'
  rw [unit_eq_grains, Nat.cast_mul, Nat.cast_mul, mul_div_mul_right _ _ hg]
  norm_num

theorem complement_div_unit (x : UInt64) :
    (complement x / unit : ℚ) = 1 - ((x.toNat / 2 ^ 12 : Nat) : ℚ) / 2 ^ 52 := by
  have hlt := shiftRight_twelve_lt x
  rw [toNat_shiftRight_twelve] at hlt
  rw [complement_eq_grains, grains_div_unit, Nat.cast_sub hlt.le, sub_div]
  norm_num

theorem complement_div_unit_mem (x : UInt64) :
    (0 : ℚ) ≤ complement x / unit ∧ (complement x / unit : ℚ) ≤ 1 := by
  refine ⟨div_nonneg (Nat.cast_nonneg _) unit_pos_rat.le, ?_⟩
  rw [div_le_one unit_pos_rat]
  exact_mod_cast complement_le x

section
variable {t jitter rest : Nat}

/-- Where a whole nanosecond or more is to be taken off, no product is below the normal doubles. -/
theorem normal_of_unit_le_exact (hr : rest ≤ unit) (h : unit * unit ≤ t * jitter * rest) :
    Normal t jitter rest := by
  have hu := unit_pos
  have hbig := pow_lt_unit (show 54 < 1074 by decide)
  have hsq : 2 ^ 54 * unit ≤ unit * unit := Nat.mul_le_mul_right unit hbig.le
  have hlength : 2 ^ 52 * 1 ≤ t * unit := by
    refine pow_le_length ?_
    rintro rfl
    rw [Nat.zero_mul, Nat.zero_mul] at h
    exact absurd (Nat.mul_pos hu hu) (Nat.not_lt.2 h)
  have hx := nearest_le_two_mul Nat.one_pos hlength
  have hproduct : unit * unit ≤ 2 * (nearest (t * unit) 1 * jitter) := by
    have htj : unit ≤ t * jitter := by
      refine Nat.le_of_mul_le_mul_right ?_ hu
      exact Nat.le_trans h (Nat.mul_le_mul_left _ hr)
    calc unit * unit ≤ t * jitter * unit := Nat.mul_le_mul_right unit htj
      _ = t * unit * jitter := by ring
      _ ≤ 2 * (nearest (t * unit) 1 * 1) * jitter := Nat.mul_le_mul_right jitter hx
      _ = 2 * (nearest (t * unit) 1 * jitter) := by ring
  have hy := nearest_le_two_mul hu (show 2 ^ 52 * unit ≤ nearest (t * unit) 1 * jitter by omega)
  have hpart : unit * unit
      ≤ 4 * (nearest (nearest (t * unit) 1 * jitter) unit * rest) := by
    refine Nat.le_of_mul_le_mul_right ?_ hu
    calc unit * unit * unit ≤ t * jitter * rest * unit := Nat.mul_le_mul_right unit h
      _ = t * unit * (jitter * rest) := by ring
      _ ≤ 2 * (nearest (t * unit) 1 * 1) * (jitter * rest) := Nat.mul_le_mul_right _ hx
      _ = 2 * (nearest (t * unit) 1 * jitter) * rest := by ring
      _ ≤ 2 * (2 * (nearest (nearest (t * unit) 1 * jitter) unit * unit)) * rest := by gcongr
      _ = 4 * (nearest (nearest (t * unit) 1 * jitter) unit * rest) * unit := by ring
  exact ⟨hlength, by omega, by omega⟩

theorem exact_le_shortening (hr : rest ≤ unit)
    (h : 1 ≤ (t : ℚ) * (jitter / unit) * (rest / unit)) :
    t * (jitter / unit) * (rest / unit) * (1 - 1 / 2 ^ 51)
      ≤ (shortening t jitter rest : ℚ) / unit := by
  have hu := unit_pos_rat
  have hproduct : (unit * unit : ℚ) ≤ t * jitter * rest := by
    calc (unit * unit : ℚ) = 1 * (unit * unit) := (one_mul _).symm
      _ ≤ t * (jitter / unit) * (rest / unit) * (unit * unit) :=
          mul_le_mul_of_nonneg_right h (mul_pos hu hu).le
      _ = t * jitter * rest := by field_simp
  have hnormal : Normal t jitter rest := normal_of_unit_le_exact hr (by exact_mod_cast hproduct)
  obtain ⟨δ, hδ, he⟩ := hnormal.shortening_eq
  have hle : 1 - 1 / 2 ^ 51 ≤ 1 + δ := by linarith [neg_le_of_abs_le hδ]
  rw [he]
  exact mul_le_mul_of_nonneg_left hle (exact_shortening_nonneg t jitter rest)

theorem sub_one_lt_div (n : Nat) {d : Nat} (hd : 0 < d) : (n : ℚ) / d - 1 < (n / d : Nat) := by
  have hdq : (0 : ℚ) < d := by exact_mod_cast hd
  have hlt : (n : ℚ) < d * ((n / d : Nat) + 1) := by exact_mod_cast Nat.lt_mul_div_succ n hd
  rw [sub_lt_iff_lt_add, div_lt_iff₀ hdq]
  linarith

theorem le_shortening_div_unit (t jitter : Nat) (hr : rest ≤ unit) :
    (t * (jitter / unit) * (rest / unit) * (1 - 1 / 2 ^ 51) - 1 : ℚ)
      ≤ (shortening t jitter rest / unit : Nat) := by
  rcases lt_or_ge ((t : ℚ) * (jitter / unit) * (rest / unit)) 1 with hlt | hge
  · have hexact := exact_shortening_nonneg t jitter rest
    have hless := mul_le_mul_of_nonneg_left (show (1 - 1 / 2 ^ 51 : ℚ) ≤ 1 by norm_num) hexact
    have hcut : (0 : ℚ) ≤ (shortening t jitter rest / unit : Nat) := Nat.cast_nonneg _
    linarith
  · linarith [exact_le_shortening hr hge, sub_one_lt_div (shortening t jitter rest) unit_pos]

end

/-- What is left of `t` when `m` is taken off, where `m` is near the part `j * c` of it. That
nothing is left below zero does not count: no more than all of `t` is to be taken off. -/
theorem sub_near {t m : Nat} {j c : ℚ} (hj0 : 0 ≤ j) (hj1 : j ≤ 1) (hc0 : 0 ≤ c) (hc1 : c ≤ 1)
    (hup : (m : ℚ) ≤ t * j * c * (1 + 1 / 2 ^ 51)) (hlow : t * j * c * (1 - 1 / 2 ^ 51) - 1 ≤ m) :
    ((t - m : Nat) : ℚ) - t * (1 - j * c) ≤ 1 + t * j / 2 ^ 51 ∧
      -(t * j / 2 ^ 51) ≤ ((t - m : Nat) : ℚ) - t * (1 - j * c) := by
  have ht : (0 : ℚ) ≤ t := Nat.cast_nonneg t
  have htj : t * j * c ≤ t * j := mul_le_of_le_one_right (mul_nonneg ht hj0) hc1
  have hle : t * j ≤ t := mul_le_of_le_one_right ht hj1
  have h0 : 0 ≤ t * j * c := mul_nonneg (mul_nonneg ht hj0) hc0
  rcases le_or_gt m t with hm | hm
  · rw [Nat.cast_sub hm]
    constructor <;> linarith
  · have hmq : (t : ℚ) ≤ m := by exact_mod_cast hm.le
    rw [Nat.sub_eq_zero_of_le hm.le, Nat.cast_zero]
    constructor <;> linarith

namespace Backoff

theorem toNanos_delay_near (attempt : UInt32) (b : Backoff) :
    let t : ℚ := b.schedule.target attempt.toNat
    let j := b.schedule.jitter.toRat
    let c : ℚ := complement b.generator.next.1 / unit
    let d : ℚ := (b.delay attempt).value.1.toNanos
    d - t * (1 - j * c) ≤ 1 + t * j / 2 ^ 51 ∧ -(t * j / 2 ^ 51) ≤ d - t * (1 - j * c) := by
  obtain ⟨-, -, -, -, -, hjitter⟩ := finite_of_isFraction b.schedule.jitter_isFraction
  obtain ⟨hj0, hj1⟩ := toRat_mem_of_isFraction b.schedule.jitter_isFraction
  have hrest := complement_le b.generator.next.1
  have hup := shortening_div_unit_le (b.schedule.target attempt.toNat)
    b.schedule.jitter.units hrest
  have hlow := le_shortening_div_unit (b.schedule.target attempt.toNat)
    b.schedule.jitter.units hrest
  obtain ⟨hc0, hc1⟩ := complement_div_unit_mem b.generator.next.1
  intro t j c d
  rw [← hjitter] at hup hlow
  have h := sub_near hj0 hj1 hc0 hc1 hup hlow
  rw [← toNanos_delay] at h
  exact h

theorem le_toNanos_delay (attempt : UInt32) (b : Backoff) :
    (b.schedule.target attempt.toNat : ℚ) * (1 - b.schedule.jitter.toRat)
        - b.schedule.target attempt.toNat * b.schedule.jitter.toRat / 2 ^ 51
      ≤ (b.delay attempt).value.1.toNanos := by
  obtain ⟨-, hlow⟩ := b.toNanos_delay_near attempt
  obtain ⟨hj0, -⟩ := toRat_mem_of_isFraction b.schedule.jitter_isFraction
  obtain ⟨-, hc1⟩ := complement_div_unit_mem b.generator.next.1
  have ht : (0 : ℚ) ≤ b.schedule.target attempt.toNat := Nat.cast_nonneg _
  have hle := mul_le_mul_of_nonneg_left (mul_le_of_le_one_right hj0 hc1) ht
  linarith

/-- The delay differs from the exact formula, with the upper 52 places of the random number as the
part `u` of one, by what the roundings do to the part under jitter, and is longer by the cut to
whole nanoseconds. So it falls below the documented floor by the roundings alone. -/
theorem delay_near_formula (attempt : UInt32) (b : Backoff) :
    let t : ℚ := (min b.schedule.max.toNanos (b.schedule.base.toNanos * 2 ^ attempt.toNat) : Nat)
    let j := b.schedule.jitter.toRat
    let u : ℚ := ((b.generator.next.1.toNat / 2 ^ 12 : Nat) : ℚ) / 2 ^ 52
    let d : ℚ := (b.delay attempt).value.1.toNanos
    d - t * (1 - j * (1 - u)) ≤ 1 + t * j / 2 ^ 51 ∧
      -(t * j / 2 ^ 51) ≤ d - t * (1 - j * (1 - u)) ∧
      t * (1 - j) - t * j / 2 ^ 51 ≤ d ∧
      (t * j < 2 ^ 51 → t * (1 - j) - d < 1) := by
  intro t j u d
  have hnear := b.toNanos_delay_near attempt
  rw [complement_div_unit] at hnear
  have hfloor : t * (1 - j) - t * j / 2 ^ 51 ≤ d := b.le_toNanos_delay attempt
  refine ⟨hnear.1, hnear.2, hfloor, fun hlt => ?_⟩
  have hone : t * j / 2 ^ 51 < 1 := by rwa [div_lt_one (by norm_num)]
  linarith

end Backoff

end RetryDelay
