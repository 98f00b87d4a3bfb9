import Mathlib.Algebra.Order.Floor.Semifield
import Mathlib.Data.Rat.Floor
import RetryDelay.Proofs.Doubling

set_option autoImplicit false

namespace RetryDelay

open Binary64

/-- Whether a duration holds a number of nanoseconds without loss. -/
structure Duration.Holds (n : Nat) : Prop where
  le_maxNanos : n ≤ maxNanos
  seconds : (ofNanos n).seconds.toNat = n / 1000000000
  nanos : (ofNanos n).nanos.toNat = n % 1000000000
  toNanos : (ofNanos n).toNanos = n

theorem Duration.holds_of_le {n : Nat} (h : n ≤ maxNanos) : Holds n :=
  have hparts := parts_ofNanos h
  ⟨h, hparts.1, hparts.2, toNanos_ofNanos h⟩

namespace Binary64
variable {n t : Nat}

theorem toRat_of_nonneg {negative : Bool} (h : Representable n) (hneg : negative = true → n = 0) :
    (finite negative n h).toRat = (n : ℚ) / unit := by
  cases negative with
  | false => rfl
  | true =>
    obtain rfl := hneg rfl
    rfl

theorem abs_div_unit_sub (n t : Nat) :
    |(n : ℚ) / unit - t| = (((n : ℤ) - (t * unit : Nat)).natAbs : ℚ) / unit := by
  have hu := unit_pos_rat
  have hsub : (n : ℚ) / unit - t = (n - t * unit) / unit := by
    rw [sub_div, mul_div_cancel_right₀ _ hu.ne']
  rw [hsub, abs_div, abs_of_pos hu, Nat.cast_natAbs]
  push_cast
  rfl

theorem toRat_ofNat_closest (ht : t ≤ Duration.maxNanos) {x : Binary64}
    (hx : ∃ negative n h, x = .finite negative n h) :
    |(ofNat t).toRat - t| ≤ |x.toRat - t| := by
  have hu := unit_pos_rat
  have hclose {m : Nat} (hm : Representable m) :
      |(nearest (t * unit) 1 : ℚ) / unit - t| ≤ |(m : ℚ) / unit - t| := by
    have h := nearest_closest (t * unit) Nat.one_pos hm
    rw [Nat.mul_one, Nat.mul_one] at h
    rw [abs_div_unit_sub, abs_div_unit_sub]
    exact div_le_div_of_nonneg_right (Nat.cast_le.2 h) hu.le
  obtain ⟨negative, m, hm, rfl⟩ := hx
  rw [ofNat_eq ht, toRat_of_nonneg _ (by simp)]
  cases negative with
  | false => exact hclose hm
  | true =>
    -- A number below zero is farther away than zero.
    have hzero := hclose representable_zero
    have ht0 : (0 : ℚ) ≤ t := Nat.cast_nonneg t
    have hm0 : (0 : ℚ) ≤ (m : ℚ) / unit := div_nonneg (Nat.cast_nonneg m) hu.le
    have hneg : (finite true m hm).toRat = -((m : ℚ) / unit) := by
      rw [toRat, signed, if_pos rfl, Int.cast_neg, Int.cast_natCast, neg_div]
    rw [Nat.cast_zero, zero_div, zero_sub, abs_neg, abs_of_nonneg ht0] at hzero
    refine hzero.trans ?_
    rw [hneg, ← neg_add', abs_neg, abs_of_nonneg (add_nonneg hm0 ht0)]
    exact le_add_of_nonneg_left hm0

end Binary64

namespace Schedule

theorem nominal_of_not_isAbove {s : Schedule} {attempt : UInt32} (h0 : word s.base ≠ 0)
    (h : s.isAbove attempt.toNat = false) :
    s.nominal attempt = .ofNanos (s.doubled attempt.toNat).toNat := by
  rw [nominal, if_neg h0, h, if_neg Bool.false_ne_true]

/-- No cast on the way to a delay loses anything. The two numbers that are made into durations, the
doubled base and what chance leaves of the nominal delay, are held without loss, and every duration
comes back from its nanoseconds. What chance takes off is finite, not below zero, and no more than
the double nearest to the nominal delay, and the whole nanoseconds of it are its floor. -/
theorem casts_exact (s : Schedule) (attempt : UInt32) (x : UInt64) :
    let t := (s.nominal attempt).toNanos
    let reduction := s.reduction t (uniform x)
    (word s.base ≠ 0 → s.isAbove attempt.toNat = false →
      s.nominal attempt = .ofNanos (s.doubled attempt.toNat).toNat ∧
        Duration.Holds (s.doubled attempt.toNat).toNat) ∧
    s.shortened (s.nominal attempt) (uniform x)
      = min (.ofNanos (t - reduction.truncate)) s.max ∧
    Duration.Holds (t - reduction.truncate) ∧
    (∀ d : Duration, .ofNanos d.toNanos = d) ∧
    (∃ negative n h, reduction = .finite negative n h ∧ (negative = true → n = 0)) ∧
    (0 ≤ reduction.toRat ∧ reduction.toRat ≤ (Binary64.ofNat t).toRat) ∧
    (∃ n h, Binary64.ofNat t = .finite false n h) ∧
    (∀ y : Binary64, (∃ negative n h, y = .finite negative n h) →
      |(Binary64.ofNat t).toRat - t| ≤ |y.toRat - t|) ∧
    -- Far below `2 ^ 128`, where the cast would saturate.
    (Binary64.ofNat t).toRat < 2 ^ 94 ∧
    reduction.truncate = ⌊reduction.toRat⌋₊ ∧ reduction.truncate < 2 ^ 94 := by
  intro t reduction
  have ht : t ≤ Duration.maxNanos := (s.nominal attempt).toNanos_le
  have hu := unit_pos_rat
  obtain ⟨-, -, -, hj, -⟩ := finite_of_isFraction s.jitter_isFraction
  obtain ⟨negative, h, he, hneg⟩ := s.reduction_uniform ht x
  have htruncate := s.truncate_reduction ht (one_sub_uniform x) (complement_le x)
  have hle := shortening_le ht hj (complement_le x)
  have hlt := shortening_div_unit_lt_pow ht hj (complement_le x)
  generalize shortening t s.jitter.units (complement x) = n at h he hneg htruncate hle hlt
  have hvalue : reduction.toRat = (n : ℚ) / unit :=
    (congrArg toRat he).trans (toRat_of_nonneg h hneg)
  have hnearest : (Binary64.ofNat t).toRat = (nearest (t * unit) 1 : ℚ) / unit := by
    rw [ofNat_eq ht, toRat_of_nonneg _ (by simp)]
  refine ⟨fun h0 h => ?_, rfl, Duration.holds_of_le (Nat.le_trans (Nat.sub_le _ _) ht),
    Duration.ofNanos_toNanos, ⟨negative, n, h, he, hneg⟩, ⟨?_, ?_⟩,
    ⟨_, _, ofNat_eq ht⟩, fun y hy => toRat_ofNat_closest ht hy, ?_, ?_, ?_⟩
  · exact ⟨nominal_of_not_isAbove h0 h, Duration.holds_of_le (doubled_exact h0 h).2.2⟩
  · rw [hvalue]
    exact div_nonneg (Nat.cast_nonneg n) hu.le
  · rw [hvalue, hnearest]
    exact div_le_div_of_nonneg_right (Nat.cast_le.2 hle) hu.le
  · rw [hnearest, div_lt_iff₀ hu]
    exact_mod_cast nearest_ofNat_lt ht
  · rw [hvalue, Nat.floor_div_eq_div]
    exact htruncate
  · exact htruncate.trans_lt hlt

-- The longest duration is rounded upwards, so chance can take more off it than there is.
example :
    let s : Schedule := {
      base := .ofNanos Duration.maxNanos
      max := .ofNanos Duration.maxNanos
      jitter := .one
      base_le_max := by decide +kernel
      jitter_isFraction := Policy.one_isFraction }
    (s.reduction Duration.maxNanos (uniform 0)).truncate = Duration.maxNanos + 1 ∧
      s.shortened s.max (uniform 0) = .zero := by
  decide +kernel

end Schedule

end RetryDelay
