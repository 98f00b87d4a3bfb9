import Mathlib.Algebra.Order.Field.Rat
import Mathlib.Data.Nat.Cast.Order.Field
import Mathlib.Tactic.FieldSimp
import Mathlib.Tactic.GCongr
import Mathlib.Tactic.Positivity
import RetryDelay.Backoff
import RetryDelay.Proofs.Nominal
import RetryDelay.Proofs.Rounding

/-!
How far chance shortens a delay. What is taken off is computed in three roundings; none of them
leaves the finite doubles, and all three together add less than one part in `2 ^ 51`. A delay is
therefore never above its nominal length and hardly below what the jitter leaves of it.
-/

set_option autoImplicit false

namespace RetryDelay

namespace Binary64

def units : Binary64 → Nat
  | .finite _ n _ => n
  | _ => 0

/-- The exact value of a finite number. -/
def toRat : Binary64 → ℚ
  | .finite negative n _ => signed negative n / unit
  | _ => 0

theorem unit_pos_rat : (0 : ℚ) < unit := by exact_mod_cast unit_pos

theorem pow_lt_unit {k : Nat} (h : k < 1074) : 2 ^ k < unit := by
  unfold unit; apply Nat.pow_lt_pow_right Nat.one_lt_two h

theorem finite_of_isFraction {x : Binary64} (hx : x.isFraction = true) :
    ∃ negative h, x = .finite negative x.units h ∧ x.units ≤ unit ∧
      (negative = true → x.units = 0) ∧ x.toRat = x.units / unit := by
  obtain ⟨negative, n, h, rfl, hs, hn⟩ := isFraction_iff.1 hx
  cases negative with
  | false => exact ⟨false, h, rfl, hn, by simp, rfl⟩
  | true =>
    have h0 : n = 0 := by
      simp only [signed, if_true] at hs; omega
    subst h0
    exact ⟨true, h, rfl, hn, fun _ => rfl, rfl⟩

theorem toRat_mem_of_isFraction {x : Binary64} (hx : x.isFraction = true) :
    0 ≤ x.toRat ∧ x.toRat ≤ 1 := by
  obtain ⟨-, -, -, hle, -, hr⟩ := finite_of_isFraction hx
  have hu := unit_pos_rat
  have hle' : (x.units : ℚ) ≤ unit := by exact_mod_cast hle
  rw [hr]
  exact ⟨div_nonneg (Nat.cast_nonneg _) hu.le, (div_le_one hu).2 hle'⟩

theorem toRat_eq_zero {x : Binary64} (hx : x.isFraction = true) :
    x.toRat = 0 ↔ x.units = 0 := by
  obtain ⟨-, -, -, -, -, hr⟩ := finite_of_isFraction hx
  rw [hr, div_eq_zero_iff, Nat.cast_eq_zero]
  exact or_iff_left unit_pos_rat.ne'

theorem isZero_iff {x : Binary64} (hx : x.isFraction = true) :
    x.isZero = true ↔ x.toRat = 0 := by
  rw [toRat_eq_zero hx]
  obtain ⟨negative, h, he, -⟩ := finite_of_isFraction hx
  rw [he]; simp [isZero, units]

theorem round_of_lt {negative : Bool} {num den : Nat} (h : nearest num den < limit) :
    round negative num den = .finite negative (nearest num den) (representable_nearest h) :=
  dif_pos h

theorem nearest_zero (den : Nat) : nearest 0 den = 0 := by
  simp [nearest, roundDiv]

theorem nearest_le_pow {num den : Nat} (hd : 0 < den) (h : num < 2 ^ 52 * den) :
    nearest num den ≤ 2 ^ 52 :=
  nearest_le_of_representable hd (representable_pow (by decide)) (Nat.le_of_lt h)

theorem nearest_eq_mul {num den : Nat} (hd : 0 < den) (h : 2 ^ 52 * den ≤ num) :
    ∃ ε : ℚ, |ε| ≤ 1 / 2 ^ 53 ∧ (nearest num den : ℚ) = num / den * (1 + ε) := by
  obtain ⟨hup, hlow⟩ := nearest_error hd h
  have hnum : 0 < num := Nat.lt_of_lt_of_le (Nat.mul_pos (Nat.two_pow_pos 52) hd) h
  have hdq : (0 : ℚ) < den := by exact_mod_cast hd
  have hnq : (0 : ℚ) < num := by exact_mod_cast hnum
  have hup' : (2 ^ 53 : ℚ) * (nearest num den * den) ≤ (2 ^ 53 + 1) * num := by
    exact_mod_cast hup
  have hlow' : ((2 ^ 53 - 1 : Nat) : ℚ) * num ≤ 2 ^ 53 * (nearest num den * den) := by
    exact_mod_cast hlow
  refine ⟨nearest num den * den / num - 1, ?_, by field_simp; ring⟩
  rw [abs_le, le_sub_iff_add_le, sub_le_iff_le_add, le_div_iff₀ hnq, div_le_iff₀ hnq]
  norm_num at hup' hlow' ⊢
  constructor <;> linarith

theorem nearest_le_two_mul {num den : Nat} (hd : 0 < den) (h : 2 ^ 52 * den ≤ num) :
    num ≤ 2 * (nearest num den * den) := by
  have hlow := (nearest_error hd h).2
  omega

end Binary64

open Binary64

/-- The units taken off `t` nanoseconds, with `jitter` units of jitter and `rest` units of what a
random number leaves of one: three magnitudes, each rounded. -/
def shortening (t jitter rest : Nat) : Nat :=
  nearest (nearest (nearest (t * unit) 1 * jitter) unit * rest) unit

theorem abs_mul_sub_one_le {α β a b : ℚ} (hα : |α| ≤ a) (hβ : |β| ≤ b) :
    |(1 + α) * (1 + β) - 1| ≤ a + b + a * b := by
  have ha : 0 ≤ a := (abs_nonneg α).trans hα
  calc |(1 + α) * (1 + β) - 1| = |α + β + α * β| := by ring_nf
    _ ≤ |α| + |β| + |α * β| := abs_add_three α β (α * β)
    _ = |α| + |β| + |α| * |β| := by rw [abs_mul]
    _ ≤ a + b + a * b := by gcongr

theorem abs_three_factors_sub_one_le {α β γ : ℚ} (hα : |α| ≤ 1 / 2 ^ 53) (hβ : |β| ≤ 1 / 2 ^ 53)
    (hγ : |γ| ≤ 1 / 2 ^ 53) : |(1 + α) * (1 + β) * (1 + γ) - 1| ≤ 1 / 2 ^ 51 := by
  have h := abs_mul_sub_one_le (abs_mul_sub_one_le hα hβ) hγ
  rw [add_sub_cancel] at h
  exact h.trans (by norm_num)

section
variable {t jitter rest : Nat}

theorem nearest_mul_le {n k : Nat} (hn : Representable n) (hk : k ≤ unit) :
    nearest (n * k) unit ≤ n :=
  nearest_le_of_representable unit_pos hn (Nat.mul_le_mul_left n hk)

/-- No duration is longer than `5 ^ 9 * 2 ^ 73` nanoseconds, which are a double. -/
theorem nearest_ofNat_lt (ht : t ≤ Duration.maxNanos) : nearest (t * unit) 1 < 2 ^ 94 * unit := by
  have hr : Representable (5 ^ 9 * (2 ^ 73 * unit)) := by
    rw [pow_mul_unit]
    apply representable_mul_pow_of_le <;> decide
  rw [← Nat.mul_assoc] at hr
  have hle : t * unit ≤ 5 ^ 9 * 2 ^ 73 * unit * 1 := by
    simp only [Duration.maxNanos] at ht
    rw [Nat.mul_one]
    exact Nat.mul_le_mul_right unit (by omega)
  refine Nat.lt_of_le_of_lt (nearest_le_of_representable Nat.one_pos hr hle) ?_
  exact Nat.mul_lt_mul_of_pos_right (by decide) unit_pos

theorem pow_mul_unit_lt_limit : 2 ^ 94 * unit < limit := by
  rw [pow_mul_unit]; apply pow_lt_limit; decide

theorem representable_ofNat (ht : t ≤ Duration.maxNanos) :
    Representable (nearest (t * unit) 1) :=
  representable_nearest (Nat.lt_trans (nearest_ofNat_lt ht) pow_mul_unit_lt_limit)

theorem Binary64.ofNat_eq (ht : t ≤ Duration.maxNanos) :
    Binary64.ofNat t = .finite false (nearest (t * unit) 1) (representable_ofNat ht) :=
  round_of_lt (representable_ofNat ht).2

theorem representable_product (ht : t ≤ Duration.maxNanos) (hj : jitter ≤ unit) :
    Representable (nearest (nearest (t * unit) 1 * jitter) unit) := by
  have hr := representable_ofNat ht
  exact representable_nearest (Nat.lt_of_le_of_lt (nearest_mul_le hr hj) hr.2)

theorem shortening_le (ht : t ≤ Duration.maxNanos) (hj : jitter ≤ unit) (hr : rest ≤ unit) :
    shortening t jitter rest ≤ nearest (t * unit) 1 :=
  Nat.le_trans (nearest_mul_le (representable_product ht hj) hr)
    (nearest_mul_le (representable_ofNat ht) hj)

theorem representable_shortening (ht : t ≤ Duration.maxNanos) (hj : jitter ≤ unit)
    (hr : rest ≤ unit) : Representable (shortening t jitter rest) :=
  representable_nearest (Nat.lt_of_le_of_lt (shortening_le ht hj hr) (representable_ofNat ht).2)

theorem shortening_div_unit_lt_pow (ht : t ≤ Duration.maxNanos) (hj : jitter ≤ unit)
    (hr : rest ≤ unit) : shortening t jitter rest / unit < 2 ^ 94 := by
  rw [Nat.div_lt_iff_lt_mul unit_pos]
  exact Nat.lt_of_le_of_lt (shortening_le ht hj hr) (nearest_ofNat_lt ht)

theorem shortening_zero_length (jitter rest : Nat) : shortening 0 jitter rest = 0 := by
  simp only [shortening, Nat.zero_mul, nearest_zero]

theorem shortening_zero_jitter (t rest : Nat) : shortening t 0 rest = 0 := by
  simp only [shortening, Nat.mul_zero, nearest_zero, Nat.zero_mul]

theorem shortening_mono {jitter' rest' : Nat} (hj : jitter ≤ jitter') (hr : rest ≤ rest') :
    shortening t jitter rest ≤ shortening t jitter' rest' := by
  have hproduct : nearest (nearest (t * unit) 1 * jitter) unit
      ≤ nearest (nearest (t * unit) 1 * jitter') unit :=
    nearest_mono unit_pos unit_pos (Nat.mul_le_mul_right unit (Nat.mul_le_mul_left _ hj))
  exact nearest_mono unit_pos unit_pos (Nat.mul_le_mul_right unit (Nat.mul_le_mul hproduct hr))

structure Normal (t jitter rest : Nat) : Prop where
  length : 2 ^ 52 * 1 ≤ t * unit
  product : 2 ^ 52 * unit ≤ nearest (t * unit) 1 * jitter
  part : 2 ^ 52 * unit ≤ nearest (nearest (t * unit) 1 * jitter) unit * rest

theorem pow_le_length (ht : t ≠ 0) : 2 ^ 52 * 1 ≤ t * unit := by
  have hsmall := pow_lt_unit (show 52 < 1074 by decide)
  have h := Nat.le_mul_of_pos_left unit (Nat.pos_of_ne_zero ht)
  omega

/-- A product below the normal doubles rounds to far less than one nanosecond. -/
theorem normal_of_unit_le_shortening (hr : rest ≤ unit) (h : unit ≤ shortening t jitter rest) :
    Normal t jitter rest := by
  have hsmall := pow_lt_unit (show 52 < 1074 by decide)
  unfold shortening at h
  have hproduct : 2 ^ 52 * unit ≤ nearest (t * unit) 1 * jitter := by
    by_contra hlt
    have hy := nearest_le_pow unit_pos (Nat.lt_of_not_le hlt)
    have hz := nearest_le_of_representable unit_pos (representable_pow (k := 52) (by decide))
      (Nat.mul_le_mul hy hr)
    omega
  refine ⟨pow_le_length ?_, hproduct, ?_⟩
  · rintro rfl
    rw [Nat.zero_mul, nearest_zero] at hproduct
    have := unit_pos
    omega
  · by_contra hlt
    have hz := nearest_le_pow unit_pos (Nat.lt_of_not_le hlt)
    omega

/-- Three roundings in a row change the product by less than one part in `2 ^ 51`. -/
theorem Normal.shortening_eq (h : Normal t jitter rest) :
    ∃ δ : ℚ, |δ| ≤ 1 / 2 ^ 51 ∧
      (shortening t jitter rest : ℚ) / unit = t * (jitter / unit) * (rest / unit) * (1 + δ) := by
  have hu := unit_pos_rat
  obtain ⟨α, hα, hx⟩ := nearest_eq_mul Nat.one_pos h.length
  obtain ⟨β, hβ, hy⟩ := nearest_eq_mul unit_pos h.product
  obtain ⟨γ, hγ, hz⟩ := nearest_eq_mul unit_pos h.part
  refine ⟨(1 + α) * (1 + β) * (1 + γ) - 1, abs_three_factors_sub_one_le hα hβ hγ, ?_⟩
  rw [shortening, hz]
  push_cast
  rw [hy]
  push_cast
  rw [hx]
  push_cast
  field_simp
  ring

theorem exact_shortening_nonneg (t jitter rest : Nat) :
    (0 : ℚ) ≤ t * (jitter / unit) * (rest / unit) := by
  have hu := unit_pos_rat.le
  have hj : (0 : ℚ) ≤ jitter / unit := div_nonneg (Nat.cast_nonneg _) hu
  have hr : (0 : ℚ) ≤ rest / unit := div_nonneg (Nat.cast_nonneg _) hu
  exact mul_nonneg (mul_nonneg (Nat.cast_nonneg _) hj) hr

theorem shortening_le_exact (hr : rest ≤ unit) (h : unit ≤ shortening t jitter rest) :
    (shortening t jitter rest : ℚ) / unit
      ≤ t * (jitter / unit) * (rest / unit) * (1 + 1 / 2 ^ 51) := by
  obtain ⟨δ, hδ, he⟩ := (normal_of_unit_le_shortening hr h).shortening_eq
  have hle : 1 + δ ≤ 1 + 1 / 2 ^ 51 := by linarith [le_of_abs_le hδ]
  rw [he]
  exact mul_le_mul_of_nonneg_left hle (exact_shortening_nonneg t jitter rest)

/-- The cut to whole nanoseconds removes what the roundings add below the first one. -/
theorem shortening_div_unit_le (t jitter : Nat) (hr : rest ≤ unit) :
    ((shortening t jitter rest / unit : Nat) : ℚ)
      ≤ t * (jitter / unit) * (rest / unit) * (1 + 1 / 2 ^ 51) := by
  rcases Nat.lt_or_ge (shortening t jitter rest) unit with hlt | hge
  · rw [Nat.div_eq_of_lt hlt, Nat.cast_zero]
    exact mul_nonneg (exact_shortening_nonneg t jitter rest) (by norm_num)
  · exact Nat.cast_div_le.trans (shortening_le_exact hr hge)

end

namespace Schedule
variable {s : Schedule} {t : Nat}

/-- What is taken off is always finite, with the sign of the jitter: of negative numbers there is
only the negative zero. -/
theorem reduction_eq (s : Schedule) (ht : t ≤ Duration.maxNanos) {u : Binary64} {rest : Nat}
    {h : Representable rest} (hu : Binary64.one.sub u = .finite false rest h) (hr : rest ≤ unit) :
    ∃ negative h, s.reduction t u = .finite negative (shortening t s.jitter.units rest) h ∧
      (negative = true → shortening t s.jitter.units rest = 0) := by
  obtain ⟨negative, hrep, he, hj, hneg, -⟩ := finite_of_isFraction s.jitter_isFraction
  generalize s.jitter.units = jitter at hrep he hj hneg ⊢
  have hy := representable_product ht hj
  have hz := representable_shortening ht hj hr
  have hzero (hn : negative = true) : shortening t jitter rest = 0 := by
    rw [hneg hn, shortening_zero_jitter]
  refine ⟨negative, hz, ?_, hzero⟩
  have hm : (ofNat t).mul s.jitter
      = .finite negative (nearest (nearest (t * unit) 1 * jitter) unit) hy := by
    rw [ofNat_eq ht, he]
    simp only [mul, Bool.false_xor]
    exact round_of_lt hy.2
  rw [reduction, hm, hu]
  simp only [mul, Bool.xor_false]
  unfold shortening at hz ⊢
  exact round_of_lt hz.2

theorem reduction_uniform (s : Schedule) (ht : t ≤ Duration.maxNanos) (x : UInt64) :
    ∃ negative h, s.reduction t (uniform x)
        = .finite negative (shortening t s.jitter.units (complement x)) h ∧
      (negative = true → shortening t s.jitter.units (complement x) = 0) :=
  s.reduction_eq ht (one_sub_uniform x) (complement_le x)

theorem truncate_reduction (s : Schedule) (ht : t ≤ Duration.maxNanos) {u : Binary64} {rest : Nat}
    {h : Representable rest} (hu : Binary64.one.sub u = .finite false rest h) (hr : rest ≤ unit) :
    (s.reduction t u).truncate = shortening t s.jitter.units rest / unit := by
  obtain ⟨negative, hz, he, hneg⟩ := s.reduction_eq ht hu hr
  obtain ⟨-, -, -, hj, -, -⟩ := finite_of_isFraction s.jitter_isFraction
  have hlt := shortening_div_unit_lt_pow ht hj hr
  rw [he]
  cases negative with
  | true =>
    simp only [truncate, if_true]
    rw [hneg rfl, Nat.zero_div]
  | false =>
    simp only [truncate, Bool.false_eq_true, if_false]
    omega

theorem toNanos_shortened {s : Schedule} {nominal : Duration} (h : nominal ≤ s.max) (u : Binary64) :
    (s.shortened nominal u).toNanos
      = nominal.toNanos - (s.reduction nominal.toNanos u).truncate := by
  have hn := nominal.toNanos_le
  have hm := Duration.le_def.1 h
  rw [shortened, Duration.toNanos_min, Duration.toNanos_ofNanos (by omega)]
  omega

end Schedule

end RetryDelay
