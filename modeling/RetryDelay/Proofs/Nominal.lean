import Mathlib.Tactic.Linarith
import RetryDelay.Schedule

/-!
The nominal delay is the base doubled for each attempt in unbounded numbers, cut at the ceiling: the
guard that compares the base with the shifted ceiling decides exactly whether the doubled base is
above it, and a doubling that is carried out loses no place of its word.
-/

set_option autoImplicit false

namespace RetryDelay.Schedule

/-- The nominal delay of an attempt in nanoseconds, in unbounded numbers. -/
def target (s : Schedule) (attempt : Nat) : Nat :=
  min s.max.toNanos (s.base.toNanos * 2 ^ attempt)

theorem target_le_max (s : Schedule) (n : Nat) : s.target n ≤ s.max.toNanos := Nat.min_le_left _ _

theorem target_le_maxNanos (s : Schedule) (n : Nat) : s.target n ≤ Duration.maxNanos :=
  Nat.le_trans (s.target_le_max n) s.max.toNanos_le

theorem word_eq_zero {d : Duration} : word d = 0 ↔ d.toNanos = 0 := by
  rw [← BitVec.toNat_inj, toNat_word]; rfl

theorem toNat_shiftRight_max (s : Schedule) (n : Nat) :
    (word s.max >>> n).toNat = s.max.toNanos / 2 ^ n := by
  rw [BitVec.toNat_ushiftRight, Nat.shiftRight_eq_div_pow, toNat_word]

/-- The ceiling is only shifted by less than the width, and then compared as a whole number. -/
theorem isAbove_cases (s : Schedule) (n : Nat) :
    128 ≤ n ∧ s.isAbove n = true ∨
    n < 128 ∧ (word s.max >>> n).toNat = s.max.toNanos / 2 ^ n ∧
      s.isAbove n = decide (s.max.toNanos / 2 ^ n < s.base.toNanos) := by
  unfold isAbove
  rcases Nat.lt_or_ge n 128 with hlt | hge
  · refine .inr ⟨hlt, s.toNat_shiftRight_max n, ?_⟩
    rw [decide_eq_false (Nat.not_le.2 hlt), Bool.false_or]
    simp only [BitVec.lt_def, toNat_shiftRight_max, toNat_word]
  · refine .inl ⟨hge, ?_⟩
    rw [decide_eq_true hge, Bool.true_or]

theorem isAbove_eq_true {s : Schedule} {n : Nat} (h0 : s.base.toNanos ≠ 0) :
    s.isAbove n = true ↔ s.max.toNanos < s.base.toNanos * 2 ^ n := by
  rcases s.isAbove_cases n with ⟨hn, h⟩ | ⟨-, -, h⟩
  · have hm := s.max.toNanos_le
    have hp : 2 ^ 128 ≤ 2 ^ n := Nat.pow_le_pow_right (by decide) hn
    have hb : 1 * 2 ^ n ≤ s.base.toNanos * 2 ^ n := Nat.mul_le_mul_right _ (by omega)
    simp only [Duration.maxNanos] at hm
    exact ⟨fun _ => by omega, fun _ => h⟩
  · rw [h, decide_eq_true_iff, Nat.div_lt_iff_lt_mul (Nat.two_pow_pos n)]

theorem toNat_doubled {s : Schedule} {n : Nat} (h : s.base.toNanos * 2 ^ n ≤ s.max.toNanos) :
    (s.doubled n).toNat = s.base.toNanos * 2 ^ n := by
  have hm := s.max.toNanos_le
  simp only [Duration.maxNanos] at hm
  rw [doubled, BitVec.toNat_shiftLeft, toNat_word, Nat.shiftLeft_eq]
  exact Nat.mod_eq_of_lt (by omega)

theorem doubled_exact {s : Schedule} {n : Nat} (h0 : word s.base ≠ 0) (h : s.isAbove n = false) :
    n < 128 ∧ (s.doubled n).toNat = s.base.toNanos * 2 ^ n ∧
      (s.doubled n).toNat ≤ Duration.maxNanos := by
  have hb : s.base.toNanos ≠ 0 := fun hz => h0 (word_eq_zero.2 hz)
  have hle : s.base.toNanos * 2 ^ n ≤ s.max.toNanos := by
    rw [← Nat.not_lt, ← isAbove_eq_true hb, h]; simp
  refine ⟨?_, toNat_doubled hle, ?_⟩
  · rcases s.isAbove_cases n with ⟨-, habove⟩ | ⟨hlt, -⟩
    · rw [h] at habove
      cases habove
    · exact hlt
  · rw [toNat_doubled hle]
    exact Nat.le_trans hle s.max.toNanos_le

@[simp] theorem toNanos_nominal (s : Schedule) (attempt : UInt32) :
    (s.nominal attempt).toNanos = s.target attempt.toNat := by
  unfold nominal target
  by_cases h0 : word s.base = 0
  · simp [h0, word_eq_zero.1 h0]
  · by_cases h : s.isAbove attempt.toNat = true
    · have hlt := (isAbove_eq_true fun hz => h0 (word_eq_zero.2 hz)).1 h
      rw [if_neg h0, if_pos h, Nat.min_eq_left (Nat.le_of_lt hlt)]
    · obtain ⟨-, hd, hle⟩ := doubled_exact h0 (by simpa using h)
      have hm := (isAbove_eq_true fun hz => h0 (word_eq_zero.2 hz)).not.1 h
      rw [if_neg h0, if_neg h, Duration.toNanos_ofNanos hle, hd, Nat.min_eq_right (by omega)]

theorem nominal_eq_zero {s : Schedule} {attempt : UInt32} :
    s.nominal attempt = .zero ↔ s.target attempt.toNat = 0 := by
  rw [← Duration.toNanos_eq_zero, toNanos_nominal]

theorem nominal_le_max (s : Schedule) (attempt : UInt32) : s.nominal attempt ≤ s.max := by
  rw [Duration.le_def, toNanos_nominal]; exact s.target_le_max _

theorem target_eq_zero {s : Schedule} {n : Nat} : s.target n = 0 ↔ s.base.toNanos = 0 := by
  have hb := Duration.le_def.1 s.base_le_max
  have hp := Nat.two_pow_pos n
  constructor
  · intro h
    by_contra h0
    have : 0 < s.base.toNanos * 2 ^ n := Nat.mul_pos (by omega) hp
    unfold target at h; omega
  · intro h; simp [target, h]

end RetryDelay.Schedule
