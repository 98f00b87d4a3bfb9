import RetryDelay.Proofs.Delay

set_option autoImplicit false

namespace RetryDelay

open Binary64

theorem Duration.parts_ofNanos {n : Nat} (h : n ≤ maxNanos) :
    (ofNanos n).seconds.toNat = n / 1000000000 ∧ (ofNanos n).nanos.toNat = n % 1000000000 := by
  simp only [maxNanos] at h
  simp only [ofNanos, UInt64.toNat_ofNat', UInt32.toNat_ofNat']
  omega

theorem Binary64.toRat_of_zero {x : Binary64} {negative : Bool}
    (h : x = .finite negative 0 representable_zero) : x.toRat = 0 := by
  subst h
  have hs : signed negative 0 = 0 := by cases negative <;> rfl
  rw [toRat, hs, Int.cast_zero, zero_div]

namespace Schedule

theorem target_mono (s : Schedule) : Monotone s.target := by
  intro n m h
  have hp : 2 ^ n ≤ 2 ^ m := Nat.pow_le_pow_right Nat.two_pos h
  exact min_le_min_left _ (Nat.mul_le_mul_left _ hp)

theorem target_eq_max_of_le {s : Schedule} {n m : Nat} (hle : n ≤ m)
    (h : s.target n = s.max.toNanos) : s.target m = s.max.toNanos := by
  have hm := s.target_mono hle
  rw [h] at hm
  exact Nat.le_antisymm (s.target_le_max m) hm

theorem nominal_mono (s : Schedule) {a b : UInt32} (h : a ≤ b) : s.nominal a ≤ s.nominal b := by
  rw [Duration.le_def, toNanos_nominal, toNanos_nominal]
  exact s.target_mono (UInt32.le_iff_toNat_le.1 h)

theorem nominal_eq_max_of_le {s : Schedule} {a b : UInt32} (hle : a ≤ b)
    (h : s.nominal a = s.max) : s.nominal b = s.max := by
  have ha : s.target a.toNat = s.max.toNanos := by rw [← toNanos_nominal, h]
  refine Duration.eq_of_toNanos_eq ?_
  rw [toNanos_nominal]
  exact target_eq_max_of_le (UInt32.le_iff_toNat_le.1 hle) ha

end Schedule

/-- The nominal delay of every attempt is the capped doubling of the base, and with a jitter of
either zero it is the delay, for which no random number is taken. A word that is doubled loses no
place, and the duration made of it no part. -/
theorem Schedule.nominal_capped_doubling (s : Schedule) (attempt : UInt32) :
    (s.nominal attempt).toNanos = min s.max.toNanos (s.base.toNanos * 2 ^ attempt.toNat) ∧
    (∀ negative g, s.jitter = .finite negative 0 representable_zero →
      Backoff.delay attempt ⟨s, g⟩ = pure (s.nominal attempt, ⟨s, g⟩)) ∧
    (word s.base ≠ 0 → s.isAbove attempt.toNat = false →
      let n := (s.doubled attempt.toNat).toNat
      attempt.toNat < 128 ∧ n = s.base.toNanos * 2 ^ attempt.toNat ∧
        (Duration.ofNanos n).seconds.toNat = n / 1000000000 ∧
        (Duration.ofNanos n).nanos.toNat = n % 1000000000) ∧
    ∀ later, attempt ≤ later → s.nominal attempt ≤ s.nominal later ∧
      (s.nominal attempt = s.max → s.nominal later = s.max) := by
  refine ⟨s.toNanos_nominal attempt, ?_, ?_, fun later h => ⟨s.nominal_mono h, ?_⟩⟩
  · intro negative g hj
    exact Backoff.delay_of_jitter_zero attempt (toRat_of_zero hj)
  · intro h0 h
    obtain ⟨hlt, hn, hle⟩ := doubled_exact h0 h
    exact ⟨hlt, hn, Duration.parts_ofNanos hle⟩
  · exact nominal_eq_max_of_le h

-- The longest duration lies between two doublings of the shortest.
example :
    let s : Schedule :=
      ⟨.ofNanos 1, .ofNanos Duration.maxNanos, .zero, by decide +kernel, by decide +kernel⟩
    (s.nominal 93).toNanos = 2 ^ 93 ∧ s.nominal 94 = s.max := by
  decide +kernel

end RetryDelay
