import RetryDelay.Proofs.Shortening

set_option autoImplicit false

namespace RetryDelay

open Binary64

namespace Backoff

/-- Whether a backoff takes a random number for each of its delays. -/
def Draws (b : Backoff) : Prop := b.schedule.base.toNanos ≠ 0 ∧ b.schedule.jitter.toRat ≠ 0

instance (b : Backoff) : Decidable b.Draws := inferInstanceAs (Decidable (_ ∧ _))

theorem delay_cases (attempt : UInt32) (b : Backoff) :
    (b.schedule.base.toNanos = 0 ∧ b.delay attempt = pure (.zero, b)) ∨
    (b.schedule.base.toNanos ≠ 0 ∧ b.schedule.jitter.toRat = 0 ∧
      b.delay attempt = pure (b.schedule.nominal attempt, b)) ∨
    (b.schedule.base.toNanos ≠ 0 ∧ b.schedule.jitter.toRat ≠ 0 ∧
      ∃ d, d = b.schedule.shortened (b.schedule.nominal attempt) (uniform b.generator.next.1) ∧
        b.delay attempt = ⟨(d, { b with generator := b.generator.next.2 }),
          [.computed attempt (b.schedule.nominal attempt) d]⟩) := by
  have hz := isZero_iff b.schedule.jitter_isFraction
  by_cases h0 : b.schedule.nominal attempt = .zero
  · left
    refine ⟨Schedule.target_eq_zero.1 (Schedule.nominal_eq_zero.1 h0), ?_⟩
    simp only [delay, if_pos h0]
  · have hb : b.schedule.base.toNanos ≠ 0 := fun hb =>
      h0 (Schedule.nominal_eq_zero.2 (Schedule.target_eq_zero.2 hb))
    right
    by_cases hj : b.schedule.jitter.isZero = true
    · left
      refine ⟨hb, hz.1 hj, ?_⟩
      simp only [delay, if_neg h0, if_pos hj]
    · right
      refine ⟨hb, fun h => hj (hz.2 h), _, rfl, ?_⟩
      simp only [delay, if_neg h0, if_neg hj]
      rfl

theorem schedule_delay (attempt : UInt32) (b : Backoff) :
    (b.delay attempt).value.2.schedule = b.schedule := by
  rcases b.delay_cases attempt with ⟨-, h⟩ | ⟨-, -, h⟩ | ⟨-, -, d, -, h⟩ <;> rw [h] <;> rfl

/-- One formula for all cases: without a random number the formula takes nothing off. -/
theorem toNanos_delay (attempt : UInt32) (b : Backoff) :
    (b.delay attempt).value.1.toNanos
      = b.schedule.target attempt.toNat
        - shortening (b.schedule.target attempt.toNat) b.schedule.jitter.units
            (complement b.generator.next.1) / unit := by
  have ht := b.schedule.target_le_maxNanos attempt.toNat
  rcases b.delay_cases attempt with ⟨hb, h⟩ | ⟨-, hj, h⟩ | ⟨-, -, d, hd, h⟩
  · rw [h, Schedule.target_eq_zero.2 hb, shortening_zero_length, Nat.zero_sub]
    exact Duration.toNanos_zero
  · rw [h, (toRat_eq_zero b.schedule.jitter_isFraction).1 hj, shortening_zero_jitter]
    simp
  · rw [h, hd, Schedule.toNanos_shortened (b.schedule.nominal_le_max attempt),
      Schedule.toNanos_nominal,
      Schedule.truncate_reduction _ ht (one_sub_uniform _) (complement_le _)]

theorem toNanos_delay_le (attempt : UInt32) (b : Backoff) :
    (b.delay attempt).value.1.toNanos ≤ b.schedule.target attempt.toNat := by
  rw [toNanos_delay]; exact Nat.sub_le _ _

theorem delay_of_jitter_zero (attempt : UInt32) {b : Backoff}
    (hj : b.schedule.jitter.toRat = 0) :
    b.delay attempt = pure (b.schedule.nominal attempt, b) := by
  rcases b.delay_cases attempt with ⟨hb, h⟩ | ⟨-, -, h⟩ | ⟨-, hne, -⟩
  · rw [h, Schedule.nominal_eq_zero.2 (Schedule.target_eq_zero.2 hb)]
  · exact h
  · exact absurd hj hne

theorem toNanos_delay_of_jitter_zero (attempt : UInt32) {b : Backoff}
    (hj : b.schedule.jitter.toRat = 0) :
    (b.delay attempt).value.1.toNanos = b.schedule.target attempt.toNat := by
  rw [delay_of_jitter_zero attempt hj, Logged.pure_value, Schedule.toNanos_nominal]

theorem delays_cons (attempt : UInt32) (attempts : List UInt32) (b : Backoff) :
    (b.delays (attempt :: attempts)).value
      = (((b.delay attempt).value.1,
            (b.delay attempt).value.2.generator.taken - b.generator.taken)
          :: ((b.delay attempt).value.2.delays attempts).value.1,
        ((b.delay attempt).value.2.delays attempts).value.2) := by
  rw [delays]
  -- Without this the first delay would be computed to see that both sides are the same.
  generalize b.delay attempt = asked
  obtain ⟨⟨d, b'⟩, es⟩ := asked
  rfl

theorem delays_append (attempts later : List UInt32) (b : Backoff) :
    (b.delays (attempts ++ later)).value
      = ((b.delays attempts).value.1 ++ ((b.delays attempts).value.2.delays later).value.1,
        ((b.delays attempts).value.2.delays later).value.2) := by
  induction attempts generalizing b with
  | nil => rfl
  | cons attempt attempts ih => simp only [List.cons_append, delays_cons, ih]

end Backoff

end RetryDelay
