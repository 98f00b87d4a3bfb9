import RetryDelay.Proofs.Deviation
import RetryDelay.Proofs.Loop

set_option autoImplicit false

namespace RetryDelay

open Binary64 Pacing

namespace Backoff
variable {n : Nat}

theorem pacing_delay (attempt : UInt32) (b : Backoff) : Pacing.delay attempt b = b.delay attempt :=
  rfl

-- The lemmas below rewrite with the next two: to unfold both sides would compute the delay.
theorem stateAt_succ_eq_delay (b : Backoff) (n : Nat) :
    stateAt b (n + 1) = ((stateAt b n).delay (UInt32.ofNat n)).value.2 := by
  rw [stateAt, pacing_delay]

theorem delayAt_eq_delay (b : Backoff) (n : Nat) :
    delayAt b n = ((stateAt b n).delay (UInt32.ofNat n)).value.1 := by
  rw [delayAt, asked, pacing_delay]

@[simp] theorem schedule_stateAt (b : Backoff) (n : Nat) :
    (stateAt b n).schedule = b.schedule := by
  induction n with
  | zero => rfl
  | succ n ih => rw [stateAt_succ_eq_delay, schedule_delay, ih]

theorem toNanos_delayAt_le_max (b : Backoff) (n : Nat) :
    (delayAt b n).toNanos ≤ b.schedule.max.toNanos := by
  have h := toNanos_delay_le (UInt32.ofNat n) (stateAt b n)
  rw [schedule_stateAt] at h
  rw [delayAt_eq_delay]
  exact Nat.le_trans h (b.schedule.target_le_max _)

theorem delayAt_of_delay {P : Schedule → Nat → Nat → Prop} (b : Backoff) (hn : n < 2 ^ 32)
    (h : ∀ (attempt : UInt32) (b : Backoff),
      P b.schedule attempt.toNat (b.delay attempt).value.1.toNanos) :
    P b.schedule n (delayAt b n).toNanos := by
  have hp := h (UInt32.ofNat n) (stateAt b n)
  rw [schedule_stateAt, UInt32.toNat_ofNat_of_lt' hn] at hp
  rw [delayAt_eq_delay]
  exact hp

theorem toNanos_delayAt_le (b : Backoff) (hn : n < 2 ^ 32) :
    (delayAt b n).toNanos ≤ b.schedule.target n :=
  b.delayAt_of_delay (P := fun s n d => d ≤ s.target n) hn toNanos_delay_le

theorem toNanos_delayAt_of_jitter_zero (b : Backoff) (hn : n < 2 ^ 32)
    (hj : b.schedule.jitter.toRat = 0) : (delayAt b n).toNanos = b.schedule.target n :=
  b.delayAt_of_delay (P := fun s n d => s.jitter.toRat = 0 → d = s.target n) hn
    (fun attempt _ => toNanos_delay_of_jitter_zero attempt) hj

theorem le_toNanos_delayAt (b : Backoff) (hn : n < 2 ^ 32) :
    (b.schedule.target n : ℚ) * (1 - b.schedule.jitter.toRat)
        - b.schedule.target n * b.schedule.jitter.toRat / 2 ^ 51
      ≤ (delayAt b n).toNanos :=
  b.delayAt_of_delay (P := fun s n d => (s.target n : ℚ) * (1 - s.jitter.toRat)
    - s.target n * s.jitter.toRat / 2 ^ 51 ≤ d) hn le_toNanos_delay

theorem waitBefore_le_mul (b : Backoff) (n : Nat) :
    waitBefore b n ≤ n * b.schedule.max.toNanos := by
  induction n with
  | zero => simp
  | succ n ih =>
    have h := b.toNanos_delayAt_le_max n
    rw [waitBefore_succ, Nat.succ_mul]
    exact Nat.add_le_add ih h

theorem waitBefore_le_sum (b : Backoff) (hn : n < 2 ^ 32) :
    waitBefore b n ≤ ∑ i ∈ Finset.range n, b.schedule.target i := by
  refine Finset.sum_le_sum fun i hi => b.toNanos_delayAt_le ?_
  exact Nat.lt_trans (Finset.mem_range.1 hi) hn

theorem waitBefore_of_jitter_zero (b : Backoff) (hn : n < 2 ^ 32)
    (hj : b.schedule.jitter.toRat = 0) :
    waitBefore b n = ∑ i ∈ Finset.range n, b.schedule.target i := by
  refine Finset.sum_congr rfl fun i hi => b.toNanos_delayAt_of_jitter_zero ?_ hj
  exact Nat.lt_trans (Finset.mem_range.1 hi) hn

theorem le_waitBefore (b : Backoff) (hn : n < 2 ^ 32) :
    ∑ i ∈ Finset.range n, ((b.schedule.target i : ℚ) * (1 - b.schedule.jitter.toRat)
        - b.schedule.target i * b.schedule.jitter.toRat / 2 ^ 51) ≤ (waitBefore b n : ℚ) := by
  rw [waitBefore, Nat.cast_sum]
  refine Finset.sum_le_sum fun i hi => b.le_toNanos_delayAt ?_
  exact Nat.lt_trans (Finset.mem_range.1 hi) hn

end Backoff

theorem Schedule.sum_target_le (s : Schedule) (n : Nat) :
    ∑ i ∈ Finset.range n, s.target i ≤ n * s.max.toNanos := by
  have h := Finset.sum_le_card_nsmul (Finset.range n) s.target _ fun i _ => s.target_le_max i
  rwa [Finset.card_range, nsmul_eq_mul, Nat.cast_id] at h

theorem toNanos_of_succeeded {σ ε α : Type} [Pacing σ] [ToString ε] {op : Operation ε α}
    {limit : UInt32} {b : σ} {v : α} {attempts : UInt32} {waited : Duration}
    (h : (retry op limit b).ending = .succeeded v attempts waited) :
    waited.toNanos = ((retry op limit b).delays.map Duration.toNanos).sum := by
  rcases fits_or_overflows b (op.stop limit) with hfits | ⟨n, hn, hfits, hover⟩
  · rw [retry_of_fits hfits] at h ⊢
    rw [sum_toNanos_delaysBefore]
    unfold Operation.endingAt at h
    cases ho : op.outcome (op.stop limit) with
    | ok v' =>
      rw [ho] at h
      obtain ⟨-, -, rfl⟩ := Ending.succeeded.inj h
      exact Duration.toNanos_ofNanos hfits
    | error e =>
      rw [ho] at h
      cases h
  · rw [retry_of_overflow hn hfits hover] at h
    cases h

/-- What a run waits in all, however it ends, lies between the sums of the floors and of the
targets of its delays. -/
theorem Backoff.retry_budget {ε α : Type} [ToString ε] (op : Operation ε α) (limit : UInt32)
    (b : Backoff) :
    let delays := (retry op limit b).delays
    let total := (delays.map Duration.toNanos).sum
    let target := fun i => min b.schedule.max.toNanos (b.schedule.base.toNanos * 2 ^ i)
    let jitter := b.schedule.jitter.toRat
    delays.length ≤ max 1 limit.toNat - 1 ∧
    ∑ i ∈ Finset.range delays.length,
      ((target i : ℚ) * (1 - jitter) - target i * jitter / 2 ^ 51) ≤ (total : ℚ) ∧
    total ≤ ∑ i ∈ Finset.range delays.length, target i ∧
    ∑ i ∈ Finset.range delays.length, target i ≤ delays.length * b.schedule.max.toNanos ∧
    (jitter = 0 → total = ∑ i ∈ Finset.range delays.length, target i) ∧
    ∀ v attempts waited, (retry op limit b).ending = .succeeded v attempts waited →
      waited.toNanos = total := by
  intro delays total target jitter
  obtain ⟨n, hn, hdelays⟩ := retry_delays op limit b
  have hlength : delays.length = n := by rw [← length_delaysBefore b n, ← hdelays]
  have htotal : total = waitBefore b n := by rw [← sum_toNanos_delaysBefore, ← hdelays]
  have hlt : n < 2 ^ 32 := Nat.lt_of_succ_lt (Operation.succ_lt_of_le_stop hn)
  have hlimit := op.stop_succ_le limit
  refine ⟨by omega, ?_, ?_, ?_, ?_, fun v attempts waited h => toNanos_of_succeeded h⟩
  · rw [htotal, hlength]
    exact b.le_waitBefore hlt
  · rw [htotal, hlength]
    exact b.waitBefore_le_sum hlt
  · rw [hlength]
    exact b.schedule.sum_target_le n
  · intro hj
    rw [htotal, hlength]
    exact b.waitBefore_of_jitter_zero hlt hj

end RetryDelay
