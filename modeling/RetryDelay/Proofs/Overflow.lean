import RetryDelay.Proofs.Budget

set_option autoImplicit false

namespace RetryDelay

open Pacing

section Run
variable {σ ε α : Type} [Pacing σ] {op : Operation ε α} {limit : UInt32} {b : σ} {n : Nat}

theorem endingAt_ne_overflowed (op : Operation ε α) (n : Nat) (attempts : UInt32)
    (waited : Duration) : op.endingAt n attempts waited ≠ .overflowed := by
  unfold Operation.endingAt
  cases op.outcome n with
  | ok v => simp
  | error e => simp

variable [ToString ε]

theorem overflowed_iff (op : Operation ε α) (limit : UInt32) (b : σ) :
    (retry op limit b).ending = .overflowed ↔
      ∃ i < op.stop limit, Duration.maxNanos < waitBefore b (i + 1) := by
  rcases fits_or_overflows b (op.stop limit) with hfits | ⟨n, hn, hfits, hover⟩
  · rw [retry_of_fits hfits]
    constructor
    · intro h
      exact absurd h (endingAt_ne_overflowed op _ _ _)
    · rintro ⟨i, hi, hover⟩
      have hle : waitBefore b (i + 1) ≤ waitBefore b (op.stop limit) := waitBefore_mono b hi
      omega
  · rw [retry_of_overflow hn hfits hover]
    exact ⟨fun _ => ⟨n, hn, hover⟩, fun _ => rfl⟩

example : (retry (⟨fun _ => .error "busy", fun _ => true⟩ : Operation String Nat) 3
    (⟨⟨.ofNanos Duration.maxNanos, .ofNanos Duration.maxNanos, .zero, by decide, by decide +kernel⟩,
      .fresh fun _ => 0⟩ : Backoff)).ending = .overflowed := by
  decide +kernel

theorem exists_last_call (op : Operation ε α) (limit : UInt32) (b : σ) :
    ∃ n ≤ op.stop limit, (retry op limit b).calls = n + 1 ∧ waitBefore b n ≤ Duration.maxNanos ∧
      (n = op.stop limit ∨ Duration.maxNanos < waitBefore b (n + 1)) := by
  rcases fits_or_overflows b (op.stop limit) with hfits | ⟨n, hn, hfits, hover⟩
  · refine ⟨op.stop limit, Nat.le_refl _, ?_, hfits, .inl rfl⟩
    rw [retry_of_fits hfits]
  · refine ⟨n, Nat.le_of_lt hn, ?_, hfits, .inr hover⟩
    rw [retry_of_overflow hn hfits hover]

theorem lt_calls_iff (op : Operation ε α) (limit : UInt32) (b : σ) (n : Nat) :
    n < (retry op limit b).calls ↔
      ∃ attempt waited s, Reaches op limit b attempt waited s ∧ attempt.toNat = n := by
  obtain ⟨last, hlast, hcalls, hfits, hend⟩ := exists_last_call op limit b
  rw [hcalls, Nat.lt_succ_iff]
  constructor
  · intro hn
    have hstop := Nat.le_trans hn hlast
    have hw := Nat.le_trans (waitBefore_mono b hn) hfits
    exact ⟨_, _, _, reaches_of_fits hstop hw, Operation.toNat_ofNat_of_le_stop hstop⟩
  · rintro ⟨attempt, waited, s, h, rfl⟩
    rcases hend with rfl | hover
    · exact h.atHead.le_stop
    · -- The time waited at a head is a duration, so no head is past the first sum too long.
      by_contra hlt
      have hle : waitBefore b (last + 1) ≤ waitBefore b attempt.toNat :=
        waitBefore_mono b (Nat.lt_of_not_le hlt)
      have hw := waited.toNanos_le
      rw [h.atHead.toNanos_waited] at hw
      omega

theorem retry_of_first_overflow {i : Nat} (hi : i < op.stop limit)
    (hover : Duration.maxNanos < waitBefore b (i + 1))
    (hfirst : ∀ m < i, waitBefore b (m + 1) ≤ Duration.maxNanos) :
    retry op limit b
      = { ending := .overflowed
          calls := i + 1
          delays := delaysBefore b (i + 1)
          events := op.eventsBefore b (i + 1)
          backoff := stateAt b (i + 1) } := by
  refine retry_of_overflow hi ?_ hover
  cases i with
  | zero => exact Nat.zero_le _
  | succ m => exact hfirst m (Nat.lt_succ_self m)

end Run

/-- A run of a backoff overflows if and only if the delays up to one before the last call are too
long together. It ends there, with that delay told, and never happens if the ceiling for each retry
is not too long in all. The numbers of attempts are exact for every limit. -/
theorem Backoff.retry_overflows {ε α : Type} [ToString ε] (op : Operation ε α) (limit : UInt32)
    (b : Backoff) :
    ((retry op limit b).ending = .overflowed ↔
      ∃ i < op.stop limit, Duration.maxNanos < waitBefore b (i + 1)) ∧
    (∀ i < op.stop limit, Duration.maxNanos < waitBefore b (i + 1) →
      (∀ m < i, waitBefore b (m + 1) ≤ Duration.maxNanos) →
      (retry op limit b).ending = .overflowed ∧ (retry op limit b).calls = i + 1 ∧
        (retry op limit b).delays = delaysBefore b (i + 1) ∧
        ∃ e, op.outcome i = .error e ∧
          (retry op limit b).events = op.eventsBefore b i ++ (asked b i).events
            ++ [.retrying (UInt32.ofNat i) (delayAt b i) (toString e)]) ∧
    ((limit.toNat - 1) * b.schedule.max.toNanos ≤ Duration.maxNanos →
      (retry op limit b).ending ≠ .overflowed) ∧
    (∀ n, n < (retry op limit b).calls ↔
      ∃ attempt waited s, Reaches op limit b attempt waited s ∧ attempt.toNat = n) ∧
    ∀ attempt waited s, Reaches op limit b attempt waited s →
      attempt.toNat + 1 < 2 ^ 32 ∧ (attempt + 1).toNat = attempt.toNat + 1 := by
  refine ⟨overflowed_iff op limit b, ?_, ?_, lt_calls_iff op limit b, ?_⟩
  · intro i hi hover hfirst
    obtain ⟨e, ho, -, -⟩ := Operation.of_lt_stop hi
    rw [retry_of_first_overflow hi hover hfirst]
    refine ⟨rfl, rfl, rfl, e, ho, ?_⟩
    rw [Operation.eventsBefore_succ, Operation.eventsAt, Operation.errorText, ho,
      List.append_assoc]
  · intro hmax
    rw [Ne, overflowed_iff]
    rintro ⟨i, hi, hover⟩
    have hwait := b.waitBefore_le_mul (i + 1)
    have hlimit := op.stop_succ_le limit
    have hmul : (i + 1) * b.schedule.max.toNanos ≤ (limit.toNat - 1) * b.schedule.max.toNanos :=
      Nat.mul_le_mul_right _ (by omega)
    omega
  · intro attempt waited s h
    exact ⟨h.atHead.succ_lt, h.atHead.toNat_succ⟩

end RetryDelay
