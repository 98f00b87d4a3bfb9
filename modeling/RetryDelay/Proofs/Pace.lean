import Mathlib.Algebra.Order.BigOperators.Ring.Finset
import RetryDelay.Run

set_option autoImplicit false

namespace RetryDelay

namespace Pacing
variable {σ : Type} [Pacing σ]

/-- The state once all attempts before an attempt have been asked for, in order. -/
def stateAt (b : σ) : Nat → σ
  | 0 => b
  | n + 1 => (delay (UInt32.ofNat n) (stateAt b n)).value.2

def asked (b : σ) (n : Nat) : Logged (Duration × σ) := delay (UInt32.ofNat n) (stateAt b n)

def delayAt (b : σ) (n : Nat) : Duration := (asked b n).value.1

def delaysBefore (b : σ) (n : Nat) : List Duration := (List.range n).map (delayAt b)

/-- How many nanoseconds the delays before an attempt are together, in unbounded numbers. -/
def waitBefore (b : σ) (n : Nat) : Nat := ∑ i ∈ Finset.range n, (delayAt b i).toNanos

theorem stateAt_succ (b : σ) (n : Nat) : stateAt b (n + 1) = (asked b n).value.2 := rfl

@[simp] theorem length_delaysBefore (b : σ) (n : Nat) : (delaysBefore b n).length = n := by
  simp [delaysBefore]

theorem delaysBefore_succ (b : σ) (n : Nat) :
    delaysBefore b (n + 1) = delaysBefore b n ++ [delayAt b n] := by
  simp [delaysBefore, List.range_succ]

@[simp] theorem waitBefore_zero (b : σ) : waitBefore b 0 = 0 := rfl

theorem waitBefore_succ (b : σ) (n : Nat) :
    waitBefore b (n + 1) = waitBefore b n + (delayAt b n).toNanos :=
  Finset.sum_range_succ _ n

theorem waitBefore_mono (b : σ) : Monotone (waitBefore b) := by
  refine monotone_nat_of_le_succ fun n => ?_
  rw [waitBefore_succ]
  exact Nat.le_add_right _ _

theorem sum_toNanos_delaysBefore (b : σ) (n : Nat) :
    ((delaysBefore b n).map Duration.toNanos).sum = waitBefore b n := by
  induction n with
  | zero => rfl
  | succ n ih => rw [delaysBefore_succ, waitBefore_succ, ← ih]; simp

theorem fits_or_overflows (b : σ) (n : Nat) :
    waitBefore b n ≤ Duration.maxNanos ∨
      ∃ i < n, waitBefore b i ≤ Duration.maxNanos ∧ Duration.maxNanos < waitBefore b (i + 1) := by
  induction n with
  | zero => exact .inl (Nat.zero_le _)
  | succ n ih =>
    rcases ih with hn | ⟨i, hi, hfits, hover⟩
    · rcases Nat.lt_or_ge Duration.maxNanos (waitBefore b (n + 1)) with hgt | hle
      · exact .inr ⟨n, Nat.lt_succ_self n, hn, hgt⟩
      · exact .inl hle
    · exact .inr ⟨i, Nat.lt_succ_of_lt hi, hfits, hover⟩

end Pacing

/-- A state that paces retries, and the attempts it has been asked for. -/
structure Recorded (σ : Type) where
  attempts : List UInt32
  inner : σ

namespace Recorded
variable {σ : Type} [Pacing σ]

def delay (attempt : UInt32) (r : Recorded σ) : Logged (Duration × Recorded σ) :=
  (fun answer => (answer.1, ⟨r.attempts ++ [attempt], answer.2⟩)) <$> Pacing.delay attempt r.inner

instance : Pacing (Recorded σ) := ⟨delay⟩

theorem stateAt_eq (b : σ) (n : Nat) :
    Pacing.stateAt (⟨[], b⟩ : Recorded σ) n
      = ⟨(List.range n).map UInt32.ofNat, Pacing.stateAt b n⟩ := by
  induction n with
  | zero => rfl
  | succ n ih =>
    have hstep : Pacing.stateAt (⟨[], b⟩ : Recorded σ) (n + 1)
        = ⟨(Pacing.stateAt (⟨[], b⟩ : Recorded σ) n).attempts ++ [UInt32.ofNat n],
            (Pacing.delay (UInt32.ofNat n)
              (Pacing.stateAt (⟨[], b⟩ : Recorded σ) n).inner).value.2⟩ := rfl
    rw [hstep, ih, List.range_succ]
    simp [Pacing.stateAt]

theorem delayAt_eq (b : σ) (n : Nat) :
    Pacing.delayAt (⟨[], b⟩ : Recorded σ) n = Pacing.delayAt b n := by
  have hstep : Pacing.delayAt (⟨[], b⟩ : Recorded σ) n
      = (Pacing.delay (UInt32.ofNat n)
          (Pacing.stateAt (⟨[], b⟩ : Recorded σ) n).inner).value.1 := rfl
  rw [hstep, stateAt_eq]
  rfl

theorem waitBefore_eq (b : σ) (n : Nat) :
    Pacing.waitBefore (⟨[], b⟩ : Recorded σ) n = Pacing.waitBefore b n := by
  simp only [Pacing.waitBefore, delayAt_eq]

end Recorded

end RetryDelay
