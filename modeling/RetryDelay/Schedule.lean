import RetryDelay.Binary64.Basic
import RetryDelay.Duration

/-!
A schedule of delays that double from a base up to a ceiling, and the jitter that shortens them. The
doubling is done in words of 128 bits, and only after it was found to stay below the ceiling, so it
never overflows; the jitter is computed in doubles, rounded at each step.
-/

set_option autoImplicit false

namespace RetryDelay

/-- The parameters of a schedule, which are valid for as long as it exists. -/
structure Schedule where
  base : Duration
  max : Duration
  jitter : Binary64
  base_le_max : base ≤ max
  jitter_isFraction : jitter.isFraction = true
  deriving DecidableEq

namespace Schedule

def word (d : Duration) : BitVec 128 := BitVec.ofNat 128 d.toNanos

theorem toNat_word (d : Duration) : (word d).toNat = d.toNanos := by
  have h := d.toNanos_le
  simp only [Duration.maxNanos] at h
  simp only [word, BitVec.toNat_ofNat]; omega

def doubled (s : Schedule) (times : Nat) : BitVec 128 := word s.base <<< times

/-- Whether the base doubled some times is above the ceiling, decided without doubling it. -/
def isAbove (s : Schedule) (times : Nat) : Bool :=
  decide (128 ≤ times) || decide (word s.max >>> times < word s.base)

/-- The delay after an attempt before any jitter: the base, doubled once for each attempt before it,
but no more than the ceiling. -/
def nominal (s : Schedule) (attempt : UInt32) : Duration :=
  if word s.base = 0 then .zero
  else if s.isAbove attempt.toNat then s.max
  else .ofNanos (s.doubled attempt.toNat).toNat

/-- What chance takes off a length of time, in nanoseconds. Chance gives a part `u` of one; the
closer that is to one, the less is taken off. -/
def reduction (s : Schedule) (nanos : Nat) (u : Binary64) : Binary64 :=
  ((Binary64.ofNat nanos).mul s.jitter).mul (Binary64.one.sub u)

def shortened (s : Schedule) (nominal : Duration) (u : Binary64) : Duration :=
  min (.ofNanos (nominal.toNanos - (s.reduction nominal.toNanos u).truncate)) s.max

def isRandom (s : Schedule) : Bool := decide (s.base ≠ .zero) && !s.jitter.isZero

/-- Schedules are compared by their numbers: both zeros are the same jitter. -/
def same (s t : Schedule) : Bool :=
  s.base == t.base && s.max == t.max && s.jitter.equal t.jitter

end Schedule

end RetryDelay
