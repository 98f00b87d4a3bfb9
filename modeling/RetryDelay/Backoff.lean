import RetryDelay.Event
import RetryDelay.Policy

set_option autoImplicit false

namespace RetryDelay

/-- States that say how long to wait after an attempt, counted from zero, and how they go on. -/
class Pacing (σ : Type) where
  delay : UInt32 → σ → Logged (Duration × σ)

/-- What one use of a policy needs: its schedule and a generator of its own. -/
structure Backoff where
  schedule : Schedule
  generator : Generator

namespace Backoff

/-- The delay after an attempt. A zero nominal delay or zero jitter takes no random number. -/
def delay (attempt : UInt32) (b : Backoff) : Logged (Duration × Backoff) :=
  let nominal := b.schedule.nominal attempt
  if nominal = .zero then pure (.zero, b)
  else if b.schedule.jitter.isZero then pure (nominal, b)
  else
    let (x, generator) := b.generator.next
    let delay := b.schedule.shortened nominal (uniform x)
    do
      Logged.tell (.computed attempt nominal delay)
      pure (delay, { b with generator })

instance : Pacing Backoff := ⟨delay⟩

def delays : List UInt32 → Backoff → Logged (List (Duration × Nat) × Backoff)
  | [], b => pure ([], b)
  | attempt :: attempts, b => do
    let (d, b') ← b.delay attempt
    let (ds, b'') ← delays attempts b'
    pure ((d, b'.generator.taken - b.generator.taken) :: ds, b'')

def isPredictable (b : Backoff) : Bool :=
  b.generator.predictable || !b.schedule.isRandom

def listing (b : Backoff) : String :=
  "ExponentialBackoff \x7b " ++ b.schedule.fields ++ ", .. \x7d"

end Backoff

def Policy.begin (s : Policy) (p : Pool) : Backoff × Pool :=
  let (generator, p) := p.newGenerator s.source
  (⟨s.schedule, generator⟩, p)

end RetryDelay
