import RetryDelay.Binary64.Layout
import RetryDelay.Duration
import RetryDelay.Random.Pool
import RetryDelay.Schedule

set_option autoImplicit false

namespace RetryDelay

def Schedule.fields (s : Schedule) : String :=
  "base: " ++ s.base.text ++ ", max: " ++ s.max.text ++ ", jitter: " ++ s.jitter.text .listing

structure Policy where
  schedule : Schedule
  source : Source
  deriving DecidableEq

namespace Policy

def defaultBase : Duration := .ofMillis 10

def defaultMax : Duration := .ofMillis 1000

def defaultJitter : Binary64 := .one

theorem one_isFraction : Binary64.one.isFraction = true :=
  Binary64.isFraction_iff.2 ⟨_, _, _, rfl, Int.natCast_nonneg _, Nat.le_refl _⟩

def default : Policy where
  schedule := {
    base := defaultBase
    max := defaultMax
    jitter := defaultJitter
    base_le_max := by decide
    jitter_isFraction := one_isFraction }
  source := .entropy

def none : Policy where
  schedule := {
    base := .zero
    max := .zero
    jitter := defaultJitter
    base_le_max := by decide
    jitter_isFraction := one_isFraction }
  source := .entropy

/-- Policies are compared by their schedules; where the generators come from does not count. -/
def same (a b : Policy) : Bool := a.schedule.same b.schedule

def summary (s : Policy) : String :=
  "exponential(base=" ++ s.schedule.base.text ++ ", max=" ++ s.schedule.max.text ++ ", jitter="
    ++ s.schedule.jitter.text .message ++ ")"

def listing (s : Policy) : String :=
  "ExponentialStrategy \x7b params: Params \x7b " ++ s.schedule.fields ++ " \x7d, random: "
    ++ s.source.listing ++ " \x7d"

end Policy

end RetryDelay
