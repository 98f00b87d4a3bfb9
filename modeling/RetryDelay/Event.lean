import RetryDelay.Rejection

set_option autoImplicit false

namespace RetryDelay

inductive Level where
  | trace
  | debug
  | info
  | warn
  deriving DecidableEq

def Level.name : Level → String
  | trace => "TRACE"
  | debug => "DEBUG"
  | info => "INFO"
  | warn => "WARN"

/-- What an observer is told. Attempts are counted from zero, except where the number of all
attempts made is told. -/
inductive Event where
  | built (base max : Duration) (jitter : Binary64)
  | rejected (error : Rejection)
  | computed (attempt : UInt32) (target delay : Duration)
  | notRetrying (attempt : UInt32) (error : String)
  | exhausted (attempts : UInt32) (error : String)
  | retrying (attempt : UInt32) (delay : Duration) (error : String)
  deriving DecidableEq

namespace Event

def level : Event → Level
  | built .. => .debug
  | rejected _ => .warn
  | computed .. => .trace
  | notRetrying .. => .debug
  | exhausted .. => .warn
  | retrying .. => .info

def message : Event → String
  | built .. => "built backoff strategy"
  | rejected _ => "rejected backoff configuration"
  | computed .. => "computed backoff"
  | notRetrying .. => "not retrying"
  | exhausted .. => "retries exhausted"
  | retrying .. => "retrying after backoff"

def fields : Event → List (String × String)
  | built base max jitter =>
    [("base", base.text), ("max", max.text), ("jitter", jitter.text .message)]
  | rejected error => [("error", error.message)]
  | computed attempt target delay =>
    [("attempt", toString attempt.toNat), ("target", target.text), ("delay", delay.text)]
  | notRetrying attempt error => [("attempt", toString attempt.toNat), ("error", error)]
  | exhausted attempts error => [("attempts", toString attempts.toNat), ("error", error)]
  | retrying attempt delay error =>
    [("attempt", toString attempt.toNat), ("delay", delay.text), ("error", error)]

end Event

/-- A value and the events told while it was computed. -/
structure Logged (α : Type) where
  value : α
  events : List Event

namespace Logged
variable {α β : Type}

def silent (a : α) : Logged α := ⟨a, []⟩

def tell (e : Event) : Logged Unit := ⟨(), [e]⟩

def bind (x : Logged α) (f : α → Logged β) : Logged β :=
  let y := f x.value
  ⟨y.value, x.events ++ y.events⟩

instance : Monad Logged where
  pure := silent
  bind := bind

@[simp] theorem pure_value (a : α) : (pure a : Logged α).value = a := rfl

end Logged

end RetryDelay
