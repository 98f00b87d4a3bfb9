import RetryDelay.Event
import RetryDelay.Policy

set_option autoImplicit false

namespace RetryDelay

/-- The schedule of these numbers, or the first fault in them: the jitter is looked at before the
order of the delays. -/
def Schedule.check (base max : Duration) (jitter : Binary64) : Except Rejection Schedule :=
  if hj : jitter.isFraction = true then
    if hb : base ≤ max then .ok ⟨base, max, jitter, hb, hj⟩
    else .error (.baseAboveMax base max)
  else .error (.jitterOutOfRange jitter)

inductive Setting where
  | base (d : Duration)
  | max (d : Duration)
  | jitter (x : Binary64)
  | source (r : Source)
  deriving DecidableEq

structure Builder where
  base : Option Duration
  max : Option Duration
  jitter : Option Binary64
  source : Source
  deriving DecidableEq

namespace Builder

def empty : Builder := ⟨none, none, none, .entropy⟩

def set (b : Builder) : Setting → Builder
  | .base d => { b with base := some d }
  | .max d => { b with max := some d }
  | .jitter x => { b with jitter := some x }
  | .source r => { b with source := r }

def ofSettings (settings : List Setting) : Builder := settings.foldl set empty

def build (b : Builder) : Logged (Except Rejection Policy) := do
  match Schedule.check (b.base.getD Policy.defaultBase) (b.max.getD Policy.defaultMax)
      (b.jitter.getD Policy.defaultJitter) with
  | .error e =>
    Logged.tell (.rejected e)
    return .error e
  | .ok schedule =>
    Logged.tell (.built schedule.base schedule.max schedule.jitter)
    return .ok ⟨schedule, b.source⟩

theorem value_build (b : Builder) : b.build.value =
    (Schedule.check (b.base.getD Policy.defaultBase) (b.max.getD Policy.defaultMax)
      (b.jitter.getD Policy.defaultJitter)).map (⟨·, b.source⟩) := by
  unfold build
  split
  next e h => rw [h]; rfl
  next schedule h => rw [h]; rfl

def optional {α : Type} (text : α → String) : Option α → String
  | none => "None"
  | some a => "Some(" ++ text a ++ ")"

def listing (b : Builder) : String :=
  "ExponentialStrategyBuilder \x7b base: " ++ optional Duration.text b.base ++ ", max: "
    ++ optional Duration.text b.max ++ ", jitter: " ++ optional (Binary64.text .listing) b.jitter
    ++ ", random: " ++ b.source.listing ++ " \x7d"

end Builder

def Policy.ofBounds (base max : Duration) : Logged (Except Rejection Policy) :=
  (Builder.ofSettings [.base base, .max max]).build

end RetryDelay
