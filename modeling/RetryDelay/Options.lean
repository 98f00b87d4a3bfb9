import RetryDelay.Builder

set_option autoImplicit false

namespace RetryDelay

structure Options where
  baseMs : Int64
  maxMs : Int64
  jitter : Binary64
  deriving DecidableEq

inductive Field where
  | baseMs
  | maxMs
  | jitter
  deriving DecidableEq

def Field.name : Field → String
  | baseMs => "base_ms"
  | maxMs => "max_ms"
  | jitter => "jitter"

def Field.all : List Field := [.baseMs, .maxMs, .jitter]

def Field.ofName? (name : String) : Option Field := all.find? fun f => f.name == name

theorem Field.ofName?_name (f : Field) : ofName? f.name = some f := by
  cases f <;> decide

namespace Options

def default : Options := ⟨10, 1000, .one⟩

def none : Options := ⟨0, 0, .one⟩

def durationOf (field : Field) (ms : Int64) : Logged (Except Rejection Duration) :=
  if ms < 0 then do
    let error := .negativeDelay field.name ms
    Logged.tell (.rejected error)
    return .error error
  else return .ok (.ofMillis ms.toUInt64)

/-- Builds the policy with these options and generators from entropy. A negative delay is
rejected before the builder sees the options, so each rejection is reported once. -/
def build (c : Options) : Logged (Except Rejection Policy) := do
  match ← durationOf .baseMs c.baseMs with
  | .error e => pure (.error e)
  | .ok base =>
    match ← durationOf .maxMs c.maxMs with
    | .error e => pure (.error e)
    | .ok max => (Builder.ofSettings [.base base, .max max, .jitter c.jitter]).build

def millisOf (d : Duration) : Int64 := Int64.ofInt (min d.toMillis (2 ^ (63 : Nat) - 1))

/-- The options of a policy. What is shorter than a millisecond is lost, and so is the source of
its generators. -/
def ofPolicy (s : Policy) : Options :=
  ⟨millisOf s.schedule.base, millisOf s.schedule.max, s.schedule.jitter⟩

def listing (c : Options) : String :=
  "BackoffConfig \x7b base_ms: " ++ toString c.baseMs.toInt ++ ", max_ms: "
    ++ toString c.maxMs.toInt ++ ", jitter: " ++ c.jitter.text .listing ++ " \x7d"

end Options

end RetryDelay
