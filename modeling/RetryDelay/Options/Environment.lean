import RetryDelay.Text.Number
import RetryDelay.Options
import RetryDelay.Text.Blank

/-!
Options from environment variables. A variable that is not set, or whose bytes are no text,
leaves its option at the default; the first one whose text is not of its type is an error. White
space around a value does not count, but the error shows the text as it stands.
-/

set_option autoImplicit false

namespace RetryDelay

structure Environment where
  baseMs : Option ByteArray
  maxMs : Option ByteArray
  jitter : Option ByteArray

namespace Environment
open Text

def variableName : Field → String
  | .baseMs => "JITTERBUG_BASE_MS"
  | .maxMs => "JITTERBUG_MAX_MS"
  | .jitter => "JITTERBUG_JITTER"

def bytes? (e : Environment) : Field → Option ByteArray
  | .baseMs => e.baseMs
  | .maxMs => e.maxMs
  | .jitter => e.jitter

def text? (e : Environment) (f : Field) : Option String := (e.bytes? f).bind String.fromUTF8?

/-- The value of a variable, read after trimming; nothing if the variable has no text. -/
def value? {α : Type} (e : Environment) (f : Field) (read : List Char → Option α) :
    Except Rejection (Option α) :=
  match e.text? f with
  | none => .ok none
  | some text =>
    match read (trim text.toList) with
    | none => .error (.unreadable (variableName f) text)
    | some a => .ok (some a)

/-- The defaults, each replaced in its turn by what its variable says. Numbers out of range are left
to whoever builds a policy from them. -/
def options (e : Environment) : Logged (Except Rejection Options) := ExceptT.run do
  let mut c := Options.default
  if let some baseMs ← MonadExcept.ofExcept (e.value? .baseMs readInt64?) then
    c := { c with baseMs }
  if let some maxMs ← MonadExcept.ofExcept (e.value? .maxMs readInt64?) then
    c := { c with maxMs }
  if let some jitter ← MonadExcept.ofExcept (e.value? .jitter readBinary64?) then
    c := { c with jitter }
  return c

theorem options_eq (e : Environment) : e.options = pure (do
    let baseMs ← e.value? .baseMs readInt64?
    let maxMs ← e.value? .maxMs readInt64?
    let jitter ← e.value? .jitter readBinary64?
    let d := Options.default
    return ⟨baseMs.getD d.baseMs, maxMs.getD d.maxMs, jitter.getD d.jitter⟩) := by
  unfold options
  cases e.value? .baseMs readInt64? with
  | error r => rfl
  | ok baseMs =>
    cases e.value? .maxMs readInt64? with
    | error r => cases baseMs <;> rfl
    | ok maxMs =>
      cases e.value? .jitter readBinary64? with
      | error r => cases baseMs <;> cases maxMs <;> rfl
      | ok jitter => cases baseMs <;> cases maxMs <;> cases jitter <;> rfl

end Environment

end RetryDelay
