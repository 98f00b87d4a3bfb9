import RetryDelay.Binary64.Layout
import RetryDelay.Duration
import RetryDelay.Text.Quoted

set_option autoImplicit false

namespace RetryDelay
open Text

inductive Rejection where
  | negativeDelay (field : String) (valueMs : Int64)
  | baseAboveMax (base max : Duration)
  | jitterOutOfRange (jitter : Binary64)
  | unreadable (name value : String)
  deriving DecidableEq

namespace Rejection

def message : Rejection → String
  | negativeDelay field valueMs =>
    field ++ " must not be negative, got " ++ toString valueMs.toInt ++ "ms"
  | baseAboveMax base max => "base backoff " ++ base.text ++ " exceeds max backoff " ++ max.text
  | jitterOutOfRange jitter =>
    "jitter fraction must be within [0, 1], got " ++ jitter.text .message
  | unreadable name value =>
    "invalid value " ++ quoted value ++ " for environment variable " ++ name

def listing : Rejection → String
  | negativeDelay field valueMs =>
    "NegativeDuration \x7b field: " ++ quoted field ++ ", value_ms: " ++ toString valueMs.toInt
      ++ " \x7d"
  | baseAboveMax base max =>
    "BaseExceedsMax \x7b base: " ++ base.text ++ ", max: " ++ max.text ++ " \x7d"
  | jitterOutOfRange jitter => "JitterOutOfRange(" ++ jitter.text .listing ++ ")"
  | unreadable name value =>
    "InvalidEnv \x7b var: " ++ quoted name ++ ", value: " ++ quoted value ++ " \x7d"

end Rejection

end RetryDelay
