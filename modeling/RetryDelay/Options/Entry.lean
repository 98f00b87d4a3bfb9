import RetryDelay.Options
import RetryDelay.Document.Scalar

/-!
Options from the entries of a document, whatever its format. Each key has to be the name of an
option and may occur once, and each value has to fit its option; the first entry at fault decides
the error. Options that do not occur keep their defaults, and the order of the entries does not
matter.
-/

set_option autoImplicit false

namespace RetryDelay
open Document

inductive Expected where
  | integer
  | number
  | options
  deriving DecidableEq

def Expected.name : Expected → String
  | integer => "i64"
  | number => "f64"
  | options => "struct BackoffConfig"

inductive DataError where
  | unknownField (key : String)
  | duplicateField (field : Field)
  | invalidType (found : Value) (expected : Expected)
  | integerOutOfRange (z : Int)
  deriving DecidableEq

def DataError.message (l : Binary64.Layout) : DataError → String
  | unknownField key =>
    "unknown field `" ++ key ++ "`, expected one of `base_ms`, `max_ms`, `jitter`"
  | duplicateField field => "duplicate field `" ++ field.name ++ "`"
  | invalidType found expected =>
    "invalid type: " ++ found.description l ++ ", expected " ++ expected.name
  | integerOutOfRange z =>
    "invalid value: " ++ (Value.integer z).description l ++ ", expected i64"

inductive DocumentError where
  | malformed
  | data (e : DataError)
  deriving DecidableEq

structure Given where
  baseMs : Option Int64
  maxMs : Option Int64
  jitter : Option Binary64
  deriving DecidableEq

namespace Given

def empty : Given := ⟨none, none, none⟩

def has (p : Given) : Field → Bool
  | .baseMs => p.baseMs.isSome
  | .maxMs => p.maxMs.isSome
  | .jitter => p.jitter.isSome

def field? (p : Given) (key : String) : Except DataError Field :=
  match Field.ofName? key with
  | none => .error (.unknownField key)
  | some f => if p.has f then .error (.duplicateField f) else .ok f

def millis? : Value → Except DataError Int64
  | .integer z =>
    match Text.toInt64? z with
    | some ms => .ok ms
    | none => .error (.integerOutOfRange z)
  | v => .error (.invalidType v .integer)

def fraction? : Value → Except DataError Binary64
  | .integer z => .ok (.ofInt z)
  | .float x => .ok x
  | v => .error (.invalidType v .number)

def assign (p : Given) (v : Value) : Field → Except DataError Given
  | .baseMs => (millis? v).map fun ms => { p with baseMs := some ms }
  | .maxMs => (millis? v).map fun ms => { p with maxMs := some ms }
  | .jitter => (fraction? v).map fun x => { p with jitter := some x }

def enter (p : Given) (entry : String × Value) : Except DataError Given :=
  (p.field? entry.1).bind (p.assign entry.2)

def complete (p : Given) : Options :=
  let d := Options.default
  ⟨p.baseMs.getD d.baseMs, p.maxMs.getD d.maxMs, p.jitter.getD d.jitter⟩

def ofEntries (entries : List (String × Value)) : Except DataError Options :=
  (entries.foldlM enter empty).map complete

end Given

end RetryDelay
