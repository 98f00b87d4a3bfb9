import RetryDelay.Options.Entry
import RetryDelay.Document.Json
import RetryDelay.Document.Toml

/-!
Options from documents. A JSON text may hold an object with options by name or an array with options
in their order; it is read from front to back, and the first thing at fault decides the error, be it
the form of the text or its data. A flat TOML document that is not well formed is refused as a
whole, before any of its data are looked at.
-/

set_option autoImplicit false

namespace RetryDelay
open Document Document.Json

namespace Given

def orData {α : Type} (r : Except DataError α) : Except DocumentError α := r.mapError .data

/-- The members of an object after its brace or a comma: a key is looked at before its colon, and a
value before what follows it. -/
def members (p : Given) : List Token → Except DocumentError (Given × List Token)
  | .scalar (.text key) :: ts => do
    let field ← orData (p.field? key)
    match ts with
    | .colon :: t :: ts =>
      match t.value? with
      | none => .error .malformed
      | some v =>
        let p ← orData (p.assign v field)
        match ts with
        | .comma :: ts => members p ts
        | .closeMap :: ts => .ok (p, ts)
        | _ => .error .malformed
    | _ => .error .malformed
  | _ => .error .malformed

def object : List Token → Except DocumentError (Given × List Token)
  | .closeMap :: ts => .ok (empty, ts)
  | ts => empty.members ts

def elements : List Field → Given → List Token →
    Except DocumentError (Given × List Token)
  | field :: fields, p, t :: ts =>
    match t.value? with
    | none => .error .malformed
    | some v => do
      let p ← orData (p.assign v field)
      match ts with
      | .comma :: ts => elements fields p ts
      | .closeSequence :: ts => .ok (p, ts)
      | _ => .error .malformed
  | _, _, _ => .error .malformed

def array : List Token → Except DocumentError (Given × List Token)
  | .closeSequence :: ts => .ok (empty, ts)
  | ts => elements Field.all empty ts

def document (ts : List Token) : Except DocumentError Options := do
  let (p, rest) ← match ts with
    | .openMap :: ts => object ts
    | .openSequence :: ts => array ts
    | .scalar v :: _ => .error (.data (.invalidType v .options))
    | _ => .error .malformed
  if rest = [] then .ok p.complete else .error .malformed

end Given

namespace Options

def ofJson (s : String) : Except DocumentError Options :=
  Given.document (tokens s.toList)

def jsonNumber : Binary64 → List Char
  | .finite negative units h => (Binary64.finite negative units h).chars .json
  | _ => ['n', 'u', 'l', 'l']

def intChars (z : Int) : List Char :=
  Binary64.sign (decide (z < 0)) ++ Text.digits z.natAbs

def toJson (c : Options) : String :=
  String.ofList ("\x7b\"base_ms\":".toList ++ intChars c.baseMs.toInt ++ ",\"max_ms\":".toList
    ++ intChars c.maxMs.toInt ++ ",\"jitter\":".toList ++ jsonNumber c.jitter ++ ['\x7d'])

def ofToml (s : String) : Except DocumentError Options :=
  match Document.Toml.entries? s with
  | Option.none => .error .malformed
  | some es => (Given.ofEntries es).mapError .data

end Options

end RetryDelay
