import RetryDelay.Random.Generator

/-!
Factories make a fresh generator for everyone who asks. They are kept in a pool and shared by their
number in it, so whoever holds that number advances the same factory. The pool also holds what the
surroundings supply as entropy, one stream for each generator that asks for it.
-/

set_option autoImplicit false

namespace RetryDelay

inductive Factory where
  /-- The `n`th generator, from zero, is that of `seed + n`; `issued` counts them. Both are words
  that wrap around. -/
  | seeded (seed issued : UInt64)
  | constant (stream : Nat → UInt64)
  | entropy

namespace Factory

def ofSeed (seed : UInt64) : Factory := .seeded seed 0

/-- A factory whose every generator gives the listed numbers over and over; an empty list gives
zeros. -/
def ofList (numbers : List UInt64) : Factory :=
  .constant fun n => numbers[n % numbers.length]?.getD 0

def issued? : Factory → Option UInt64
  | .seeded _ issued => some issued
  | _ => none

def listing? : Factory → Option String
  | .seeded seed issued => some ("SeededRngFactory \x7b seed: " ++ toString seed.toNat
      ++ ", issued: " ++ toString issued.toNat ++ " \x7d")
  | _ => none

end Factory

/-- Where generators come from: entropy, or the factory with a number in the pool. -/
inductive Source where
  | entropy
  | custom (factory : Nat)
  deriving DecidableEq

def Source.listing : Source → String
  | .entropy => "Entropy"
  | .custom _ => "Custom"

structure Pool where
  factories : List Factory
  entropy : Nat → Nat → UInt64
  entropyTaken : Nat

namespace Pool

def empty (entropy : Nat → Nat → UInt64) : Pool := ⟨[], entropy, 0⟩

def register (p : Pool) (f : Factory) : Source × Pool :=
  (.custom p.factories.length, { p with factories := p.factories ++ [f] })

def factory? (p : Pool) : Source → Option Factory
  | .entropy => none
  | .custom n => p.factories[n]?

def newEntropic (p : Pool) : Generator × Pool :=
  ({ Generator.fresh (p.entropy p.entropyTaken) with predictable := false },
    { p with entropyTaken := p.entropyTaken + 1 })

/-- A fresh generator from a source. Only here is a factory that counts advanced. -/
def newGenerator (p : Pool) (source : Source) : Generator × Pool :=
  match source with
  | .entropy => p.newEntropic
  | .custom n =>
    match p.factories[n]? with
    | some (.seeded seed issued) =>
      (Generator.ofSeed (seed + issued),
        { p with factories := p.factories.set n (.seeded seed (issued + 1)) })
    | some (.constant stream) => (Generator.fresh stream, p)
    | some .entropy => p.newEntropic
    | none => p.newEntropic

end Pool

end RetryDelay
