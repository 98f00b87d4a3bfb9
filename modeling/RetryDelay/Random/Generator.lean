import RetryDelay.Binary64.Basic
import RetryDelay.Random.ChaCha

/-!
A generator is an endless stream of 64-bit numbers and a count of those already taken. What it gives
next depends on these two alone, so two generators never share state. `uniform` turns a number into
one of `2 ^ 52` equally spaced doubles from zero up to, but not including, one.
-/

set_option autoImplicit false

namespace RetryDelay

structure Generator where
  stream : Nat → UInt64
  taken : Nat
  predictable : Bool

namespace Generator

def fresh (stream : Nat → UInt64) : Generator := ⟨stream, 0, true⟩

def ofSeed (seed : UInt64) : Generator := fresh (ChaCha.numbers seed)

def next (g : Generator) : UInt64 × Generator := (g.stream g.taken, { g with taken := g.taken + 1 })

def take : Nat → Generator → List UInt64 × Generator
  | 0, g => ([], g)
  | n + 1, g =>
    let (x, g) := g.next
    let (xs, g) := take n g
    (x :: xs, g)

end Generator

theorem shiftRight_twelve_lt (x : UInt64) : (x >>> 12).toNat < 2 ^ (52 : Nat) := by
  have h := x.toNat_lt
  rw [UInt64.toNat_shiftRight, show (12 : UInt64).toNat % 64 = 12 by decide,
    Nat.shiftRight_eq_div_pow]
  omega

/-- The upper 52 places of a random number as a part of one. -/
def uniform (x : UInt64) : Binary64 :=
  .finite false ((x >>> 12).toNat * 2 ^ (1022 : Nat))
    (Binary64.representable_mul_pow_of_le (Nat.lt_trans (shiftRight_twelve_lt x) (by decide))
      (by decide))

/-- The units of what a random number leaves of one. -/
def complement (x : UInt64) : Nat := (2 ^ (52 : Nat) - (x >>> 12).toNat) * 2 ^ (1022 : Nat)

theorem complement_add (x : UInt64) :
    complement x + (x >>> 12).toNat * 2 ^ (1022 : Nat) = Binary64.unit := by
  have h := shiftRight_twelve_lt x
  rw [complement, ← Nat.add_mul, Nat.sub_add_cancel (Nat.le_of_lt h), ← Nat.pow_add, Binary64.unit]

theorem complement_le (x : UInt64) : complement x ≤ Binary64.unit := by
  rw [← complement_add x]; apply Nat.le_add_right

theorem complement_pos (x : UInt64) : 0 < complement x := by
  have h := shiftRight_twelve_lt x
  rw [complement]
  exact Nat.mul_pos (Nat.sub_pos_of_lt h) (Nat.pow_pos Nat.two_pos)

theorem representable_complement (x : UInt64) : Binary64.Representable (complement x) :=
  Binary64.representable_mul_pow_of_le (Nat.lt_of_le_of_lt (Nat.sub_le _ _) (by decide))
    (by decide)

theorem one_sub_uniform (x : UInt64) :
    Binary64.one.sub (uniform x)
      = .finite false (complement x) (representable_complement x) := by
  have hc := complement_add x
  have hp := complement_pos x
  have hd : Binary64.signed false Binary64.unit
      - Binary64.signed false ((x >>> 12).toNat * 2 ^ (1022 : Nat)) = complement x := by
    generalize (x >>> 12).toNat * 2 ^ (1022 : Nat) = taken at hc
    simp only [Binary64.signed, Bool.false_eq_true, if_false]; omega
  simp only [Binary64.one, uniform, Binary64.sub, hd]
  rw [if_neg (by omega), decide_eq_false (by omega), Int.natAbs_natCast,
    Binary64.round_one_of_representable (representable_complement x)]

end RetryDelay
