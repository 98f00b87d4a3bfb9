import RetryDelay.Text.Digits

set_option autoImplicit false

namespace RetryDelay

structure Duration where
  seconds : UInt64
  nanos : UInt32
  nanos_lt : nanos.toNat < 1000000000
  deriving DecidableEq

namespace Duration

def toNanos (d : Duration) : Nat := d.seconds.toNat * 1000000000 + d.nanos.toNat

def maxNanos : Nat := 18446744073709551615999999999

theorem toNanos_le (d : Duration) : d.toNanos ≤ maxNanos := by
  have hs := d.seconds.toNat_lt
  have hn := d.nanos_lt
  simp only [toNanos, maxNanos]; omega

theorem eq_of_toNanos_eq {a b : Duration} (h : a.toNanos = b.toNanos) : a = b := by
  have ha := a.nanos_lt
  have hb := b.nanos_lt
  simp only [toNanos] at h
  have hs : a.seconds = b.seconds := UInt64.toNat_inj.mp (by omega)
  have hn : a.nanos = b.nanos := UInt32.toNat_inj.mp (by omega)
  cases a; cases b; simp_all

/-- The duration of `n` nanoseconds. Each part is cut to its word, so this is exact as far as the
longest duration and no farther. -/
def ofNanos (n : Nat) : Duration where
  seconds := UInt64.ofNat (n / 1000000000)
  nanos := UInt32.ofNat (n % 1000000000)
  nanos_lt := by simp only [UInt32.toNat_ofNat']; omega

theorem toNanos_ofNanos {n : Nat} (h : n ≤ maxNanos) : (ofNanos n).toNanos = n := by
  simp only [maxNanos] at h
  simp only [toNanos, ofNanos, UInt64.toNat_ofNat', UInt32.toNat_ofNat']; omega

@[simp] theorem ofNanos_toNanos (d : Duration) : ofNanos d.toNanos = d :=
  eq_of_toNanos_eq (toNanos_ofNanos d.toNanos_le)

def zero : Duration := ⟨0, 0, by decide⟩

@[simp] theorem toNanos_zero : zero.toNanos = 0 := rfl

theorem toNanos_eq_zero {d : Duration} : d.toNanos = 0 ↔ d = zero :=
  ⟨fun h => eq_of_toNanos_eq h, fun h => h ▸ rfl⟩

def ofMillis (ms : UInt64) : Duration := ofNanos (ms.toNat * 1000000)

@[simp] theorem toNanos_ofMillis (ms : UInt64) : (ofMillis ms).toNanos = ms.toNat * 1000000 := by
  have h := ms.toNat_lt
  exact toNanos_ofNanos (by simp only [maxNanos]; omega)

def toMillis (d : Duration) : Nat := d.toNanos / 1000000

def add? (a b : Duration) : Option Duration :=
  if a.toNanos + b.toNanos ≤ maxNanos then some (ofNanos (a.toNanos + b.toNanos)) else none

theorem add?_eq_none_iff {a b : Duration} :
    a.add? b = none ↔ maxNanos < a.toNanos + b.toNanos := by
  simp only [add?]; split <;> simp <;> omega

theorem toNanos_of_add?_eq_some {a b c : Duration} (h : a.add? b = some c) :
    c.toNanos = a.toNanos + b.toNanos := by
  simp only [add?] at h
  split at h
  next hle => cases h; exact toNanos_ofNanos hle
  next => cases h

instance : LE Duration := ⟨fun a b => a.toNanos ≤ b.toNanos⟩

theorem le_def {a b : Duration} : a ≤ b ↔ a.toNanos ≤ b.toNanos := Iff.rfl

instance (a b : Duration) : Decidable (a ≤ b) := inferInstanceAs (Decidable (a.toNanos ≤ b.toNanos))

instance : Min Duration := minOfLe

theorem toNanos_min (a b : Duration) : (min a b).toNanos = min a.toNanos b.toNanos := by
  simp only [Min.min, le_def]; split <;> rfl

section Writing
open Text

/-- A duration in the largest of the units `s`, `ms`, `µs` and `ns` of which it has at least one,
with as many places as it needs, as in `1.5µs` and `90061.005s`. -/
def chars (d : Duration) : List Char :=
  let n := d.nanos.toNat
  if d.seconds ≠ 0 then digits d.seconds.toNat ++ fraction 9 n ++ ['s']
  else if 1000000 ≤ n then digits (n / 1000000) ++ fraction 6 (n % 1000000) ++ ['m', 's']
  else if 1000 ≤ n then digits (n / 1000) ++ fraction 3 (n % 1000) ++ ['µ', 's']
  else digits n ++ ['n', 's']

def text (d : Duration) : String := String.ofList d.chars

end Writing

end Duration

end RetryDelay
