import Mathlib.Data.Finset.Card
import Mathlib.Order.Interval.Finset.Nat
import RetryDelay.Proofs.Deviation

/-!
How evenly chance spreads a delay. The more chance leaves of one, the more is taken off, so the
random numbers that take off a given number of nanoseconds are those up to some threshold. Two
roundings and the cut to whole nanoseconds move that threshold by no more than a few of the `2 ^ 52`
numbers from where an exact computation has it.
-/

set_option autoImplicit false

namespace RetryDelay

open Binary64

theorem Binary64.representable_mul_unit {n : Nat} (h : n ≤ 2 ^ 53) : Representable (n * unit) := by
  rcases Nat.lt_or_eq_of_le h with hlt | rfl
  · unfold unit
    apply representable_mul_pow_of_le hlt
    decide
  · rw [pow_mul_unit]
    apply representable_pow
    decide

theorem exists_threshold {P : Nat → Prop} {n : Nat} (hmono : ∀ a b, a ≤ b → P a → P b)
    (hzero : ¬P 0) (hn : P n) : ∃ k, 0 < k ∧ k ≤ n ∧ ∀ a, P a ↔ k ≤ a := by
  classical
  have hex : ∃ a, P a := ⟨n, hn⟩
  refine ⟨Nat.find hex, ?_, Nat.find_min' hex hn, fun a => ⟨Nat.find_min' hex, fun h => ?_⟩⟩
  · exact Nat.pos_of_ne_zero fun h => hzero (h ▸ Nat.find_spec hex)
  · exact hmono _ a h (Nat.find_spec hex)

theorem card_filter_sub {P : Nat → Prop} [DecidablePred P] {n k : Nat} (hpos : 0 < k)
    (h : ∀ m < n, P m ↔ k ≤ n - m) : ((Finset.range n).filter P).card = n + 1 - k := by
  have hset : (Finset.range n).filter P = Finset.range (n + 1 - k) := by
    ext m
    rw [Finset.mem_filter, Finset.mem_range, Finset.mem_range]
    constructor
    · rintro ⟨hm, hp⟩
      have hk := (h m hm).1 hp
      omega
    · intro hm
      have hlt : m < n := by omega
      exact ⟨hlt, (h m hlt).2 (by omega)⟩
  rw [hset, Finset.card_range]

section
variable {t jitter r k : Nat}

theorem le_shortening_unit (ht : t ≤ 2 ^ 53) (hr : r ≤ 2 ^ 53) (h : r * unit ≤ t * jitter) :
    r * unit ≤ shortening t jitter unit := by
  have hrep := representable_mul_unit hr
  rw [shortening, nearest_one_of_representable (representable_mul_unit ht)]
  -- Whole nanoseconds of that number are a double, so no product that reaches them rounds below.
  refine le_nearest_of_representable unit_pos hrep (Nat.mul_le_mul_right unit ?_)
  refine le_nearest_of_representable unit_pos hrep ?_
  calc r * unit * unit ≤ t * jitter * unit := Nat.mul_le_mul_right unit h
    _ = t * unit * jitter := by ring

theorem le_of_le_shortening (hk : k ≤ 2 ^ 52) (hr : 1 ≤ r)
    (h : r * unit ≤ shortening t jitter (k * grain)) :
    (r : ℚ) ≤ t * (jitter / unit) * (k / 2 ^ 52) * (1 + 1 / 2 ^ 51) := by
  have hu := unit_pos_rat
  have hge : unit ≤ shortening t jitter (k * grain) :=
    Nat.le_trans (Nat.le_mul_of_pos_left unit hr) h
  have hle := shortening_le_exact (grains_le_unit hk) hge
  rw [grains_div_unit] at hle
  refine le_trans ?_ hle
  rw [le_div_iff₀ hu]
  exact_mod_cast h

theorem lt_of_shortening_lt (hk : k ≤ 2 ^ 52) (hr : 1 ≤ r)
    (h : shortening t jitter (k * grain) < r * unit) :
    (t * (jitter / unit) * (k / 2 ^ 52) * (1 - 1 / 2 ^ 51) : ℚ) < r := by
  have hu := unit_pos_rat
  have hrq : (1 : ℚ) ≤ r := by exact_mod_cast hr
  have hexact := exact_shortening_nonneg t jitter (k * grain)
  rcases lt_or_ge ((t : ℚ) * (jitter / unit) * ((k * grain : Nat) / unit)) 1 with hlt | hge
  · rw [grains_div_unit] at hlt hexact
    have hless := mul_le_mul_of_nonneg_left (show (1 - 1 / 2 ^ 51 : ℚ) ≤ 1 by norm_num) hexact
    linarith
  · have hle := exact_le_shortening (grains_le_unit hk) hge
    rw [grains_div_unit] at hle
    refine lt_of_le_of_lt hle ?_
    rw [div_lt_iff₀ hu]
    exact_mod_cast h

theorem abs_count_sub_le {a : ℚ} (ha : 0 < a) (hpos : 0 < k) (hk : k ≤ 2 ^ 52)
    (hup : (r : ℚ) ≤ a * (k / 2 ^ 52) * (1 + 1 / 2 ^ 51))
    (hlow : a * ((k - 1 : Nat) / 2 ^ 52) * (1 - 1 / 2 ^ 51) < r) :
    |((2 ^ 52 + 1 - k : Nat) : ℚ) - 2 ^ 52 * (1 - r / a)| ≤ 3 := by
  have hkq : (k : ℚ) ≤ 2 ^ 52 := by exact_mod_cast hk
  have hcount : ((2 ^ 52 + 1 - k : Nat) : ℚ) = 2 ^ 52 + 1 - k := by
    rw [Nat.cast_sub (by omega)]; norm_num
  have hbefore : ((k - 1 : Nat) : ℚ) = k - 1 := by rw [Nat.cast_sub hpos, Nat.cast_one]
  have hq : (r : ℚ) / a ≤ k / 2 ^ 52 * (1 + 1 / 2 ^ 51) := by
    rw [div_le_iff₀ ha]; linarith
  have hq' : ((k : ℚ) - 1) / 2 ^ 52 * (1 - 1 / 2 ^ 51) < r / a := by
    rw [lt_div_iff₀ ha, ← hbefore]; linarith
  rw [hcount, abs_le]
  generalize (r : ℚ) / a = q at hq hq' ⊢
  constructor <;> linarith

/-- From some part of one on, chance takes off `r` nanoseconds or more, and that part is near the
exact one. -/
theorem exists_shortening_threshold (ht : t ≤ 2 ^ 53) (hr : 1 ≤ r) (hrt : r ≤ t)
    (h : r * unit ≤ t * jitter) :
    ∃ k, 0 < k ∧ (∀ part, r * unit ≤ shortening t jitter (part * grain) ↔ k ≤ part) ∧
      |((2 ^ 52 + 1 - k : Nat) : ℚ) - 2 ^ 52 * (1 - r / (t * (jitter / unit)))| ≤ 3 := by
  have hfull : r * unit ≤ shortening t jitter (2 ^ 52 * grain) := by
    rw [← unit_eq_grains]
    exact le_shortening_unit ht (by omega) h
  have hnone : ¬r * unit ≤ shortening t jitter (0 * grain) := by
    rw [Nat.zero_mul, shortening, Nat.mul_zero, nearest_zero, Nat.not_le]
    exact Nat.mul_pos hr unit_pos
  obtain ⟨k, hpos, hk, hiff⟩ := exists_threshold
    (P := fun part => r * unit ≤ shortening t jitter (part * grain))
    (fun a b hab ha => Nat.le_trans ha
      (shortening_mono (Nat.le_refl jitter) (Nat.mul_le_mul_right grain hab)))
    hnone hfull
  refine ⟨k, hpos, hiff, abs_count_sub_le ?_ hpos hk ?_ ?_⟩
  · have hu := unit_pos_rat
    have hone : (0 : ℚ) < r * unit := mul_pos (by exact_mod_cast hr) hu
    have hle : (r * unit : ℚ) ≤ t * jitter := by exact_mod_cast h
    rw [mul_div_assoc']
    exact div_pos (lt_of_lt_of_le hone hle) hu
  · exact le_of_le_shortening hk hr ((hiff k).2 (Nat.le_refl k))
  · refine lt_of_shortening_lt (by omega) hr (Nat.lt_of_not_le fun hle => ?_)
    have hk' := (hiff (k - 1)).1 hle
    omega

end

namespace Backoff

theorem toNanos_delay_le_sub_iff (attempt : UInt32) (b : Backoff) {r : Nat}
    (hr : r ≤ b.schedule.target attempt.toNat) :
    ((b.delay attempt).value.1.toNanos : ℚ) ≤ b.schedule.target attempt.toNat - r ↔
      r * unit ≤ shortening (b.schedule.target attempt.toNat) b.schedule.jitter.units
        (complement b.generator.next.1) := by
  rw [← Nat.le_div_iff_mul_le unit_pos, toNanos_delay, le_sub_iff_add_le]
  norm_cast
  omega

/-- Of all `2 ^ 52` equally likely random numbers, those that shorten a delay by `r` nanoseconds or
more are as many as for the uniform law on the delays from `t * (1 - j)` to `t`, but for three. Here
`g m` is any generator whose next number has `m` in its upper 52 places. -/
theorem delay_spread (s : Schedule) (attempt : UInt32) (g : Nat → Generator) (r : Nat)
    (hg : ∀ m < 2 ^ 52, (g m).next.1.toNat / 2 ^ 12 = m)
    (ht : (s.nominal attempt).toNanos ≤ 2 ^ 53) (hr : 1 ≤ r)
    (hrj : (r : ℚ) ≤ (s.nominal attempt).toNanos * s.jitter.toRat) :
    let t : ℚ := (s.nominal attempt).toNanos
    |(((Finset.range (2 ^ 52)).filter fun m =>
        ((Backoff.delay attempt ⟨s, g m⟩).value.1.toNanos : ℚ) ≤ t - r).card : ℚ)
      - 2 ^ 52 * (1 - r / (t * s.jitter.toRat))| ≤ 3 := by
  simp only [Schedule.toNanos_nominal] at ht hrj ⊢
  obtain ⟨-, hj1⟩ := toRat_mem_of_isFraction s.jitter_isFraction
  obtain ⟨-, -, -, -, -, hj⟩ := finite_of_isFraction s.jitter_isFraction
  have hrt : r ≤ s.target attempt.toNat := by
    exact_mod_cast hrj.trans (mul_le_of_le_one_right (Nat.cast_nonneg _) hj1)
  have hexact : r * unit ≤ s.target attempt.toNat * s.jitter.units := by
    rw [hj, mul_div_assoc', le_div_iff₀ unit_pos_rat] at hrj
    exact_mod_cast hrj
  obtain ⟨k, hpos, hiff, hcount⟩ := exists_shortening_threshold ht hr hrt hexact
  have hdraws : ∀ m < 2 ^ 52, ((Backoff.delay attempt ⟨s, g m⟩).value.1.toNanos : ℚ)
      ≤ s.target attempt.toNat - r ↔ k ≤ 2 ^ 52 - m := by
    intro m hm
    rw [← hiff, toNanos_delay_le_sub_iff attempt ⟨s, g m⟩ hrt, complement_eq_grains, hg m hm]
  rw [card_filter_sub hpos hdraws, hj]
  exact hcount

/-- The greatest length that is not rounded, with three tenths of it under jitter as far as a double
tells them. -/
theorem delay_spread_three_tenths :
    let s : Schedule := {
      base := .ofNanos (2 ^ 53)
      max := .ofNanos (2 ^ 53)
      jitter := .finite false (5404319552844595 * 2 ^ 1020) (by decide +kernel)
      base_le_max := by decide +kernel
      jitter_isFraction := by decide +kernel }
    let g : Nat → Generator := fun m => .fresh fun _ => UInt64.ofNat (m * 2 ^ 12)
    let r : Nat := 1000003
    let t : ℚ := (s.nominal 0).toNanos
    (∀ m < 2 ^ 52, (g m).next.1.toNat / 2 ^ 12 = m) ∧ (s.nominal 0).toNanos ≤ 2 ^ 53 ∧ 1 ≤ r ∧
      (r : ℚ) ≤ (s.nominal 0).toNanos * s.jitter.toRat ∧
      |(((Finset.range (2 ^ 52)).filter fun m =>
          ((Backoff.delay 0 ⟨s, g m⟩).value.1.toNanos : ℚ) ≤ t - r).card : ℚ)
        - 2 ^ 52 * (1 - r / (t * s.jitter.toRat))| ≤ 3 := by
  intro s g r t
  have hg : ∀ m < 2 ^ 52, (g m).next.1.toNat / 2 ^ 12 = m := by
    intro m hm
    show (UInt64.ofNat (m * 2 ^ 12)).toNat / 2 ^ 12 = m
    rw [UInt64.toNat_ofNat']
    omega
  have ht : (s.nominal 0).toNanos ≤ 2 ^ 53 := by decide +kernel
  have hr : 1 ≤ r := by decide
  have hrj : (r : ℚ) ≤ (s.nominal 0).toNanos * s.jitter.toRat := by decide +kernel
  exact ⟨hg, ht, hr, hrj, delay_spread s 0 g r hg ht hr hrj⟩

end Backoff

end RetryDelay
