import RetryDelay.Proofs.Delay

/-!
Partial jitter leaves something of every delay. A double is always above its rounded product with a
jitter below one, since that jitter is below one by half a step or more. What is taken off a length
is such a product with the rounded length; would it reach the length itself, it would be no less
than what the length is rounded to.
-/

set_option autoImplicit false

namespace RetryDelay

namespace Binary64

theorem add_spacing_le {n m : Nat} (hn : Representable n) (hm : Representable m) (h : n < m) :
    n + spacing n ≤ m := by
  have hdvd : spacing n ∣ m :=
    Nat.dvd_trans (spacing_dvd_spacing h.le) (Nat.dvd_of_mod_eq_zero hm.1)
  have hstep := Nat.le_of_dvd (Nat.sub_pos_of_lt h)
    (Nat.dvd_sub hdvd (Nat.dvd_of_mod_eq_zero hn.1))
  omega

theorem two_mul_unit_le {k : Nat} (h : unit < 2 ^ k) : 2 * unit ≤ 2 ^ k := by
  have hk : 1074 < k := by
    by_contra hle
    have hpow := Nat.pow_le_pow_right Nat.two_pos (Nat.le_of_not_lt hle)
    unfold unit at h
    exact absurd h (Nat.not_lt.2 hpow)
  obtain ⟨n, rfl⟩ : ∃ n, k = n + 1 + 1074 := ⟨k - 1075, by omega⟩
  rw [← pow_mul_unit, Nat.pow_succ]
  exact Nat.mul_le_mul_right unit (Nat.le_mul_of_pos_left 2 (Nat.two_pow_pos n))

/-- What is below one is below it by one part in `2 ^ 53`. -/
theorem unit_le_mul_sub {k : Nat} (hk : Representable k) (h : k < unit) :
    unit ≤ 2 ^ 53 * (unit - k) := by
  rcases Nat.lt_or_ge (2 * k) unit with hhalf | hhalf
  · omega
  · have hstep := add_spacing_le hk representable_unit h
    have hlt := lt_mul_spacing k
    have hpow : 2 * unit ≤ 2 ^ 54 * spacing k := by
      rw [spacing, ← Nat.pow_add]
      refine two_mul_unit_le ?_
      rw [spacing] at hlt
      rw [Nat.pow_add]
      omega
    omega

/-- The product is off by half a step at most, and the factor is off one by more. -/
theorem nearest_mul_lt {n k : Nat} (hn : 2 ^ 52 < n) (hk : Representable k)
    (hlt : k < unit) : nearest (n * k) unit < n := by
  by_contra hge
  have hstep : n ≤ 2 ^ 52 * spacing (n * k / unit) := by
    have herror := (nearest_half_step (n * k) unit_pos).1
    have hround := Nat.mul_le_mul_right unit (Nat.le_of_not_lt hge)
    have hoff : n * unit ≤ 2 ^ 53 * (n * unit - n * k) := by
      calc n * unit ≤ n * (2 ^ 53 * (unit - k)) := Nat.mul_le_mul_left n (unit_le_mul_sub hk hlt)
        _ = 2 ^ 53 * (n * (unit - k)) := by ring
        _ = 2 ^ 53 * (n * unit - n * k) := by rw [Nat.mul_sub]
    refine Nat.le_of_mul_le_mul_right ?_ unit_pos
    calc n * unit ≤ 2 ^ 52 * (unit * spacing (n * k / unit)) := by omega
      _ = 2 ^ 52 * spacing (n * k / unit) * unit := by ring
  have hq : n * k / unit < n := by
    rw [Nat.div_lt_iff_lt_mul unit_pos]
    exact Nat.mul_lt_mul_of_pos_left hlt (by omega)
  rcases spacing_eq_one_or_le (n * k / unit) with hone | hmul
  · omega
  · omega

end Binary64

open Binary64

theorem shortening_lt {t jitter rest : Nat} (ht : 0 < t) (htm : t ≤ Duration.maxNanos)
    (hj : Representable jitter) (hlt : jitter < unit) (hr : rest ≤ unit) :
    shortening t jitter rest < t * unit := by
  have hsmall := pow_lt_unit (show 52 < 1074 by decide)
  have hx : unit ≤ nearest (t * unit) 1 := by
    refine le_nearest_of_representable Nat.one_pos representable_unit ?_
    rw [Nat.mul_one]
    exact Nat.le_mul_of_pos_left unit ht
  have hproduct := nearest_mul_lt (Nat.lt_of_lt_of_le hsmall hx) hj hlt
  have hy := representable_product htm hlt.le
  refine Nat.lt_of_le_of_lt (nearest_mul_le hy hr) ?_
  -- A double not below the length is not below what the length is rounded to either.
  by_contra hge
  have hle := nearest_le_of_representable Nat.one_pos hy
    (show t * unit ≤ nearest (nearest (t * unit) 1 * jitter) unit * 1 by omega)
  omega

namespace Backoff

theorem delay_pos (attempt : UInt32) {b : Backoff} (hb : 0 < b.schedule.base.toNanos)
    (hj : b.schedule.jitter.toRat < 1) : 0 < (b.delay attempt).value.1.toNanos := by
  obtain ⟨-, hrep, -, -, -, hr⟩ := finite_of_isFraction b.schedule.jitter_isFraction
  have hlt : b.schedule.jitter.units < unit := by
    rw [hr, div_lt_one unit_pos_rat] at hj
    exact_mod_cast hj
  have ht : 0 < b.schedule.target attempt.toNat :=
    Nat.pos_of_ne_zero fun h0 => hb.ne' (Schedule.target_eq_zero.1 h0)
  have hless := shortening_lt ht (b.schedule.target_le_maxNanos _) hrep hlt
    (complement_le b.generator.next.1)
  rw [toNanos_delay]
  refine Nat.sub_pos_of_lt (Nat.div_lt_of_lt_mul ?_)
  rwa [Nat.mul_comm]

end Backoff

theorem Binary64.eq_one_of_toRat {x : Binary64} (hx : x.isFraction = true) (h : x.toRat = 1) :
    x = .one := by
  obtain ⟨negative, hrep, he, -, hneg, hr⟩ := finite_of_isFraction hx
  have hu : x.units = unit := by
    rw [hr, div_eq_one_iff_eq unit_pos_rat.ne'] at h
    exact_mod_cast h
  have hs : negative = false := by
    cases negative with
    | false => rfl
    | true => exact absurd (hneg rfl) (by rw [hu]; exact unit_pos.ne')
  subst hs
  rw [he]
  simp only [hu, one]

/-- A positive base with a jitter below one leaves a nanosecond of every delay at least, and nothing
but a base of zero or a jitter of one makes a delay zero. -/
theorem Backoff.delay_never_collapses (attempt : UInt32) (b : Backoff) :
    (0 < b.schedule.base.toNanos → b.schedule.jitter.toRat < 1 →
      1 ≤ (b.delay attempt).value.1.toNanos) ∧
    ((b.delay attempt).value.1 = .zero →
      b.schedule.base = .zero ∨ b.schedule.jitter = .one) := by
  refine ⟨fun hb hj => delay_pos attempt hb hj, fun hzero => ?_⟩
  obtain ⟨-, hle⟩ := toRat_mem_of_isFraction b.schedule.jitter_isFraction
  rcases Nat.eq_zero_or_pos b.schedule.base.toNanos with hb | hb
  · exact .inl (Duration.toNanos_eq_zero.1 hb)
  · rcases lt_or_eq_of_le hle with hj | hj
    · have hpos := delay_pos attempt hb hj
      rw [hzero] at hpos
      exact absurd hpos (Nat.lt_irrefl 0)
    · exact .inr (eq_one_of_toRat b.schedule.jitter_isFraction hj)

/-- A length that is rounded upwards, with the greatest double below one for its jitter. -/
theorem Backoff.delay_never_collapses_below_one :
    let b : Backoff := {
      schedule := {
        base := .ofNanos (2 ^ 53 + 3)
        max := .ofNanos (2 ^ 53 + 3)
        jitter := .finite false ((2 ^ 53 - 1) * 2 ^ 1021) (by decide +kernel)
        base_le_max := by decide +kernel
        jitter_isFraction := by decide +kernel }
      generator := .fresh fun _ => 0 }
    0 < b.schedule.base.toNanos ∧ b.schedule.jitter.toRat < 1 ∧
      1 ≤ (b.delay 0).value.1.toNanos := by
  intro b
  have hb : 0 < b.schedule.base.toNanos := by decide +kernel
  have hj : b.schedule.jitter.toRat < 1 := by decide +kernel
  exact ⟨hb, hj, (delay_never_collapses 0 b).1 hb hj⟩

end RetryDelay
