import RetryDelay.Proofs.Deviation

/-!
Which random numbers the delays of a backoff take. A nominal delay is zero just if the base is, so
the schedule alone says whether a delay takes a number, and the number of a delay is known from its
position among all delays. Where none is taken the formula would take nothing off, whatever part of
one it was given.
-/

set_option autoImplicit false

namespace RetryDelay

open Binary64

namespace Binary64

theorem one_sub_of_isFraction {u : Binary64} (hu : u.isFraction = true) :
    ∃ rest h, one.sub u = .finite false rest h ∧ rest ≤ unit := by
  obtain ⟨negative, h, he, hle, hneg, -⟩ := finite_of_isFraction hu
  have hsigned : signed negative u.units = u.units := by
    cases negative with
    | false => rfl
    | true => rw [hneg rfl]; rfl
  have hdifference : signed false unit - signed negative u.units = (unit - u.units : Nat) := by
    rw [hsigned, Nat.cast_sub hle]
    rfl
  rw [he]
  simp only [one, sub, hdifference]
  by_cases hzero : unit - u.units = 0
  · rw [hzero]
    exact ⟨0, representable_zero, by simp, Nat.zero_le _⟩
  · have hround : nearest (unit - u.units) 1 ≤ unit :=
      nearest_le_of_representable Nat.one_pos representable_unit (by omega)
    have hlt := Nat.lt_of_le_of_lt hround representable_unit.2
    refine ⟨_, representable_nearest hlt, ?_, hround⟩
    rw [if_neg (by omega), decide_eq_false (by omega), Int.natAbs_natCast]
    exact round_of_lt hlt

theorem toRat_uniform (x : UInt64) :
    (uniform x).toRat = ((x.toNat / 2 ^ 12 : Nat) : ℚ) / 2 ^ 52 := by
  rw [← toNat_shiftRight_twelve, ← grains_div_unit, uniform, toRat, ← grain, signed,
    if_neg Bool.false_ne_true, Int.cast_natCast]

end Binary64

theorem Schedule.shortened_nominal {s : Schedule} {u : Binary64} (hu : u.isFraction = true)
    (h : s.base.toNanos = 0 ∨ s.jitter.toRat = 0) (attempt : UInt32) :
    s.shortened (s.nominal attempt) u = s.nominal attempt := by
  obtain ⟨rest, hrep, hrest, hle⟩ := one_sub_of_isFraction hu
  have hnothing : shortening (s.target attempt.toNat) s.jitter.units rest = 0 := by
    rcases h with hb | hj
    · rw [target_eq_zero.2 hb, shortening_zero_length]
    · rw [(toRat_eq_zero s.jitter_isFraction).1 hj, shortening_zero_jitter]
  refine Duration.eq_of_toNanos_eq ?_
  rw [toNanos_shortened (s.nominal_le_max attempt), toNanos_nominal,
    s.truncate_reduction (s.target_le_maxNanos _) hrest hle, hnothing, Nat.zero_div, Nat.sub_zero]

namespace Backoff
variable {b : Backoff}

theorem delay_of_draws (h : b.Draws) (attempt : UInt32) : (b.delay attempt).value
    = (b.schedule.shortened (b.schedule.nominal attempt) (uniform b.generator.next.1),
        { b with generator := b.generator.next.2 }) := by
  rcases b.delay_cases attempt with ⟨hb, -⟩ | ⟨-, hj, -⟩ | ⟨-, -, d, hd, he⟩
  · exact absurd hb h.1
  · exact absurd hj h.2
  · rw [he, hd]

theorem delay_of_not_draws (h : ¬b.Draws) {u : Binary64} (hu : u.isFraction = true)
    (attempt : UInt32) :
    (b.delay attempt).value = (b.schedule.shortened (b.schedule.nominal attempt) u, b) := by
  rcases b.delay_cases attempt with ⟨hb, he⟩ | ⟨-, hj, he⟩ | ⟨hb, hj, -⟩
  · rw [he, Schedule.shortened_nominal hu (.inl hb),
      Schedule.nominal_eq_zero.2 (Schedule.target_eq_zero.2 hb)]
    rfl
  · rw [he, Schedule.shortened_nominal hu (.inr hj)]
    rfl
  · exact absurd ⟨hb, hj⟩ h

theorem delays_of_draws (h : b.Draws) (attempts : List UInt32) : (b.delays attempts).value
    = (attempts.mapIdx fun i attempt => (b.schedule.shortened (b.schedule.nominal attempt)
        (uniform (b.generator.stream (b.generator.taken + i))), 1),
      { b with generator :=
        { b.generator with taken := b.generator.taken + attempts.length } }) := by
  induction attempts generalizing b with
  | nil => rfl
  | cons attempt attempts ih =>
    have hnext : Draws { b with generator := b.generator.next.2 } := h
    have hposition (i : Nat) : b.generator.taken + 1 + i = b.generator.taken + (i + 1) := by omega
    rw [delays_cons, delay_of_draws h, ih hnext, List.mapIdx_cons]
    simp only [Generator.next, hposition, List.length_cons, Nat.add_zero, Nat.add_sub_cancel_left]

theorem delays_of_not_draws (h : ¬b.Draws) {u : Nat → Binary64}
    (hu : ∀ i, (u i).isFraction = true) (attempts : List UInt32) : (b.delays attempts).value
    = (attempts.mapIdx fun i attempt =>
        (b.schedule.shortened (b.schedule.nominal attempt) (u i), 0), b) := by
  induction attempts generalizing u with
  | nil => rfl
  | cons attempt attempts ih =>
    rw [delays_cons, delay_of_not_draws h (hu 0), ih fun i => hu (i + 1), List.mapIdx_cons,
      Nat.sub_self]

/-- A backoff whose base and jitter are not zero takes one random number for each delay, and any
other takes none and stays as it was. In either case the delay at a position is what the formula
makes of its own attempt and of the number at its position, or of any number between zero and one if
none is taken; the other attempts have no part in it. -/
theorem delays_by_position (s : Schedule) (g : Generator) (attempts : List UInt32) :
    let b : Backoff := ⟨s, g⟩
    let draws := s.base.toNanos ≠ 0 ∧ s.jitter.toRat ≠ 0
    (draws → (b.delays attempts).value
      = (attempts.mapIdx fun i attempt =>
          (s.shortened (s.nominal attempt) (uniform (g.stream (g.taken + i))), 1),
        ⟨s, { g with taken := g.taken + attempts.length }⟩)) ∧
    (¬draws → ∀ u : Nat → Binary64, (∀ i, (u i).isFraction = true) → (b.delays attempts).value
      = (attempts.mapIdx fun i attempt => (s.shortened (s.nominal attempt) (u i), 0), b)) ∧
    (∀ x : UInt64, (uniform x).toRat = ((x.toNat / 2 ^ 12 : Nat) : ℚ) / 2 ^ 52) ∧
    ∀ (others : List UInt32) (i : Nat), others[i]? = attempts[i]? →
      (b.delays others).value.1[i]? = (b.delays attempts).value.1[i]? := by
  intro b draws
  have hzero (_ : Nat) : zero.isFraction = true :=
    isFraction_iff.2 ⟨_, _, _, rfl, Int.le_refl 0, Nat.zero_le _⟩
  refine ⟨fun h => delays_of_draws (b := b) h attempts,
    fun h u hu => delays_of_not_draws (b := b) h hu attempts, toRat_uniform, fun others i hi => ?_⟩
  by_cases h : b.Draws
  · rw [delays_of_draws h, delays_of_draws h, List.getElem?_mapIdx, List.getElem?_mapIdx, hi]
  · rw [delays_of_not_draws h hzero, delays_of_not_draws h hzero, List.getElem?_mapIdx,
      List.getElem?_mapIdx, hi]

end Backoff

end RetryDelay
