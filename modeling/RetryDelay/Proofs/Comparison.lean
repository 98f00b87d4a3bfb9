import RetryDelay.Proofs.Deviation

/-!
Two delays of the same nominal length. More chance makes a delay longer and more jitter makes it
shorter, or leaves it as it is: each rounding on the way keeps the order, and so do the cut to whole
nanoseconds and the difference that stops at zero. A delay without jitter is no exception, for the
formula takes nothing off it.
-/

set_option autoImplicit false

namespace RetryDelay

open Binary64

theorem complement_le_complement {x y : UInt64} (h : x.toNat / 2 ^ 12 ≤ y.toNat / 2 ^ 12) :
    complement y ≤ complement x := by
  rw [complement_eq_grains, complement_eq_grains]
  exact Nat.mul_le_mul_right grain (Nat.sub_le_sub_left h _)

theorem Binary64.units_le_units {x y : Binary64} (hx : x.isFraction = true)
    (hy : y.isFraction = true) (h : x.toRat ≤ y.toRat) : x.units ≤ y.units := by
  obtain ⟨-, -, -, -, -, hxr⟩ := finite_of_isFraction hx
  obtain ⟨-, -, -, -, -, hyr⟩ := finite_of_isFraction hy
  rw [hxr, hyr, div_le_div_iff_of_pos_right unit_pos_rat] at h
  exact_mod_cast h

theorem Schedule.target_congr {s s' : Schedule} (hbase : s'.base = s.base) (hmax : s'.max = s.max)
    (n : Nat) : s'.target n = s.target n := by
  rw [target, target, hbase, hmax]

namespace Backoff

theorem delay_le_delay {s s' : Schedule} {g g' : Generator} (attempt : UInt32)
    (hbase : s'.base = s.base) (hmax : s'.max = s.max)
    (hjitter : s.jitter.toRat ≤ s'.jitter.toRat)
    (hdraw : g.next.1.toNat / 2 ^ 12 ≤ g'.next.1.toNat / 2 ^ 12) :
    (delay attempt ⟨s', g⟩).value.1 ≤ (delay attempt ⟨s, g'⟩).value.1 := by
  have hunits := units_le_units s.jitter_isFraction s'.jitter_isFraction hjitter
  have hshortening := shortening_mono (t := s.target attempt.toNat) hunits
    (complement_le_complement hdraw)
  rw [Duration.le_def, toNanos_delay, toNanos_delay, Schedule.target_congr hbase hmax]
  exact Nat.sub_le_sub_left (Nat.div_le_div_right hshortening) _

/-- Of two uses of one schedule the one with the greater random number has the longer delay, and of
two schedules with the same base and ceiling the one with less jitter has it, for the same number;
that goes for a schedule without jitter too, which takes no number. -/
theorem delay_mono_draw_anti_jitter (s s' : Schedule) (attempt : UInt32) (g g' : Generator)
    (hbase : s'.base = s.base) (hmax : s'.max = s.max)
    (hjitter : s.jitter.toRat ≤ s'.jitter.toRat)
    (hdraw : g.next.1.toNat / 2 ^ 12 ≤ g'.next.1.toNat / 2 ^ 12) :
    (delay attempt ⟨s, g⟩).value.1 ≤ (delay attempt ⟨s, g'⟩).value.1 ∧
      (delay attempt ⟨s', g⟩).value.1 ≤ (delay attempt ⟨s, g⟩).value.1 :=
  ⟨delay_le_delay attempt rfl rfl (le_refl _) hdraw,
    delay_le_delay attempt hbase hmax hjitter (Nat.le_refl _)⟩

/-- A length that is rounded upwards, with the negative zero and with seven tenths for its jitter,
and neighbouring random numbers. -/
theorem delay_mono_draw_anti_jitter_zero :
    let s : Schedule := {
      base := .ofNanos (2 ^ 53 + 7)
      max := .ofNanos (2 ^ 53 + 7)
      jitter := .finite true 0 representable_zero
      base_le_max := by decide +kernel
      jitter_isFraction := by decide +kernel }
    let s' : Schedule := { s with
      jitter := .finite false (6305039478318694 * 2 ^ 1021) (by decide +kernel)
      jitter_isFraction := by decide +kernel }
    let g : Generator := .fresh fun _ => 4095
    let g' : Generator := .fresh fun _ => 4096
    (s'.base = s.base ∧ s'.max = s.max ∧ s.jitter.toRat ≤ s'.jitter.toRat ∧
      g.next.1.toNat / 2 ^ 12 ≤ g'.next.1.toNat / 2 ^ 12) ∧
    (delay 0 ⟨s, g⟩).value.1 ≤ (delay 0 ⟨s, g'⟩).value.1 ∧
      (delay 0 ⟨s', g⟩).value.1 ≤ (delay 0 ⟨s, g⟩).value.1 := by
  intro s s' g g'
  have hjitter : s.jitter.toRat ≤ s'.jitter.toRat := by decide +kernel
  have hdraw : g.next.1.toNat / 2 ^ 12 ≤ g'.next.1.toNat / 2 ^ 12 := by decide
  exact ⟨⟨rfl, rfl, hjitter, hdraw⟩,
    delay_mono_draw_anti_jitter s s' 0 g g' rfl rfl hjitter hdraw⟩

end Backoff

end RetryDelay
