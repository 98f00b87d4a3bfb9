import Mathlib.Data.List.Forall2
import RetryDelay.Proofs.Delay
import RetryDelay.Session.Recipe

set_option autoImplicit false

namespace RetryDelay

open Binary64

/-- A policy that some recipe makes, whatever factories there are. -/
def Policy.Obtainable (s : Policy) : Prop :=
  ∃ (recipe : Recipe) (factories : Names Source) (p p' : Pool)
    (outcome : Logged (Except Rejection Policy)),
    recipe.construct factories p = .ok (outcome, p') ∧ outcome.value = .ok s

theorem Binary64.isFraction_iff_toRat {x : Binary64} : x.isFraction = true ↔
    (∃ negative n h, x = .finite negative n h) ∧ 0 ≤ x.toRat ∧ x.toRat ≤ 1 := by
  constructor
  · intro hx
    obtain ⟨negative, h, he, -⟩ := finite_of_isFraction hx
    exact ⟨⟨negative, _, h, he⟩, toRat_mem_of_isFraction hx⟩
  · rintro ⟨⟨negative, n, h, rfl⟩, hlo, hhi⟩
    have hu := unit_pos_rat
    simp only [toRat, le_div_iff₀ hu, div_le_one hu, zero_mul] at hlo hhi
    have hlo' : 0 ≤ signed negative n := by exact_mod_cast hlo
    refine isFraction_iff.2 ⟨negative, n, h, rfl, hlo', ?_⟩
    have hhi' : signed negative n ≤ (unit : Int) := by exact_mod_cast hhi
    cases negative
    · exact Int.ofNat_le.1 hhi'
    · simp only [signed, if_true] at hlo'
      omega

theorem Schedule.check_of_valid (s : Schedule) : Schedule.check s.base s.max s.jitter = .ok s := by
  simp [Schedule.check, s.jitter_isFraction, s.base_le_max]

def Policy.calls (s : Policy) : List BuilderCall :=
  [.base s.schedule.base, .max s.schedule.max, .jitter s.schedule.jitter, .shared ""]

theorem Policy.obtainable (s : Policy) : s.Obtainable := by
  refine ⟨.builder s.calls, [("", s.source)], .empty fun _ _ => 0, .empty fun _ _ => 0, _, rfl, ?_⟩
  simp [Builder.value_build, Builder.ofSettings, Builder.set, Schedule.check_of_valid, Except.map]

theorem exists_obtainable_iff (base max : Duration) (jitter : Binary64) :
    (∃ s : Policy, s.Obtainable ∧ s.schedule.base = base ∧ s.schedule.max = max ∧
      s.schedule.jitter = jitter) ↔
    base.toNanos ≤ max.toNanos ∧ (∃ negative n h, jitter = .finite negative n h) ∧
      0 ≤ jitter.toRat ∧ jitter.toRat ≤ 1 := by
  constructor
  · rintro ⟨s, -, rfl, rfl, rfl⟩
    exact ⟨s.schedule.base_le_max, isFraction_iff_toRat.1 s.schedule.jitter_isFraction⟩
  · rintro ⟨hle, hj⟩
    exact ⟨⟨⟨base, max, jitter, hle, isFraction_iff_toRat.2 hj⟩, .entropy⟩,
      Policy.obtainable _, rfl, rfl, rfl⟩

/-- Every shift and every cast on the way to a delay keeps its value. -/
structure Schedule.Exact (s : Schedule) (attempt : UInt32) (x : UInt64) : Prop where
  -- The ceiling is shifted only where the count of places is smaller than the word.
  compared : 128 ≤ attempt.toNat ∧ s.isAbove attempt.toNat = true ∨
    attempt.toNat < 128 ∧
      (word s.max >>> attempt.toNat).toNat = s.max.toNanos / 2 ^ attempt.toNat ∧
      s.isAbove attempt.toNat = decide (s.max.toNanos / 2 ^ attempt.toNat < s.base.toNanos)
  doubled : word s.base ≠ 0 → s.isAbove attempt.toNat = false →
    attempt.toNat < 128 ∧ (s.doubled attempt.toNat).toNat = s.base.toNanos * 2 ^ attempt.toNat ∧
      (s.doubled attempt.toNat).toNat ≤ Duration.maxNanos
  reduction : ∃ negative n h,
    s.reduction (s.nominal attempt).toNanos (uniform x) = .finite negative n h ∧
      (negative = true → n = 0) ∧ n / unit ≤ 2 ^ 94
  shortened : (s.nominal attempt).toNanos
      - (s.reduction (s.nominal attempt).toNanos (uniform x)).truncate ≤ Duration.maxNanos

theorem Schedule.exact (s : Schedule) (attempt : UInt32) (x : UInt64) : s.Exact attempt x := by
  have ht := (s.nominal attempt).toNanos_le
  obtain ⟨negative, h, he, hneg⟩ := s.reduction_uniform ht x
  obtain ⟨-, -, -, hj, -⟩ := finite_of_isFraction s.jitter_isFraction
  have hlt := shortening_div_unit_lt_pow ht hj (complement_le x)
  exact ⟨s.isAbove_cases _, doubled_exact, ⟨negative, _, h, he, hneg, hlt.le⟩,
    Nat.le_trans (Nat.sub_le _ _) ht⟩

theorem Backoff.forall₂_delays_le (attempts : List UInt32) (b : Backoff) :
    List.Forall₂ (fun attempt d => d.1.toNanos ≤ b.schedule.target attempt.toNat)
      attempts (b.delays attempts).value.1 := by
  induction attempts generalizing b with
  | nil => exact .nil
  | cons attempt attempts ih =>
    have hhead := toNanos_delay_le attempt b
    have hrest := ih (b.delay attempt).value.2
    rw [schedule_delay] at hrest
    obtain ⟨asked, he⟩ : ∃ asked, b.delay attempt = asked := ⟨_, rfl⟩
    rw [delays_cons, he]
    rw [he] at hhead hrest
    exact .cons hhead hrest

/-- What recipes make is valid, and is all that is valid. Whatever its generator gives, a backoff
answers every attempt, with all words and casts exact and no delay above its target. -/
theorem Policy.valid_and_delays_le :
    (∀ base max jitter, (∃ s : Policy, s.Obtainable ∧ s.schedule.base = base ∧
        s.schedule.max = max ∧ s.schedule.jitter = jitter) ↔
      base.toNanos ≤ max.toNanos ∧ (∃ negative n h, jitter = .finite negative n h) ∧
        0 ≤ jitter.toRat ∧ jitter.toRat ≤ 1) ∧
    ∀ (s : Policy) (g : Generator) (attempts : List UInt32),
      (∀ attempt x, s.schedule.Exact attempt x) ∧
      List.Forall₂ (fun attempt d =>
          d.1.toNanos ≤ min s.schedule.max.toNanos
              (s.schedule.base.toNanos * 2 ^ attempt.toNat) ∧
            d.1.toNanos ≤ s.schedule.max.toNanos)
        attempts (Backoff.delays attempts ⟨s.schedule, g⟩).value.1 := by
  refine ⟨exists_obtainable_iff, fun s g attempts => ⟨s.schedule.exact, ?_⟩⟩
  refine (Backoff.forall₂_delays_le attempts ⟨s.schedule, g⟩).imp fun attempt d hd => ⟨hd, ?_⟩
  exact Nat.le_trans hd (s.schedule.target_le_max _)

end RetryDelay
