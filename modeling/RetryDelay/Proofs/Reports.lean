import RetryDelay.Options.Environment
import RetryDelay.Proofs.Acceptance

/-!
What an observer is told of policies. Faults are told in two places, that of a negative delay where
the options are read and any other by the builder, but no construction comes to both: each is told
in one event, which agrees with what is returned and shows the first fault there is. Loading options
from the environment is told in none, whether it fails or not.
-/

set_option autoImplicit false

namespace RetryDelay

open Text

/-- Whether an event tells how a construction came out: a warning with the message of the very error
that is returned, or a note of the very numbers of the policy that is returned. -/
def Event.Reports (event : Event) : Except Rejection Policy → Prop
  | .error r => event = .rejected r ∧ event.level = .warn ∧
      event.message = "rejected backoff configuration" ∧ event.fields = [("error", r.message)]
  | .ok s =>
    event = .built s.schedule.base s.schedule.max s.schedule.jitter ∧ event.level = .debug ∧
      event.message = "built backoff strategy" ∧
      event.fields = [("base", s.schedule.base.text), ("max", s.schedule.max.text),
        ("jitter", s.schedule.jitter.text .message)]

/-- Whether all that is told of a construction is one event, which tells how it came out. -/
def Logged.ToldOnce (made : Logged (Except Rejection Policy)) : Prop :=
  ∃ event, made.events = [event] ∧ event.Reports made.value

def Logged.rejected (r : Rejection) : Logged (Except Rejection Policy) := ⟨.error r, [.rejected r]⟩

theorem Logged.toldOnce_rejected (r : Rejection) : (rejected r).ToldOnce :=
  ⟨.rejected r, rfl, rfl, rfl, rfl, rfl⟩

/-- The event that numbers come to, whoever builds a policy from them: the jitter is looked at
before the order of the delays. -/
def Event.ofNumbers (base max : Duration) (jitter : Binary64) : Event :=
  if jitter.isFraction = false then .rejected (.jitterOutOfRange jitter)
  else if max.toNanos < base.toNanos then .rejected (.baseAboveMax base max)
  else .built base max jitter

namespace Builder

theorem toldOnce_build (b : Builder) : b.build.ToldOnce := by
  unfold build
  split
  next e _ => exact ⟨.rejected e, rfl, rfl, rfl, rfl, rfl⟩
  next s _ => exact ⟨.built s.base s.max s.jitter, rfl, rfl, rfl, rfl, rfl⟩

theorem events_build (b : Builder) : b.build.events = [.ofNumbers (b.base.getD Policy.defaultBase)
    (b.max.getD Policy.defaultMax) (b.jitter.getD Policy.defaultJitter)] := by
  unfold Event.ofNumbers
  split
  next hj =>
    rw [build, Schedule.check_of_not_isFraction (by simp [hj])]
    rfl
  next hj =>
    have hj' : (b.jitter.getD Policy.defaultJitter).isFraction = true := Bool.of_not_eq_false hj
    split
    next hlt =>
      rw [build, Schedule.check_of_not_le hj' (Nat.not_le.2 hlt)]
      rfl
    next hlt =>
      have hle : b.base.getD Policy.defaultBase ≤ b.max.getD Policy.defaultMax := Nat.not_lt.1 hlt
      rw [build, Schedule.check_of_valid ⟨_, _, _, hle, hj'⟩]
      rfl

end Builder

namespace Options

/-- A negative delay ends the construction with the one rejection that is told of it; the builder is
asked only where neither delay is negative, and nothing has been told by then. -/
theorem build_cases (c : Options) :
    (c.baseMs.toInt < 0 ∧ c.build = .rejected (.negativeDelay "base_ms" c.baseMs)) ∨
    (0 ≤ c.baseMs.toInt ∧ c.maxMs.toInt < 0 ∧
      c.build = .rejected (.negativeDelay "max_ms" c.maxMs)) ∨
    (0 ≤ c.baseMs.toInt ∧ 0 ≤ c.maxMs.toInt ∧ c.build = c.builder.build) := by
  rcases lt_or_ge c.baseMs.toInt 0 with hb | hb
  · refine .inl ⟨hb, ?_⟩
    rw [build, durationOf_of_neg .baseMs hb]
    rfl
  · rcases lt_or_ge c.maxMs.toInt 0 with hm | hm
    · refine .inr (.inl ⟨hb, hm, ?_⟩)
      rw [build, durationOf_of_nonneg .baseMs hb, durationOf_of_neg .maxMs hm]
      rfl
    · exact .inr (.inr ⟨hb, hm, build_of_nonneg hb hm⟩)

theorem toldOnce_build (c : Options) : c.build.ToldOnce := by
  rcases c.build_cases with ⟨-, h⟩ | ⟨-, -, h⟩ | ⟨-, -, h⟩
  · rw [h]
    exact Logged.toldOnce_rejected _
  · rw [h]
    exact Logged.toldOnce_rejected _
  · rw [h]
    exact c.builder.toldOnce_build

theorem events_build (c : Options) : c.build.events =
    [if c.baseMs.toInt < 0 then .rejected (.negativeDelay "base_ms" c.baseMs)
      else if c.maxMs.toInt < 0 then .rejected (.negativeDelay "max_ms" c.maxMs)
      else .ofNumbers (delayOf c.baseMs) (delayOf c.maxMs) c.jitter] := by
  rcases c.build_cases with ⟨hb, h⟩ | ⟨hb, hm, h⟩ | ⟨hb, hm, h⟩
  · rw [h, if_pos hb]
    rfl
  · rw [h, if_neg (Int.not_lt.2 hb), if_pos hm]
    rfl
  · rw [h, if_neg (Int.not_lt.2 hb), if_neg (Int.not_lt.2 hm), Builder.events_build]
    rfl

end Options

theorem Recipe.toldOnce_construct {recipe : Recipe} {factories : Names Source} {p p' : Pool}
    {made : Logged (Except Rejection Policy)} (h : recipe.construct factories p = .ok (made, p'))
    (hdefault : recipe ≠ .default) (hnone : recipe ≠ .none) : made.ToldOnce := by
  cases recipe with
  | builder calls =>
    rw [construct] at h
    cases hs : BuilderCall.settings factories calls p with
    | error e =>
      rw [hs] at h
      cases h
    | ok settings =>
      rw [hs] at h
      cases h
      exact Builder.toldOnce_build _
  | bounds base max =>
    rw [construct, Except.ok.injEq, Prod.mk.injEq] at h
    obtain ⟨rfl, -⟩ := h
    exact Builder.toldOnce_build _
  | default => exact absurd rfl hdefault
  | none => exact absurd rfl hnone
  | options c =>
    rw [construct, Except.ok.injEq, Prod.mk.injEq] at h
    obtain ⟨rfl, -⟩ := h
    exact c.toldOnce_build

/-- Every construction is told once: by settings of a builder, of a base and a ceiling, of options,
and in any other way there is but the ready-made policies. What is told depends on the numbers
alone, and of several faults it shows the first. Loading options is not told, not even where it
fails. -/
theorem constructions_told_once :
    (∀ settings : List Setting,
      let b := Builder.ofSettings settings
      b.build.ToldOnce ∧ b.build.events = [.ofNumbers (b.base.getD (.ofMillis 10))
        (b.max.getD (.ofMillis 1000)) (b.jitter.getD .one)]) ∧
    (∀ base max : Duration, (Policy.ofBounds base max).ToldOnce ∧
      (Policy.ofBounds base max).events = [.ofNumbers base max .one]) ∧
    (∀ c : Options, c.build.ToldOnce ∧ c.build.events =
      [if c.baseMs.toInt < 0 then .rejected (.negativeDelay "base_ms" c.baseMs)
        else if c.maxMs.toInt < 0 then .rejected (.negativeDelay "max_ms" c.maxMs)
        else .ofNumbers (Options.delayOf c.baseMs) (Options.delayOf c.maxMs) c.jitter]) ∧
    (∀ (recipe : Recipe) (factories : Names Source) (p p' : Pool)
      (made : Logged (Except Rejection Policy)),
      recipe.construct factories p = .ok (made, p') → recipe ≠ .default → recipe ≠ .none →
        made.ToldOnce) ∧
    ∀ e : Environment, e.options.events = [] ∧ e.options.value = (do
      let baseMs ← e.value? .baseMs readInt64?
      let maxMs ← e.value? .maxMs readInt64?
      let jitter ← e.value? .jitter readBinary64?
      let d := Options.default
      return ⟨baseMs.getD d.baseMs, maxMs.getD d.maxMs, jitter.getD d.jitter⟩) := by
  refine ⟨fun settings => ⟨Builder.toldOnce_build _, Builder.events_build _⟩,
    fun base max => ⟨Builder.toldOnce_build _, Builder.events_build _⟩,
    fun c => ⟨c.toldOnce_build, c.events_build⟩,
    fun recipe factories p p' made h => Recipe.toldOnce_construct h, fun e => ?_⟩
  rw [e.options_eq]
  exact ⟨rfl, rfl⟩

-- Every fault there can be at once; the first one is returned and told.
example : Options.build ⟨-1, -2, .nan⟩ = .rejected (.negativeDelay "base_ms" (-1)) := by
  rw [Options.build, Options.durationOf_of_neg .baseMs (by decide)]
  rfl

end RetryDelay
