import RetryDelay.Proofs.Ceiling

set_option autoImplicit false

namespace RetryDelay

open Binary64

namespace Schedule
variable {base max : Duration} {jitter : Binary64}

theorem check_of_not_isFraction (h : jitter.isFraction ≠ true) :
    check base max jitter = .error (.jitterOutOfRange jitter) := dif_neg h

theorem check_of_not_le (hj : jitter.isFraction = true) (h : ¬ base ≤ max) :
    check base max jitter = .error (.baseAboveMax base max) := by
  rw [check, dif_pos hj, dif_neg h]

theorem check_eq_ok_iff {s : Schedule} :
    check base max jitter = .ok s ↔ s.base = base ∧ s.max = max ∧ s.jitter = jitter := by
  constructor
  · intro h
    unfold check at h
    split at h
    · split at h
      · cases h; exact ⟨rfl, rfl, rfl⟩
      · cases h
    · cases h
  · rintro ⟨rfl, rfl, rfl⟩
    exact s.check_of_valid

theorem map_check_eq_ok_iff {source : Source} {s : Policy} :
    (check base max jitter).map (⟨·, source⟩) = .ok s ↔
      s.schedule.base = base ∧ s.schedule.max = max ∧ s.schedule.jitter = jitter ∧
        s.source = source := by
  constructor
  · intro h
    cases hs : check base max jitter with
    | error e => rw [hs] at h; cases h
    | ok schedule =>
      rw [hs] at h
      cases h
      obtain ⟨hbase, hmax, hj⟩ := check_eq_ok_iff.1 hs
      exact ⟨hbase, hmax, hj, rfl⟩
  · rintro ⟨hbase, hmax, hj, rfl⟩
    rw [check_eq_ok_iff.2 ⟨hbase, hmax, hj⟩, Except.map]

end Schedule

theorem Policy.exists_of_numbers {base max : Duration} {jitter : Binary64} (hle : base ≤ max)
    (hj : jitter.isFraction = true) (source : Source) : ∃ s : Policy, s.schedule.base = base ∧
      s.schedule.max = max ∧ s.schedule.jitter = jitter ∧ s.source = source :=
  ⟨⟨⟨base, max, jitter, hle, hj⟩, source⟩, rfl, rfl, rfl, rfl⟩

namespace Options

/-- A count of milliseconds as a duration; below zero there is none. -/
def delayOf (ms : Int64) : Duration := .ofNanos (ms.toInt.toNat * 1000000)

theorem toNanos_delayOf (ms : Int64) : (delayOf ms).toNanos = ms.toInt.toNat * 1000000 := by
  have h := ms.toInt_lt
  exact Duration.toNanos_ofNanos (by simp only [Duration.maxNanos]; omega)

theorem toNat_toUInt64 {ms : Int64} (h : 0 ≤ ms.toInt) : ms.toUInt64.toNat = ms.toInt.toNat := by
  have hlt := ms.toUInt64.toNat_lt
  rw [← Int64.toInt_toBitVec, BitVec.toInt_eq_toNat_cond, Int64.toNat_toBitVec] at h ⊢
  split at h <;> omega

theorem durationOf_of_neg (field : Field) {ms : Int64} (h : ms.toInt < 0) :
    durationOf field ms
      = ⟨.error (.negativeDelay field.name ms), [.rejected (.negativeDelay field.name ms)]⟩ :=
  if_pos (Int64.lt_iff_toInt_lt.2 h)

theorem durationOf_of_nonneg (field : Field) {ms : Int64} (h : 0 ≤ ms.toInt) :
    durationOf field ms = pure (.ok (delayOf ms)) := by
  have hneg : ¬ ms < 0 := fun hlt => Int.not_lt.2 h (Int64.lt_iff_toInt_lt.1 hlt)
  rw [durationOf, if_neg hneg, Duration.ofMillis, toNat_toUInt64 h, delayOf]

def builder (c : Options) : Builder :=
  .ofSettings [.base (delayOf c.baseMs), .max (delayOf c.maxMs), .jitter c.jitter]

variable {c : Options}

theorem build_of_neg_base (hb : c.baseMs.toInt < 0) :
    c.build.value = .error (.negativeDelay "base_ms" c.baseMs) := by
  rw [build, durationOf_of_neg .baseMs hb]
  rfl

theorem build_of_neg_max (hb : 0 ≤ c.baseMs.toInt) (hm : c.maxMs.toInt < 0) :
    c.build.value = .error (.negativeDelay "max_ms" c.maxMs) := by
  rw [build, durationOf_of_nonneg .baseMs hb, durationOf_of_neg .maxMs hm]
  rfl

theorem build_of_nonneg (hb : 0 ≤ c.baseMs.toInt) (hm : 0 ≤ c.maxMs.toInt) :
    c.build = c.builder.build := by
  rw [build, durationOf_of_nonneg .baseMs hb, durationOf_of_nonneg .maxMs hm]
  rfl

theorem build_builder (c : Options) : c.builder.build.value
    = (Schedule.check (delayOf c.baseMs) (delayOf c.maxMs) c.jitter).map (⟨·, .entropy⟩) :=
  c.builder.value_build

theorem build_eq_ok_iff {s : Policy} : c.build.value = .ok s ↔
    0 ≤ c.baseMs.toInt ∧ 0 ≤ c.maxMs.toInt ∧ s.schedule.base = delayOf c.baseMs ∧
      s.schedule.max = delayOf c.maxMs ∧ s.schedule.jitter = c.jitter ∧ s.source = .entropy := by
  rcases lt_or_ge c.baseMs.toInt 0 with hb | hb
  · rw [build_of_neg_base hb]
    exact ⟨fun h => (by cases h), fun h => absurd h.1 (Int.not_le.2 hb)⟩
  rcases lt_or_ge c.maxMs.toInt 0 with hm | hm
  · rw [build_of_neg_max hb hm]
    exact ⟨fun h => (by cases h), fun h => absurd h.2.1 (Int.not_le.2 hm)⟩
  rw [build_of_nonneg hb hm, build_builder, Schedule.map_check_eq_ok_iff]
  exact ⟨fun h => ⟨hb, hm, h⟩, fun h => h.2.2⟩

theorem delayOf_le_iff {a b : Int64} (ha : 0 ≤ a.toInt) (hb : 0 ≤ b.toInt) :
    delayOf a ≤ delayOf b ↔ a.toInt ≤ b.toInt := by
  rw [Duration.le_def, toNanos_delayOf, toNanos_delayOf]
  omega

/-- Options are built into a policy, or rejected for the first fault there is: a negative delay, the
base before the ceiling, then a jitter that is no fraction, then a base above the ceiling. No other
way to build a policy from the same numbers comes to another result. -/
theorem build_or_first_fault (c : Options) :
    let fraction := (∃ negative n h, c.jitter = .finite negative n h) ∧
      0 ≤ c.jitter.toRat ∧ c.jitter.toRat ≤ 1
    (c.baseMs.toInt < 0 → c.build.value = .error (.negativeDelay "base_ms" c.baseMs)) ∧
    (0 ≤ c.baseMs.toInt → c.maxMs.toInt < 0 →
      c.build.value = .error (.negativeDelay "max_ms" c.maxMs)) ∧
    (0 ≤ c.baseMs.toInt → 0 ≤ c.maxMs.toInt → ¬ fraction →
      c.build.value = .error (.jitterOutOfRange c.jitter)) ∧
    (0 ≤ c.maxMs.toInt → fraction → c.maxMs.toInt < c.baseMs.toInt →
      c.build.value = .error (.baseAboveMax (delayOf c.baseMs) (delayOf c.maxMs))) ∧
    (0 ≤ c.baseMs.toInt → c.baseMs.toInt ≤ c.maxMs.toInt → fraction →
      ∃ s : Policy, c.build.value = .ok s ∧ s.schedule.base = delayOf c.baseMs ∧
        s.schedule.max = delayOf c.maxMs ∧ s.schedule.jitter = c.jitter ∧ s.source = .entropy) ∧
    -- The durations are those of the counts.
    (∀ ms : Int64, (delayOf ms).toNanos = ms.toInt.toNat * 1000000) ∧
    ((∃ s, c.build.value = .ok s) ↔
      0 ≤ c.baseMs.toInt ∧ c.baseMs.toInt ≤ c.maxMs.toInt ∧ fraction) ∧
    (∀ s, c.build.value = .ok s → c.build = (Builder.ofSettings
      [.base (delayOf c.baseMs), .max (delayOf c.maxMs), .jitter c.jitter]).build) ∧
    ∀ factories p, (Recipe.options c).construct factories p = .ok (c.build, p) := by
  intro fraction
  have hfraction : c.jitter.isFraction = true ↔ fraction := isFraction_iff_toRat
  have hok (hb : 0 ≤ c.baseMs.toInt) (hle : c.baseMs.toInt ≤ c.maxMs.toInt) (hj : fraction) :
      ∃ s : Policy, c.build.value = .ok s ∧ s.schedule.base = delayOf c.baseMs ∧
        s.schedule.max = delayOf c.maxMs ∧ s.schedule.jitter = c.jitter ∧ s.source = .entropy := by
    have hm := Int.le_trans hb hle
    obtain ⟨s, hs⟩ := Policy.exists_of_numbers ((delayOf_le_iff hb hm).2 hle) (hfraction.2 hj)
      .entropy
    exact ⟨s, build_eq_ok_iff.2 ⟨hb, hm, hs⟩, hs⟩
  refine ⟨build_of_neg_base, build_of_neg_max, fun hb hm hj => ?_, fun hm hj hlt => ?_, hok,
    toNanos_delayOf, ⟨?_, ?_⟩, fun s hs => ?_, fun _ _ => rfl⟩
  · have hj' : c.jitter.isFraction ≠ true := fun h => hj (hfraction.1 h)
    rw [build_of_nonneg hb hm, build_builder, Schedule.check_of_not_isFraction hj']
    rfl
  · have hb : 0 ≤ c.baseMs.toInt := Int.le_trans hm (Int.le_of_lt hlt)
    have hle : ¬ delayOf c.baseMs ≤ delayOf c.maxMs := by
      rw [delayOf_le_iff hb hm]; exact Int.not_le.2 hlt
    rw [build_of_nonneg hb hm, build_builder, Schedule.check_of_not_le (hfraction.2 hj) hle]
    rfl
  · rintro ⟨s, hs⟩
    obtain ⟨hb, hm, hbase, hmax, hjitter, -⟩ := build_eq_ok_iff.1 hs
    have hle := s.schedule.base_le_max
    rw [hbase, hmax, delayOf_le_iff hb hm] at hle
    exact ⟨hb, hle, hfraction.1 (hjitter ▸ s.schedule.jitter_isFraction)⟩
  · rintro ⟨hb, hle, hj⟩
    obtain ⟨s, hs, -⟩ := hok hb hle hj
    exact ⟨s, hs⟩
  · obtain ⟨hb, hm, -⟩ := build_eq_ok_iff.1 hs
    exact build_of_nonneg hb hm

end Options

end RetryDelay
