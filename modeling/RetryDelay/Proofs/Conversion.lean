import RetryDelay.Proofs.Acceptance

set_option autoImplicit false

namespace RetryDelay

namespace Binary64

theorem equal_self_of_isFraction {x : Binary64} (h : x.isFraction = true) : x.equal x = true := by
  obtain ⟨negative, units, hr, rfl, -⟩ := isFraction_iff.1 h
  simp [equal, le]

end Binary64

theorem Policy.same_iff {s t : Policy} (h : s.schedule.jitter = t.schedule.jitter) :
    s.same t = true ↔ s.schedule.base = t.schedule.base ∧ s.schedule.max = t.schedule.max := by
  have hj := Binary64.equal_self_of_isFraction t.schedule.jitter_isFraction
  simp only [Policy.same, Schedule.same, h, hj, Bool.and_true, Bool.and_eq_true, beq_iff_eq]

namespace Options

theorem toInt_millisOf (d : Duration) :
    (millisOf d).toInt = min (d.toNanos / 1000000 : Nat) (2 ^ 63 - 1) := by
  rw [millisOf, Duration.toMillis, Int64.toInt_ofInt_of_le] <;> omega

theorem millisOf_nonneg (d : Duration) : 0 ≤ (millisOf d).toInt := by
  rw [toInt_millisOf]; omega

theorem toNanos_delayOf_millisOf (d : Duration) :
    (delayOf (millisOf d)).toNanos = min (d.toNanos / 1000000) (2 ^ 63 - 1) * 1000000 := by
  rw [toNanos_delayOf, toInt_millisOf]; omega

theorem millisOf_delayOf {ms : Int64} (h : 0 ≤ ms.toInt) : millisOf (delayOf ms) = ms := by
  have hlt := ms.toInt_lt
  rw [← Int64.toInt_inj, toInt_millisOf, toNanos_delayOf]
  omega

theorem delayOf_millisOf_le {a b : Duration} (h : a ≤ b) :
    delayOf (millisOf a) ≤ delayOf (millisOf b) := by
  rw [Duration.le_def] at h ⊢
  rw [toNanos_delayOf_millisOf, toNanos_delayOf_millisOf]
  omega

theorem delayOf_millisOf_eq_iff {d : Duration} :
    delayOf (millisOf d) = d ↔ 1000000 ∣ d.toNanos ∧ d.toNanos ≤ (2 ^ 63 - 1) * 1000000 := by
  have hcut := toNanos_delayOf_millisOf d
  constructor
  · intro h
    rw [h] at hcut
    omega
  · rintro ⟨hdvd, hle⟩
    exact Duration.eq_of_toNanos_eq (by omega)

theorem exists_build_ofPolicy (s : Policy) : ∃ s' : Policy, (ofPolicy s).build.value = .ok s' ∧
    s'.schedule.base = delayOf (millisOf s.schedule.base) ∧
    s'.schedule.max = delayOf (millisOf s.schedule.max) ∧
    s'.schedule.jitter = s.schedule.jitter := by
  -- The numbers stay closed here: by computation the kernel would divide durations.
  obtain ⟨s', hbase, hmax, hj, hsource⟩ := Policy.exists_of_numbers
    (delayOf_millisOf_le s.schedule.base_le_max) s.schedule.jitter_isFraction .entropy
  exact ⟨s', build_eq_ok_iff.2 ⟨millisOf_nonneg _, millisOf_nonneg _, hbase, hmax, hj, hsource⟩,
    hbase, hmax, hj⟩

theorem ofPolicy_of_build {c : Options} {s : Policy} (h : c.build.value = .ok s) :
    ofPolicy s = c := by
  obtain ⟨hb, hm, hbase, hmax, hj, -⟩ := build_eq_ok_iff.1 h
  rw [ofPolicy, hbase, hmax, hj, millisOf_delayOf hb, millisOf_delayOf hm]

/-- The options a policy was built of are the options of that policy. The other way round, a policy
can always be built anew of its options: its durations are cut down to whole milliseconds that fit
into a word with a sign, it is the same policy just if they were such before, and its options are
those it was built of. -/
theorem round_trips :
    (∀ (c : Options) (s : Policy), c.build.value = .ok s →
      (ofPolicy s).baseMs = c.baseMs ∧ (ofPolicy s).maxMs = c.maxMs ∧
        (ofPolicy s).jitter = c.jitter) ∧
    ∀ s : Policy, ∃ s' : Policy, (ofPolicy s).build.value = .ok s' ∧
      s'.schedule.base.toNanos = min (s.schedule.base.toNanos / 1000000) (2 ^ 63 - 1) * 1000000 ∧
      s'.schedule.max.toNanos = min (s.schedule.max.toNanos / 1000000) (2 ^ 63 - 1) * 1000000 ∧
      s'.schedule.jitter = s.schedule.jitter ∧
      (s'.same s = true ↔
        (1000000 ∣ s.schedule.base.toNanos ∧
          s.schedule.base.toNanos ≤ (2 ^ 63 - 1) * 1000000) ∧
        1000000 ∣ s.schedule.max.toNanos ∧ s.schedule.max.toNanos ≤ (2 ^ 63 - 1) * 1000000) ∧
      ofPolicy s' = ofPolicy s := by
  refine ⟨fun c s h => ?_, fun s => ?_⟩
  · rw [ofPolicy_of_build h]
    exact ⟨rfl, rfl, rfl⟩
  · obtain ⟨s', hs', hbase, hmax, hj⟩ := exists_build_ofPolicy s
    refine ⟨s', hs', ?_, ?_, hj, ?_, ofPolicy_of_build hs'⟩
    · rw [hbase, toNanos_delayOf_millisOf]
    · rw [hmax, toNanos_delayOf_millisOf]
    · rw [Policy.same_iff hj, hbase, hmax, delayOf_millisOf_eq_iff, delayOf_millisOf_eq_iff]

example : ofPolicy ⟨⟨.ofNanos 1999999, .ofNanos Duration.maxNanos, .one, by decide,
    Policy.one_isFraction⟩, .entropy⟩ = ⟨1, 9223372036854775807, .one⟩ := by
  decide +kernel

end Options

end RetryDelay
