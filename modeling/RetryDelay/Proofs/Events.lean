import RetryDelay.Proofs.Budget

set_option autoImplicit false

namespace RetryDelay

open Binary64 Pacing

def Event.retryDelay? : Event → Option Duration
  | retrying _ delay _ => some delay
  | _ => none

namespace Backoff

theorem draws_stateAt (b : Backoff) (n : Nat) : (stateAt b n).Draws ↔ b.Draws := by
  rw [Draws, Draws, schedule_stateAt]

theorem nominal_eq_ofNanos (s : Schedule) (attempt : UInt32) :
    s.nominal attempt = .ofNanos (s.target attempt.toNat) := by
  rw [← Schedule.toNanos_nominal, Duration.ofNanos_toNanos]

theorem delay_events (attempt : UInt32) (b : Backoff) :
    (b.delay attempt).events = if b.Draws then
      [.computed attempt (.ofNanos (b.schedule.target attempt.toNat)) (b.delay attempt).value.1]
      else [] := by
  rcases b.delay_cases attempt with ⟨hb, h⟩ | ⟨-, hj, h⟩ | ⟨hb, hj, d, -, h⟩
  · rw [if_neg fun hd => hd.1 hb, h]
    rfl
  · rw [if_neg fun hd => hd.2 hj, h]
    rfl
  · rw [if_pos ⟨hb, hj⟩, h, nominal_eq_ofNanos]

theorem asked_events (b : Backoff) {n : Nat} (hn : n < 2 ^ 32) :
    (asked b n).events = if b.Draws then
      [.computed (.ofNat n) (.ofNanos (b.schedule.target n)) (delayAt b n)] else [] := by
  have h := delay_events (UInt32.ofNat n) (stateAt b n)
  simp only [draws_stateAt, schedule_stateAt, UInt32.toNat_ofNat_of_lt' hn, ← delayAt_eq_delay] at h
  have ha : asked b n = (stateAt b n).delay (UInt32.ofNat n) := by rw [asked, pacing_delay]
  exact (congrArg Logged.events ha).trans h

def roundEvents (b : Backoff) (error : Nat → String) (n : Nat) : List Event :=
  (if b.Draws then [.computed (.ofNat n) (.ofNanos (b.schedule.target n)) (delayAt b n)] else [])
    ++ [.retrying (.ofNat n) (delayAt b n) (error n)]

theorem eventsAt_eq {ε α : Type} [ToString ε] (op : Operation ε α) (b : Backoff) {n : Nat}
    (hn : n < 2 ^ 32) : op.eventsAt b n = b.roundEvents op.errorText n := by
  rw [Operation.eventsAt, roundEvents, asked_events b hn]

theorem eventsBefore_eq {ε α : Type} [ToString ε] (op : Operation ε α) (b : Backoff) {n : Nat}
    (hn : n < 2 ^ 32) :
    op.eventsBefore b n = (List.range n).flatMap (b.roundEvents op.errorText) := by
  refine List.flatMap_congr fun i hi => ?_
  exact eventsAt_eq op b (Nat.lt_trans (List.mem_range.1 hi) hn)

theorem retryDelay?_roundEvents (b : Backoff) (error : Nat → String) (n : Nat) :
    (b.roundEvents error n).filterMap Event.retryDelay? = [delayAt b n] := by
  unfold roundEvents
  split <;> rfl

theorem retryDelay?_rounds (b : Backoff) (error : Nat → String) (n : Nat) :
    ((List.range n).flatMap (b.roundEvents error)).filterMap Event.retryDelay?
      = delaysBefore b n := by
  simp only [List.filterMap_flatMap, retryDelay?_roundEvents, delaysBefore, List.map_eq_flatMap]

theorem shown_rounds (b : Backoff) (error : Nat → String) {n : Nat} (hn : n < 2 ^ 32) :
    ((List.range n).flatMap (b.roundEvents error)).map (fun e => (e.level, e.message, e.fields))
      = (List.range n).flatMap fun i =>
          (if b.Draws then
            [(.trace, "computed backoff", [("attempt", toString i),
              ("target", (Duration.ofNanos (b.schedule.target i)).text),
              ("delay", (delayAt b i).text)])]
            else [])
            ++ [(.info, "retrying after backoff", [("attempt", toString i),
              ("delay", (delayAt b i).text), ("error", error i)])] := by
  rw [List.map_flatMap]
  refine List.flatMap_congr fun i hi => ?_
  have hto : (UInt32.ofNat i).toNat = i :=
    UInt32.toNat_ofNat_of_lt' (Nat.lt_trans (List.mem_range.1 hi) hn)
  unfold roundEvents
  split <;> simp only [List.map_append, List.map_cons, List.map_nil, Event.level, Event.message,
    Event.fields, hto]

theorem getLast?_rounds (b : Backoff) (error : Nat → String) (n : Nat) :
    ((List.range (n + 1)).flatMap (b.roundEvents error)).getLast?
      = some (.retrying (.ofNat n) (delayAt b n) (error n)) := by
  rw [List.range_succ, List.flatMap_append, List.flatMap_singleton, roundEvents,
    ← List.append_assoc, List.getLast?_concat]

end Backoff

section Run
variable {ε α : Type}

namespace Ending

/-- What is told of an ending after some retries. A run that overflows tells of its last delay
only. -/
def events [ToString ε] (n : Nat) : Ending ε α → List Event
  | .succeeded .. => []
  | .failed (.permanent _ e) => [.notRetrying (.ofNat n) (toString e)]
  | .failed (.exhausted _ e) => [.exhausted (.ofNat (n + 1)) (toString e)]
  | .overflowed => []

theorem retryDelay?_events [ToString ε] (n : Nat) (ending : Ending ε α) :
    (ending.events n).filterMap Event.retryDelay? = [] := by
  cases ending with
  | succeeded v attempts waited => rfl
  | failed f => cases f <;> rfl
  | overflowed => rfl

theorem shown_events [ToString ε] {n : Nat} (hn : n + 1 < 2 ^ 32) (ending : Ending ε α) :
    (ending.events n).map (fun e => (e.level, e.message, e.fields)) = match ending with
      | .failed (.permanent _ e) =>
        [(.debug, "not retrying", [("attempt", toString n), ("error", toString e)])]
      | .failed (.exhausted _ e) =>
        [(.warn, "retries exhausted", [("attempts", toString (n + 1)), ("error", toString e)])]
      | _ => [] := by
  have hlast : (UInt32.ofNat n).toNat = n := UInt32.toNat_ofNat_of_lt' (Nat.lt_of_succ_lt hn)
  have hcalls : (UInt32.ofNat (n + 1)).toNat = n + 1 := UInt32.toNat_ofNat_of_lt' hn
  cases ending with
  | succeeded v attempts waited => rfl
  | failed f =>
    cases f with
    | permanent attempts e =>
      simp only [events, List.map_cons, List.map_nil, Event.level, Event.message, Event.fields,
        hlast]
    | exhausted attempts e =>
      simp only [events, List.map_cons, List.map_nil, Event.level, Event.message, Event.fields,
        hcalls]
  | overflowed => rfl

/-- Whether an operation comes to an ending after some retries, if all delays can be told. -/
def After (op : Operation ε α) (limit : UInt32) (n : Nat) : Ending ε α → Prop
  | .succeeded v .. => op.outcome n = .ok v
  | .failed (.permanent _ e) => op.outcome n = .error e ∧ op.isRetryable e = false
  | .failed (.exhausted _ e) =>
    op.outcome n = .error e ∧ op.isRetryable e = true ∧ limit.toNat ≤ n + 1
  | .overflowed => 0 < n

end Ending

theorem Operation.endingAt_after {op : Operation ε α} {limit : UInt32} {n : Nat}
    (h : op.StopsAt limit n) (attempts : UInt32) (waited : Duration) :
    (op.endingAt n attempts waited).After op limit n := by
  unfold endingAt
  cases ho : op.outcome n with
  | ok v => exact ho
  | error e =>
    cases hr : op.isRetryable e with
    | false => simp [hr, ho, Ending.After]
    | true => simpa [hr, ho, Ending.After, StopsAt] using h

variable [ToString ε]

theorem Operation.errorText_of_error {op : Operation ε α} {n : Nat} {e : ε}
    (h : op.outcome n = .error e) : op.errorText n = toString e := by
  rw [errorText, h]

theorem Operation.lastEvents_eq (op : Operation ε α) (n : Nat) (attempts : UInt32)
    (waited : Duration) : op.lastEvents n = (op.endingAt n attempts waited).events n := by
  unfold lastEvents endingAt
  cases op.outcome n with
  | ok v => rfl
  | error e => cases hr : op.isRetryable e <;> simp [hr, Ending.events]

theorem Backoff.retry_rounds (op : Operation ε α) (limit : UInt32) (b : Backoff) :
    ∃ n ≤ op.stop limit, (retry op limit b).delays = delaysBefore b n ∧
      (retry op limit b).events = (List.range n).flatMap (b.roundEvents op.errorText)
        ++ (retry op limit b).ending.events n ∧
      (retry op limit b).ending.After op limit n := by
  have hlt {n : Nat} (hn : n ≤ op.stop limit) : n < 2 ^ 32 :=
    Nat.lt_of_succ_lt (Operation.succ_lt_of_le_stop hn)
  rcases fits_or_overflows b (op.stop limit) with hfits | ⟨n, hn, hfits, hover⟩
  · refine ⟨op.stop limit, Nat.le_refl _, ?_⟩
    rw [retry_of_fits hfits, eventsBefore_eq op b (hlt (Nat.le_refl _))]
    refine ⟨rfl, ?_, Operation.endingAt_after (op.stopsAt_stop limit) _ _⟩
    rw [op.lastEvents_eq]
  · refine ⟨n + 1, hn, ?_⟩
    rw [retry_of_overflow hn hfits hover, eventsBefore_eq op b (hlt hn)]
    exact ⟨rfl, (List.append_nil _).symm, Nat.succ_pos n⟩

/-- The events of a run are those of its retries in order, a random number before the delay it gave,
and then that of its last call if it failed. The delays told are the delays waited. -/
theorem Backoff.retry_events (op : Operation ε α) (limit : UInt32) (b : Backoff) :
    let run := retry op limit b
    let retries := run.delays.length
    let target (i : Nat) : Duration :=
      .ofNanos (min b.schedule.max.toNanos (b.schedule.base.toNanos * 2 ^ i))
    let draws := b.schedule.base.toNanos ≠ 0 ∧ b.schedule.jitter.toRat ≠ 0
    ∃ (delay : Nat → Duration) (error : Nat → String),
      run.delays = (List.range retries).map delay ∧
      (∀ i < retries, ∃ e, op.outcome i = .error e ∧ error i = toString e) ∧
      -- The numbers of attempts and the targets are exact.
      (∀ i ≤ retries + 1, (UInt32.ofNat i).toNat = i) ∧
      (∀ i, (target i).toNanos = min b.schedule.max.toNanos (b.schedule.base.toNanos * 2 ^ i)) ∧
      run.events = (List.range retries).flatMap (fun i =>
          (if draws then [.computed (.ofNat i) (target i) (delay i)] else [])
            ++ [.retrying (.ofNat i) (delay i) (error i)])
        ++ (match run.ending with
          | .failed (.permanent _ e) => [.notRetrying (.ofNat retries) (toString e)]
          | .failed (.exhausted _ e) => [.exhausted (.ofNat (retries + 1)) (toString e)]
          | _ => []) ∧
      run.events.filterMap Event.retryDelay? = run.delays ∧
      (match run.ending with
        | .succeeded v _ waited => op.outcome retries = .ok v ∧
          waited.toNanos = ((run.events.filterMap Event.retryDelay?).map Duration.toNanos).sum
        | .failed (.permanent _ e) => op.outcome retries = .error e ∧ op.isRetryable e = false
        | .failed (.exhausted _ e) =>
          op.outcome retries = .error e ∧ op.isRetryable e = true ∧ limit.toNat ≤ retries + 1
        | .overflowed => ∃ last, retries = last + 1 ∧
          run.events.getLast? = some (.retrying (.ofNat last) (delay last) (error last))) ∧
      run.events.map (fun e => (e.level, e.message, e.fields))
        = (List.range retries).flatMap (fun i =>
            (if draws then
              [(.trace, "computed backoff", [("attempt", toString i),
                ("target", (target i).text), ("delay", (delay i).text)])]
              else [])
              ++ [(.info, "retrying after backoff", [("attempt", toString i),
                ("delay", (delay i).text), ("error", error i)])])
          ++ (match run.ending with
            | .failed (.permanent _ e) =>
              [(.debug, "not retrying", [("attempt", toString retries), ("error", toString e)])]
            | .failed (.exhausted _ e) =>
              [(.warn, "retries exhausted",
                [("attempts", toString (retries + 1)), ("error", toString e)])]
            | _ => []) := by
  intro run retries target draws
  obtain ⟨n, hn, hdelays, hevents, hending⟩ := b.retry_rounds op limit
  have hlength : retries = n := by rw [← length_delaysBefore b n, ← hdelays]
  have htold : run.events.filterMap Event.retryDelay? = run.delays := by
    rw [hevents, hdelays, List.filterMap_append, retryDelay?_rounds, Ending.retryDelay?_events,
      List.append_nil]
  refine ⟨delayAt b, op.errorText, ?_, ?_, ?_, ?_, ?_, htold, ?_, ?_⟩
  · rw [hlength]
    exact hdelays
  · intro i hi
    rw [hlength] at hi
    obtain ⟨e, ho, -, -⟩ := Operation.of_lt_stop (Nat.lt_of_lt_of_le hi hn)
    exact ⟨e, ho, Operation.errorText_of_error ho⟩
  · intro i hi
    rw [hlength] at hi
    have hlt := Operation.succ_lt_of_le_stop hn
    exact UInt32.toNat_ofNat_of_lt' (Nat.lt_of_le_of_lt hi hlt)
  · intro i
    exact Duration.toNanos_ofNanos (b.schedule.target_le_maxNanos i)
  · rw [hevents, hlength]
    cases run.ending with
    | succeeded v attempts waited => rfl
    | failed f => cases f <;> rfl
    | overflowed => rfl
  · rw [htold, hlength]
    cases hr : run.ending with
    | succeeded v attempts waited =>
      rw [hr] at hending
      exact ⟨hending, toNanos_of_succeeded hr⟩
    | failed f =>
      rw [hr] at hending
      cases f <;> exact hending
    | overflowed =>
      rw [hr] at hending hevents
      obtain ⟨last, rfl⟩ := Nat.exists_eq_succ_of_ne_zero (Nat.pos_iff_ne_zero.1 hending)
      refine ⟨last, rfl, ?_⟩
      rw [hevents, Ending.events, List.append_nil, getLast?_rounds]
  · have hlt := Operation.succ_lt_of_le_stop hn
    rw [hevents, hlength, List.map_append, shown_rounds _ _ (Nat.lt_of_succ_lt hlt),
      Ending.shown_events hlt]
    rfl

end Run

end RetryDelay
