import Mathlib.Data.Nat.Find
import RetryDelay.Proofs.Pace

/-!
Where a run stops, and what holds whenever its loop comes round. The state at the head of the loop
is that of a backoff asked for all attempts so far, in order, and the time waited is the sum of its
answers; so a run is known from the outcomes and the backoff alone, whether it comes to its last
call or the time waited grows too long before.
-/

set_option autoImplicit false

namespace RetryDelay

open Pacing

namespace Operation
variable {ε α : Type}

/-- A call that no other one follows: it succeeds, it fails with an error that is not worth a retry,
or it is the last one allowed. -/
def StopsAt (op : Operation ε α) (limit : UInt32) (n : Nat) : Prop :=
  (∃ v, op.outcome n = .ok v) ∨ (∃ e, op.outcome n = .error e ∧ op.isRetryable e = false) ∨
    limit.toNat ≤ n + 1

instance (op : Operation ε α) (limit : UInt32) : DecidablePred (op.StopsAt limit) := fun n =>
  match h : op.outcome n with
  | .ok v => isTrue (.inl ⟨v, h⟩)
  | .error e => decidable_of_iff (op.isRetryable e = false ∨ limit.toNat ≤ n + 1)
    (by simp [StopsAt, h])

theorem exists_stopsAt (op : Operation ε α) (limit : UInt32) : ∃ n, op.StopsAt limit n :=
  ⟨limit.toNat, .inr (.inr (Nat.le_succ _))⟩

def stop (op : Operation ε α) (limit : UInt32) : Nat := Nat.find (op.exists_stopsAt limit)

variable {op : Operation ε α} {limit : UInt32} {n : Nat}

theorem stopsAt_stop (op : Operation ε α) (limit : UInt32) : op.StopsAt limit (op.stop limit) :=
  Nat.find_spec (op.exists_stopsAt limit)

theorem of_not_stopsAt (h : ¬ op.StopsAt limit n) :
    ∃ e, op.outcome n = .error e ∧ op.isRetryable e = true ∧ n + 1 < limit.toNat := by
  simp only [StopsAt, not_or, not_exists, not_and] at h
  obtain ⟨hok, herror, hlimit⟩ := h
  cases ho : op.outcome n with
  | ok v => exact absurd ho (hok v)
  | error e =>
    refine ⟨e, rfl, ?_, by omega⟩
    simpa using herror e ho

theorem of_lt_stop (h : n < op.stop limit) :
    ∃ e, op.outcome n = .error e ∧ op.isRetryable e = true ∧ n + 1 < limit.toNat :=
  of_not_stopsAt (Nat.find_min _ h)

theorem stop_succ_le (op : Operation ε α) (limit : UInt32) :
    op.stop limit + 1 ≤ max 1 limit.toNat := by
  have h : op.stop limit ≤ limit.toNat - 1 := Nat.find_min' _ (.inr (.inr (by omega)))
  omega

theorem succ_lt_of_le_stop (h : n ≤ op.stop limit) : n + 1 < 2 ^ 32 := by
  have hs := op.stop_succ_le limit
  have hl := limit.toNat_lt
  omega

theorem toNat_ofNat_of_le_stop (h : n ≤ op.stop limit) : (UInt32.ofNat n).toNat = n := by
  have hlt := succ_lt_of_le_stop h
  exact UInt32.toNat_ofNat_of_lt' (Nat.lt_of_succ_lt hlt)

theorem ofNat_lt_limit (h : n + 1 ≤ op.stop limit) : UInt32.ofNat n + 1 < limit := by
  obtain ⟨e, -, -, hlt⟩ := of_lt_stop h
  have hn := toNat_ofNat_of_le_stop h
  rw [UInt32.ofNat_add] at hn
  rw [UInt32.lt_iff_toNat_lt]
  exact hn ▸ hlt

def endingAt (op : Operation ε α) (n : Nat) (attempts : UInt32) (waited : Duration) : Ending ε α :=
  match op.outcome n with
  | .ok v => .succeeded v attempts waited
  | .error e =>
    .failed (if op.isRetryable e = true then .exhausted attempts e else .permanent attempts e)

end Operation

section Loop
variable {σ ε α : Type} [Pacing σ] {op : Operation ε α} {limit attempt : UInt32}
variable {waited : Duration} {b s : σ} {n : Nat} {e : ε}

/-- What the loop comes to: an attempt, the time waited before it, and the backoff. -/
inductive Reaches (op : Operation ε α) (limit : UInt32) (b : σ) : UInt32 → Duration → σ → Prop
  | start : Reaches op limit b 0 .zero b
  | again {attempt : UInt32} {waited waited' : Duration} {s : σ} {e : ε}
      (before : Reaches op limit b attempt waited s)
      (failed : op.outcome attempt.toNat = .error e) (retryable : op.isRetryable e = true)
      (allowed : attempt + 1 < limit)
      (added : waited.add? (delay attempt s).value.1 = some waited') :
      Reaches op limit b (attempt + 1) waited' (delay attempt s).value.2

/-- The invariant of the loop. -/
structure AtHead (op : Operation ε α) (limit : UInt32) (b : σ) (attempt : UInt32)
    (waited : Duration) (s : σ) : Prop where
  le_stop : attempt.toNat ≤ op.stop limit
  toNanos_waited : waited.toNanos = waitBefore b attempt.toNat
  state : s = stateAt b attempt.toNat

namespace AtHead

theorem start : AtHead op limit b 0 .zero b := ⟨Nat.zero_le _, rfl, rfl⟩

theorem succ_lt (h : AtHead op limit b attempt waited s) : attempt.toNat + 1 < 2 ^ 32 :=
  Operation.succ_lt_of_le_stop h.le_stop

theorem toNat_succ (h : AtHead op limit b attempt waited s) :
    (attempt + 1).toNat = attempt.toNat + 1 := by
  rw [UInt32.toNat_add, UInt32.toNat_one]
  exact Nat.mod_eq_of_lt h.succ_lt

theorem asked_eq (h : AtHead op limit b attempt waited s) :
    delay attempt s = asked b attempt.toNat := by
  rw [asked, ← h.state, UInt32.ofNat_toNat]

theorem again {waited' : Duration} (h : AtHead op limit b attempt waited s)
    (ho : op.outcome attempt.toNat = .error e) (hr : op.isRetryable e = true)
    (hl : attempt + 1 < limit) (hw : waited.add? (delay attempt s).value.1 = some waited') :
    AtHead op limit b (attempt + 1) waited' (delay attempt s).value.2 := by
  have hs := h.toNat_succ
  refine ⟨?_, ?_, ?_⟩
  · -- The attempt is not the last one, so the next is not past it.
    rw [hs, Nat.succ_le_iff, Nat.lt_iff_le_and_ne]
    refine ⟨h.le_stop, fun he => ?_⟩
    rcases he ▸ op.stopsAt_stop limit with ⟨v, hv⟩ | ⟨e', he', hr'⟩ | hlimit
    · rw [ho] at hv; cases hv
    · rw [ho] at he'; cases he'
      rw [hr] at hr'; cases hr'
    · rw [UInt32.lt_iff_toNat_lt, hs] at hl
      omega
  · rw [Duration.toNanos_of_add?_eq_some hw, hs, waitBefore_succ, h.toNanos_waited, h.asked_eq]
    rfl
  · rw [hs, stateAt_succ, h.asked_eq]

end AtHead

theorem Reaches.atHead (h : Reaches op limit b attempt waited s) :
    AtHead op limit b attempt waited s := by
  induction h with
  | start => exact .start
  | again before failed retryable allowed added ih => exact ih.again failed retryable allowed added

theorem reaches_of_fits (hn : n ≤ op.stop limit) (hw : waitBefore b n ≤ Duration.maxNanos) :
    Reaches op limit b (UInt32.ofNat n) (.ofNanos (waitBefore b n)) (stateAt b n) := by
  induction n with
  | zero =>
    have hzero : Duration.ofNanos (waitBefore b 0) = .zero := Duration.ofNanos_toNanos .zero
    rw [hzero]
    exact Reaches.start
  | succ n ih =>
    have hle := Nat.le_trans (waitBefore_mono b (Nat.le_succ n)) hw
    have hnat := Operation.toNat_ofNat_of_le_stop (Nat.le_of_succ_le hn)
    obtain ⟨e, ho, hr, -⟩ := Operation.of_lt_stop hn
    have hadd : (Duration.ofNanos (waitBefore b n)).add? (delayAt b n)
        = some (.ofNanos (waitBefore b (n + 1))) := by
      rw [Duration.add?, Duration.toNanos_ofNanos hle, ← waitBefore_succ, if_pos hw]
    rw [UInt32.ofNat_add]
    exact (ih (Nat.le_of_succ_le hn) hle).again (hnat.symm ▸ ho) hr
      (Operation.ofNat_lt_limit hn) hadd

end Loop

namespace Operation
variable {σ ε α : Type} [Pacing σ] [ToString ε]

def lastEvents (op : Operation ε α) (n : Nat) : List Event :=
  match op.outcome n with
  | .ok _ => []
  | .error e =>
    if op.isRetryable e = true then [.exhausted (UInt32.ofNat (n + 1)) (toString e)]
    else [.notRetrying (UInt32.ofNat n) (toString e)]

def errorText (op : Operation ε α) (n : Nat) : String :=
  match op.outcome n with
  | .ok _ => ""
  | .error e => toString e

def eventsAt (op : Operation ε α) (b : σ) (n : Nat) : List Event :=
  (asked b n).events ++ [.retrying (UInt32.ofNat n) (delayAt b n) (op.errorText n)]

def eventsBefore (op : Operation ε α) (b : σ) (n : Nat) : List Event :=
  (List.range n).flatMap (op.eventsAt b)

theorem eventsBefore_succ (op : Operation ε α) (b : σ) (n : Nat) :
    op.eventsBefore b (n + 1) = op.eventsBefore b n ++ op.eventsAt b n := by
  simp [eventsBefore, List.range_succ]

end Operation

namespace Run
variable {σ ε α : Type}

def behind (delays : List Duration) (events : List Event) (r : Run σ ε α) : Run σ ε α :=
  { r with
    calls := r.calls + delays.length
    delays := delays ++ r.delays
    events := events ++ r.events }

@[simp] theorem behind_nil (r : Run σ ε α) : r.behind [] [] = r := by simp [behind]

theorem behind_afterDelay (delays : List Duration) (events : List Event) (d : Duration)
    (es : List Event) (r : Run σ ε α) :
    (r.afterDelay d es).behind delays events = r.behind (delays ++ [d]) (events ++ es) := by
  simp only [behind, afterDelay, List.length_append, List.length_singleton, List.append_assoc,
    List.singleton_append, Run.mk.injEq, and_true, true_and]
  omega

end Run

section Run
variable {σ ε α : Type} [Pacing σ] [ToString ε] {op : Operation ε α} {limit attempt : UInt32}
variable {waited : Duration} {b s : σ} {n : Nat} {e : ε}

theorem runFrom_of_stopsAt (h : attempt = 0 ∨ attempt < limit)
    (hstop : op.StopsAt limit attempt.toNat) :
    runFrom op limit attempt h waited s
      = .last (op.endingAt attempt.toNat (attempt + 1) waited) (op.lastEvents attempt.toNat) s := by
  have hs := succ_toNat_of_lt h
  rw [runFrom]
  unfold Operation.endingAt Operation.lastEvents
  cases ho : op.outcome attempt.toNat with
  | ok v => rfl
  | error e =>
    cases hr : op.isRetryable e with
    | false => simp [hr]
    | true =>
      have hl : limit ≤ attempt + 1 := by
        rw [UInt32.le_iff_toNat_le, hs]
        simpa [Operation.StopsAt, ho, hr] using hstop
      simp [hr, hl, UInt32.ofNat_add]

theorem runFrom_of_retried (h : attempt = 0 ∨ attempt < limit)
    (ho : op.outcome attempt.toNat = .error e) (hr : op.isRetryable e = true)
    (hl : attempt + 1 < limit) :
    runFrom op limit attempt h waited s
      = (waited.add? (delay attempt s).value.1).elim
          (.overflow (delay attempt s).value.1
            ((delay attempt s).events
              ++ [.retrying attempt (delay attempt s).value.1 (toString e)])
            (delay attempt s).value.2)
          fun waited => .afterDelay (delay attempt s).value.1
            ((delay attempt s).events
              ++ [.retrying attempt (delay attempt s).value.1 (toString e)])
            (runFrom op limit (attempt + 1) (.inr hl) waited (delay attempt s).value.2) := by
  rw [runFrom, ho]
  simp only [hr, Bool.true_eq_false, if_false]
  rw [dif_neg (UInt32.not_le.2 hl)]

/-- The run is what is done up to a head of the loop and then the run from there. -/
theorem Reaches.retry_eq (h : Reaches op limit b attempt waited s) :
    ∃ hlt, retry op limit b = (runFrom op limit attempt hlt waited s).behind
      (delaysBefore b attempt.toNat) (op.eventsBefore b attempt.toNat) := by
  induction h with
  | start => exact ⟨.inl rfl, (Run.behind_nil _).symm⟩
  | again before failed retryable allowed added ih =>
    obtain ⟨hlt, ih⟩ := ih
    have hhead := before.atHead
    refine ⟨.inr allowed, ?_⟩
    rw [ih, runFrom_of_retried hlt failed retryable allowed, added, Option.elim_some,
      Run.behind_afterDelay, hhead.toNat_succ, delaysBefore_succ, Operation.eventsBefore_succ,
      hhead.asked_eq]
    simp only [Operation.eventsAt, Operation.errorText, failed, UInt32.ofNat_toNat]
    rfl

theorem retry_of_fits (hw : waitBefore b (op.stop limit) ≤ Duration.maxNanos) :
    retry op limit b
      = { ending := op.endingAt (op.stop limit) (UInt32.ofNat (op.stop limit + 1))
            (.ofNanos (waitBefore b (op.stop limit)))
          calls := op.stop limit + 1
          delays := delaysBefore b (op.stop limit)
          events := op.eventsBefore b (op.stop limit) ++ op.lastEvents (op.stop limit)
          backoff := stateAt b (op.stop limit) } := by
  have hnat := Operation.toNat_ofNat_of_le_stop (Nat.le_refl (op.stop limit))
  obtain ⟨hlt, heq⟩ := (reaches_of_fits (Nat.le_refl _) hw).retry_eq
  rw [heq, runFrom_of_stopsAt hlt (hnat.symm ▸ op.stopsAt_stop limit), hnat, UInt32.ofNat_add]
  simp [Run.behind, Run.last, Nat.add_comm]

theorem retry_of_overflow (hn : n < op.stop limit) (hw : waitBefore b n ≤ Duration.maxNanos)
    (hover : Duration.maxNanos < waitBefore b (n + 1)) :
    retry op limit b
      = { ending := .overflowed
          calls := n + 1
          delays := delaysBefore b (n + 1)
          events := op.eventsBefore b (n + 1)
          backoff := stateAt b (n + 1) } := by
  have hnat := Operation.toNat_ofNat_of_le_stop (Nat.le_of_lt hn)
  have hreach := reaches_of_fits (Nat.le_of_lt hn) hw
  obtain ⟨e, ho, hr, -⟩ := Operation.of_lt_stop hn
  obtain ⟨hlt, heq⟩ := hreach.retry_eq
  have hadd : (Duration.ofNanos (waitBefore b n)).add? (delayAt b n) = none := by
    rw [Duration.add?_eq_none_iff, Duration.toNanos_ofNanos hw, ← waitBefore_succ]
    exact hover
  rw [heq, runFrom_of_retried hlt (hnat.symm ▸ ho) hr (Operation.ofNat_lt_limit hn),
    hreach.atHead.asked_eq, hnat]
  rw [delayAt] at hadd
  rw [hadd, Option.elim_none, delaysBefore_succ, Operation.eventsBefore_succ, stateAt_succ]
  simp [Run.behind, Run.overflow, Operation.eventsAt, Operation.errorText, ho, delayAt,
    Nat.add_comm]

theorem retry_delays (op : Operation ε α) (limit : UInt32) (b : σ) :
    ∃ n ≤ op.stop limit, (retry op limit b).delays = delaysBefore b n := by
  rcases fits_or_overflows b (op.stop limit) with hfits | ⟨n, hn, hfits, hover⟩
  · exact ⟨op.stop limit, Nat.le_refl _, by rw [retry_of_fits hfits]⟩
  · exact ⟨n + 1, hn, by rw [retry_of_overflow hn hfits hover]⟩

/-- A run in which the time waited can be told calls the operation until the first call that no
other one follows. It asks one backoff for each attempt before that call, once and in order, and
ends as the call does, with the attempts made and the time waited. -/
theorem retry_until_stop (op : Operation ε α) (limit : UInt32) (b : σ)
    (hw : waitBefore b (op.stop limit) ≤ Duration.maxNanos) :
    ∃ (attempts : UInt32) (waited : Duration),
      attempts.toNat = op.stop limit + 1 ∧ waited.toNanos = waitBefore b (op.stop limit) ∧
      (retry op limit b).ending = (match op.outcome (op.stop limit) with
        | .ok v => .succeeded v attempts waited
        | .error e => .failed
          (if op.isRetryable e = true then .exhausted attempts e else .permanent attempts e)) ∧
      (retry op limit b).calls = op.stop limit + 1 ∧ op.stop limit + 1 ≤ max 1 limit.toNat ∧
      (retry op limit b).delays = delaysBefore b (op.stop limit) ∧
      (retry op limit b).backoff = stateAt b (op.stop limit) ∧
      (retry op limit (⟨[], b⟩ : Recorded σ)).backoff.inner = stateAt b (op.stop limit) ∧
      (retry op limit (⟨[], b⟩ : Recorded σ)).backoff.attempts.map UInt32.toNat
        = List.range (op.stop limit) := by
  have hwr : waitBefore (⟨[], b⟩ : Recorded σ) (op.stop limit) ≤ Duration.maxNanos := by
    rw [Recorded.waitBefore_eq]; exact hw
  have hasked : ((List.range (op.stop limit)).map UInt32.ofNat).map UInt32.toNat
      = List.range (op.stop limit) := by
    rw [List.map_map, List.map_congr_left (g := id), List.map_id]
    intro n hn
    exact Operation.toNat_ofNat_of_le_stop (Nat.le_of_lt (List.mem_range.1 hn))
  refine ⟨UInt32.ofNat (op.stop limit + 1), .ofNanos (waitBefore b (op.stop limit)),
    UInt32.toNat_ofNat_of_lt' (Operation.succ_lt_of_le_stop (Nat.le_refl _)),
    Duration.toNanos_ofNanos hw, ?_⟩
  rw [retry_of_fits hw, retry_of_fits hwr, Recorded.stateAt_eq]
  exact ⟨rfl, rfl, op.stop_succ_le limit, rfl, rfl, rfl, hasked⟩

theorem retry_busy_twice :
    let op : Operation String Nat :=
      ⟨fun n => if n < 2 then .error "busy" else .ok n, fun e => e == "busy"⟩
    let b : Backoff := ⟨Policy.default.schedule, .fresh fun _ => 0x8000000000000000⟩
    ∃ (attempts : UInt32) (waited : Duration), attempts.toNat = 3 ∧ waited.toNanos = 15000000 ∧
      (retry op 3 b).ending = .succeeded 2 attempts waited ∧ (retry op 3 b).calls = 3 ∧
      (retry op 3 (⟨[], b⟩ : Recorded Backoff)).backoff.attempts.map UInt32.toNat = [0, 1] := by
  intro op b
  have hstop : op.stop 3 = 2 := by
    rw [Operation.stop, Nat.find_eq_iff]
    decide
  have hwait : waitBefore b 2 = 15000000 := by decide +kernel
  obtain ⟨attempts, waited, ha, hw, hending, hcalls, -, -, -, -, hasked⟩ :=
    retry_until_stop op 3 b (by rw [hstop, hwait]; decide)
  rw [hstop] at ha hw hending hcalls hasked
  exact ⟨attempts, waited, ha, hw.trans hwait, hending, hcalls, hasked⟩

end Run

end RetryDelay
