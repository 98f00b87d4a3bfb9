import RetryDelay.Backoff

/-!
Running an operation until it succeeds, fails for good, or has been tried as often as allowed. The
operation is known by its outcomes, the `n`th call having the `n`th of them. A run keeps what an
observer sees: how it ended, how often the operation was called, which delays were waited, what was
told, and the backoff as it was left.
-/

set_option autoImplicit false

namespace RetryDelay

inductive Failure (ε : Type) where
  | permanent (attempts : UInt32) (error : ε)
  | exhausted (attempts : UInt32) (error : ε)
  deriving DecidableEq

namespace Failure

def attempts {ε : Type} : Failure ε → UInt32
  | permanent attempts _ => attempts
  | exhausted attempts _ => attempts

def message {ε : Type} [ToString ε] : Failure ε → String
  | permanent attempts error =>
    "non-retryable failure on attempt " ++ toString attempts.toNat ++ ": " ++ toString error
  | exhausted attempts error =>
    "gave up after " ++ toString attempts.toNat ++ " attempts: " ++ toString error

def listing : Failure String → String
  | permanent attempts error =>
    "Permanent \x7b attempts: " ++ toString attempts.toNat ++ ", error: " ++ Text.quoted error
      ++ " \x7d"
  | exhausted attempts error =>
    "Exhausted \x7b attempts: " ++ toString attempts.toNat ++ ", error: " ++ Text.quoted error
      ++ " \x7d"

end Failure

inductive Ending (ε α : Type) where
  | succeeded (value : α) (attempts : UInt32) (waited : Duration)
  | failed (error : Failure ε)
  /-- The time waited in all is longer than the longest duration. -/
  | overflowed
  deriving DecidableEq

def overflowMessage : String := "overflow when adding durations"

structure Run (σ ε α : Type) where
  ending : Ending ε α
  calls : Nat
  delays : List Duration
  events : List Event
  backoff : σ

namespace Run
variable {σ ε α : Type}

def last (ending : Ending ε α) (events : List Event) (backoff : σ) : Run σ ε α :=
  ⟨ending, 1, [], events, backoff⟩

def afterDelay (delay : Duration) (events : List Event) (r : Run σ ε α) : Run σ ε α :=
  { r with
    calls := r.calls + 1
    delays := delay :: r.delays
    events := events ++ r.events }

def overflow (delay : Duration) (events : List Event) (backoff : σ) : Run σ ε α :=
  ⟨.overflowed, 1, [delay], events, backoff⟩

end Run

structure Operation (ε α : Type) where
  outcome : Nat → Except ε α
  isRetryable : ε → Bool

variable {σ ε α : Type}

theorem succ_toNat_of_lt {attempt limit : UInt32} (h : attempt = 0 ∨ attempt < limit) :
    (attempt + 1).toNat = attempt.toNat + 1 := by
  have hl := limit.toNat_lt
  rw [UInt32.toNat_add, UInt32.toNat_one]
  rcases h with h | h
  · simp [h]
  · have := UInt32.lt_iff_toNat_lt.mp h
    omega

theorem attemptsLeft_lt {attempt limit : UInt32} (h : attempt = 0 ∨ attempt < limit)
    (hl : attempt + 1 < limit) :
    limit.toNat - (attempt + 1).toNat < limit.toNat - attempt.toNat := by
  have hs := succ_toNat_of_lt h
  have hlt := UInt32.lt_iff_toNat_lt.mp hl
  omega

/-- The run from an attempt on, with the time waited before it. The number of attempts made stays
within a word: no attempt but the first is made beyond the limit. -/
def runFrom [Pacing σ] [ToString ε] (op : Operation ε α) (limit attempt : UInt32)
    (h : attempt = 0 ∨ attempt < limit) (waited : Duration) (backoff : σ) : Run σ ε α :=
  match op.outcome attempt.toNat with
  | .ok value => .last (.succeeded value (attempt + 1) waited) [] backoff
  | .error e =>
    if op.isRetryable e = false then
      .last (.failed (.permanent (attempt + 1) e)) [.notRetrying attempt (toString e)] backoff
    else if hl : limit ≤ attempt + 1 then
      .last (.failed (.exhausted (attempt + 1) e)) [.exhausted (attempt + 1) (toString e)] backoff
    else
      have hlt := UInt32.not_le.mp hl
      have := attemptsLeft_lt h hlt
      let asked := Pacing.delay attempt backoff
      let delay := asked.value.1
      let events := asked.events ++ [.retrying attempt delay (toString e)]
      (waited.add? delay).elim (.overflow delay events asked.value.2) fun waited =>
        .afterDelay delay events
          (runFrom op limit (attempt + 1) (Or.inr hlt) waited asked.value.2)
termination_by limit.toNat - attempt.toNat

/-- Runs an operation with at most `limit` attempts, but at least one. -/
def retry [Pacing σ] [ToString ε] (op : Operation ε α) (limit : UInt32) (backoff : σ) :
    Run σ ε α :=
  runFrom op limit 0 (Or.inl rfl) .zero backoff

def Text.contains (part : List Char) : List Char → Bool
  | [] => part.isEmpty
  | c :: s => part.isPrefixOf (c :: s) || contains part s

/-- The outcomes of the calls of an operation; after the list the last one goes on. -/
structure Outcomes (α : Type) where
  first : Except String α
  others : List (Except String α)

def Outcomes.get {α : Type} (o : Outcomes α) (n : Nat) : Except String α :=
  (o.first :: o.others)[n]?.getD (o.others.getLast?.getD o.first)

/-- An operation to run: how often at most, with which outcomes, and which text an error has to hold
to be worth a retry. -/
structure Job (α : Type) where
  maxAttempts : UInt32
  outcomes : Outcomes α
  retryIfContains : String

namespace Job
variable {α : Type}

def operation (j : Job α) : Operation String α where
  outcome := j.outcomes.get
  isRetryable e := Text.contains j.retryIfContains.toList e.toList

def run (j : Job α) (b : Backoff) : Run Backoff String α :=
  retry j.operation j.maxAttempts b

end Job

end RetryDelay
