import RetryDelay.Run
import RetryDelay.Session.Recipe

/-!
A session is a sequence of steps over named factories, policies and backoffs. A step that fails
changes nothing. A backoff owns its schedule and its generator, so it goes on as it was when the
name of its policy comes to stand for something else.
-/

set_option autoImplicit false

namespace RetryDelay.Session

structure State where
  pool : Pool
  factories : Names Source
  policies : Names Policy
  backoffs : Names Backoff

def State.empty (entropy : Nat → Nat → UInt64) : State := ⟨.empty entropy, [], [], []⟩

inductive Step (α : Type) where
  | factory (name : String) (f : Factory)
  | issued (factory : String)
  | draw (factory : String) (count : Nat)
  | policy (name : String) (recipe : Recipe)
  | showBuilder (calls : List BuilderCall)
  | clone (name policy : String)
  /-- Builds a policy anew from its options and gives the result a name. -/
  | rebuild (name policy : String)
  | compare (a b : String)
  | backoff (name policy : String)
  | delays (backoff : String) (attempts : List UInt32)
  | drop (name : String)
  | retry (policy : String) (job : Job α)

inductive Answer (α : Type) where
  | done
  | issued (count : UInt64)
  | numbers (xs : List UInt64)
  | policy (s : Policy)
  | rejected (e : Rejection)
  | builder (b : Builder)
  | same (b : Bool)
  | backoff (b : Backoff)
  /-- Delays and random numbers taken, and the backoff after them. -/
  | delays (b : Backoff) (ds : List (Duration × Nat))
  | dropped (existed : Bool)
  | ran (r : Run Backoff String α)
  | unknown (name : String)

variable {α : Type}

def find {β : Type} (ns : Names β) (name : String) : Except UnknownName β :=
  match ns.get? name with
  | some b => .ok b
  | none => .error ⟨name⟩

def State.bind (st : State) (name : String) (p : Pool)
    (outcome : Logged (Except Rejection Policy)) : Logged (Answer α × State) :=
  match outcome.value with
  | .error e => ⟨(.rejected e, st), outcome.events⟩
  | .ok s =>
    ⟨(.policy s, { st with pool := p, policies := st.policies.set name s }), outcome.events⟩

def State.step? (st : State) : Step α → Except UnknownName (Logged (Answer α × State))
  | .factory name f =>
    let (source, pool) := st.pool.register f
    .ok (pure (.done, { st with pool, factories := st.factories.set name source }))
  | .issued factory => do
    let source ← find st.factories factory
    match (st.pool.factory? source).bind Factory.issued? with
    | some count => return pure (.issued count, st)
    | none => .error ⟨factory⟩
  | .draw factory count => do
    let source ← find st.factories factory
    let (generator, pool) := st.pool.newGenerator source
    return pure (.numbers (generator.take count).1, { st with pool })
  | .policy name recipe => do
    let (outcome, pool) ← recipe.construct st.factories st.pool
    return st.bind name pool outcome
  | .showBuilder calls => do
    let (settings, _) ← BuilderCall.settings st.factories calls st.pool
    return pure (.builder (Builder.ofSettings settings), st)
  | .clone name policy => do
    let s ← find st.policies policy
    return st.bind name st.pool (pure (.ok s))
  | .rebuild name policy => do
    let s ← find st.policies policy
    return st.bind name st.pool (Options.ofPolicy s).build
  | .compare a b => do
    let s ← find st.policies a
    let t ← find st.policies b
    return pure (.same (s.same t), st)
  | .backoff name policy => do
    let s ← find st.policies policy
    let (b, pool) := s.begin st.pool
    return pure (.backoff b, { st with pool, backoffs := st.backoffs.set name b })
  | .delays backoff attempts => do
    let b ← find st.backoffs backoff
    let asked := b.delays attempts
    let b := asked.value.2
    return ⟨(.delays b asked.value.1, { st with backoffs := st.backoffs.set backoff b }),
      asked.events⟩
  | .drop name =>
    let existed := (st.policies.get? name).isSome || (st.backoffs.get? name).isSome
    .ok (pure (.dropped existed,
      { st with policies := st.policies.erase name, backoffs := st.backoffs.erase name }))
  | .retry policy job => do
    let s ← find st.policies policy
    let (b, pool) := s.begin st.pool
    let run := job.run b
    return ⟨(.ran run, { st with pool }), run.events⟩

/-- Does a step; one that uses a name that stands for nothing changes nothing. -/
def State.step (st : State) (s : Step α) : Logged (Answer α × State) :=
  match st.step? s with
  | .ok done => done
  | .error e => pure (.unknown e.name, st)

def State.run (st : State) : List (Step α) → List (Logged (Answer α)) × State
  | [] => ([], st)
  | s :: steps =>
    let done := st.step s
    let (answers, last) := run done.value.2 steps
    (⟨done.value.1, done.events⟩ :: answers, last)

end RetryDelay.Session
