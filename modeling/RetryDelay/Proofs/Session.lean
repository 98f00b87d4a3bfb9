import RetryDelay.Session

/-!
What a step of a session does to its state. Every step has one of seven effects, and which one it
has is decided without a look at the backoffs or at what the surroundings supply; what holds along
whole sessions is shown of the effects. An exchange is a step with its answer.
-/

set_option autoImplicit false

namespace RetryDelay

namespace Pool

def grow (p : Pool) (made : List Factory) : Pool := { p with factories := p.factories ++ made }

def withEntropy (p : Pool) (entropy : Nat → Nat → UInt64) : Pool := { p with entropy }

theorem grow_nil (p : Pool) : p.grow [] = p := by
  rw [grow, List.append_nil]

theorem grow_grow (p : Pool) (made later : List Factory) :
    (p.grow made).grow later = p.grow (made ++ later) := by
  simp only [grow, List.append_assoc]

theorem newGenerator_withEntropy (p : Pool) (entropy : Nat → Nat → UInt64) (source : Source) :
    ((p.withEntropy entropy).newGenerator source).2
      = (p.newGenerator source).2.withEntropy entropy := by
  cases source with
  | entropy => rfl
  | custom k =>
    simp only [newGenerator, withEntropy]
    rcases p.factories[k]? with _ | ⟨seed, issued⟩ | stream | _ <;> rfl

theorem generator_withEntropy {p : Pool} {source : Source}
    (h : (p.newGenerator source).1.predictable = true) (entropy : Nat → Nat → UInt64) :
    ((p.withEntropy entropy).newGenerator source).1 = (p.newGenerator source).1 := by
  cases source with
  | entropy => cases h
  | custom k =>
    revert h
    simp only [newGenerator, withEntropy]
    rcases p.factories[k]? with _ | ⟨seed, issued⟩ | stream | _
    · intro h; cases h
    · exact fun _ => rfl
    · exact fun _ => rfl
    · intro h; cases h

end Pool

def BuilderCall.made : BuilderCall → List Factory
  | .factory f => [f]
  | .base _ | .max _ | .jitter _ | .shared _ => []

def Recipe.made : Recipe → List Factory
  | .builder calls => calls.flatMap BuilderCall.made
  | .bounds .. | .default | .none | .options _ => []

/-- All that a call on a builder learns of a pool is the number of its factories, and all it does to
the pool is to add the factory it makes. -/
theorem BuilderCall.setting_eq (factories : Names Source) (call : BuilderCall) (n : Nat) :
    ∃ r : Except UnknownName Setting, ∀ p : Pool, p.factories.length = n →
      call.setting factories p = r.map fun s => (s, p.grow call.made) := by
  cases call with
  | factory f =>
    refine ⟨.ok (.source (.custom n)), fun p hp => ?_⟩
    rw [setting, ← hp]; rfl
  | shared name =>
    refine ⟨((factories.get? name).map Setting.source).elim (.error ⟨name⟩) .ok, fun p _ => ?_⟩
    rw [setting, made, p.grow_nil]
    cases factories.get? name <;> rfl
  | base d => exact ⟨.ok (.base d), fun p _ => by rw [made, p.grow_nil]; rfl⟩
  | max d => exact ⟨.ok (.max d), fun p _ => by rw [made, p.grow_nil]; rfl⟩
  | jitter x => exact ⟨.ok (.jitter x), fun p _ => by rw [made, p.grow_nil]; rfl⟩

theorem BuilderCall.settings_eq (factories : Names Source) (calls : List BuilderCall) (n : Nat) :
    ∃ r : Except UnknownName (List Setting), ∀ p : Pool, p.factories.length = n →
      settings factories calls p = r.map fun ss => (ss, p.grow (calls.flatMap made)) := by
  induction calls generalizing n with
  | nil => exact ⟨.ok [], fun p _ => by rw [List.flatMap_nil, p.grow_nil]; rfl⟩
  | cons call calls ih =>
    obtain ⟨first, hfirst⟩ := setting_eq factories call n
    obtain ⟨others, hothers⟩ := ih (n + call.made.length)
    refine ⟨do return (← first) :: (← others), fun p hp => ?_⟩
    have hgrow : (p.grow call.made).factories.length = n + call.made.length := by
      simp only [Pool.grow, List.length_append, hp]
    rw [settings, hfirst p hp]
    rcases first with e | s
    · rfl
    · simp only [Except.map, bind, Except.bind]
      rw [hothers _ hgrow, List.flatMap_cons, ← p.grow_grow]
      cases others <;> rfl

theorem Recipe.construct_eq (factories : Names Source) (recipe : Recipe) (n : Nat) :
    ∃ r : Except UnknownName (Logged (Except Rejection Policy)),
      ∀ p : Pool, p.factories.length = n →
        recipe.construct factories p = r.map fun outcome => (outcome, p.grow recipe.made) := by
  cases recipe with
  | builder calls =>
    obtain ⟨r, hr⟩ := BuilderCall.settings_eq factories calls n
    refine ⟨r.map fun ss => (Builder.ofSettings ss).build, fun p hp => ?_⟩
    rw [construct, hr p hp]
    cases r <;> rfl
  | bounds base max =>
    exact ⟨.ok (Policy.ofBounds base max), fun p _ => by rw [made, p.grow_nil]; rfl⟩
  | default => exact ⟨.ok (.silent (.ok Policy.default)), fun p _ => by rw [made, p.grow_nil]; rfl⟩
  | none => exact ⟨.ok (.silent (.ok Policy.none)), fun p _ => by rw [made, p.grow_nil]; rfl⟩
  | options o => exact ⟨.ok o.build, fun p _ => by rw [made, p.grow_nil]; rfl⟩

namespace Session

inductive Effect where
  | nothing
  | register (name : String) (f : Factory)
  /-- A generator is asked for and used at once. -/
  | ask (source : Source)
  /-- A policy gets a name, and the factories made for it go into the pool. -/
  | bind (name : String) (made : List Factory) (s : Policy)
  | begin (name : String) (s : Policy)
  | advance (name : String) (attempts : List UInt32)
  | drop (name : String)

def Effect.ofOutcome (name : String) (made : List Factory) : Except Rejection Policy → Effect
  | .ok s => .bind name made s
  | .error _ => .nothing

theorem Effect.ofOutcome_cases (name : String) (made : List Factory)
    (outcome : Except Rejection Policy) :
    ofOutcome name made outcome = .nothing ∨
      ∃ s, ofOutcome name made outcome = .bind name made s := by
  cases outcome with
  | ok s => exact .inr ⟨s, rfl⟩
  | error e => exact .inl rfl

variable {α : Type}

def State.effect (st : State) : Step α → Effect
  | .factory name f => .register name f
  | .draw factory _ => (st.factories.get? factory).elim .nothing .ask
  | .policy name recipe =>
    match recipe.construct st.factories st.pool with
    | .ok (outcome, _) => .ofOutcome name recipe.made outcome.value
    | .error _ => .nothing
  | .clone name policy => (st.policies.get? policy).elim .nothing (.bind name [])
  | .rebuild name policy => (st.policies.get? policy).elim .nothing fun s =>
    .ofOutcome name [] (Options.ofPolicy s).build.value
  | .backoff name policy => (st.policies.get? policy).elim .nothing (.begin name)
  | .delays backoff attempts => .advance backoff attempts
  | .drop name => .drop name
  | .retry policy _ => (st.policies.get? policy).elim .nothing fun s => .ask s.source
  | .issued _ | .showBuilder _ | .compare _ _ => .nothing

def State.after (st : State) : Effect → State
  | .nothing => st
  | .register name f =>
    { st with
      pool := (st.pool.register f).2
      factories := st.factories.set name (st.pool.register f).1 }
  | .ask source => { st with pool := (st.pool.newGenerator source).2 }
  | .bind name made s =>
    { st with pool := st.pool.grow made, policies := st.policies.set name s }
  | .begin name s =>
    { st with
      pool := (s.begin st.pool).2
      backoffs := st.backoffs.set name (s.begin st.pool).1 }
  | .advance name attempts =>
    match st.backoffs.get? name with
    | some b => { st with backoffs := st.backoffs.set name (b.delays attempts).value.2 }
    | none => st
  | .drop name =>
    { st with policies := st.policies.erase name, backoffs := st.backoffs.erase name }

def Step.makesPolicy : Step α → Bool
  | .policy _ _ | .clone _ _ | .rebuild _ _ => true
  | _ => false

theorem effect_of_makesPolicy (st : State) (s : Step α) (h : s.makesPolicy = true) :
    st.effect s = .nothing ∨ ∃ name made t, st.effect s = .bind name made t := by
  cases s with
  | policy name recipe =>
    rw [State.effect]
    rcases recipe.construct st.factories st.pool with e | ⟨outcome, p⟩
    · exact .inl rfl
    · exact (Effect.ofOutcome_cases name recipe.made outcome.value).imp_right fun h => ⟨_, _, h⟩
  | clone name policy =>
    rw [State.effect]
    cases st.policies.get? policy with
    | none => exact .inl rfl
    | some s => exact .inr ⟨name, [], s, rfl⟩
  | rebuild name policy =>
    rw [State.effect]
    cases st.policies.get? policy with
    | none => exact .inl rfl
    | some s =>
      rw [Option.elim_some]
      exact (Effect.ofOutcome_cases name [] _).imp_right fun h => ⟨_, _, h⟩
  | _ => cases h

section Step
variable (st : State)

theorem step_of_lookup {st : State} {s : Step α} {β : Type} {ns : Names β} {key : String}
    {f : β → Logged (Answer α × State)} (h : st.step? s = (do let b ← find ns key; return f b)) :
    st.step s = (ns.get? key).elim (pure (.unknown key, st)) f := by
  rw [State.step, h, find]
  cases ns.get? key <;> rfl

theorem step_draw (factory : String) (count : Nat) :
    (st.step (.draw factory count) : Logged (Answer α × State))
      = (st.factories.get? factory).elim (pure (.unknown factory, st)) fun source =>
          pure (.numbers ((st.pool.newGenerator source).1.take count).1,
            st.after (.ask source)) :=
  step_of_lookup rfl

theorem step_clone (name policy : String) :
    (st.step (.clone name policy) : Logged (Answer α × State))
      = (st.policies.get? policy).elim (pure (.unknown policy, st)) fun s =>
          st.bind name (st.pool.grow []) (pure (.ok s)) := by
  rw [Pool.grow_nil]; exact step_of_lookup rfl

theorem step_rebuild (name policy : String) :
    (st.step (.rebuild name policy) : Logged (Answer α × State))
      = (st.policies.get? policy).elim (pure (.unknown policy, st)) fun s =>
          st.bind name (st.pool.grow []) (Options.ofPolicy s).build := by
  rw [Pool.grow_nil]; exact step_of_lookup rfl

theorem step_backoff (name policy : String) :
    (st.step (.backoff name policy) : Logged (Answer α × State))
      = (st.policies.get? policy).elim (pure (.unknown policy, st)) fun s =>
          pure (.backoff (s.begin st.pool).1, st.after (.begin name s)) :=
  step_of_lookup rfl

theorem step_delays (name : String) (attempts : List UInt32) :
    (st.step (.delays name attempts) : Logged (Answer α × State))
      = (st.backoffs.get? name).elim (pure (.unknown name, st)) fun b =>
          ⟨(.delays (b.delays attempts).value.2 (b.delays attempts).value.1,
              { st with backoffs := st.backoffs.set name (b.delays attempts).value.2 }),
            (b.delays attempts).events⟩ :=
  step_of_lookup rfl

theorem step_retry (policy : String) (job : Job α) :
    st.step (.retry policy job)
      = (st.policies.get? policy).elim (pure (.unknown policy, st)) fun s =>
          ⟨(.ran (job.run (s.begin st.pool).1), st.after (.ask s.source)),
            (job.run (s.begin st.pool).1).events⟩ :=
  step_of_lookup rfl

theorem state_bind (name : String) (made : List Factory)
    (outcome : Logged (Except Rejection Policy)) :
    (st.bind name (st.pool.grow made) outcome : Logged (Answer α × State)).value.2
      = st.after (.ofOutcome name made outcome.value) := by
  unfold State.bind
  cases outcome.value <;> rfl

theorem state_step (s : Step α) : (st.step s).value.2 = st.after (st.effect s) := by
  cases s with
  | factory name f => rfl
  | drop name => rfl
  | issued factory =>
    simp only [State.step, State.step?, State.effect, State.after, find]
    rcases st.factories.get? factory with _ | source
    · rfl
    · simp only [bind, Except.bind, pure, Except.pure]
      cases (st.pool.factory? source).bind Factory.issued? <;> rfl
  | draw factory count => rw [step_draw, State.effect]; cases st.factories.get? factory <;> rfl
  | policy name recipe =>
    obtain ⟨r, hr⟩ := recipe.construct_eq st.factories st.pool.factories.length
    simp only [State.step, State.step?, State.effect]
    rw [hr _ rfl]
    rcases r with e | outcome
    · rfl
    · exact state_bind st name recipe.made outcome
  | showBuilder calls =>
    simp only [State.step, State.step?, State.effect]
    cases BuilderCall.settings st.factories calls st.pool <;> rfl
  | clone name policy => rw [step_clone, State.effect]; cases st.policies.get? policy <;> rfl
  | rebuild name policy =>
    rw [step_rebuild, State.effect]
    rcases st.policies.get? policy with _ | s
    · rfl
    · -- Rewriting only: by computation the kernel would build the policy.
      rw [Option.elim_some, Option.elim_some, state_bind]
  | compare a b =>
    simp only [State.step, State.step?, State.effect, find]
    rcases st.policies.get? a with _ | s
    · rfl
    · cases st.policies.get? b <;> rfl
  | backoff name policy => rw [step_backoff, State.effect]; cases st.policies.get? policy <;> rfl
  | delays name attempts =>
    rw [step_delays, State.effect, State.after]
    cases st.backoffs.get? name <;> rfl
  | retry policy job => rw [step_retry, State.effect]; cases st.policies.get? policy <;> rfl

end Step

section Run

theorem run_cons (st : State) (s : Step α) (steps : List (Step α)) :
    (st.run (s :: steps)).2 = ((st.step s).value.2.run steps).2 := rfl

def State.exchanges (st : State) (steps : List (Step α)) : List (Step α × Answer α) :=
  steps.zip ((st.run steps).1.map Logged.value)

theorem exchanges_cons (st : State) (s : Step α) (steps : List (Step α)) :
    st.exchanges (s :: steps)
      = (s, (st.step s).value.1) :: (st.step s).value.2.exchanges steps := rfl

theorem exchanges_append (st : State) (steps later : List (Step α)) :
    st.exchanges (steps ++ later) = st.exchanges steps ++ (st.run steps).2.exchanges later := by
  induction steps generalizing st with
  | nil => rfl
  | cons s steps ih => rw [List.cons_append, exchanges_cons, exchanges_cons, ih]; rfl

@[simp] theorem length_exchanges (st : State) (steps : List (Step α)) :
    (st.exchanges steps).length = steps.length := by
  induction steps generalizing st with
  | nil => rfl
  | cons s steps ih => rw [exchanges_cons, List.length_cons, ih, List.length_cons]

end Run

section Rest

/-- Everything in a session but its backoffs and what the surroundings supply. -/
def State.rest (st : State) : State :=
  { st with pool := st.pool.withEntropy fun _ _ => 0, backoffs := [] }

theorem effect_rest (st : State) (s : Step α) : st.rest.effect s = st.effect s := by
  cases s with
  | policy name recipe =>
    obtain ⟨r, hr⟩ := recipe.construct_eq st.factories st.pool.factories.length
    simp only [State.effect, State.rest]
    rw [hr st.pool rfl, hr (st.pool.withEntropy fun _ _ => 0) rfl]
    cases r <;> rfl
  | _ => rfl

theorem rest_after (st : State) (e : Effect) : (st.rest.after e).rest = (st.after e).rest := by
  cases e with
  | ask source => simp only [State.after, State.rest, Pool.newGenerator_withEntropy]; rfl
  | begin name s =>
    simp only [State.after, State.rest, Policy.begin, Pool.newGenerator_withEntropy]; rfl
  | advance name attempts => simp only [State.after]; cases st.backoffs.get? name <;> rfl
  | _ => rfl

/-- Neither the backoffs nor the surroundings have a part in what becomes of the rest. -/
theorem rest_step (st : State) (s : Step α) :
    (st.rest.step s).value.2.rest = (st.step s).value.2.rest := by
  rw [state_step, state_step, effect_rest, rest_after]

end Rest

end Session

end RetryDelay
