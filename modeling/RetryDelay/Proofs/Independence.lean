import RetryDelay.Proofs.Delay
import RetryDelay.Proofs.Session

/-!
Backoffs do not interfere. A name stands for one backoff from the step that begins it until the
name is dropped or given to another one. What that backoff answers meanwhile, in however many steps
and between whatever others, is what it would answer alone if asked for the same attempts at once.
-/

set_option autoImplicit false

namespace RetryDelay.Session

variable {α : Type} {name : String}

/-- Whether after an exchange a name no longer stands for the backoff it stood for. -/
def endsLife (name : String) : Step α × Answer α → Bool
  | (.backoff other _, .backoff _) => other == name
  | (.drop other, _) => other == name
  | _ => false

/-- The exchanges for as long as a name stands for one backoff. -/
def lifeOf (name : String) (xs : List (Step α × Answer α)) : List (Step α × Answer α) :=
  xs.takeWhile fun x => !endsLife name x

def attemptsIn (name : String) : Step α × Answer α → List UInt32
  | (.delays other attempts, _) => if other = name then attempts else []
  | _ => []

def attemptsOf (name : String) (xs : List (Step α × Answer α)) : List UInt32 :=
  (lifeOf name xs).flatMap (attemptsIn name)

def delaysIn (name : String) : Step α × Answer α → List (Duration × Nat)
  | (.delays other _, .delays _ ds) => if other = name then ds else []
  | _ => []

def delaysOf (name : String) (xs : List (Step α × Answer α)) : List (Duration × Nat) :=
  (lifeOf name xs).flatMap (delaysIn name)

section Life
variable {x : Step α × Answer α} {xs : List (Step α × Answer α)}

theorem lifeOf_cons_of_ends (h : endsLife name x = true) : lifeOf name (x :: xs) = [] := by
  rw [lifeOf, List.takeWhile_cons, h]; rfl

theorem lifeOf_cons (h : endsLife name x = false) :
    lifeOf name (x :: xs) = x :: lifeOf name xs := by
  rw [lifeOf, List.takeWhile_cons, h]; rfl

theorem attemptsIn_of_ne {s : Step α} (h : ∀ attempts, s ≠ .delays name attempts)
    (a : Answer α) : attemptsIn name (s, a) = [] := by
  cases s with
  | delays other attempts => exact if_neg fun he : other = name => h attempts (by rw [he])
  | _ => rfl

theorem delaysIn_of_ne {s : Step α} (h : ∀ attempts, s ≠ .delays name attempts)
    (a : Answer α) : delaysIn name (s, a) = [] := by
  cases s with
  | delays other attempts =>
    cases a with
    | delays b ds => exact if_neg fun he : other = name => h attempts (by rw [he])
    | _ => rfl
  | _ => rfl

end Life

def Effect.touches (name : String) : Effect → Bool
  | .begin other _ | .advance other _ | .drop other => other == name
  | _ => false

theorem get?_after (st : State) {e : Effect} (h : e.touches name = false) :
    (st.after e).backoffs.get? name = st.backoffs.get? name := by
  cases e with
  | begin other s =>
    exact Names.get?_set_of_ne _ _ (Ne.symm (beq_eq_false_iff_ne.1 h))
  | advance other attempts =>
    simp only [State.after]
    cases st.backoffs.get? other with
    | none => rfl
    | some b => exact Names.get?_set_of_ne _ _ (Ne.symm (beq_eq_false_iff_ne.1 h))
  | drop other => exact Names.get?_erase_of_ne _ (Ne.symm (beq_eq_false_iff_ne.1 h))
  | _ => rfl

theorem touches_effect {st : State} {s : Step α}
    (hlife : endsLife name (s, (st.step s).value.1) = false)
    (hasks : ∀ attempts, s ≠ .delays name attempts) :
    (st.effect s).touches name = false := by
  have hmakes (h : s.makesPolicy = true) : (st.effect s).touches name = false := by
    rcases effect_of_makesPolicy st s h with h | ⟨_, _, _, h⟩ <;> rw [h] <;> rfl
  cases s with
  | backoff other policy =>
    rw [step_backoff] at hlife
    rw [State.effect]
    cases hp : st.policies.get? policy with
    | none => rfl
    | some s => rw [hp] at hlife; exact hlife
  | delays other attempts =>
    refine beq_eq_false_iff_ne.2 fun he => hasks attempts ?_
    rw [he]
  | drop other => exact hlife
  | draw factory count => rw [State.effect]; cases st.factories.get? factory <;> rfl
  | policy | clone | rebuild => exact hmakes rfl
  | retry policy job => rw [State.effect]; cases st.policies.get? policy <;> rfl
  | factory | issued | showBuilder | compare => rfl

theorem step_delays_of_some {st : State} {b : Backoff} (h : st.backoffs.get? name = some b)
    (attempts : List UInt32) :
    (st.step (.delays name attempts : Step α)).value
      = (.delays (b.delays attempts).value.2 (b.delays attempts).value.1,
        { st with backoffs := st.backoffs.set name (b.delays attempts).value.2 }) := by
  rw [step_delays, h, Option.elim_some]

/-- What the backoff of a name answers while it lives is what it answers alone. -/
theorem delaysOf_exchanges {st : State} {b : Backoff} (h : st.backoffs.get? name = some b)
    (steps : List (Step α)) :
    delaysOf name (st.exchanges steps)
      = (b.delays (attemptsOf name (st.exchanges steps))).value.1 := by
  induction steps generalizing st b with
  | nil => rfl
  | cons s steps ih =>
    rw [exchanges_cons, delaysOf, attemptsOf]
    by_cases hends : endsLife name (s, (st.step s).value.1) = true
    · rw [lifeOf_cons_of_ends hends]
      rfl
    · rw [Bool.not_eq_true] at hends
      rw [lifeOf_cons hends, List.flatMap_cons, List.flatMap_cons, ← delaysOf, ← attemptsOf]
      by_cases hasks : ∃ attempts, s = .delays name attempts
      · obtain ⟨attempts, rfl⟩ := hasks
        rw [step_delays_of_some h, ih (Names.get?_set_self _ _ _)]
        simp only [delaysIn, attemptsIn, if_pos, Backoff.delays_append]
      · simp only [not_exists] at hasks
        have hsame := get?_after st (touches_effect hends hasks)
        rw [← state_step, h] at hsame
        rw [ih hsame, attemptsIn_of_ne hasks, delaysIn_of_ne hasks, List.nil_append,
          List.nil_append]

section Sessions
variable {st : State}

def Step.isObserving : Step α → Bool
  | .issued _ | .showBuilder _ | .compare _ _ | .delays _ _ => true
  | _ => false

/-- The steps of a session that may do more than ask: those that name something, drop a name or
begin a use of a policy, in order. -/
def bindings (steps : List (Step α)) : List (Step α) := steps.filter fun s => !s.isObserving

theorem rest_run_of_rest_eq {st' : State} (h : st.rest = st'.rest) (steps : List (Step α)) :
    (st.run steps).2.rest = (st'.run steps).2.rest := by
  induction steps generalizing st st' with
  | nil => exact h
  | cons s steps ih =>
    rw [run_cons, run_cons]
    exact ih (by rw [← rest_step st, h, rest_step])

theorem rest_step_of_isObserving {s : Step α} (h : s.isObserving = true) :
    (st.step s).value.2.rest = st.rest := by
  rw [state_step]
  cases s with
  | delays other attempts =>
    simp only [State.effect, State.after]
    cases st.backoffs.get? other <;> rfl
  | issued | showBuilder | compare => rfl
  | _ => cases h

theorem rest_run_bindings (st : State) (steps : List (Step α)) :
    (st.run (bindings steps)).2.rest = (st.run steps).2.rest := by
  induction steps generalizing st with
  | nil => rfl
  | cons s steps ih =>
    rw [run_cons, ← ih]
    by_cases hs : s.isObserving = true
    · rw [bindings, List.filter_cons_of_neg (by simp [hs]), ← bindings]
      exact rest_run_of_rest_eq (rest_step_of_isObserving hs).symm _
    · rw [bindings, List.filter_cons_of_pos (by simp [hs]), run_cons]
      rfl

theorem rest_run_eq_of_bindings_eq {steps steps' : List (Step α)}
    (h : bindings steps' = bindings steps) :
    (st.run steps').2.rest = (st.run steps).2.rest := by
  rw [← rest_run_bindings, h, rest_run_bindings]

theorem entropy_after (e : Effect) : (st.after e).pool.entropy = st.pool.entropy := by
  have hnew (source : Source) : (st.pool.newGenerator source).2.entropy = st.pool.entropy := by
    cases source with
    | entropy => rfl
    | custom k =>
      simp only [Pool.newGenerator]
      rcases st.pool.factories[k]? with _ | ⟨seed, issued⟩ | stream | _ <;> rfl
  cases e with
  | ask source => exact hnew source
  | begin name s => exact hnew s.source
  | advance name attempts => simp only [State.after]; cases st.backoffs.get? name <;> rfl
  | _ => rfl

theorem entropy_run (st : State) (steps : List (Step α)) :
    (st.run steps).2.pool.entropy = st.pool.entropy := by
  induction steps generalizing st with
  | nil => rfl
  | cons s steps ih => rw [run_cons, ih, state_step, entropy_after]

def State.withEntropy (st : State) (entropy : Nat → Nat → UInt64) : State :=
  { st with pool := st.pool.withEntropy entropy }

theorem State.rest_run_withEntropy (st : State) {steps steps' : List (Step α)}
    (h : bindings steps' = bindings steps) (entropy : Nat → Nat → UInt64) :
    ((st.withEntropy entropy).run steps').2.rest = (st.run steps).2.rest := by
  rw [rest_run_eq_of_bindings_eq h]
  have hsame : (st.withEntropy entropy).rest = st.rest := rfl
  exact rest_run_of_rest_eq hsame steps

theorem State.pool_run_withEntropy (st : State) {steps steps' : List (Step α)}
    (h : bindings steps' = bindings steps) (entropy : Nat → Nat → UInt64) :
    ((st.withEntropy entropy).run steps').2.pool = (st.run steps).2.pool.withEntropy entropy := by
  have hpool := congrArg (fun r => r.pool.withEntropy entropy) (st.rest_run_withEntropy h entropy)
  have hsupply := entropy_run (st.withEntropy entropy) steps'
  generalize ((st.withEntropy entropy).run steps').2 = last at hpool hsupply
  calc last.pool = last.pool.withEntropy last.pool.entropy := rfl
    _ = last.pool.withEntropy entropy := by rw [hsupply]; rfl
    _ = (st.run steps).2.pool.withEntropy entropy := hpool

/-- What is said in a session after the step that begins a use of a policy. -/
def State.sinceBegun (st : State) (before : List (Step α)) (name policy : String)
    (after : List (Step α)) : List (Step α × Answer α) :=
  (st.exchanges (before ++ .backoff name policy :: after)).drop (before.length + 1)

theorem exchanges_of_begun {before : List (Step α)} {policy : String} {s : Policy}
    (hs : (st.run before).2.policies.get? policy = some s) (after : List (Step α)) :
    st.exchanges (before ++ .backoff name policy :: after)
      = st.exchanges before ++
        (.backoff name policy, .backoff (s.begin (st.run before).2.pool).1)
          :: ((st.run before).2.after (.begin name s)).exchanges after := by
  rw [exchanges_append, exchanges_cons, step_backoff, hs]
  rfl

theorem sinceBegun_eq {before : List (Step α)} {policy : String} {s : Policy}
    (hs : (st.run before).2.policies.get? policy = some s) (after : List (Step α)) :
    st.sinceBegun before name policy after
      = ((st.run before).2.after (.begin name s)).exchanges after := by
  rw [State.sinceBegun, exchanges_of_begun hs, ← length_exchanges st before,
    List.drop_length_add_append, List.drop_one, List.tail_cons]

theorem getElem?_exchanges_of_begun {before : List (Step α)} {policy : String} {s : Policy}
    (hs : (st.run before).2.policies.get? policy = some s) (after : List (Step α)) :
    (st.exchanges (before ++ .backoff name policy :: after))[before.length]?
      = some (.backoff name policy, .backoff (s.begin (st.run before).2.pool).1) := by
  rw [exchanges_of_begun hs, List.getElem?_append_right (by simp), length_exchanges, Nat.sub_self,
    List.getElem?_cons_zero]

theorem delaysOf_sinceBegun {before : List (Step α)} {policy : String} {s : Policy}
    (hs : (st.run before).2.policies.get? policy = some s) (after : List (Step α)) :
    delaysOf name (st.sinceBegun before name policy after)
      = ((s.begin (st.run before).2.pool).1.delays
          (attemptsOf name (st.sinceBegun before name policy after))).value.1 := by
  rw [sinceBegun_eq hs]
  exact delaysOf_exchanges (Names.get?_set_self _ _ _) after

/-- In every session a backoff answers as if it were alone: its delays are those of its schedule and
of the generator it was handed, for the attempts it is asked for. So any session that names and
begins the same things in the same order up to there gets the same delays from it for the same
attempts, whatever else it asks and, unless the generator comes from entropy, whatever entropy is
supplied. -/
theorem State.backoffs_independent (st : State) (before after : List (Step α))
    (name policy : String) (s : Policy)
    (hs : (st.run before).2.policies.get? policy = some s) :
    let b : Backoff := ⟨s.schedule, ((st.run before).2.pool.newGenerator s.source).1⟩
    let life := st.sinceBegun before name policy after
    (st.exchanges (before ++ .backoff name policy :: after))[before.length]?
      = some (.backoff name policy, .backoff b) ∧
    delaysOf name life = (b.delays (attemptsOf name life)).value.1 ∧
    ∀ entropy before' after', bindings before' = bindings before →
      (b.generator.predictable = true ∨ entropy = st.pool.entropy) →
      let life' := (st.withEntropy entropy).sinceBegun before' name policy after'
      ((st.withEntropy entropy).exchanges
          (before' ++ .backoff name policy :: after'))[before'.length]?
        = some (.backoff name policy, .backoff b) ∧
      (attemptsOf name life' = attemptsOf name life →
        delaysOf name life' = delaysOf name life) := by
  intro b life
  refine ⟨getElem?_exchanges_of_begun hs after, delaysOf_sinceBegun hs after, ?_⟩
  intro entropy before' after' hbefore hgen life'
  have hpolicies := congrArg State.policies (st.rest_run_withEntropy hbefore entropy)
  have hs' : ((st.withEntropy entropy).run before').2.policies.get? policy = some s := by
    rw [← hs]
    exact congrArg (fun ns => Names.get? ns policy) hpolicies
  have hb : (s.begin ((st.withEntropy entropy).run before').2.pool).1 = b := by
    rw [st.pool_run_withEntropy hbefore entropy]
    rcases hgen with hgen | rfl
    · exact congrArg (Backoff.mk s.schedule) (Pool.generator_withEntropy hgen entropy)
    · rw [← entropy_run st before]; rfl
  refine ⟨by rw [getElem?_exchanges_of_begun hs', hb], fun hattempts => ?_⟩
  rw [delaysOf_sinceBegun hs', hb, hattempts]
  exact (delaysOf_sinceBegun hs after).symm

/-- Two uses of one policy and its clone, the second one asked among steps of the first, and then in
a session that asks it alone. -/
theorem backoffs_independent_of_clone :
    let st := State.empty fun _ _ => 0
    let before : List (Step Nat) := [.factory "seeds" (.ofSeed 7),
      .policy "policy" (.builder [.shared "seeds"]), .clone "clone" "policy", .backoff "a" "clone"]
    let after : List (Step Nat) := [.delays "a" [0, 5], .delays "b" [0], .delays "a" [9],
      .delays "b" [1, 2], .drop "b", .delays "b" [3]]
    let before' := before ++ [.delays "a" [8], .issued "seeds"]
    let after' : List (Step Nat) := [.delays "b" [0, 1, 2]]
    attemptsOf "b" (st.sinceBegun before "b" "policy" after) = [0, 1, 2] ∧
    delaysOf "b" ((st.withEntropy fun n _ => .ofNat n).sinceBegun before' "b" "policy" after')
      = delaysOf "b" (st.sinceBegun before "b" "policy" after) := by
  intro st before after before' after'
  have hs : (st.run before).2.policies.get? "policy"
      = some ⟨Policy.default.schedule, .custom 0⟩ := by
    decide +kernel
  obtain ⟨-, -, hother⟩ := State.backoffs_independent st before after "b" "policy" _ hs
  obtain ⟨-, hdelays⟩ := hother (fun n _ => .ofNat n) before' after' rfl
    (.inl (by decide +kernel))
  exact ⟨by decide +kernel, hdelays (by decide +kernel)⟩

end Sessions

end RetryDelay.Session
