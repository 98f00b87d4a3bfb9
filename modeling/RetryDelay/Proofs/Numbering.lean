import RetryDelay.Proofs.Session

/-!
Which generators a factory made from a seed hands out. Only a direct request, the beginning of a
use of a policy and a run ask for one, each for exactly one and whatever comes of it; the `n`th
request of a session is given the generator of the seed plus `n`. So what is handed out depends on
nothing but the seed and the number of requests before.
-/

set_option autoImplicit false

namespace RetryDelay

namespace Pool
variable {p : Pool} {k : Nat} {seed issued : UInt64}

theorem newGenerator_of_seeded (h : p.factories[k]? = some (.seeded seed issued)) :
    p.newGenerator (.custom k)
      = (Generator.ofSeed (seed + issued),
        { p with factories := p.factories.set k (.seeded seed (issued + 1)) }) := by
  simp only [newGenerator, h]

theorem factory_newGenerator_of_ne {source : Source} (h : source ≠ .custom k) :
    (p.newGenerator source).2.factories[k]? = p.factories[k]? := by
  cases source with
  | entropy => rfl
  | custom m =>
    have hne : m ≠ k := fun hm => h (by rw [hm])
    simp only [newGenerator]
    rcases p.factories[m]? with _ | ⟨seed, issued⟩ | stream | _
    · rfl
    · exact List.getElem?_set_ne hne
    · rfl
    · rfl

theorem factory_newGenerator (h : p.factories[k]? = some (.seeded seed issued)) :
    (p.newGenerator (.custom k)).2.factories[k]? = some (.seeded seed (issued + 1)) := by
  obtain ⟨hlt, -⟩ := List.getElem?_eq_some_iff.1 h
  rw [newGenerator_of_seeded h]
  exact List.getElem?_set_self hlt

theorem factory_append {f : Factory} (h : p.factories[k]? = some f) (made : List Factory) :
    (p.factories ++ made)[k]? = some f := by
  obtain ⟨hlt, -⟩ := List.getElem?_eq_some_iff.1 h
  rw [List.getElem?_append_left hlt, h]

end Pool

theorem Policy.begin_eq (s : Policy) (p : Pool) :
    s.begin p = (⟨s.schedule, (p.newGenerator s.source).1⟩, (p.newGenerator s.source).2) := rfl

namespace Builder

theorem source_of_build {b : Builder} {s : Policy} (h : b.build.value = .ok s) :
    s.source = b.source := by
  rw [value_build] at h
  generalize Schedule.check _ _ _ = checked at h
  cases checked with
  | error e => cases h
  | ok schedule => cases h; rfl

theorem source_foldl_set (b : Builder) {ss : List Setting} (h : ∀ r, Setting.source r ∉ ss) :
    (ss.foldl set b).source = b.source := by
  induction ss generalizing b with
  | nil => rfl
  | cons s ss ih =>
    rw [List.foldl_cons, ih _ fun r hr => h r (List.mem_cons_of_mem s hr)]
    cases s with
    | source r => exact absurd List.mem_cons_self (h r)
    | base | max | jitter => rfl

end Builder

namespace Session

variable {α : Type} {st : State} {k : Nat} {seed issued : UInt64}

def Effect.source? : Effect → Option Source
  | .ask source => some source
  | .begin _ s => some s.source
  | _ => none

/-- The source that a step asks for a generator, if it asks for one. -/
def State.request? (st : State) : Step α → Option Source
  | .draw factory _ => st.factories.get? factory
  | .backoff _ policy | .retry policy _ => (st.policies.get? policy).map Policy.source
  | _ => none

def State.answerWith (st : State) (g : Generator) : Step α → Option (Answer α)
  | .draw _ count => some (.numbers (g.take count).1)
  | .backoff _ policy => (st.policies.get? policy).map fun s => .backoff ⟨s.schedule, g⟩
  | .retry policy job => (st.policies.get? policy).map fun s => .ran (job.run ⟨s.schedule, g⟩)
  | _ => none

theorem source?_effect (st : State) (s : Step α) : (st.effect s).source? = st.request? s := by
  have hmakes (h : s.makesPolicy = true) : (st.effect s).source? = none := by
    rcases effect_of_makesPolicy st s h with h | ⟨_, _, _, h⟩ <;> rw [h] <;> rfl
  cases s with
  | draw factory count =>
    rw [State.effect, State.request?]
    cases st.factories.get? factory <;> rfl
  | backoff name policy | retry policy job =>
    rw [State.effect, State.request?]
    cases st.policies.get? policy <;> rfl
  | policy | clone | rebuild => exact hmakes rfl
  | _ => rfl

theorem answer_step {source : Source} {s : Step α} (h : st.request? s = some source) :
    st.answerWith (st.pool.newGenerator source).1 s = some (st.step s).value.1 := by
  cases s with
  | draw factory count =>
    rw [step_draw]
    rw [State.request?] at h
    rw [h]
    rfl
  | backoff name policy =>
    obtain ⟨s, hs, rfl⟩ := Option.map_eq_some_iff.1 h
    rw [step_backoff, State.answerWith, hs]
    rfl
  | retry policy job =>
    obtain ⟨s, hs, rfl⟩ := Option.map_eq_some_iff.1 h
    rw [step_retry, State.answerWith, hs, Option.map_some, Option.elim_some, Policy.begin_eq]
  | _ => cases h

theorem factory_after (h : st.pool.factories[k]? = some (.seeded seed issued)) (e : Effect) :
    (st.after e).pool.factories[k]?
      = some (.seeded seed (issued + if e.source? = some (.custom k) then 1 else 0)) := by
  have hnew (source : Source) : (st.pool.newGenerator source).2.factories[k]?
      = some (.seeded seed (issued + if some source = some (.custom k) then 1 else 0)) := by
    by_cases hs : source = .custom k
    · rw [hs, if_pos rfl, Pool.factory_newGenerator h]
    · rw [if_neg fun he => hs (Option.some.inj he), Pool.factory_newGenerator_of_ne hs, h,
        UInt64.add_zero]
  have hnone : some (Factory.seeded seed issued) = some (.seeded seed
      (issued + if (none : Option Source) = some (.custom k) then 1 else 0)) := by simp
  cases e with
  | ask source => exact hnew source
  | begin name s => exact hnew s.source
  | register name f => exact (Pool.factory_append h [f]).trans hnone
  | bind name made s => exact (Pool.factory_append h made).trans hnone
  | advance name attempts =>
    simp only [State.after]
    cases st.backoffs.get? name <;> exact h.trans hnone
  | nothing | drop => exact h.trans hnone

theorem factory_step (h : st.pool.factories[k]? = some (.seeded seed issued)) (s : Step α) :
    (st.step s).value.2.pool.factories[k]?
      = some (.seeded seed (issued + if st.request? s = some (.custom k) then 1 else 0)) := by
  rw [state_step, factory_after h, source?_effect]

/-- How many generators a session asks of the factory with a number. -/
def State.requests (k : Nat) (st : State) : List (Step α) → Nat
  | [] => 0
  | s :: steps =>
    (if st.request? s = some (.custom k) then 1 else 0) + requests k (st.step s).value.2 steps

def State.handedOut (k : Nat) (st : State) : List (Step α) → List Generator
  | [] => []
  | s :: steps =>
    (if st.request? s = some (.custom k) then [(st.pool.newGenerator (.custom k)).1] else [])
      ++ handedOut k (st.step s).value.2 steps

theorem factory_run (h : st.pool.factories[k]? = some (.seeded seed issued))
    (steps : List (Step α)) :
    (st.run steps).2.pool.factories[k]?
      = some (.seeded seed (issued + UInt64.ofNat (st.requests k steps))) := by
  induction steps generalizing st issued with
  | nil => simpa [State.requests, State.run] using h
  | cons s steps ih =>
    rw [run_cons, ih (factory_step h s), State.requests, UInt64.ofNat_add, UInt64.add_assoc]
    split <;> rfl

def seedOf (seed : UInt64) (n : Nat) : UInt64 := .ofNat ((seed.toNat + n) % 2 ^ (64 : Nat))

theorem seedOf_eq (seed : UInt64) (n : Nat) : seedOf seed n = seed + UInt64.ofNat n := by
  rw [← UInt64.toNat_inj, seedOf, UInt64.toNat_ofNat', UInt64.toNat_add, UInt64.toNat_ofNat']
  omega

theorem seedOf_inj {seed : UInt64} {n m : Nat} :
    seedOf seed n = seedOf seed m ↔ n % 2 ^ (64 : Nat) = m % 2 ^ (64 : Nat) := by
  rw [← UInt64.toNat_inj, seedOf, seedOf, UInt64.toNat_ofNat', UInt64.toNat_ofNat']
  omega

theorem handedOut_eq (h : st.pool.factories[k]? = some (.seeded seed issued))
    (steps : List (Step α)) :
    st.handedOut k steps = (List.range (st.requests k steps)).map fun n =>
      Generator.ofSeed (seedOf (seed + issued) n) := by
  induction steps generalizing st issued with
  | nil => rfl
  | cons s steps ih =>
    rw [State.handedOut, State.requests, ih (factory_step h s)]
    split
    · have hfirst : seedOf (seed + issued) 0 = seed + issued := by
        rw [seedOf_eq]; exact UInt64.add_zero _
      have hshift (n : Nat) : seedOf (seed + (issued + 1)) n = seedOf (seed + issued) n.succ := by
        rw [seedOf_eq, seedOf_eq, Nat.succ_eq_one_add, UInt64.ofNat_add, ← UInt64.add_assoc seed,
          UInt64.add_assoc _ 1]
        rfl
      rw [Pool.newGenerator_of_seeded h, Nat.add_comm 1, List.range_succ_eq_map, List.map_cons,
        List.map_map, hfirst]
      simp only [List.singleton_append, Function.comp_def, hshift]
    · rw [UInt64.add_zero, Nat.zero_add, List.nil_append]

/-- Whether a step uses a generator. The others make and name things, or ask about them. -/
def Step.isUse : Step α → Bool
  | .draw _ _ | .backoff _ _ | .retry _ _ => true
  | _ => false

theorem request?_of_not_isUse {s : Step α} (h : s.isUse = false) : st.request? s = none := by
  cases s with
  | draw | backoff | retry => cases h
  | _ => rfl

theorem issued_step {source : Source} {name : String} (hs : st.factories.get? name = some source)
    (hk : st.pool.factory? source = some (.seeded seed issued)) :
    (st.step (.issued name : Step α)).value.1 = .issued issued := by
  simp only [State.step, State.step?, find, hs, hk, bind, Except.bind, Option.bind_some,
    Factory.issued?]
  rfl

/-- A factory of a seed numbers the requests to it, whoever makes them. The request with the number
`n` is given the generator of the seed plus `n`, the factory counts the requests, and a request is
made exactly where a generator is taken from it directly, a use of a policy begins or a run is
made. So of two such factories, in whatever sessions, the same requests get the same. -/
theorem State.seeded_numbering (st : State) (k : Nat) (seed : UInt64) (steps : List (Step α))
    (hk : st.pool.factories[k]? = some (.ofSeed seed)) :
    let now := (st.run steps).2
    let n := st.requests k steps
    let count (st : State) := (st.pool.factory? (.custom k)).bind Factory.issued?
    -- What was handed out so far, what is handed out next, and when the seeds are the same.
    st.handedOut k steps = (List.range n).map (fun i => .ofSeed (seedOf seed i)) ∧
    (∀ s : Step α, now.request? s = some (.custom k) →
      now.answerWith (.ofSeed (seedOf seed n)) s = some (now.step s).value.1) ∧
    (∀ i j, seedOf seed i = seedOf seed j ↔ i % 2 ^ (64 : Nat) = j % 2 ^ (64 : Nat)) ∧
    -- What the factory counts, and what it answers.
    count now = some (.ofNat n) ∧
    (∀ name, now.factories.get? name = some (.custom k) →
      (now.step (.issued name : Step α)).value.1 = .issued (.ofNat n)) ∧
    -- A use of a policy with this factory is one request to it, what is no use is none.
    (∀ policy s, now.policies.get? policy = some s → s.source = .custom k →
      (∀ name, count (now.step (.backoff name policy : Step α)).value.2 = some (.ofNat (n + 1))) ∧
      ∀ job : Job α, count (now.step (.retry policy job)).value.2 = some (.ofNat (n + 1))) ∧
    (∀ s : Step α, s.isUse = false → count (now.step s).value.2 = some (.ofNat n)) ∧
    -- Which policies have the factory: those of a builder that was given it, and their clones.
    (∀ (b : Builder) (ss : List Setting) (s : Policy), (∀ r, Setting.source r ∉ ss) →
      (ss.foldl Builder.set (b.set (.source (.custom k)))).build.value = .ok s →
      s.source = .custom k) ∧
    (∀ name policy s, now.policies.get? policy = some s →
      (now.step (.clone name policy : Step α)).value.2.policies.get? name = some s) ∧
    -- Another session with a factory of the same seed.
    ∀ (st' : State) (k' : Nat) (steps' : List (Step α)),
      st'.pool.factories[k']? = some (.ofSeed seed) →
      ∀ i, i < n → i < st'.requests k' steps' →
        (st'.handedOut k' steps')[i]? = (st.handedOut k steps)[i]? := by
  intro now n count
  have hnow : now.pool.factories[k]? = some (.seeded seed (.ofNat n)) := by
    rw [factory_run hk, UInt64.zero_add]
  have hout {st : State} {k : Nat} (h : st.pool.factories[k]? = some (.ofSeed seed))
      (steps : List (Step α)) : st.handedOut k steps
        = (List.range (st.requests k steps)).map fun i => .ofSeed (seedOf seed i) := by
    rw [handedOut_eq h, UInt64.add_zero]
  have hcount (s : Step α) : count (now.step s).value.2
      = some (.ofNat n + if now.request? s = some (.custom k) then 1 else 0) :=
    congrArg (·.bind Factory.issued?) (factory_step hnow s)
  have huse {s : Step α} (h : now.request? s = some (.custom k)) :
      count (now.step s).value.2 = some (.ofNat (n + 1)) := by
    rw [hcount, if_pos h, UInt64.ofNat_add]
    rfl
  refine ⟨hout hk steps, fun s hs => ?_, fun i j => seedOf_inj,
    congrArg (·.bind Factory.issued?) hnow, fun name hname => issued_step hname hnow,
    fun policy s hs hsource => ⟨fun name => huse ?_, fun job => huse ?_⟩, fun s hs => ?_,
    fun b ss s hss h => ?_, fun name policy s hs => ?_, fun st' k' steps' hk' i hi hi' => ?_⟩
  · rw [seedOf_eq, ← answer_step hs, Pool.newGenerator_of_seeded hnow]
  · rw [State.request?, hs, Option.map_some, hsource]
  · rw [State.request?, hs, Option.map_some, hsource]
  · rw [hcount, request?_of_not_isUse hs, if_neg (by simp), UInt64.add_zero]
  · rw [Builder.source_of_build h, Builder.source_foldl_set _ hss]
    rfl
  · rw [step_clone, hs]
    exact Names.get?_set_self _ _ _
  · rw [hout hk', hout hk, List.getElem?_map, List.getElem?_map, List.getElem?_range hi,
      List.getElem?_range hi']

/-- Two policies, one of them a clone, a rejected build and a run that is allowed no retry, with a
seed that wraps around. -/
theorem seeded_numbering_wraps :
    let seed : UInt64 := 18446744073709551615
    let st := ((State.empty fun _ _ => 0).run [(.factory "seeds" (.ofSeed seed) : Step Nat)]).2
    let steps : List (Step Nat) := [
      .policy "policy" (.builder [.shared "seeds", .base .zero]),
      .clone "clone" "policy", .backoff "a" "clone", .delays "a" [0, 1],
      .policy "rejected" (.builder [.shared "seeds", .max .zero]),
      .retry "policy" ⟨0, ⟨.ok 1, []⟩, ""⟩, .draw "seeds" 2]
    st.handedOut 0 steps = [.ofSeed seed, .ofSeed 0, .ofSeed 1] ∧
    ((st.run steps).2.step (.issued "seeds" : Step Nat)).value.1 = .issued 3 := by
  intro seed st steps
  have hn : st.requests 0 steps = 3 := by decide +kernel
  have hseeds : (List.range 3).map (seedOf seed) = [seed, 0, 1] := by decide +kernel
  obtain ⟨hout, -, -, -, hissued, -⟩ := State.seeded_numbering st 0 seed steps rfl
  rw [hn] at hout hissued
  refine ⟨?_, hissued "seeds" (by decide +kernel)⟩
  calc st.handedOut 0 steps
      = ((List.range 3).map (seedOf seed)).map Generator.ofSeed := by
        rw [hout, List.map_map]; rfl
    _ = [.ofSeed seed, .ofSeed 0, .ofSeed 1] := by
        rw [hseeds, List.map_cons, List.map_cons, List.map_cons, List.map_nil]

end Session

end RetryDelay
