import RetryDelay.Proofs.Acceptance
import RetryDelay.Proofs.Session

/-!
What a sequence of calls on a builder comes to. Each call replaces what an earlier one of its kind
gave and leaves the rest, so only the last call of each kind counts, and what is checked is their
numbers and the defaults for the rest. Two kinds of calls give a source; for these the last of
either counts. No generator is asked for on the way.
-/

set_option autoImplicit false

namespace RetryDelay

open Binary64

namespace BuilderCall

def base? : BuilderCall → Option Duration
  | .base d => some d
  | _ => none

def max? : BuilderCall → Option Duration
  | .max d => some d
  | _ => none

def jitter? : BuilderCall → Option Binary64
  | .jitter x => some x
  | _ => none

def givesSource : BuilderCall → Bool
  | .factory _ | .shared _ => true
  | _ => false

/-- The sources that calls give, in order, where there are `n` factories before: one that is made on
the spot gets the next number. -/
def sources (factories : Names Source) : Nat → List BuilderCall → List Source
  | _, [] => []
  | n, .factory _ :: calls => .custom n :: sources factories (n + 1) calls
  | n, .shared name :: calls => (factories.get? name).toList ++ sources factories n calls
  | n, _ :: calls => sources factories n calls

theorem sources_append (factories : Names Source) (n : Nat) (calls later : List BuilderCall) :
    sources factories n (calls ++ later)
      = sources factories n calls ++ sources factories (n + (calls.flatMap made).length) later := by
  induction calls generalizing n with
  | nil => rfl
  | cons call calls ih =>
    cases call <;> simp [sources, made, ih, Nat.add_assoc, Nat.add_comm]

theorem sources_filter (factories : Names Source) (n : Nat) (calls : List BuilderCall) :
    sources factories n (calls.filter givesSource) = sources factories n calls := by
  induction calls generalizing n with
  | nil => rfl
  | cons call calls ih => cases call <;> simp [sources, List.filter_cons, givesSource, ih]

theorem flatMap_made_filter (calls : List BuilderCall) :
    (calls.filter givesSource).flatMap made = calls.flatMap made := by
  induction calls with
  | nil => rfl
  | cons call calls ih => cases call <;> simp [made, List.filter_cons, givesSource, ih]

end BuilderCall

/-- A builder after more calls: the last of each kind, or what it held before. -/
def Builder.after (b : Builder) (factories : Names Source) (n : Nat) (calls : List BuilderCall) :
    Builder where
  base := (calls.filterMap BuilderCall.base?).getLast?.or b.base
  max := (calls.filterMap BuilderCall.max?).getLast?.or b.max
  jitter := (calls.filterMap BuilderCall.jitter?).getLast?.or b.jitter
  source := (BuilderCall.sources factories n calls).getLast?.getD b.source

theorem Builder.after_append (b : Builder) (factories : Names Source) (n : Nat)
    (calls later : List BuilderCall) :
    b.after factories n (calls ++ later)
      = (b.after factories n calls).after factories
          (n + (calls.flatMap BuilderCall.made).length) later := by
  simp only [after, BuilderCall.sources_append, List.filterMap_append, List.getLast?_append,
    Option.or_assoc, Option.getD_or]

def Names.cover (factories : Names Source) (calls : List BuilderCall) : Prop :=
  ∀ name, .shared name ∈ calls → ∃ source, factories.get? name = some source

namespace BuilderCall
variable {factories : Names Source}

theorem setting_eq_ok {call : BuilderCall} (h : factories.cover [call]) (p : Pool) (b : Builder) :
    ∃ s, call.setting factories p = .ok (s, p.grow call.made) ∧
      b.set s = b.after factories p.factories.length [call] := by
  cases call with
  | base d => exact ⟨.base d, by rw [made, p.grow_nil]; rfl, rfl⟩
  | max d => exact ⟨.max d, by rw [made, p.grow_nil]; rfl, rfl⟩
  | jitter x => exact ⟨.jitter x, by rw [made, p.grow_nil]; rfl, rfl⟩
  | factory f => exact ⟨.source (.custom p.factories.length), rfl, rfl⟩
  | shared name =>
    obtain ⟨source, hsource⟩ := h name (List.mem_singleton_self _)
    refine ⟨.source source, ?_, ?_⟩
    · rw [setting, hsource, made, p.grow_nil]
    · rw [Builder.after, sources, sources, hsource]; rfl

theorem settings_eq_ok {calls : List BuilderCall} (h : factories.cover calls) (p : Pool)
    (b : Builder) :
    ∃ ss, settings factories calls p = .ok (ss, p.grow (calls.flatMap made)) ∧
      ss.foldl Builder.set b = b.after factories p.factories.length calls := by
  induction calls generalizing p b with
  | nil => exact ⟨[], by rw [List.flatMap_nil, p.grow_nil]; rfl, rfl⟩
  | cons call calls ih =>
    have hcall : factories.cover [call] := fun name hname =>
      h name (List.mem_cons.2 (.inl (List.mem_singleton.1 hname)))
    have hcalls : factories.cover calls := fun name hname =>
      h name (List.mem_cons_of_mem call hname)
    obtain ⟨s, hs, hset⟩ := setting_eq_ok hcall p b
    obtain ⟨ss, hss, hsets⟩ := ih hcalls (p.grow call.made) (b.set s)
    refine ⟨s :: ss, ?_, ?_⟩
    · rw [settings, hs]
      simp only [bind, Except.bind, hss, p.grow_grow, List.flatMap_cons]
      rfl
    · have hlength : (p.grow call.made).factories.length
          = p.factories.length + ([call].flatMap made).length := by
        simp only [Pool.grow, List.length_append, List.flatMap_cons, List.flatMap_nil,
          List.append_nil]
      rw [List.foldl_cons, hsets, hset, hlength, ← Builder.after_append, List.singleton_append]

/-- What the last call that gives a source says of it: a factory made on the spot is the newest one
in the pool, and a name stands for the source it has. -/
def Tells (factories : Names Source) (p p' : Pool) (source : Source) : Option BuilderCall → Prop
  | some (.factory f) => ∃ n, source = .custom n ∧ p.factories.length ≤ n ∧
      p'.factories.length = n + 1 ∧ p'.factories[n]? = some f
  | some (.shared name) => factories.get? name = some source
  | _ => source = .entropy

theorem tells_last_source {calls : List BuilderCall} (h : factories.cover calls) (p : Pool) :
    Tells factories p (p.grow (calls.flatMap made))
      ((sources factories p.factories.length calls).getLast?.getD .entropy)
      (calls.filter givesSource).getLast? := by
  rw [← sources_filter, ← flatMap_made_filter]
  rcases List.eq_nil_or_concat' (calls.filter givesSource) with hnil | ⟨init, call, hcalls⟩
  · rw [hnil]; rfl
  · have hcall : call ∈ calls ∧ call.givesSource = true := by
      rw [← List.mem_filter, hcalls]
      exact List.mem_append_right init (List.mem_singleton_self call)
    rw [hcalls, sources_append, List.flatMap_append, List.getLast?_append, List.getLast?_append]
    cases call with
    | factory f =>
      refine ⟨p.factories.length + (init.flatMap made).length, rfl, Nat.le_add_right .., ?_, ?_⟩
      · simp [Pool.grow, made, Nat.add_assoc]
      · simp [Pool.grow, made]
    | shared name =>
      obtain ⟨source, hsource⟩ := h name hcall.1
      simp [sources, hsource, Tells]
    | base | max | jitter => cases hcall.2

end BuilderCall

namespace Schedule
variable {base max : Duration} {jitter : Binary64}

theorem check_eq_error_iff {e : Rejection} : check base max jitter = .error e ↔
    (jitter.isFraction ≠ true ∧ e = .jitterOutOfRange jitter) ∨
      (jitter.isFraction = true ∧ max.toNanos < base.toNanos ∧ e = .baseAboveMax base max) := by
  by_cases hj : jitter.isFraction = true
  · by_cases hle : base ≤ max
    · have hlt : ¬ max.toNanos < base.toNanos := Nat.not_lt.2 (Duration.le_def.1 hle)
      rw [check, dif_pos hj, dif_pos hle]
      simp [hj, hlt]
    · have hlt : max.toNanos < base.toNanos := Nat.not_le.1 fun h => hle (Duration.le_def.2 h)
      rw [check_of_not_le hj hle]
      simp [hj, hlt, eq_comm]
  · rw [check_of_not_isFraction hj]
    simp [hj, eq_comm]

theorem exists_check_eq_ok_iff : (∃ s, check base max jitter = .ok s) ↔
    jitter.isFraction = true ∧ base.toNanos ≤ max.toNanos := by
  constructor
  · rintro ⟨s, hs⟩
    obtain ⟨rfl, rfl, rfl⟩ := check_eq_ok_iff.1 hs
    exact ⟨s.jitter_isFraction, Duration.le_def.1 s.base_le_max⟩
  · rintro ⟨hj, hle⟩
    exact ⟨⟨base, max, jitter, Duration.le_def.2 hle, hj⟩, check_eq_ok_iff.2 ⟨rfl, rfl, rfl⟩⟩

end Schedule

namespace Recipe
variable {factories : Names Source} {calls : List BuilderCall}

theorem construct_builder (h : factories.cover calls) (p : Pool) :
    (Recipe.builder calls).construct factories p
      = .ok ((Builder.empty.after factories p.factories.length calls).build,
          p.grow (calls.flatMap BuilderCall.made)) := by
  obtain ⟨ss, hss, hset⟩ := BuilderCall.settings_eq_ok h p .empty
  rw [← hset, construct, hss]
  rfl

/-- A policy is built of the last call of each kind, or rejected for what they say. The pool gets
the factories that calls made, and none of its generators is asked for. -/
theorem construct_last_calls (factories : Names Source) (p : Pool) (calls : List BuilderCall)
    (hnames : ∀ name, .shared name ∈ calls → ∃ source, factories.get? name = some source) :
    let base := (calls.filterMap BuilderCall.base?).getLast?.getD (.ofMillis 10)
    let max := (calls.filterMap BuilderCall.max?).getLast?.getD (.ofMillis 1000)
    let jitter := (calls.filterMap BuilderCall.jitter?).getLast?.getD .one
    let fraction := (∃ negative n h, jitter = .finite negative n h) ∧
      0 ≤ jitter.toRat ∧ jitter.toRat ≤ 1
    let p' := { p with factories := p.factories ++ calls.flatMap BuilderCall.made }
    ∃ outcome source, (Recipe.builder calls).construct factories p = .ok (outcome, p') ∧
      (∀ e, outcome.value = .error e ↔
        (¬ fraction ∧ e = .jitterOutOfRange jitter) ∨
          (fraction ∧ max.toNanos < base.toNanos ∧ e = .baseAboveMax base max)) ∧
      ((∃ s, outcome.value = .ok s) ↔ fraction ∧ base.toNanos ≤ max.toNanos) ∧
      (∀ s, outcome.value = .ok s ↔ s.schedule.base = base ∧ s.schedule.max = max ∧
        s.schedule.jitter = jitter ∧ s.source = source) ∧
      BuilderCall.Tells factories p p' source (calls.filter BuilderCall.givesSource).getLast? ∧
      -- Whatever else was called, and in whatever order calls of different kinds came.
      ∀ calls' : List BuilderCall,
        (calls'.filterMap BuilderCall.base?).getLast?
          = (calls.filterMap BuilderCall.base?).getLast? →
        (calls'.filterMap BuilderCall.max?).getLast?
          = (calls.filterMap BuilderCall.max?).getLast? →
        (calls'.filterMap BuilderCall.jitter?).getLast?
          = (calls.filterMap BuilderCall.jitter?).getLast? →
        calls'.filter BuilderCall.givesSource = calls.filter BuilderCall.givesSource →
        (Recipe.builder calls').construct factories p = .ok (outcome, p') := by
  intro base max jitter fraction p'
  have hfraction : jitter.isFraction = true ↔ fraction := isFraction_iff_toRat
  have hpool (calls' : List BuilderCall) (h : calls'.filter BuilderCall.givesSource
      = calls.filter BuilderCall.givesSource) :
      p.grow (calls'.flatMap BuilderCall.made) = p' := by
    rw [← BuilderCall.flatMap_made_filter, h, BuilderCall.flatMap_made_filter]; rfl
  let b := Builder.empty.after factories p.factories.length calls
  have hvalue : b.build.value = (Schedule.check base max jitter).map (⟨·, b.source⟩) := by
    rw [Builder.value_build]
    simp only [b, Builder.after, Builder.empty, Option.or_none]
    rfl
  refine ⟨b.build, b.source, ?_, fun e => ?_, ?_, fun s => ?_,
    BuilderCall.tells_last_source hnames p, fun calls' hbase hmax hjitter hsource => ?_⟩
  · rw [construct_builder hnames, hpool calls rfl]
  · rw [← hfraction, ← Schedule.check_eq_error_iff, hvalue]
    cases Schedule.check base max jitter <;> simp [Except.map]
  · rw [← hfraction, ← Schedule.exists_check_eq_ok_iff, hvalue]
    cases Schedule.check base max jitter <;> simp [Except.map]
  · rw [hvalue, Schedule.map_check_eq_ok_iff]
  · have hnames' : factories.cover calls' := fun name hname => hnames name
      (List.mem_filter.1 (hsource ▸ List.mem_filter.2 ⟨hname, rfl⟩)).1
    rw [construct_builder hnames', hpool calls' hsource]
    simp only [b, Builder.after, hbase, hmax, hjitter]
    rw [← BuilderCall.sources_filter, hsource, BuilderCall.sources_filter]

/-- A jitter that is no number, a base above the default ceiling and a factory of the builder's own,
all of them replaced later; the jitter that stays is the negative zero. -/
theorem construct_last_calls_replaced :
    let factories : Names Source := [("seeds", .custom 0)]
    let p : Pool := { Pool.empty (fun _ _ => 0) with factories := [.ofSeed 7] }
    let made : Factory := .ofList [1, 2]
    let calls : List BuilderCall := [.jitter .nan, .base (.ofMillis 2000), .factory made,
      .shared "seeds", .base (.ofMillis 20), .jitter (.finite true 0 representable_zero)]
    (∀ name, .shared name ∈ calls → ∃ source, factories.get? name = some source) ∧
    ∃ outcome s, (Recipe.builder calls).construct factories p
        = .ok (outcome, { p with factories := [.ofSeed 7, made] }) ∧
      outcome.value = .ok s ∧ s.schedule.base = .ofMillis 20 ∧ s.schedule.max = .ofMillis 1000 ∧
        s.schedule.jitter = .finite true 0 representable_zero ∧ s.source = .custom 0 := by
  intro factories p made calls
  have hnames : ∀ name, .shared name ∈ calls → ∃ source, factories.get? name = some source := by
    intro name hname
    simp only [calls, List.mem_cons, BuilderCall.shared.injEq, reduceCtorEq, false_or,
      List.not_mem_nil, or_false] at hname
    exact ⟨.custom 0, hname ▸ rfl⟩
  obtain ⟨outcome, source, hconstruct, -, hexists, hok, htells, -⟩ :=
    construct_last_calls factories p calls hnames
  obtain ⟨s, hs⟩ := hexists.2 ⟨⟨⟨true, 0, representable_zero, rfl⟩, by decide +kernel⟩, by decide⟩
  obtain ⟨hbase, hmax, hjitter, hsource⟩ := (hok s).1 hs
  refine ⟨hnames, outcome, s, hconstruct, hs, hbase, hmax, hjitter, hsource.trans ?_⟩
  exact (Option.some.inj htells).symm

end Recipe

end RetryDelay
