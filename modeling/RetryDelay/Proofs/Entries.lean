import Mathlib.Data.List.Induction
import Mathlib.Data.List.Nodup
import RetryDelay.Options.Entry

/-!
What options the entries of a document give. Entries are admissible if their keys are names of
options, none occurs twice, and every value fits its option; of such entries each option is known by
itself, and their order does not matter. Otherwise the first entry at fault after admissible ones
decides the error.
-/

set_option autoImplicit false

namespace RetryDelay
open Document

namespace Field
variable {f : Field} {key : String} {v : Value}

theorem ofName?_eq_some_iff : ofName? key = some f ↔ f.name = key := by
  constructor
  · intro h
    simpa using List.find?_some h
  · rintro rfl
    exact ofName?_name f

theorem ofName?_eq_none_iff : ofName? key = none ↔ ∀ f : Field, f.name ≠ key := by
  rw [Option.eq_none_iff_forall_ne_some]
  exact forall_congr' fun f => not_congr ofName?_eq_some_iff

theorem name_injective {f g : Field} (h : f.name = g.name) : f = g := by
  rw [← Option.some_inj, ← ofName?_name, h, ofName?_name]

/-- The values that an option takes: integers that a signed word holds, or all numbers. -/
def Admits (f : Field) (v : Value) : Prop :=
  match f with
  | .jitter => (∃ z, v = .integer z) ∨ ∃ x, v = .float x
  | _ => ∃ z, v = .integer z ∧ -2 ^ (63 : Nat) ≤ z ∧ z < 2 ^ (63 : Nat)

def expected : Field → Expected
  | .jitter => .number
  | _ => .integer

def refusal (f : Field) : Value → DataError
  | .integer z => .integerOutOfRange z
  | v => .invalidType v f.expected

end Field

variable {α : Type}

/-- Entries that give options: known keys, each of them once, with values that fit. -/
structure Admissible (admits : Field → α → Prop) (entries : List (String × α)) : Prop where
  admits : ∀ e ∈ entries, ∃ f : Field, f.name = e.1 ∧ admits f e.2
  nodup : (entries.map Prod.fst).Nodup

/-- The error of an entry after admissible ones. A repeated key is at fault whatever its value. -/
inductive Fault (admits : Field → α → Prop) (refusal : Field → α → DataError)
    (before : List (String × α)) (e : String × α) : DataError → Prop
  | unknown (h : ∀ f : Field, f.name ≠ e.1) : Fault admits refusal before e (.unknownField e.1)
  | repeated {f : Field} (hf : f.name = e.1) (h : e.1 ∈ before.map Prod.fst) :
    Fault admits refusal before e (.duplicateField f)
  | refused {f : Field} (hf : f.name = e.1) (h : e.1 ∉ before.map Prod.fst)
    (hv : ¬admits f e.2) : Fault admits refusal before e (refusal f e.2)

section
variable {admits : Field → α → Prop} {refusal : Field → α → DataError}
variable {entries entries' before after : List (String × α)} {e : String × α}
variable {err err' : DataError}

theorem admissible_nil : Admissible admits [] :=
  ⟨fun _ h => absurd h List.not_mem_nil, List.nodup_nil⟩

theorem Admissible.perm (ha : Admissible admits entries) (h : entries.Perm entries') :
    Admissible admits entries' :=
  ⟨fun e he => ha.admits e (h.mem_iff.2 he), (h.map Prod.fst).nodup_iff.1 ha.nodup⟩

theorem mem_of_lookup {key : String} {a : α} (h : entries.lookup key = some a) :
    (key, a) ∈ entries := by
  obtain ⟨l₁, l₂, rfl, -⟩ := List.lookup_eq_some_iff.1 h
  exact List.mem_append_right _ List.mem_cons_self

theorem lookup_eq_none_iff {key : String} :
    entries.lookup key = none ↔ key ∉ entries.map Prod.fst := by
  rw [List.lookup_eq_none_iff]
  simp only [bne_iff_ne, ne_eq, List.mem_map, not_exists, not_and]
  exact forall₂_congr fun e _ => not_congr eq_comm

theorem lookup_eq_some_iff (h : (entries.map Prod.fst).Nodup) {key : String} {a : α} :
    entries.lookup key = some a ↔ (key, a) ∈ entries := by
  refine ⟨mem_of_lookup, fun hmem => ?_⟩
  cases hl : entries.lookup key with
  | none => exact absurd (List.mem_map_of_mem hmem) (lookup_eq_none_iff.1 hl)
  | some b =>
    have := List.inj_on_of_nodup_map h hmem (mem_of_lookup hl) rfl
    rw [Prod.mk.injEq] at this
    rw [this.2]

theorem Admissible.of_lookup (h : Admissible admits entries) {f : Field} {a : α}
    (hl : entries.lookup f.name = some a) : admits f a := by
  obtain ⟨g, hg, ha⟩ := h.admits _ (mem_of_lookup hl)
  rwa [← Field.name_injective hg]

theorem Fault.unique (h : Fault admits refusal before e err)
    (h' : Fault admits refusal before e err') : err = err' := by
  cases h with
  | unknown hu =>
    cases h' with
    | unknown => rfl
    | repeated hf => exact absurd hf (hu _)
    | refused hf => exact absurd hf (hu _)
  | repeated hf hmem =>
    cases h' with
    | unknown hu => exact absurd hf (hu _)
    | repeated hf' => rw [Field.name_injective (hf.trans hf'.symm)]
    | refused _ hmem' => exact absurd hmem hmem'
  | refused hf hmem =>
    cases h' with
    | unknown hu => exact absurd hf (hu _)
    | repeated _ hmem' => exact absurd hmem' hmem
    | refused hf' => rw [Field.name_injective (hf.trans hf'.symm)]

theorem Fault.not_admissible (h : Fault admits refusal before e err) :
    ¬Admissible admits (before ++ e :: after) := by
  intro ha
  obtain ⟨f, hf, hv⟩ := ha.admits e (List.mem_append_right _ List.mem_cons_self)
  cases h with
  | unknown hu => exact hu f hf
  | repeated hf' hmem =>
    have hnodup := ha.nodup
    rw [List.map_append, List.map_cons] at hnodup
    exact (List.nodup_append.1 hnodup).2.2 _ hmem _ List.mem_cons_self rfl
  | refused hf' _ hv' => exact hv' (Field.name_injective (hf.trans hf'.symm) ▸ hv)

end

namespace Given
variable {p q : Given} {f : Field} {v : Value}

theorem millis?_cases (v : Value) :
    (Field.baseMs.Admits v ∧ ∃ ms, millis? v = .ok ms) ∨
      ¬Field.baseMs.Admits v ∧ millis? v = .error (Field.baseMs.refusal v) := by
  cases v with
  | integer z =>
    by_cases h : -2 ^ (63 : Nat) ≤ z ∧ z < 2 ^ (63 : Nat)
    · exact .inl ⟨⟨z, rfl, h⟩, _, by rw [millis?, Text.toInt64?, if_pos h]⟩
    · refine .inr ⟨?_, by rw [millis?, Text.toInt64?, if_neg h]; rfl⟩
      rintro ⟨_, ⟨⟩, h'⟩
      exact h h'
  | _ => exact .inr ⟨by rintro ⟨_, ⟨⟩, _⟩, rfl⟩

theorem fraction?_cases (v : Value) :
    (Field.jitter.Admits v ∧ ∃ x, fraction? v = .ok x) ∨
      ¬Field.jitter.Admits v ∧ fraction? v = .error (Field.jitter.refusal v) := by
  cases v with
  | integer z => exact .inl ⟨.inl ⟨z, rfl⟩, _, rfl⟩
  | float x => exact .inl ⟨.inr ⟨x, rfl⟩, _, rfl⟩
  | _ => exact .inr ⟨by rintro (⟨_, ⟨⟩⟩ | ⟨_, ⟨⟩⟩), rfl⟩

def set (p : Given) (v : Value) : Field → Given
  | .baseMs => { p with baseMs := (millis? v).toOption }
  | .maxMs => { p with maxMs := (millis? v).toOption }
  | .jitter => { p with jitter := (fraction? v).toOption }

theorem assign_cases (p : Given) (v : Value) (f : Field) :
    (f.Admits v ∧ p.assign v f = .ok (p.set v f)) ∨
      ¬f.Admits v ∧ p.assign v f = .error (f.refusal v) := by
  cases f with
  | baseMs =>
    rcases millis?_cases v with ⟨ha, ms, h⟩ | ⟨ha, h⟩
    · exact .inl ⟨ha, by rw [assign, set, h]; rfl⟩
    · exact .inr ⟨ha, by rw [assign, h]; rfl⟩
  | maxMs =>
    rcases millis?_cases v with ⟨ha, ms, h⟩ | ⟨ha, h⟩
    · exact .inl ⟨ha, by rw [assign, set, h]; rfl⟩
    · exact .inr ⟨ha, by rw [assign, h]; cases v <;> rfl⟩
  | jitter =>
    rcases fraction?_cases v with ⟨ha, x, h⟩ | ⟨ha, h⟩
    · exact .inl ⟨ha, by rw [assign, set, h]; rfl⟩
    · exact .inr ⟨ha, by rw [assign, h]; rfl⟩

variable {entries before after : List (String × Value)} {e : String × Value} {err : DataError}

def gathered (entries : List (String × Value)) : Given where
  baseMs := (entries.lookup Field.baseMs.name).bind fun v => (millis? v).toOption
  maxMs := (entries.lookup Field.maxMs.name).bind fun v => (millis? v).toOption
  jitter := (entries.lookup Field.jitter.name).bind fun v => (fraction? v).toOption

theorem has_gathered (h : Admissible Field.Admits entries) (f : Field) :
    (gathered entries).has f = true ↔ f.name ∈ entries.map Prod.fst := by
  have hnone : entries.lookup f.name = none ↔ _ := lookup_eq_none_iff
  cases hl : entries.lookup f.name with
  | none =>
    refine iff_of_false ?_ (hnone.1 hl)
    cases f <;> simp [has, gathered, hl]
  | some v =>
    refine iff_of_true ?_ (Decidable.not_not.1 fun hmem => by simp [hnone.2 hmem] at hl)
    have ha := h.of_lookup hl
    cases f with
    | jitter =>
      obtain ⟨-, x, hx⟩ := (fraction?_cases v).resolve_right fun h => h.1 ha
      simp [has, gathered, hl, hx, Except.toOption]
    | _ =>
      obtain ⟨-, x, hx⟩ := (millis?_cases v).resolve_right fun h => h.1 ha
      simp [has, gathered, hl, hx, Except.toOption]

theorem gathered_append (h : f.name ∉ entries.map Prod.fst) (v : Value) :
    gathered (entries ++ [(f.name, v)]) = (gathered entries).set v f := by
  have hsame : (entries ++ [(f.name, v)]).lookup f.name = some v := by
    rw [List.lookup_append, lookup_eq_none_iff.2 h, List.lookup_cons_self]
    rfl
  have hother (g : Field) (hg : f ≠ g) :
      (entries ++ [(f.name, v)]).lookup g.name = entries.lookup g.name := by
    have hne : g.name ∉ [(f.name, v)].map Prod.fst := by
      simpa using fun hname => hg (Field.name_injective hname.symm)
    rw [List.lookup_append, lookup_eq_none_iff.2 hne, Option.or_none]
  cases f <;> simp [gathered, set, hsame, hother]

theorem enter_cases (h : Admissible Field.Admits entries) (e : String × Value) :
    (Admissible Field.Admits (entries ++ [e]) ∧
      (gathered entries).enter e = .ok (gathered (entries ++ [e]))) ∨
    ∃ err, Fault Field.Admits Field.refusal entries e err ∧
      (gathered entries).enter e = .error err := by
  obtain ⟨key, v⟩ := e
  cases hf : Field.ofName? key with
  | none =>
    refine .inr ⟨_, .unknown (Field.ofName?_eq_none_iff.1 hf), ?_⟩
    rw [enter, field?, hf]
    rfl
  | some f =>
    obtain rfl := Field.ofName?_eq_some_iff.1 hf
    have hhas := has_gathered h f
    by_cases hmem : f.name ∈ entries.map Prod.fst
    · refine .inr ⟨_, .repeated rfl hmem, ?_⟩
      rw [enter, field?, hf]
      simp only [hhas.2 hmem, if_true]
      rfl
    · have henter : (gathered entries).enter (f.name, v) = (gathered entries).assign v f := by
        rw [enter, field?, hf]
        simp only [Bool.eq_false_iff.2 fun h => hmem (hhas.1 h)]
        rfl
      rw [henter]
      rcases (gathered entries).assign_cases v f with ⟨ha, hok⟩ | ⟨ha, herror⟩
      · refine .inl ⟨⟨fun e he => ?_, ?_⟩, by rw [hok, gathered_append hmem]⟩
        · rcases List.mem_append.1 he with he | he
          · exact h.admits e he
          · rw [List.mem_singleton.1 he]
            exact ⟨f, rfl, ha⟩
        · rw [List.map_append, List.map_singleton, ← List.concat_eq_append]
          exact h.nodup.concat hmem
      · exact .inr ⟨_, .refused rfl hmem ha, herror⟩

/-- Entries are entered one by one while they are admissible, and the first at fault ends it. -/
theorem foldlM_cases (entries : List (String × Value)) :
    (Admissible Field.Admits entries ∧ entries.foldlM enter empty = .ok (gathered entries)) ∨
    ∃ before e after err, entries = before ++ e :: after ∧ Admissible Field.Admits before ∧
      Fault Field.Admits Field.refusal before e err ∧ entries.foldlM enter empty = .error err := by
  induction entries using List.reverseRecOn with
  | nil => exact .inl ⟨admissible_nil, rfl⟩
  | append_singleton entries e ih =>
    rw [List.foldlM_append]
    rcases ih with ⟨ha, hok⟩ | ⟨before, e', after, err, rfl, ha, hfault, herror⟩
    · rw [hok]
      rcases enter_cases ha e with ⟨ha', hok'⟩ | ⟨err, hfault, herror⟩
      · exact .inl ⟨ha', by simp [bind, Except.bind, hok']; rfl⟩
      · refine .inr ⟨entries, e, [], err, rfl, ha, hfault, ?_⟩
        simp [bind, Except.bind, herror]
    · refine .inr ⟨before, e', after ++ [e], err, by simp, ha, hfault, ?_⟩
      rw [herror]
      rfl

theorem foldlM_of_admissible (h : Admissible Field.Admits entries) :
    entries.foldlM enter empty = .ok (gathered entries) := by
  rcases foldlM_cases entries with ⟨-, hok⟩ | ⟨before, e, after, err, rfl, -, hfault, -⟩
  · exact hok
  · exact absurd h hfault.not_admissible

theorem foldlM_of_fault (h : Admissible Field.Admits before)
    (hfault : Fault Field.Admits Field.refusal before e err) :
    (before ++ e :: after).foldlM enter empty = .error err := by
  rcases enter_cases h e with ⟨ha, -⟩ | ⟨err', hfault', herror⟩
  · exact absurd ha hfault.not_admissible
  · rw [List.foldlM_append, foldlM_of_admissible h, hfault.unique hfault']
    simp [bind, Except.bind, List.foldlM_cons, herror]

variable {c : Options}

theorem ofEntries_eq_ok_iff :
    ofEntries entries = .ok c ↔
      Admissible Field.Admits entries ∧ c = (gathered entries).complete := by
  rw [ofEntries]
  rcases foldlM_cases entries with ⟨ha, hok⟩ | ⟨before, e, after, err, rfl, -, hfault, herror⟩
  · rw [hok]
    simp [Except.map, ha, eq_comm]
  · rw [herror]
    exact ⟨nofun, fun h => absurd h.1 hfault.not_admissible⟩

theorem ofEntries_eq_error_iff : ofEntries entries = .error err ↔
    ∃ before e after, entries = before ++ e :: after ∧ Admissible Field.Admits before ∧
      Fault Field.Admits Field.refusal before e err := by
  rw [ofEntries]
  constructor
  · intro h
    rcases foldlM_cases entries with ⟨-, hok⟩ | ⟨before, e, after, err', hsplit, ha, hfault, herror⟩
    · rw [hok] at h
      cases h
    · rw [herror] at h
      cases h
      exact ⟨before, e, after, hsplit, ha, hfault⟩
  · rintro ⟨before, e, after, rfl, ha, hfault⟩
    rw [foldlM_of_fault ha hfault]
    rfl

theorem gathered_perm {entries' : List (String × Value)} (h : entries.Perm entries')
    (ha : Admissible Field.Admits entries) : gathered entries = gathered entries' := by
  have hlookup (key : String) : entries.lookup key = entries'.lookup key := by
    refine Option.ext fun v => ?_
    rw [lookup_eq_some_iff ha.nodup, lookup_eq_some_iff (ha.perm h).nodup, h.mem_iff]
  simp only [gathered, hlookup]

theorem ofEntries_perm {entries' : List (String × Value)} (h : entries.Perm entries') :
    ofEntries entries = .ok c ↔ ofEntries entries' = .ok c := by
  rw [ofEntries_eq_ok_iff, ofEntries_eq_ok_iff]
  constructor
  · rintro ⟨ha, rfl⟩
    exact ⟨ha.perm h, by rw [gathered_perm h ha]⟩
  · rintro ⟨ha, rfl⟩
    exact ⟨ha.perm h.symm, by rw [gathered_perm h.symm ha]⟩

end Given

end RetryDelay
