import RetryDelay.Options

set_option autoImplicit false

namespace RetryDelay

abbrev Names (α : Type) := List (String × α)

namespace Names
variable {α : Type}

def get? (ns : Names α) (name : String) : Option α := ns.lookup name

def erase (ns : Names α) (name : String) : Names α := ns.filter fun n => n.1 != name

def set (ns : Names α) (name : String) (a : α) : Names α := (name, a) :: ns.erase name

@[simp] theorem get?_set_self (ns : Names α) (name : String) (a : α) :
    (ns.set name a).get? name = some a := by
  simp [get?, set]

theorem get?_erase_of_ne (ns : Names α) {name other : String} (h : other ≠ name) :
    (ns.erase name).get? other = ns.get? other := by
  simp only [get?, erase]
  induction ns with
  | nil => rfl
  | cons n ns ih =>
    obtain ⟨key, a⟩ := n
    by_cases hn : key = name
    · have hne : (other == key) = false := by rw [beq_eq_false_iff_ne, hn]; exact h
      simp only [hn, List.filter_cons, bne_self_eq_false, Bool.false_eq_true, if_false, ih]
      rw [← hn, List.lookup_cons, hne]
    · simp only [List.filter_cons, bne_iff_ne, ne_eq, hn, not_false_iff, if_true,
        List.lookup_cons, ih]

theorem get?_set_of_ne (ns : Names α) {name other : String} (a : α) (h : other ≠ name) :
    (ns.set name a).get? other = ns.get? other := by
  rw [← get?_erase_of_ne ns h]
  have hne : (other == name) = false := by rw [beq_eq_false_iff_ne]; exact h
  simp only [get?, set, List.lookup_cons, hne]

end Names

inductive BuilderCall where
  | base (d : Duration)
  | max (d : Duration)
  | jitter (x : Binary64)
  /-- A factory that nobody else has. -/
  | factory (f : Factory)
  /-- The factory of a name, shared with all who use that name. -/
  | shared (name : String)

inductive Recipe where
  | builder (calls : List BuilderCall)
  | bounds (base max : Duration)
  | default
  | none
  | options (o : Options)

structure UnknownName where
  name : String
  deriving DecidableEq

def BuilderCall.setting (factories : Names Source) (p : Pool) :
    BuilderCall → Except UnknownName (Setting × Pool)
  | .base d => .ok (.base d, p)
  | .max d => .ok (.max d, p)
  | .jitter x => .ok (.jitter x, p)
  | .factory f =>
    let (source, p) := p.register f
    .ok (.source source, p)
  | .shared name =>
    match factories.get? name with
    | some source => .ok (.source source, p)
    | Option.none => .error ⟨name⟩

def BuilderCall.settings (factories : Names Source) :
    List BuilderCall → Pool → Except UnknownName (List Setting × Pool)
  | [], p => .ok ([], p)
  | call :: calls, p => do
    let (s, p) ← call.setting factories p
    let (ss, p) ← settings factories calls p
    return (s :: ss, p)

def Recipe.construct (factories : Names Source) (p : Pool) :
    Recipe → Except UnknownName (Logged (Except Rejection Policy) × Pool)
  | .builder calls => do
    let (settings, p) ← BuilderCall.settings factories calls p
    return ((Builder.ofSettings settings).build, p)
  | .bounds base max => .ok (Policy.ofBounds base max, p)
  | .default => .ok (.silent (.ok Policy.default), p)
  | .none => .ok (.silent (.ok Policy.none), p)
  | .options o => .ok (o.build, p)

end RetryDelay
