import RetryDelay.Options.Environment

set_option autoImplicit false

namespace RetryDelay

open Text

namespace Options

def HasDefault (c : Options) : Field → Prop
  | .baseMs => c.baseMs = default.baseMs
  | .maxMs => c.maxMs = default.maxMs
  | .jitter => c.jitter = default.jitter

/-- Whether an option is what a text says, white space around it apart. -/
def Reads (c : Options) (text : String) : Field → Prop
  | .baseMs => readInt64? (trim text.toList) = some c.baseMs
  | .maxMs => readInt64? (trim text.toList) = some c.maxMs
  | .jitter => readBinary64? (trim text.toList) = some c.jitter

end Options

namespace Environment
variable {e : Environment} {c : Options}

theorem value?_eq_ok_iff {α : Type} {f : Field} {read : List Char → Option α} {v : Option α} :
    e.value? f read = .ok v ↔ (e.text? f = none ∧ v = none) ∨
      ∃ text a, e.text? f = some text ∧ read (trim text.toList) = some a ∧ v = some a := by
  unfold value?
  cases e.text? f with
  | none => simp [eq_comm]
  | some text => cases h : read (trim text.toList) <;> simp [eq_comm, h]

theorem options_eq_ok_iff : e.options.value = .ok c ↔
    ∃ baseMs maxMs jitter, e.value? .baseMs readInt64? = .ok baseMs ∧
      e.value? .maxMs readInt64? = .ok maxMs ∧ e.value? .jitter readBinary64? = .ok jitter ∧
      c = ⟨baseMs.getD Options.default.baseMs, maxMs.getD Options.default.maxMs,
        jitter.getD Options.default.jitter⟩ := by
  rw [options_eq, Logged.pure_value]
  cases e.value? .baseMs readInt64? with
  | error r => simp [bind, Except.bind]
  | ok baseMs =>
    cases e.value? .maxMs readInt64? with
    | error r => simp [bind, Except.bind]
    | ok maxMs =>
      cases e.value? .jitter readBinary64? with
      | error r => simp [bind, Except.bind]
      | ok jitter => simp [bind, Except.bind, pure, Except.pure, eq_comm]

theorem getD_eq_iff {α : Type} {f : Field} {read : List Char → Option α} {a d : α} :
    (∃ v, e.value? f read = .ok v ∧ a = v.getD d) ↔ (e.text? f = none ∧ a = d) ∨
      ∃ text, e.text? f = some text ∧ read (trim text.toList) = some a := by
  simp only [value?_eq_ok_iff]
  constructor
  · rintro ⟨v, ⟨hnone, rfl⟩ | ⟨text, a', htext, hread, rfl⟩, rfl⟩
    · exact .inl ⟨hnone, rfl⟩
    · exact .inr ⟨text, htext, hread⟩
  · rintro (⟨hnone, rfl⟩ | ⟨text, htext, hread⟩)
    · exact ⟨none, .inl ⟨hnone, rfl⟩, rfl⟩
    · exact ⟨some a, .inr ⟨text, a, htext, hread, rfl⟩, rfl⟩

theorem options_eq_ok_iff_forall : e.options.value = .ok c ↔ ∀ f : Field,
    (e.text? f = none ∧ c.HasDefault f) ∨ ∃ text, e.text? f = some text ∧ c.Reads text f := by
  have hfield : (∀ f : Field,
      (e.text? f = none ∧ c.HasDefault f) ∨ ∃ text, e.text? f = some text ∧ c.Reads text f) ↔
      (∃ v, e.value? .baseMs readInt64? = .ok v ∧ c.baseMs = v.getD Options.default.baseMs) ∧
      (∃ v, e.value? .maxMs readInt64? = .ok v ∧ c.maxMs = v.getD Options.default.maxMs) ∧
      ∃ v, e.value? .jitter readBinary64? = .ok v ∧ c.jitter = v.getD Options.default.jitter := by
    rw [getD_eq_iff, getD_eq_iff, getD_eq_iff]
    refine ⟨fun h => ⟨h .baseMs, h .maxMs, h .jitter⟩, fun ⟨hb, hm, hj⟩ f => ?_⟩
    cases f with
    | baseMs => exact hb
    | maxMs => exact hm
    | jitter => exact hj
  rw [hfield, options_eq_ok_iff]
  constructor
  · rintro ⟨b, m, j, hb, hm, hj, rfl⟩
    exact ⟨⟨b, hb, rfl⟩, ⟨m, hm, rfl⟩, ⟨j, hj, rfl⟩⟩
  · rintro ⟨⟨b, hb, hb'⟩, ⟨m, hm, hm'⟩, ⟨j, hj, hj'⟩⟩
    exact ⟨b, m, j, hb, hm, hj, by rw [← hb', ← hm', ← hj']⟩

/-- Whether every variable that is set counts: where options are given, each of them is what its
variable says, and only the others are left at their defaults. -/
def IgnoresNothing (e : Environment) : Prop :=
  ∀ c, e.options.value = .ok c → ∀ f : Field,
    (e.bytes? f = none → c.HasDefault f) ∧
    ∀ bytes, e.bytes? f = some bytes →
      ∃ text, String.fromUTF8? bytes = some text ∧ c.Reads text f

theorem text?_of_unset {f : Field} (h : e.bytes? f = none) : e.text? f = none := by
  rw [text?, h]
  rfl

theorem text?_of_set {f : Field} {bytes : ByteArray} (h : e.bytes? f = some bytes) :
    e.text? f = String.fromUTF8? bytes := by
  rw [text?, h]
  rfl

/-- A variable that is set is ignored just if its bytes are no text and no other one is an error. -/
theorem ignoresNothing_iff (e : Environment) :
    e.IgnoresNothing ↔ (∃ r, e.options.value = .error r) ∨
      ∀ f bytes, e.bytes? f = some bytes → ∃ text, String.fromUTF8? bytes = some text := by
  constructor
  · intro h
    cases ho : e.options.value with
    | error r => exact .inl ⟨r, rfl⟩
    | ok c =>
      refine .inr fun f bytes hset => ?_
      obtain ⟨text, htext, -⟩ := (h c ho f).2 bytes hset
      exact ⟨text, htext⟩
  · rintro (⟨r, hr⟩ | htexts) c hc f
    · rw [hr] at hc
      cases hc
    · have hf := options_eq_ok_iff_forall.1 hc f
      refine ⟨fun hunset => ?_, fun bytes hset => ?_⟩
      · rw [text?_of_unset hunset] at hf
        simpa using hf
      · obtain ⟨text, htext⟩ := htexts f bytes hset
        rw [text?_of_set hset, htext] at hf
        exact ⟨text, htext, by simpa using hf⟩

/-- The one byte of the ceiling is no text, and the ceiling is left at its default. -/
theorem ignores_lone_byte : ¬ IgnoresNothing ⟨none, some ⟨#[0xff]⟩, none⟩ := by
  have hbytes : String.fromUTF8? ⟨#[0xff]⟩ = none := by decide
  intro h
  have hc : (options ⟨none, some ⟨#[0xff]⟩, none⟩).value = .ok Options.default := by
    refine options_eq_ok_iff_forall.2 fun f => .inl ?_
    cases f with
    | baseMs => exact ⟨rfl, rfl⟩
    | maxMs => exact ⟨hbytes, rfl⟩
    | jitter => exact ⟨rfl, rfl⟩
  obtain ⟨text, htext, -⟩ := (h _ hc .maxMs).2 _ rfl
  rw [hbytes] at htext
  cases htext

end Environment

end RetryDelay
