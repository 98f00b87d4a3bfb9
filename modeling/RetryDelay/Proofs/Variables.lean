import RetryDelay.Options.Document
import RetryDelay.Proofs.Environment
import RetryDelay.Proofs.PlainNumber

set_option autoImplicit false

namespace RetryDelay

open Text

def Field.before (f : Field) : List Field := Field.all.takeWhile (· ≠ f)

namespace Options

def Writes (c : Options) (s : List Char) : Field → Prop
  | .baseMs => WritesInt64 s c.baseMs
  | .maxMs => WritesInt64 s c.maxMs
  | .jitter => WritesBinary64 s c.jitter

/-- Whether an option is the number that a text writes, white space around it apart. -/
def Says (c : Options) (text : String) (f : Field) : Prop :=
  ∃ core, Trimmed text.toList core ∧ c.Writes core f

/-- Whether a text writes a number of the type of an option. -/
def Legible (text : String) (f : Field) : Prop := ∃ c : Options, c.Says text f

variable {c : Options} {text : String}

theorem says_iff_writes_trim {f : Field} : c.Says text f ↔ c.Writes (trim text.toList) f := by
  simp only [Says, ← trim_eq_iff, exists_eq_left']

theorem reads_iff_says {f : Field} : c.Reads text f ↔ c.Says text f := by
  rw [says_iff_writes_trim]
  cases f with
  | baseMs => exact readInt64?_eq_some_iff
  | maxMs => exact readInt64?_eq_some_iff
  | jitter => exact readBinary64?_eq_some_iff

theorem says_iff_writes {f : Field} {l s r : List Char} (hl : ∀ b ∈ l, isBlank b = true)
    (hr : ∀ b ∈ r, isBlank b = true) (hs : ∀ b ∈ s, isBlank b = false) :
    c.Says (String.ofList (l ++ s ++ r)) f ↔ c.Writes s f := by
  rw [says_iff_writes_trim, String.toList_ofList, trim_eq_iff.2 (trimmed_append hl hr hs)]

theorem Writes.isBlank_eq_false {f : Field} {s : List Char} (h : c.Writes s f) :
    ∀ b ∈ s, isBlank b = false := by
  cases f with
  | baseMs => exact WritesInt64.isBlank_eq_false h
  | maxMs => exact WritesInt64.isBlank_eq_false h
  | jitter => exact WritesBinary64.isBlank_eq_false h

def charsOf (c : Options) : Field → List Char
  | .baseMs => intChars c.baseMs.toInt
  | .maxMs => intChars c.maxMs.toInt
  | .jitter => c.jitter.chars .json

theorem writesInt64_intChars (z : Int64) : WritesInt64 (intChars z.toInt) z := by
  refine writesInt64_digits ?_ 0
  by_cases hz : z.toInt < 0 <;> simp [Binary64.sign, hz]

theorem writes_charsOf (c : Options) (f : Field) : c.Writes (c.charsOf f) f := by
  cases f with
  | baseMs => exact writesInt64_intChars c.baseMs
  | maxMs => exact writesInt64_intChars c.maxMs
  | jitter => exact writesBinary64_chars c.jitter

theorem says_charsOf (c : Options) (f : Field) : c.Says (String.ofList (c.charsOf f)) f := by
  have h := c.writes_charsOf f
  have hsays := (says_iff_writes (l := []) (r := []) nofun nofun h.isBlank_eq_false).2 h
  rwa [List.nil_append, List.append_nil] at hsays

theorem legible_millis_iff {f : Field} (hf : f ≠ .jitter) :
    Legible text f ↔ ∃ z, readInt64? (trim text.toList) = some z := by
  constructor
  · rintro ⟨c, hc⟩
    have hreads := reads_iff_says.2 hc
    cases f with
    | baseMs => exact ⟨_, hreads⟩
    | maxMs => exact ⟨_, hreads⟩
    | jitter => exact absurd rfl hf
  · rintro ⟨z, hz⟩
    refine ⟨⟨z, z, default.jitter⟩, reads_iff_says.1 ?_⟩
    cases f with
    | baseMs => exact hz
    | maxMs => exact hz
    | jitter => exact absurd rfl hf

theorem legible_jitter_iff :
    Legible text .jitter ↔ ∃ x, readBinary64? (trim text.toList) = some x :=
  ⟨fun ⟨c, hc⟩ => ⟨c.jitter, reads_iff_says.2 hc⟩,
    fun ⟨x, hx⟩ => ⟨{ default with jitter := x }, reads_iff_says.1 hx⟩⟩

end Options

namespace Environment
variable {e : Environment} {f : Field} {r : Rejection}

def Passes (e : Environment) (f : Field) : Prop :=
  ∀ text, e.text? f = some text → Options.Legible text f

def Stops (e : Environment) (f : Field) (r : Rejection) : Prop :=
  ∃ text, e.text? f = some text ∧ ¬Options.Legible text f ∧ r = .unreadable (variableName f) text

section
variable {α : Type} {read : List Char → Option α}
  (hread : ∀ text, Options.Legible text f ↔ ∃ a, read (trim text.toList) = some a)

include hread

theorem value?_eq_error_iff : e.value? f read = .error r ↔ e.Stops f r := by
  unfold value? Stops
  cases e.text? f with
  | none => simp
  | some text => cases h : read (trim text.toList) <;> simp [hread, h, eq_comm]

theorem exists_value?_iff : (∃ v, e.value? f read = .ok v) ↔ e.Passes f := by
  unfold value? Passes
  cases e.text? f with
  | none => simp
  | some text => cases h : read (trim text.toList) <;> simp [hread, h]

end

theorem options_eq_error_iff : e.options.value = .error r ↔
    ∃ f : Field, (∀ f' ∈ f.before, e.Passes f') ∧ e.Stops f r := by
  have hsteps : e.options.value = .error r ↔ e.Stops .baseMs r ∨
      e.Passes .baseMs ∧ (e.Stops .maxMs r ∨ e.Passes .maxMs ∧ e.Stops .jitter r) := by
    rw [← value?_eq_error_iff fun _ => Options.legible_millis_iff (by decide),
      ← value?_eq_error_iff fun _ => Options.legible_millis_iff (by decide),
      ← value?_eq_error_iff fun _ => Options.legible_jitter_iff,
      ← exists_value?_iff fun _ => Options.legible_millis_iff (by decide),
      ← exists_value?_iff fun _ => Options.legible_millis_iff (by decide)]
    rw [options_eq, Logged.pure_value]
    cases e.value? .baseMs readInt64? with
    | error r => simp [bind, Except.bind]
    | ok baseMs =>
      cases e.value? .maxMs readInt64? with
      | error r => simp [bind, Except.bind]
      | ok maxMs =>
        cases e.value? .jitter readBinary64? <;> simp [bind, Except.bind, pure, Except.pure]
  rw [hsteps]
  constructor
  · rintro (hb | ⟨hb, hm | ⟨hm, hj⟩⟩)
    · exact ⟨.baseMs, nofun, hb⟩
    · exact ⟨.maxMs, List.forall_mem_singleton.2 hb, hm⟩
    · exact ⟨.jitter, List.forall_mem_cons.2 ⟨hb, List.forall_mem_singleton.2 hm⟩, hj⟩
  · rintro ⟨f, hbefore, hf⟩
    cases f with
    | baseMs => exact .inl hf
    | maxMs => exact .inr ⟨hbefore .baseMs (by decide), .inl hf⟩
    | jitter =>
      exact .inr ⟨hbefore .baseMs (by decide), .inr ⟨hbefore .maxMs (by decide), hf⟩⟩

def ofTexts (texts : Field → Option String) : Environment where
  baseMs := (texts .baseMs).map String.toUTF8
  maxMs := (texts .maxMs).map String.toUTF8
  jitter := (texts .jitter).map String.toUTF8

theorem fromUTF8?_toUTF8 (text : String) : String.fromUTF8? text.toUTF8 = some text :=
  dif_pos text.isValidUTF8

theorem text?_ofTexts (texts : Field → Option String) (f : Field) :
    (ofTexts texts).text? f = texts f := by
  have hbytes : (ofTexts texts).bytes? f = (texts f).map String.toUTF8 := by cases f <;> rfl
  rw [text?, hbytes]
  cases texts f with
  | none => rfl
  | some text => exact fromUTF8?_toUTF8 text

theorem options_charsOf (c : Options) :
    (ofTexts fun f => some (String.ofList (c.charsOf f))).options.value = .ok c :=
  options_eq_ok_iff_forall.2 fun f =>
    .inr ⟨_, text?_ofTexts _ f, Options.reads_iff_says.2 (c.says_charsOf f)⟩

/-- The options that texts give, or the first text that is an error, whatever comes after it. No
numbers are out of range here. Integers are read back from their digits, and doubles from any digits
to which they are the nearest. -/
theorem options_ofTexts (texts : Field → Option String) :
    let e := ofTexts texts
    (∀ r, e.options.value = .error r ↔ ∃ f text, texts f = some text ∧ ¬Options.Legible text f ∧
      (∀ f' ∈ f.before, ∀ text', texts f' = some text' → Options.Legible text' f') ∧
      r = .unreadable (variableName f) text) ∧
    (∀ c, e.options.value = .ok c ↔ ∀ f, (texts f = none ∧ c.HasDefault f) ∨
      ∃ text, texts f = some text ∧ c.Says text f) ∧
    ((∃ c, e.options.value = .ok c) ↔ ∀ f text, texts f = some text → Options.Legible text f) ∧
    (∀ c, ∃ texts', (ofTexts texts').options.value = .ok c) ∧
    ∀ (sign l r : List Char) (c : Options), (∀ b ∈ l ++ r, isBlank b = true) →
      (∀ (z : Int64) (k : Nat),
        (if z.toInt < 0 then sign = ['-'] else sign = [] ∨ sign = ['+']) →
        let text := String.ofList
          (l ++ (sign ++ (List.replicate k '0' ++ digits z.toInt.natAbs)) ++ r)
        (c.Says text .baseMs ↔ c.baseMs = z) ∧ (c.Says text .maxMs ↔ c.maxMs = z)) ∧
      ∀ n : Numeral, n.Plain → IsSign sign → (n.whole ++ n.fraction.getD []).length ≤ 16000 →
        (c.Says (String.ofList (l ++ (sign ++ n.chars) ++ r)) .jitter ↔
          c.jitter = n.decimal.toBinary64 (decide (sign = ['-']))) := by
  intro e
  have herror (r : Rejection) : e.options.value = .error r ↔ ∃ f text, texts f = some text ∧
      ¬Options.Legible text f ∧
      (∀ f' ∈ f.before, ∀ text', texts f' = some text' → Options.Legible text' f') ∧
      r = .unreadable (variableName f) text := by
    simp only [options_eq_error_iff, e, Stops, Passes, text?_ofTexts]
    constructor
    · rintro ⟨f, hbefore, text, htext, hillegible, hr⟩
      exact ⟨f, text, htext, hillegible, hbefore, hr⟩
    · rintro ⟨f, text, htext, hillegible, hbefore, hr⟩
      exact ⟨f, hbefore, text, htext, hillegible, hr⟩
  have hok (c : Options) : e.options.value = .ok c ↔ ∀ f, (texts f = none ∧ c.HasDefault f) ∨
      ∃ text, texts f = some text ∧ c.Says text f := by
    simp only [options_eq_ok_iff_forall, e, text?_ofTexts, Options.reads_iff_says]
  refine ⟨herror, hok, ⟨?_, fun h => ?_⟩, fun c => ⟨_, options_charsOf c⟩, ?_⟩
  · rintro ⟨c, hc⟩ f text htext
    have hf := (hok c).1 hc f
    rw [htext] at hf
    obtain ⟨hnone, -⟩ | ⟨_, ⟨⟩, hsays⟩ := hf
    · cases hnone
    · exact ⟨c, hsays⟩
  · cases ho : e.options.value with
    | ok c => exact ⟨c, rfl⟩
    | error r =>
      obtain ⟨f, text, htext, hillegible, -⟩ := (herror r).1 ho
      exact absurd (h f text htext) hillegible
  · intro sign l r c hblank
    obtain ⟨hl, hr⟩ := List.forall_mem_append.1 hblank
    refine ⟨fun z k hsign => ?_, fun n hn hsign hlength => ?_⟩
    · have hz := writesInt64_digits hsign k
      exact ⟨(Options.says_iff_writes hl hr hz.isBlank_eq_false).trans hz.iff_eq,
        (Options.says_iff_writes hl hr hz.isBlank_eq_false).trans hz.iff_eq⟩
    · have hx : WritesBinary64 (sign ++ n.chars)
          (n.decimal.toBinary64 (decide (sign = ['-']))) := by
        rw [← Numeral.toBinary64_reading hn hlength]
        exact ⟨sign, _, rfl, hsign, .numeral hn⟩
      exact (Options.says_iff_writes hl hr hx.isBlank_eq_false).trans hx.iff_eq

end Environment

end RetryDelay
