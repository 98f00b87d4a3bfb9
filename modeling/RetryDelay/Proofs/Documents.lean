import RetryDelay.Proofs.RoundTrip
import RetryDelay.Proofs.TomlReading

set_option autoImplicit false

namespace RetryDelay
open Document

namespace Field

/-- The values that an option takes, as they are written. -/
def Takes (f : Field) (v : Literal) : Prop :=
  match f with
  | .jitter => ∃ negative n, v = .number negative n
  | _ => ∃ negative n z, v = .number negative n ∧ n.IsInteger negative z ∧ -2 ^ 63 ≤ z ∧ z < 2 ^ 63

theorem takes_millis_iff {v : Literal} :
    (∃ z, v.value = .integer z ∧ -2 ^ (63 : Nat) ≤ z ∧ z < 2 ^ (63 : Nat)) ↔
    ∃ negative n z, v = .number negative n ∧ n.IsInteger negative z ∧ -2 ^ 63 ≤ z ∧ z < 2 ^ 63 := by
  constructor
  · rintro ⟨z, hz, hlow, hhigh⟩
    cases v with
    | number negative n =>
      exact ⟨negative, n, z, rfl, (Numeral.value_eq_integer_iff.1 hz).1, hlow, hhigh⟩
    | _ => cases hz
  · rintro ⟨negative, n, z, rfl, hz, hlow, hhigh⟩
    exact ⟨z, Numeral.value_eq_integer_iff.2 ⟨hz, hlow, by omega⟩, hlow, hhigh⟩

theorem takes_fraction_iff {v : Literal} :
    ((∃ z, v.value = .integer z) ∨ ∃ x, v.value = .float x) ↔
      ∃ negative n, v = .number negative n := by
  constructor
  · intro h
    cases v with
    | number negative n => exact ⟨negative, n, rfl⟩
    | _ => rcases h with ⟨_, ⟨⟩⟩ | ⟨_, ⟨⟩⟩
  · rintro ⟨negative, n, rfl⟩
    exact n.value_integer_or_float negative

theorem admits_value_iff {f : Field} {v : Literal} : f.Admits v.value ↔ f.Takes v := by
  cases f with
  | jitter => exact takes_fraction_iff
  | baseMs => exact takes_millis_iff
  | maxMs => exact takes_millis_iff

theorem Takes.depth_eq_zero {f : Field} {v : Literal} (h : f.Takes v) : v.depth = 0 := by
  cases f with
  | jitter =>
    obtain ⟨negative, n, rfl⟩ := h
    rw [Literal.depth]
    nofun
  | _ =>
    obtain ⟨negative, n, z, rfl, -⟩ := h
    rw [Literal.depth]
    nofun

end Field

namespace Document.Literal

def IsMillis (ms : Int64) : Literal → Prop
  | number negative n => n.IsInteger negative ms.toInt
  | _ => False

def IsFraction (x : Binary64) : Literal → Prop
  | number negative n => x = n.double negative
  | _ => False

end Document.Literal

/-- Whether an option is what is written for it, or the default where nothing is. -/
def Options.Agrees (c : Options) (o : Option Literal) : Field → Prop
  | .baseMs => o.elim (c.baseMs = default.baseMs) (Literal.IsMillis c.baseMs)
  | .maxMs => o.elim (c.maxMs = default.maxMs) (Literal.IsMillis c.maxMs)
  | .jitter => o.elim (c.jitter = default.jitter) (Literal.IsFraction c.jitter)

/-- The error of an entry after others that are right, by what is written in it. -/
abbrev Offends (before : List (String × Literal)) (e : String × Literal) : DataError → Prop :=
  Fault Field.Takes (fun f v => f.refusal v.value) before e

variable {es before : List (String × Literal)} {e : String × Literal} {err : DataError}

theorem map_fst_entry (es : List (String × Literal)) :
    (es.map Literal.entry).map Prod.fst = es.map Prod.fst := by
  rw [List.map_map]
  rfl

theorem lookup_entry (key : String) (es : List (String × Literal)) :
    (es.map Literal.entry).lookup key = (es.lookup key).map Literal.value := by
  induction es with
  | nil => rfl
  | cons e es ih =>
    rw [List.map_cons, Literal.entry, List.lookup_cons, List.lookup_cons]
    cases key == e.1
    · exact ih
    · rfl

theorem admissible_entry_iff :
    Admissible Field.Admits (es.map Literal.entry) ↔ Admissible Field.Takes es := by
  constructor
  · rintro ⟨ha, hn⟩
    refine ⟨fun e he => ?_, map_fst_entry es ▸ hn⟩
    obtain ⟨f, hf, hv⟩ := ha _ (List.mem_map_of_mem he)
    exact ⟨f, hf, Field.admits_value_iff.1 hv⟩
  · rintro ⟨ha, hn⟩
    refine ⟨fun e' he' => ?_, (map_fst_entry es).symm ▸ hn⟩
    obtain ⟨e, he, rfl⟩ := List.mem_map.1 he'
    obtain ⟨f, hf, hv⟩ := ha e he
    exact ⟨f, hf, Field.admits_value_iff.2 hv⟩

theorem fault_entry_iff : Fault Field.Admits Field.refusal (before.map Literal.entry)
    (Literal.entry e) err ↔ Offends before e err := by
  have hkeys := map_fst_entry before
  constructor
  · rintro (h | ⟨hf, h⟩ | ⟨hf, h, hv⟩)
    · exact .unknown h
    · exact .repeated hf (hkeys ▸ h)
    · exact .refused hf (hkeys ▸ h) fun ht => hv (Field.admits_value_iff.2 ht)
  · rintro (h | ⟨hf, h⟩ | ⟨hf, h, hv⟩)
    · exact .unknown h
    · exact .repeated hf (hkeys.symm ▸ h)
    · exact .refused hf (hkeys.symm ▸ h) fun ht => hv (Field.admits_value_iff.1 ht)

theorem split_entry_iff :
    (∃ before e after, es.map Literal.entry = before ++ e :: after ∧
      Admissible Field.Admits before ∧ Fault Field.Admits Field.refusal before e err) ↔
    ∃ before e after, es = before ++ e :: after ∧ Admissible Field.Takes before ∧
      Offends before e err := by
  constructor
  · rintro ⟨before', e', after', h, ha, hfault⟩
    obtain ⟨before, rest, rfl, rfl, hrest⟩ := List.map_eq_append_iff.1 h
    obtain ⟨e, after, rfl, rfl, rfl⟩ := List.map_eq_cons_iff.1 hrest
    exact ⟨before, e, after, rfl, admissible_entry_iff.1 ha, fault_entry_iff.1 hfault⟩
  · rintro ⟨before, e, after, rfl, ha, hfault⟩
    exact ⟨_, _, after.map Literal.entry, by rw [List.map_append, List.map_cons],
      admissible_entry_iff.2 ha, fault_entry_iff.2 hfault⟩

theorem Numeral.IsInteger.unique {negative : Bool} {n : Numeral} {y z : Int}
    (hy : n.IsInteger negative y) (hz : n.IsInteger negative z) : y = z :=
  hy.2.1.trans hz.2.1.symm

namespace Given
open Options

theorem millis?_value_of_isInteger {negative : Bool} {n : Numeral} {z : Int}
    (hz : n.IsInteger negative z) (hlow : -2 ^ 63 ≤ z) (hhigh : z < 2 ^ 63) :
    millis? (n.value negative) = .ok (Int64.ofInt z) := by
  rw [Numeral.value_eq_integer_iff.2 ⟨hz, hlow, by omega⟩, millis?, Text.toInt64?,
    if_pos ⟨hlow, hhigh⟩]

theorem fraction?_value {n : Numeral} (hn : n.Proper) (h : n.InRange) (negative : Bool) :
    fraction? (n.value negative) = .ok (n.double negative) := by
  rcases n.value_cases hn h negative with ⟨z, hz⟩ | hfloat
  · rw [hz, fraction?, Numeral.double_eq_ofInt hn h (Numeral.value_eq_integer_iff.1 hz).1]
  · rw [hfloat, fraction?]

theorem eq_getD_millis_iff {o : Option Literal} (ho : ∀ v, o = some v → Field.baseMs.Takes v)
    (ms d : Int64) :
    ms = ((o.map Literal.value).bind fun v => (millis? v).toOption).getD d ↔
      o.elim (ms = d) (Literal.IsMillis ms) := by
  cases o with
  | none => exact Iff.rfl
  | some v =>
    obtain ⟨negative, n, z, rfl, hz, hlow, hhigh⟩ := ho v rfl
    have hvalue : (Int64.ofInt z).toInt = z := Int64.toInt_ofInt_of_le hlow hhigh
    rw [Option.map_some, Option.bind_some, Literal.value,
      millis?_value_of_isInteger hz hlow hhigh]
    constructor
    · rintro rfl
      rw [← hvalue] at hz
      exact hz
    · intro h
      exact Int64.toInt_inj.1 ((Numeral.IsInteger.unique h hz).trans hvalue.symm)

theorem eq_getD_fraction_iff {o : Option Literal}
    (ho : ∀ v, o = some v → Field.jitter.Takes v ∧ ∃ s, Json.Written v s) (x d : Binary64) :
    x = ((o.map Literal.value).bind fun v => (fraction? v).toOption).getD d ↔
      o.elim (x = d) (Literal.IsFraction x) := by
  cases o with
  | none => exact Iff.rfl
  | some v =>
    obtain ⟨⟨negative, n, rfl⟩, s, hs⟩ := ho v rfl
    cases hs with
    | number hn h =>
      rw [Option.map_some, Option.bind_some, Literal.value, fraction?_value hn h]
      exact Iff.rfl

theorem eq_gathered_iff (ha : Admissible Field.Takes es)
    (hw : ∀ e ∈ es, ∃ s, Json.Written e.2 s) {c : Options} :
    c = (gathered (es.map Literal.entry)).complete ↔
      ∀ f : Field, c.Agrees (es.lookup f.name) f := by
  have hbase := eq_getD_millis_iff (fun v (hv : es.lookup Field.baseMs.name = some v) =>
    ha.of_lookup hv) c.baseMs Options.default.baseMs
  have hmax := eq_getD_millis_iff (fun v (hv : es.lookup Field.maxMs.name = some v) =>
    show Field.maxMs.Takes v from ha.of_lookup hv) c.maxMs Options.default.maxMs
  have hjitter := eq_getD_fraction_iff (fun v (hv : es.lookup Field.jitter.name = some v) =>
    ⟨ha.of_lookup hv, hw _ (mem_of_lookup hv)⟩) c.jitter Options.default.jitter
  rw [← lookup_entry] at hbase hmax hjitter
  constructor
  · rintro rfl f
    cases f with
    | baseMs => exact hbase.1 rfl
    | maxMs => exact hmax.1 rfl
    | jitter => exact hjitter.1 rfl
  · intro h
    obtain ⟨baseMs, maxMs, jitter⟩ := c
    exact Options.mk.injEq .. ▸
      ⟨hbase.2 (h .baseMs), hmax.2 (h .maxMs), hjitter.2 (h .jitter)⟩

end Given

section
variable {α : Type} {r : Except DataError α}

theorem mapError_data_eq_ok_iff {a : α} : r.mapError DocumentError.data = .ok a ↔ r = .ok a := by
  cases r <;> simp [Except.mapError]

theorem mapError_data_eq_error_iff {err : DocumentError} :
    r.mapError DocumentError.data = .error err ↔ ∃ d, r = .error d ∧ err = .data d := by
  cases r <;> simp [Except.mapError, eq_comm]

end

namespace Options
variable {s s' : String} {es es' : List (String × Literal)} {vs : List Literal} {c : Options}
variable {l : Binary64.Layout}

theorem ofJson_eq_ok_iff (h : Json.Holds (.map es) s) : ofJson s = .ok c ↔
    Admissible Field.Takes es ∧ ∀ f : Field, c.Agrees (es.lookup f.name) f := by
  rw [Given.ofJson_map h, mapError_data_eq_ok_iff, Given.ofEntries_eq_ok_iff,
    admissible_entry_iff]
  exact and_congr_right fun ha => Given.eq_gathered_iff ha h.forall_mem

theorem exists_ofJson_iff (h : Json.Holds (.map es) s) :
    (∃ c, ofJson s = .ok c) ↔ Admissible Field.Takes es := by
  constructor
  · rintro ⟨c, hc⟩
    exact ((ofJson_eq_ok_iff h).1 hc).1
  · intro ha
    exact ⟨_, (ofJson_eq_ok_iff h).2 ⟨ha, (Given.eq_gathered_iff ha h.forall_mem).1 rfl⟩⟩

theorem ofJson_perm (h : Json.Holds (.map es) s) (h' : Json.Holds (.map es') s')
    (hperm : es.Perm es') : ofJson s = .ok c ↔ ofJson s' = .ok c := by
  rw [Given.ofJson_map h, Given.ofJson_map h', mapError_data_eq_ok_iff,
    mapError_data_eq_ok_iff]
  exact Given.ofEntries_perm (hperm.map Literal.entry)

theorem ofJson_eq_error_iff (h : Json.Holds (.map es) s) {err : DocumentError} :
    ofJson s = .error err ↔ ∃ before e after d, es = before ++ e :: after ∧
      Admissible Field.Takes before ∧ Offends before e d ∧ err = .data d := by
  rw [Given.ofJson_map h, mapError_data_eq_error_iff]
  simp only [Given.ofEntries_eq_error_iff, split_entry_iff]
  constructor
  · rintro ⟨d, ⟨before, e, after, hsplit, ha, hfault⟩, hd⟩
    exact ⟨before, e, after, d, hsplit, ha, hfault, hd⟩
  · rintro ⟨before, e, after, d, hsplit, ha, hfault, hd⟩
    exact ⟨d, ⟨before, e, after, hsplit, ha, hfault⟩, hd⟩

theorem ofJson_sequence_eq_map (h : Json.Holds (.sequence vs) s)
    (hlength : vs.length ≤ Field.all.length)
    (h' : Json.Holds (.map ((Field.all.map Field.name).zip vs)) s') : ofJson s = ofJson s' := by
  rw [Given.ofJson_sequence h hlength, Given.ofJson_map h', List.zip_map_right]
  rfl

theorem ofToml_eq_ofJson (h : Json.Holds (.map es) s) (hl : l.Pointed)
    (hr : ∀ e ∈ es, Toml.Renderable e.2) (hnodup : (es.map Prod.fst).Nodup)
    (hdepth : ∀ e ∈ es, e.2.depth ≤ Toml.maxNesting) :
    ofToml (String.ofList (Toml.document l es)) = ofJson s := by
  rw [ofToml_document hl hr, if_pos ⟨hdepth, hnodup⟩, Given.ofJson_map h]

/-- What is no document of TOML, for a repeated key or for its depth, gives no options as an object
either. -/
theorem ofToml_eq_ok_iff (h : Json.Holds (.map es) s) (hl : l.Pointed)
    (hr : ∀ e ∈ es, Toml.Renderable e.2) :
    ofToml (String.ofList (Toml.document l es)) = .ok c ↔ ofJson s = .ok c := by
  by_cases hform : (∀ e ∈ es, e.2.depth ≤ Toml.maxNesting) ∧ (es.map Prod.fst).Nodup
  · rw [ofToml_eq_ofJson h hl hr hform.2 hform.1]
  · rw [ofToml_document hl hr, if_neg hform]
    refine iff_of_false nofun fun hc => hform ?_
    obtain ⟨ha, -⟩ := (ofJson_eq_ok_iff h).1 hc
    refine ⟨fun e he => ?_, ha.nodup⟩
    obtain ⟨f, -, hv⟩ := ha.admits e he
    rw [hv.depth_eq_zero]
    exact Nat.zero_le _

/-- An object gives options just if its keys are names of options without repetition and its values
fit, in whatever order; the first entry at fault is the error. An array and a flat TOML document are
read as the object with their entries. -/
theorem ofJson_strict (h : Json.Holds (.map es) s) :
    (∀ c, ofJson s = .ok c ↔
      Admissible Field.Takes es ∧ ∀ f : Field, c.Agrees (es.lookup f.name) f) ∧
    ((∃ c, ofJson s = .ok c) ↔ Admissible Field.Takes es) ∧
    (∀ es' s', es.Perm es' → Json.Holds (.map es') s' →
      ∀ c, ofJson s = .ok c ↔ ofJson s' = .ok c) ∧
    (∀ err, ofJson s = .error err ↔ ∃ before e after d, es = before ++ e :: after ∧
      Admissible Field.Takes before ∧ Offends before e d ∧ err = .data d) ∧
    (∀ vs s', vs.length ≤ Field.all.length → es = (Field.all.map Field.name).zip vs →
      Json.Holds (.sequence vs) s' → ofJson s' = ofJson s) ∧
    ∀ l : Binary64.Layout, l.Pointed → (∀ e ∈ es, Toml.Renderable e.2) →
      (∀ c, ofToml (String.ofList (Toml.document l es)) = .ok c ↔ ofJson s = .ok c) ∧
      ((es.map Prod.fst).Nodup → (∀ e ∈ es, e.2.depth ≤ Toml.maxNesting) →
        ofToml (String.ofList (Toml.document l es)) = ofJson s) := by
  refine ⟨fun c => ofJson_eq_ok_iff h, exists_ofJson_iff h, fun es' s' hperm h' c => ?_,
    fun err => ofJson_eq_error_iff h, ?_, fun l hl hr => ⟨fun c => ofToml_eq_ok_iff h hl hr, ?_⟩⟩
  · exact ofJson_perm h h' hperm
  · rintro vs s' hlength rfl h'
    exact ofJson_sequence_eq_map h' hlength h
  · exact ofToml_eq_ofJson h hl hr

/-- Two entries, not in the order of the options, and no fraction. -/
theorem ofJson_max_base :
    Json.Holds (.map [("max_ms", .number false (.ofNat 5)), ("base_ms", .number false (.ofNat 3))])
        "\x7b\"max_ms\": 5,\"base_ms\":3\x7d" ∧
      ofJson "\x7b\"max_ms\": 5,\"base_ms\":3\x7d" = .ok ⟨3, 5, .one⟩ := by
  have hfive : Numeral.IsInteger false (.ofNat 5) 5 := ⟨⟨rfl, rfl⟩, rfl, nofun⟩
  have hthree : Numeral.IsInteger false (.ofNat 3) 3 := ⟨⟨rfl, rfl⟩, rfl, nofun⟩
  have hempty : Json.Blank [] := nofun
  have hblank : Json.Blank [' '] := List.forall_mem_singleton.2 rfl
  have hwritten (n : Nat) (hn : n < 2 ^ 64) : Json.Written (.number false (.ofNat n))
      (Binary64.sign false ++ (Numeral.ofNat n).chars) :=
    .number (Numeral.proper_ofNat n) (Numeral.inRange_ofNat hn)
  have hmax := Json.Member.mk (Json.quoted_name .maxMs) hempty hblank (hwritten 5 (by decide))
  have hbase := Json.Member.mk (Json.quoted_name .baseMs) hempty hempty (hwritten 3 (by decide))
  have h : Json.Holds
      (.map [("max_ms", .number false (.ofNat 5)), ("base_ms", .number false (.ofNat 3))])
      "\x7b\"max_ms\": 5,\"base_ms\":3\x7d" :=
    ⟨[], _, [], hempty, .map (.items hempty (.cons hmax hempty hempty (.one hbase)) hempty), hempty,
      by decide⟩
  refine ⟨h, ((ofJson_strict h).1 _).2 ⟨⟨?_, by decide⟩, fun f => ?_⟩⟩
  · refine List.forall_mem_cons.2
      ⟨⟨.maxMs, rfl, ?_⟩, List.forall_mem_singleton.2 ⟨.baseMs, rfl, ?_⟩⟩
    · exact ⟨false, .ofNat 5, 5, rfl, hfive, by decide, by decide⟩
    · exact ⟨false, .ofNat 3, 3, rfl, hthree, by decide, by decide⟩
  · cases f with
    | baseMs => exact hthree
    | maxMs => exact hfive
    | jitter => rfl

end Options

end RetryDelay
