import RetryDelay.Options.Document
import RetryDelay.Proofs.Entries
import RetryDelay.Proofs.JsonGrammar

set_option autoImplicit false

namespace RetryDelay
open Document Document.Json

namespace Given
variable {l : Literal} {es : List (String × Literal)} {s after rest : List Char}

theorem not_admits_of_isNested {v : Value} (h : IsNested v) (f : Field) : ¬f.Admits v := by
  rcases h with rfl | rfl <;> cases f <;> simp [Field.Admits]

theorem tokens_member {e : String × Literal} (h : Member Written e s) (hrest : Ends rest) :
    ∃ t ts, tokens (s ++ rest) = .scalar (.text e.1) :: .colon :: t :: ts ∧
      t.value? = some e.2.value ∧ (IsNested e.2.value ∨ ts = tokens rest) := by
  obtain ⟨hk, hb, ha, h⟩ := h
  obtain ⟨t, ts, htokens, hvalue, hts⟩ := tokens_written h hrest
  refine ⟨t, ts, ?_, hvalue, hts⟩
  rw [List.append_assoc, tokens_quoted hk, List.append_assoc, tokens_blank hb, List.cons_append,
    tokens_cons (by decide), List.append_assoc]
  simp only [readToken]
  rw [tokens_blank ha, htokens]

theorem members_member {e : String × Literal} (h : Member Written e s) (hrest : Ends rest)
    (p : Given) : p.members (tokens (s ++ rest))
      = (orData (p.enter (Literal.entry e))).bind fun q => match tokens rest with
        | .comma :: ts => q.members ts
        | .closeMap :: ts => .ok (q, ts)
        | _ => .error .malformed := by
  obtain ⟨t, ts, htokens, hvalue, hts⟩ := tokens_member h hrest
  rw [htokens, members, enter, Literal.entry]
  cases p.field? e.1 with
  | error err => rfl
  | ok f =>
    simp only [orData, Except.mapError, bind, Except.bind, hvalue]
    rcases p.assign_cases e.2.value f with ⟨ha, hok⟩ | ⟨-, herror⟩
    · rewrite [hok, hts.resolve_left fun h => not_admits_of_isNested h f ha]
      rfl
    · rw [herror]

theorem members_listed (h : Listed (Member Written) es s) (ha : Blank after) (p : Given)
    (rest : List Char) :
    p.members (tokens (s ++ (after ++ '\x7d' :: rest)))
      = (orData ((es.map Literal.entry).foldlM enter p)).map (·, tokens rest) := by
  induction h generalizing p with
  | @one e s h =>
    have hrest := ends_blank ha (ends_of_mem (c := '\x7d') (by decide) rest)
    rw [members_member h hrest, tokens_blank ha, tokens_cons (by decide)]
    simp only [readToken, List.map_cons, List.map_nil, List.foldlM_cons, List.foldlM_nil]
    cases p.enter (Literal.entry e) <;> rfl
  | @cons e es s before between t h hb hbetween ht ih =>
    have hrest := ends_blank hb
      (ends_of_mem (c := ',') (by decide) (between ++ t ++ (after ++ '\x7d' :: rest)))
    rw [List.append_assoc, List.append_assoc, List.cons_append, members_member h hrest,
      tokens_blank hb, tokens_cons (by decide)]
    simp only [readToken, List.map_cons, List.foldlM_cons]
    cases p.enter (Literal.entry e) with
    | error err => rfl
    | ok q =>
      rw [List.append_assoc, tokens_blank hbetween]
      exact ih q

theorem tokens_nil : tokens [] = [] := by
  rw [tokens_eq]
  rfl

theorem tokens_of_blank {b : List Char} (h : Blank b) : tokens b = [] := by
  rw [← List.append_nil b, tokens_blank h, tokens_nil]

theorem tokens_listed (h : Listed (Member Written) es s) (rest : List Char) :
    ∃ key ts, tokens (s ++ rest) = .scalar (.text key) :: ts := by
  have hmember {e : String × Literal} {s rest : List Char} (h : Member Written e s) :
      ∃ key ts, tokens (s ++ rest) = .scalar (.text key) :: ts := by
    obtain ⟨hk, hb, ha, h⟩ := h
    exact ⟨_, _, by rw [List.append_assoc, tokens_quoted hk]⟩
  cases h with
  | one h => exact hmember h
  | cons h =>
    rw [List.append_assoc]
    exact hmember h

theorem object_enclosed (h : Enclosed '\x7b' '\x7d' (Member Written) es s) (rest : List Char) :
    ∃ ts, tokens (s ++ rest) = .openMap :: ts ∧
      object ts = (orData ((es.map Literal.entry).foldlM enter empty)).map (·, tokens rest) := by
  cases h with
  | empty h =>
    rw [List.cons_append, tokens_cons (by decide)]
    refine ⟨_, rfl, ?_⟩
    simp only [readToken]
    rw [List.append_assoc, tokens_blank h, List.singleton_append, tokens_cons (by decide)]
    rfl
  | @items _ before s after hb h ha =>
    rw [List.cons_append, tokens_cons (by decide)]
    refine ⟨_, rfl, ?_⟩
    obtain ⟨key, ts, hts⟩ := tokens_listed h (after ++ '\x7d' :: rest)
    have hmembers := members_listed h ha empty rest
    have hobject : object (tokens (s ++ (after ++ '\x7d' :: rest)))
        = empty.members (tokens (s ++ (after ++ '\x7d' :: rest))) := by
      rw [hts]
      rfl
    simp only [readToken, List.append_assoc, List.singleton_append]
    rw [tokens_blank hb, hobject, hmembers]

theorem ofJson_map {text : String} (h : Holds (.map es) text) :
    Options.ofJson text = (ofEntries (es.map Literal.entry)).mapError .data := by
  obtain ⟨before, u, after, hb, hw, ha, htext⟩ := h
  cases hw with
  | map hw =>
    obtain ⟨ts, htokens, hobject⟩ := object_enclosed hw after
    rw [Options.ofJson, htext, tokens_blank hb, htokens, document]
    simp only [hobject, tokens_of_blank ha, ofEntries, orData]
    cases (es.map Literal.entry).foldlM enter empty <;> rfl

theorem enter_name {p : Given} {f : Field} (h : p.has f = false) (v : Value) :
    p.enter (f.name, v) = p.assign v f := by
  rw [enter, field?, Field.ofName?_name]
  simp only [h]
  rfl

theorem has_set {f g : Field} (h : f ≠ g) (p : Given) (v : Value) :
    (p.set v f).has g = p.has g := by
  cases f <;> cases g <;> first | rfl | exact absurd rfl h

variable {vs : List Literal} {fields : List Field}

theorem elements_written {f : Field} (h : Written l s) (hrest : Ends rest) (p : Given) :
    elements (f :: fields) p (tokens (s ++ rest))
      = (orData (p.assign l.value f)).bind fun q => match tokens rest with
        | .comma :: ts => elements fields q ts
        | .closeSequence :: ts => .ok (q, ts)
        | _ => .error .malformed := by
  obtain ⟨t, ts, htokens, hvalue, hts⟩ := tokens_written h hrest
  rw [htokens, elements, hvalue]
  dsimp only
  rcases p.assign_cases l.value f with ⟨ha, hok⟩ | ⟨-, herror⟩
  · rewrite [hok, hts.resolve_left fun h => not_admits_of_isNested h f ha]
    rfl
  · rewrite [herror]
    rfl

/-- The elements of an array are entered under the names of the options still to come. -/
theorem elements_listed (h : Listed Written vs s) (ha : Blank after) (p : Given)
    (hlength : vs.length ≤ fields.length) (hnodup : fields.Nodup)
    (hhas : ∀ f ∈ fields, p.has f = false) (rest : List Char) :
    elements fields p (tokens (s ++ (after ++ ']' :: rest)))
      = (orData (((fields.map Field.name).zip (vs.map Literal.value)).foldlM enter p)).map
        (·, tokens rest) := by
  induction h generalizing p fields with
  | @one l s h =>
    have hrest := ends_blank ha (ends_of_mem (c := ']') (by decide) rest)
    cases fields with
    | nil => cases hlength
    | cons f fields =>
      rw [elements_written h hrest, tokens_blank ha, tokens_cons (by decide),
        ← enter_name (hhas f List.mem_cons_self)]
      simp only [readToken, List.map_cons, List.map_nil, List.zip_cons_cons, List.zip_nil_right,
        List.foldlM_cons, List.foldlM_nil]
      cases p.enter (f.name, l.value) <;> rfl
  | @cons l vs s before between t h hb hbetween ht ih =>
    have hrest := ends_blank hb
      (ends_of_mem (c := ',') (by decide) (between ++ t ++ (after ++ ']' :: rest)))
    cases fields with
    | nil => cases hlength
    | cons f fields =>
      rw [List.append_assoc, List.append_assoc, List.cons_append, elements_written h hrest,
        tokens_blank hb, tokens_cons (by decide)]
      simp only [readToken, List.map_cons, List.zip_cons_cons, List.foldlM_cons]
      rw [enter_name (hhas f List.mem_cons_self)]
      rcases p.assign_cases l.value f with ⟨-, hok⟩ | ⟨-, herror⟩
      · rw [hok, List.append_assoc, tokens_blank hbetween]
        obtain ⟨hne, hnodup⟩ := List.nodup_cons.1 hnodup
        refine ih _ (Nat.le_of_succ_le_succ hlength) hnodup fun g hg => ?_
        have hfg : f ≠ g := fun hfg => hne (hfg ▸ hg)
        rw [has_set hfg]
        exact hhas g (List.mem_cons_of_mem f hg)
      · rw [herror]
        rfl

theorem tokens_values (h : Listed Written vs s) (hrest : Ends rest) :
    ∃ t ts, tokens (s ++ rest) = t :: ts ∧ t.value?.isSome := by
  cases h with
  | one h =>
    obtain ⟨t, ts, htokens, hvalue, -⟩ := tokens_written h hrest
    exact ⟨t, ts, htokens, by rw [hvalue]; rfl⟩
  | @cons l vs s before between u h hb =>
    obtain ⟨t, ts, htokens, hvalue, -⟩ := tokens_written h
      (ends_blank hb (ends_of_mem (c := ',') (by decide) (between ++ u ++ rest)))
    refine ⟨t, ts, ?_, by rw [hvalue]; rfl⟩
    rw [← htokens]
    simp

theorem array_enclosed (h : Enclosed '[' ']' Written vs s) (hlength : vs.length ≤ Field.all.length)
    (rest : List Char) : ∃ ts, tokens (s ++ rest) = .openSequence :: ts ∧
      array ts = (orData (((Field.all.map Field.name).zip (vs.map Literal.value)).foldlM enter
        empty)).map (·, tokens rest) := by
  cases h with
  | empty h =>
    rw [List.cons_append, tokens_cons (by decide)]
    refine ⟨_, rfl, ?_⟩
    simp only [readToken]
    rw [List.append_assoc, tokens_blank h, List.singleton_append, tokens_cons (by decide)]
    rfl
  | @items _ before s after hb h ha =>
    rw [List.cons_append, tokens_cons (by decide)]
    refine ⟨_, rfl, ?_⟩
    have helements := elements_listed h ha empty hlength (by decide)
      (fun f _ => by cases f <;> rfl) rest
    have harray : array (tokens (s ++ (after ++ ']' :: rest)))
        = elements Field.all empty (tokens (s ++ (after ++ ']' :: rest))) := by
      have hrest := ends_blank ha (ends_of_mem (c := ']') (by decide) rest)
      obtain ⟨t, ts, htokens, ht⟩ := tokens_values h hrest
      rw [htokens]
      cases t with
      | closeSequence => cases ht
      | _ => rfl
    simp only [readToken, List.append_assoc, List.singleton_append]
    rw [tokens_blank hb, harray, helements]

/-- An array of at most three values is read as the object that gives them to the options in their
order. -/
theorem ofJson_sequence {text : String} (h : Holds (.sequence vs) text)
    (hlength : vs.length ≤ Field.all.length) : Options.ofJson text
      = (ofEntries ((Field.all.map Field.name).zip (vs.map Literal.value))).mapError .data := by
  obtain ⟨before, u, after, hb, hw, ha, htext⟩ := h
  cases hw with
  | sequence hw =>
    obtain ⟨ts, htokens, harray⟩ := array_enclosed hw hlength after
    rw [Options.ofJson, htext, tokens_blank hb, htokens, document]
    simp only [harray, tokens_of_blank ha, ofEntries, orData]
    cases ((Field.all.map Field.name).zip (vs.map Literal.value)).foldlM enter empty <;> rfl

end Given

end RetryDelay
