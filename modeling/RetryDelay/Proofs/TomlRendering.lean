import RetryDelay.Document.Toml
import RetryDelay.Proofs.JsonGrammar
import RetryDelay.Proofs.TomlScalar

set_option autoImplicit false

namespace RetryDelay.Document

namespace Literal

mutual

def depth : Literal → Nat
  | sequence vs => depthAll vs + 1
  | _ => 0

def depthAll : List Literal → Nat
  | [] => 0
  | v :: vs => max v.depth (depthAll vs)

end

end Literal

namespace Toml
open Text

def basicChar (c : Char) : List Char :=
  if c = '"' ∨ c = '\\' then ['\\', c]
  else if isAllowed c then [c]
  else ['\\', 'u', '0', '0', Nat.digitChar (c.toNat / 16), Nat.digitChar (c.toNat % 16)]

def basic (t : String) : List Char := '"' :: (t.toList.flatMap basicChar ++ ['"'])

def isKeyChar (c : Char) : Bool := c.isAlphanum || c == '_' || c == '-'

def key (k : String) : List Char :=
  if k.toList ≠ [] ∧ k.toList.all isKeyChar then k.toList else basic k

mutual

/-- A value in TOML. Neither `null` nor a map has a place there. -/
def rendered (l : Binary64.Layout) : Literal → List Char
  | .null => []
  | .boolean b => if b then ['t', 'r', 'u', 'e'] else ['f', 'a', 'l', 's', 'e']
  | .number negative n =>
    match n.value negative with
    | .integer z => Options.intChars z
    | .float x => x.chars l
    | _ => []
  | .text t => basic t
  | .sequence vs => '[' :: (items l vs ++ [']'])
  | .map _ => []

def items (l : Binary64.Layout) : List Literal → List Char
  | [] => []
  | [v] => rendered l v
  | v :: w :: vs => rendered l v ++ ',' :: ' ' :: items l (w :: vs)

end

def line (l : Binary64.Layout) (e : String × Literal) : List Char :=
  key e.1 ++ ' ' :: '=' :: ' ' :: (rendered l e.2 ++ ['\n'])

def document (l : Binary64.Layout) (es : List (String × Literal)) : List Char :=
  es.flatMap (line l)

/-- The single values that TOML has: of the integers those of a signed word, and of doubles the
finite ones. -/
inductive Scalar : Literal → Prop
  | boolean {b : Bool} : Scalar (.boolean b)
  | integer {negative : Bool} {n : Numeral} {z : Int} (h : n.value negative = .integer z)
    (hz : z < 2 ^ 63) : Scalar (.number negative n)
  | float {negative m : Bool} {n : Numeral} {units : Nat} {hu : Binary64.Representable units}
    (h : n.value negative = .float (.finite m units hu)) : Scalar (.number negative n)
  | text {t : String} : Scalar (.text t)

inductive Renderable : Literal → Prop
  | scalar {v : Literal} (h : Scalar v) : Renderable v
  | sequence {vs : List Literal} (h : ∀ v ∈ vs, Renderable v) : Renderable (.sequence vs)

theorem tokens_eq (s : List Char) : tokens s =
    match s.dropWhile isSpace with
    | [] => []
    | c :: t =>
      if c = '#' then
        if (t.takeWhile (· != '\n')).all isAllowed then tokens (t.dropWhile (· != '\n')) else [.bad]
      else (readToken (c :: t)).1 :: tokens (readToken (c :: t)).2 := by
  rw [tokens]
  split
  next h => rw [h]
  next h => simp only [h]

theorem tokens_space {c : Char} (hc : isSpace c = true) (s : List Char) :
    tokens (c :: s) = tokens s := by
  rw [tokens_eq (c :: s), List.dropWhile_cons_of_pos hc, ← tokens_eq]

theorem tokens_cons {c : Char} (hspace : isSpace c = false) (hc : c ≠ '#') (s : List Char) :
    tokens (c :: s) = (readToken (c :: s)).1 :: tokens (readToken (c :: s)).2 := by
  rw [tokens_eq, List.dropWhile_cons_of_neg (by simp [hspace])]
  exact if_neg hc

/-- Whether no character that could belong to a word or a string comes next. -/
def Closes (rest : List Char) : Prop := ∀ c ∈ rest.head?, isBare c = false ∧ c ≠ '"'

theorem tokens_bare {s rest : List Char} (hne : s ≠ []) (hs : ∀ c ∈ s, isBare c = true)
    (hrest : Closes rest) : tokens (s ++ rest) = .bare s :: tokens rest := by
  obtain ⟨c, t, rfl⟩ := List.exists_cons_of_ne_nil hne
  obtain ⟨hc, ht⟩ := List.forall_mem_cons.1 hs
  have hother {d : Char} (hd : d ∈ ['\n', '=', ',', '[', ']', '"', '\x27', '#', ' ', '\t']) :
      c ≠ d := by
    have hall : ∀ d ∈ ['\n', '=', ',', '[', ']', '"', '\x27', '#', ' ', '\t'],
        isBare d = false := by decide
    rintro rfl
    exact Bool.false_ne_true ((hall c hd).symm.trans hc)
  have hspace : isSpace c = false := by
    rw [isSpace, Bool.or_eq_false_iff]
    exact ⟨beq_false_of_ne (hother (by decide)), beq_false_of_ne (hother (by decide))⟩
  have hsplit : (t ++ rest).takeWhile isBare = t ∧ (t ++ rest).dropWhile isBare = rest := by
    rw [List.takeWhile_append_of_pos ht, List.dropWhile_append_of_pos ht]
    cases rest with
    | nil => simp
    | cons d rest => simp [(hrest d rfl).1]
  have hread : readToken (c :: (t ++ rest)) = (.bare (c :: t), rest) := by
    rw [readToken, if_pos hc, hsplit.1, hsplit.2]
    · exact hother (by decide)
    · exact hother (by decide)
    · exact hother (by decide)
    · exact hother (by decide)
    · exact hother (by decide)
    · exact fun _ h _ => hother (by decide) h
    · exact hother (by decide)
    · exact fun _ h _ => hother (by decide) h
    · exact hother (by decide)
  rw [List.cons_append, tokens_cons hspace (hother (by decide)), hread]

theorem readBasic_plain {c : Char} (hquote : c ≠ '"') (hbackslash : c ≠ '\\')
    (hc : isAllowed c = true) (s : List Char) :
    readBasic (c :: s) = consChar (some c) (readBasic s) := by
  rw [readBasic, if_pos ⟨hc, hbackslash⟩]
  · exact hquote
  · exact fun _ _ _ _ _ h _ => hbackslash h
  · exact fun _ _ _ _ _ _ _ _ _ h _ => hbackslash h
  · exact fun _ _ h _ => hbackslash h

theorem toNat_lt_of_not_isAllowed {c : Char} (h : ¬isAllowed c = true) : c.toNat < 128 := by
  simp only [isAllowed, Bool.or_eq_true, Bool.and_eq_true, decide_eq_true_eq, bne_iff_ne,
    not_or, not_and, Decidable.not_not] at h
  omega

theorem numbered?_control : ∀ n < 128, numbered? ['0', '0', Nat.digitChar (n / 16),
    Nat.digitChar (n % 16)] = some (Char.ofNat n) := by
  decide

theorem readBasic_basicChar (c : Char) (s : List Char) :
    readBasic (basicChar c ++ s) = consChar (some c) (readBasic s) := by
  unfold basicChar
  split
  next h => rcases h with rfl | rfl <;> rfl
  next hplain =>
    rw [not_or] at hplain
    split
    next hallowed => exact readBasic_plain hplain.1 hplain.2 hallowed s
    next hcontrol =>
      have hread := numbered?_control _ (toNat_lt_of_not_isAllowed hcontrol)
      rw [Char.ofNat_toNat] at hread
      simp only [List.cons_append, List.nil_append]
      rw [readBasic, hread]

theorem readBasic_append (cs rest : List Char) :
    readBasic (cs.flatMap basicChar ++ '"' :: rest) = some (cs, rest) := by
  induction cs with
  | nil => rfl
  | cons c cs ih =>
    rw [List.flatMap_cons, List.append_assoc, readBasic_basicChar, ih]
    rfl

theorem basicChar_cons (c : Char) : ∃ d s, basicChar c = d :: s ∧ d ≠ '"' := by
  unfold basicChar
  split
  next => exact ⟨_, _, rfl, by decide⟩
  next hplain =>
    split
    next => exact ⟨_, _, rfl, fun h => hplain (.inl h)⟩
    next => exact ⟨_, _, rfl, by decide⟩

/-- The opening quote of a string is not taken for the first of three. -/
theorem tokens_basic (t : String) {rest : List Char} (hrest : Closes rest) :
    tokens (basic t ++ rest) = .text t :: tokens rest := by
  have hsingle : ∀ s, t.toList.flatMap basicChar ++ '"' :: rest ≠ '"' :: '"' :: s := by
    intro s h
    cases hcs : t.toList with
    | nil =>
      rw [hcs] at h
      exact (hrest '"' (by rw [(List.cons.inj h).2]; rfl)).2 rfl
    | cons c cs =>
      obtain ⟨d, u, hd, hne⟩ := basicChar_cons c
      rw [hcs, List.flatMap_cons, hd] at h
      exact hne (List.cons.inj h).1
  have hread :
      readToken ('"' :: (t.toList.flatMap basicChar ++ '"' :: rest)) = (.text t, rest) := by
    rw [readToken, readBasic_append, ofString, String.ofList_toList]
    exact hsingle
  rw [basic, List.cons_append, List.append_assoc, List.singleton_append,
    tokens_cons (by decide) (by decide), hread]

theorem ne_return_of_mem_basicChar {c d : Char} (h : d ∈ basicChar c) : d ≠ '\r' := by
  rintro rfl
  unfold basicChar at h
  split at h
  next hescape =>
    rw [List.mem_pair] at h
    rcases hescape with rfl | rfl <;> revert h <;> decide
  next =>
    split at h
    next hallowed =>
      rw [← List.mem_singleton.1 h] at hallowed
      cases hallowed
    next hcontrol =>
      have hall : ∀ n < 128, '\r' ∉ ['\\', 'u', '0', '0', Nat.digitChar (n / 16),
        Nat.digitChar (n % 16)] := by decide
      exact hall _ (toNat_lt_of_not_isAllowed hcontrol) h

theorem ne_return_of_mem_basic {t : String} {c : Char} (h : c ∈ basic t) : c ≠ '\r' := by
  rcases List.mem_cons.1 h with rfl | h
  · decide
  rcases List.mem_append.1 h with h | h
  · obtain ⟨d, -, hd⟩ := List.mem_flatMap.1 h
    exact ne_return_of_mem_basicChar hd
  · rw [List.mem_singleton.1 h]
    decide

structure IsWord (s : List Char) (v : Value) : Prop where
  token : ∃ t : Token, ((∃ b, t = .bare b) ∨ ∃ x, t = .text x) ∧ t.value? = some v ∧
    ∀ rest, Closes rest → tokens (s ++ rest) = t :: tokens rest
  ne_return : ∀ c ∈ s, c ≠ '\r'

theorem isWord_bare {s : List Char} {v : Value} (hne : s ≠ []) (hs : ∀ c ∈ s, isBare c = true)
    (hv : readScalar? s = some v) : IsWord s v where
  token := ⟨.bare s, .inl ⟨s, rfl⟩, hv, fun _ hrest => tokens_bare hne hs hrest⟩
  ne_return c hc := by
    rintro rfl
    cases hs _ hc

theorem isWord_basic (t : String) : IsWord (basic t) (.text t) where
  token := ⟨.text t, .inr ⟨t, rfl⟩, rfl, fun _ hrest => tokens_basic t hrest⟩
  ne_return _ := ne_return_of_mem_basic

theorem isBare_of_isDigit {c : Char} (h : c.isDigit = true) : isBare c = true := by
  simp [isBare, Char.isAlphanum, h]

theorem isBare_of_mem_chars {n : Numeral} (hn : n.Proper) {c : Char} (hc : c ∈ n.chars) :
    isBare c = true := by
  rcases List.mem_append.1 hc with hwhole | hc
  · exact isBare_of_isDigit (hn.isDigit c hwhole)
  rcases List.mem_append.1 hc with hfraction | hpower
  · cases hf : n.fraction with
    | none => simp [hf, Numeral.fractionChars] at hfraction
    | some ds =>
      rw [hf] at hfraction
      rcases List.mem_cons.1 hfraction with rfl | hds
      · rfl
      · exact isBare_of_isDigit ((hn.fraction ds hf).2 c hds)
  · cases hp : n.power with
    | none => simp [hp, Numeral.powerChars] at hpower
    | some p =>
      have hproper := hn.power p hp
      rw [hp] at hpower
      rcases List.mem_cons.1 hpower with rfl | hpower
      · rcases hproper.mark with h | h <;> rw [h] <;> rfl
      rcases List.mem_append.1 hpower with hsign | hdigits
      · rcases hproper.sign with h | h | h <;> rw [h] at hsign
        · cases hsign
        · rw [List.mem_singleton.1 hsign]
          rfl
        · rw [List.mem_singleton.1 hsign]
          rfl
      · exact isBare_of_isDigit (hproper.isDigit c hdigits)

theorem isWord_chars {n : Numeral} (hn : n.Proper) {negative : Bool} {v : Value}
    (hv : readScalar? (Binary64.sign negative ++ n.chars) = some v) :
    IsWord (Binary64.sign negative ++ n.chars) v := by
  refine isWord_bare ?_ (fun c hc => ?_) hv
  · simp [Numeral.chars, hn.ne_nil]
  · rcases List.mem_append.1 hc with hsign | hchars
    · cases negative with
      | true =>
        rw [List.mem_singleton.1 hsign]
        rfl
      | false => cases hsign
    · exact isBare_of_mem_chars hn hchars

theorem isWord_intChars {z : Int} (hlow : -2 ^ 63 ≤ z) (hhigh : z < 2 ^ 63) :
    IsWord (Options.intChars z) (.integer z) := by
  have hread := readScalar?_intChars hlow hhigh
  rw [Options.intChars, ← Numeral.chars_ofNat] at hread ⊢
  exact isWord_chars (Numeral.proper_ofNat _) hread

theorem isWord_finite {l : Binary64.Layout} (hl : l.Pointed) (negative : Bool) {units : Nat}
    (h : Binary64.Representable units) :
    IsWord ((Binary64.finite negative units h).chars l) (.float (.finite negative units h)) := by
  have hread := readScalar?_finite hl negative h
  rw [Binary64.chars, ← Binary64.Layout.chars_numeral hl] at hread ⊢
  exact isWord_chars (Binary64.Layout.proper_numeral hl (Binary64.proper_shortest _ _)) hread

theorem Scalar.isWord {l : Binary64.Layout} (hl : l.Pointed) {v : Literal} (h : Scalar v) :
    IsWord (rendered l v) v.value := by
  cases h with
  | @boolean b =>
    cases b with
    | true => exact isWord_bare (s := ['t', 'r', 'u', 'e']) nofun (by decide) rfl
    | false => exact isWord_bare (s := ['f', 'a', 'l', 's', 'e']) nofun (by decide) rfl
  | integer h hz =>
    rw [rendered, h, Literal.value, h]
    exact isWord_intChars (Numeral.value_eq_integer_iff.1 h).2.1 hz
  | float h =>
    rw [rendered, h, Literal.value, h]
    exact isWord_finite hl _ _
  | text => exact isWord_basic _

theorem Scalar.depth_eq_zero {v : Literal} (h : Scalar v) : v.depth = 0 := by
  cases h <;> rfl

theorem closes_of_mem {c : Char} (hc : c ∈ ['\n', ',', ']', ' ']) (s : List Char) :
    Closes (c :: s) := by
  rintro _ ⟨⟩
  revert c
  decide

/-- What is left to read once a list is closed. -/
def afterList : Nat → List Token → Option (List (String × Value))
  | 0, ts => entriesFrom .lineRest ts
  | depth + 1, ts => entriesFrom (.sequence depth false) ts

theorem entriesFrom_closing (depth : Nat) (ready : Bool) (s : List Char) :
    entriesFrom (.sequence depth ready) (tokens (']' :: s)) = afterList depth (tokens s) := by
  rw [tokens_cons (by decide) (by decide)]
  cases depth <;> rfl

theorem entriesFrom_word {s : List Char} {v : Value} (h : IsWord s v) (depth : Nat)
    {rest : List Char} (hrest : Closes rest) :
    entriesFrom (.sequence depth true) (tokens (s ++ rest))
      = entriesFrom (.sequence depth false) (tokens rest) := by
  obtain ⟨t, ht, hv, htokens⟩ := h.token
  rw [htokens rest hrest]
  rcases ht with ⟨b, rfl⟩ | ⟨x, rfl⟩ <;> simp [entriesFrom, hv]

variable {l : Binary64.Layout} {v : Literal} {vs : List Literal}

theorem entriesFrom_items {depth : Nat} (hdepth : depth < maxNesting)
    (hvs : ∀ v ∈ vs, ∀ rest, Closes rest →
      entriesFrom (.sequence depth true) (tokens (rendered l v ++ rest))
        = if depth + v.depth < maxNesting then entriesFrom (.sequence depth false) (tokens rest)
          else none) (rest : List Char) :
    entriesFrom (.sequence depth true) (tokens (items l vs ++ ']' :: rest))
      = if depth + Literal.depthAll vs < maxNesting then afterList depth (tokens rest)
        else none := by
  induction vs with
  | nil => rw [items, List.nil_append, entriesFrom_closing, Literal.depthAll,
    Nat.add_zero, if_pos hdepth]
  | cons v vs ih =>
    obtain ⟨hv, hvs⟩ := List.forall_mem_cons.1 hvs
    cases vs with
    | nil =>
      rw [items, hv _ (closes_of_mem (by decide) rest), entriesFrom_closing]
      simp only [Literal.depthAll, Nat.max_zero]
    | cons w vs =>
      have hnext : entriesFrom (.sequence depth false)
          (tokens (',' :: ' ' :: (items l (w :: vs) ++ ']' :: rest)))
          = entriesFrom (.sequence depth true) (tokens (items l (w :: vs) ++ ']' :: rest)) := by
        rw [tokens_cons (by decide) (by decide)]
        simp only [readToken]
        rw [tokens_space (by decide), entriesFrom]
        rfl
      rw [items, List.append_assoc, List.cons_append, List.cons_append,
        hv _ (closes_of_mem (by decide) _), hnext, ih hvs, Literal.depthAll.eq_2 v]
      have hmax : depth + max v.depth (Literal.depthAll (w :: vs)) < maxNesting ↔
          depth + v.depth < maxNesting ∧ depth + Literal.depthAll (w :: vs) < maxNesting := by omega
      rw [← ite_and]
      simp only [hmax]

theorem entriesFrom_rendered (hl : l.Pointed) (h : Renderable v) {depth : Nat}
    (hdepth : depth < maxNesting) {rest : List Char} (hrest : Closes rest) :
    entriesFrom (.sequence depth true) (tokens (rendered l v ++ rest))
      = if depth + v.depth < maxNesting then entriesFrom (.sequence depth false) (tokens rest)
        else none := by
  induction h generalizing depth rest with
  | scalar h =>
    rw [entriesFrom_word (h.isWord hl) depth hrest, h.depth_eq_zero, Nat.add_zero, if_pos hdepth]
  | @sequence vs h ih =>
    rw [rendered, List.cons_append, List.append_assoc, List.singleton_append,
      tokens_cons (by decide) (by decide)]
    simp only [readToken, entriesFrom, true_and]
    rw [show (Literal.sequence vs).depth = Literal.depthAll vs + 1 from rfl]
    by_cases hinner : depth + 1 < maxNesting
    · have hitems := entriesFrom_items (l := l) hinner
        (fun v hv rest hrest => ih v hv hinner hrest) rest
      rw [if_pos hinner, hitems, Nat.add_right_comm, Nat.add_assoc]
      rfl
    · rw [if_neg hinner, if_neg (by omega)]

theorem tokens_key (k : String) {rest : List Char} (hrest : Closes rest) :
    ∃ t : Token, tokens (key k ++ rest) = t :: tokens rest ∧
      ((∃ b, t = .bare b) ∨ ∃ x, t = .text x) ∧ t.key? = some k := by
  unfold key
  split
  next h =>
    refine ⟨_, tokens_bare h.1 (fun c hc => ?_) hrest, .inl ⟨_, rfl⟩, ?_⟩
    · have hkey := List.all_eq_true.1 h.2 c hc
      rw [isBare, show (c.isAlphanum || c == '_' || c == '-') = true from hkey]
      rfl
    · exact (if_pos h.2).trans (congrArg some String.ofList_toList)
  next => exact ⟨_, tokens_basic k hrest, .inr ⟨_, rfl⟩, rfl⟩

theorem tokens_equals (s : List Char) : tokens (' ' :: '=' :: ' ' :: s) = .equals :: tokens s := by
  rw [tokens_space (by decide), tokens_cons (by decide) (by decide)]
  simp only [readToken]
  rw [tokens_space (by decide)]

theorem tokens_lineEnd (s : List Char) : tokens ('\n' :: s) = .lineEnd :: tokens s := by
  rw [tokens_cons (by decide) (by decide)]
  rfl

theorem entriesFrom_line (hl : l.Pointed) {e : String × Literal} (h : Renderable e.2)
    (rest : List Char) : entriesFrom .lineStart (tokens (line l e ++ rest))
      = if e.2.depth ≤ maxNesting
        then (entriesFrom .lineStart (tokens rest)).map (Literal.entry e :: ·) else none := by
  obtain ⟨k, v⟩ := e
  have hclose : Closes ('\n' :: rest) := closes_of_mem (by decide) rest
  have hdepth : 0 < maxNesting := by decide
  obtain ⟨t, htokens, ht, hkey⟩ := tokens_key k
    (closes_of_mem (c := ' ') (by decide) ('=' :: ' ' :: (rendered l v ++ '\n' :: rest)))
  have hline : tokens (line l (k, v) ++ rest)
      = t :: .equals :: tokens (rendered l v ++ '\n' :: rest) := by
    rw [tokens_equals] at htokens
    rw [← htokens, line]
    simp
  rw [hline]
  cases h with
  | scalar h =>
    obtain ⟨u, hu, hv, hrest⟩ := (h.isWord hl).token
    rw [hrest _ hclose, tokens_lineEnd, h.depth_eq_zero, if_pos (Nat.zero_le _)]
    rcases ht with ⟨b, rfl⟩ | ⟨x, rfl⟩ <;> rcases hu with ⟨b', rfl⟩ | ⟨x', rfl⟩ <;>
      simp only [entriesFrom, hkey, hv, Literal.entry]
  | @sequence vs h =>
    have hitems := entriesFrom_items (l := l) hdepth
      (fun v hv rest hrest => entriesFrom_rendered hl (h v hv) hdepth hrest) ('\n' :: rest)
    rw [afterList, tokens_lineEnd, Nat.zero_add] at hitems
    have hentry (ts : List Token) : entriesFrom .lineStart (t :: .equals :: .openSequence :: ts)
        = (entriesFrom (.sequence 0 true) ts).map ((k, .sequence) :: ·) := by
      rcases ht with ⟨b, rfl⟩ | ⟨x, rfl⟩ <;> simp only [entriesFrom, hkey]
    rw [rendered, List.cons_append, List.append_assoc, List.singleton_append,
      tokens_cons (by decide) (by decide)]
    simp only [readToken]
    rw [hentry, hitems]
    by_cases hd : Literal.depthAll vs < maxNesting
    · rw [if_pos hd, if_pos (show (Literal.sequence vs).depth ≤ maxNesting from hd)]
      rfl
    · rw [if_neg hd, if_neg (show ¬(Literal.sequence vs).depth ≤ maxNesting from hd)]
      rfl

theorem entriesFrom_document (hl : l.Pointed) {es : List (String × Literal)}
    (h : ∀ e ∈ es, Renderable e.2) : entriesFrom .lineStart (tokens (document l es))
      = if ∀ e ∈ es, e.2.depth ≤ maxNesting then some (es.map Literal.entry) else none := by
  induction es with
  | nil =>
    rw [document, List.flatMap_nil, tokens_eq]
    rfl
  | cons e es ih =>
    obtain ⟨he, hes⟩ := List.forall_mem_cons.1 h
    rw [document, List.flatMap_cons, entriesFrom_line hl he, ← document, ih hes]
    simp only [List.forall_mem_cons]
    by_cases hfirst : e.2.depth ≤ maxNesting
    · by_cases hrest : ∀ e ∈ es, e.2.depth ≤ maxNesting
      · rw [if_pos hfirst, if_pos hrest, if_pos ⟨hfirst, hrest⟩]
        rfl
      · rw [if_pos hfirst, if_neg hrest, if_neg fun h => hrest h.2]
        rfl
    · rw [if_neg hfirst, if_neg fun h => hfirst h.1]

end Toml

end RetryDelay.Document
