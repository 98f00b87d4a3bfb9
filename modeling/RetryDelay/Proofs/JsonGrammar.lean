import RetryDelay.Document.Json
import RetryDelay.Proofs.JsonNumber

set_option autoImplicit false

namespace RetryDelay.Document
open Text

inductive Literal where
  | null
  | boolean (b : Bool)
  | number (negative : Bool) (n : Numeral)
  | text (t : String)
  | sequence (vs : List Literal)
  | map (es : List (String × Literal))

namespace Literal

def value : Literal → Value
  | null => .null
  | boolean b => .boolean b
  | number negative n => n.value negative
  | text t => .text t
  | sequence _ => .sequence
  | map _ => .map

def entry (e : String × Literal) : String × Value := (e.1, e.2.value)

end Literal

namespace Json

def Blank (s : List Char) : Prop := ∀ c ∈ s, isSpace c = true

def escapes : List (Char × Char) :=
  [('"', '"'), ('\\', '\\'), ('/', '/'), ('b', '\x08'), ('f', '\x0c'), ('n', '\n'), ('r', '\r'),
    ('t', '\t')]

/-- The ways in which a character of a string is written. -/
inductive Spelling : Char → List Char → Prop
  | plain {c : Char} (h : 0x20 ≤ c.toNat) (hquote : c ≠ '"') (hbackslash : c ≠ '\\') :
    Spelling c [c]
  | escape {c e : Char} (h : (e, c) ∈ escapes) : Spelling c ['\\', e]
  | unit {c h₁ h₂ h₃ h₄ : Char} (h : numberInBase? 16 [h₁, h₂, h₃, h₄] = some c.toNat) :
    Spelling c ['\\', 'u', h₁, h₂, h₃, h₄]
  | pair {c h₁ h₂ h₃ h₄ l₁ l₂ l₃ l₄ : Char} {high low : Nat}
    (hhigh : numberInBase? 16 [h₁, h₂, h₃, h₄] = some (0xd800 + high)) (hlt : high < 0x400)
    (hlow : numberInBase? 16 [l₁, l₂, l₃, l₄] = some (0xdc00 + low)) (hlt' : low < 0x400)
    (h : c.toNat = 0x10000 + high * 0x400 + low) :
    Spelling c ['\\', 'u', h₁, h₂, h₃, h₄, '\\', 'u', l₁, l₂, l₃, l₄]

inductive Spelled : List Char → List Char → Prop
  | nil : Spelled [] []
  | cons {c : Char} {cs s t : List Char} (h : Spelling c s) (ht : Spelled cs t) :
    Spelled (c :: cs) (s ++ t)

def Quoted (t : String) (s : List Char) : Prop :=
  ∃ u, Spelled t.toList u ∧ s = '"' :: (u ++ ['"'])

variable {α : Type}

inductive Listed (R : α → List Char → Prop) : List α → List Char → Prop
  | one {a : α} {s : List Char} (h : R a s) : Listed R [a] s
  | cons {a : α} {as : List α} {s before after t : List Char} (h : R a s) (hb : Blank before)
    (ha : Blank after) (ht : Listed R as t) :
    Listed R (a :: as) (s ++ (before ++ ',' :: (after ++ t)))

inductive Enclosed (opening closing : Char) (R : α → List Char → Prop) :
    List α → List Char → Prop
  | empty {inside : List Char} (h : Blank inside) :
    Enclosed opening closing R [] (opening :: (inside ++ [closing]))
  | items {as : List α} {before s after : List Char} (hb : Blank before) (h : Listed R as s)
    (ha : Blank after) :
    Enclosed opening closing R as (opening :: (before ++ (s ++ (after ++ [closing]))))

theorem Enclosed.exists_cons {opening closing : Char} {R : α → List Char → Prop} {as : List α}
    {s : List Char} (h : Enclosed opening closing R as s) : ∃ u, s = opening :: u := by
  cases h with
  | empty => exact ⟨_, rfl⟩
  | items => exact ⟨_, rfl⟩

theorem Listed.forall_mem {R : α → List Char → Prop} {as : List α} {s : List Char}
    (h : Listed R as s) : ∀ a ∈ as, ∃ t, R a t := by
  induction h with
  | one h => exact List.forall_mem_singleton.2 ⟨_, h⟩
  | cons h hb ha ht ih => exact List.forall_mem_cons.2 ⟨⟨_, h⟩, ih⟩

theorem Enclosed.forall_mem {opening closing : Char} {R : α → List Char → Prop} {as : List α}
    {s : List Char} (h : Enclosed opening closing R as s) : ∀ a ∈ as, ∃ t, R a t := by
  cases h with
  | empty => nofun
  | items hb h ha => exact h.forall_mem

inductive Member (R : α → List Char → Prop) : String × α → List Char → Prop
  | mk {key : String} {a : α} {k before after s : List Char} (hk : Quoted key k)
    (hb : Blank before) (ha : Blank after) (h : R a s) :
    Member R (key, a) (k ++ (before ++ ':' :: (after ++ s)))

inductive Written : Literal → List Char → Prop
  | null : Written .null ['n', 'u', 'l', 'l']
  | true : Written (.boolean true) ['t', 'r', 'u', 'e']
  | false : Written (.boolean false) ['f', 'a', 'l', 's', 'e']
  | number {negative : Bool} {n : Numeral} (hn : n.Proper) (h : n.InRange) :
    Written (.number negative n) (Binary64.sign negative ++ n.chars)
  | text {t : String} {s : List Char} (h : Quoted t s) : Written (.text t) s
  | sequence {vs : List Literal} {s : List Char} (h : Enclosed '[' ']' Written vs s) :
    Written (.sequence vs) s
  | map {es : List (String × Literal)} {s : List Char}
    (h : Enclosed '\x7b' '\x7d' (Member Written) es s) : Written (.map es) s

/-- A whole text: one value with white space around it. -/
def Holds (l : Literal) (s : String) : Prop :=
  ∃ before u after, Blank before ∧ Written l u ∧ Blank after ∧ s.toList = before ++ (u ++ after)

theorem Holds.forall_mem {es : List (String × Literal)} {s : String} (h : Holds (.map es) s) :
    ∀ e ∈ es, ∃ t, Written e.2 t := by
  obtain ⟨before, u, after, hb, hu, ha, hs⟩ := h
  cases hu with
  | map h =>
    intro e he
    obtain ⟨t, ht⟩ := h.forall_mem e he
    cases ht with
    | mk hk hb ha h => exact ⟨_, h⟩

theorem readPieces_plain {c : Char} (h : 0x20 ≤ c.toNat) (hquote : c ≠ '"') (hbackslash : c ≠ '\\')
    (rest : List Char) :
    readPieces (c :: rest) = (readPieces rest).map fun r => (.char c :: r.1, r.2) := by
  rw [readPieces]
  · rw [if_neg (by simp only [hbackslash, false_or]; omega)]
  · exact hquote
  · exact fun _ _ _ _ _ h _ => hbackslash h
  · exact fun _ _ h _ => hbackslash h

theorem readPieces_escape {c e : Char} (h : (e, c) ∈ escapes) (rest : List Char) :
    readPieces ('\\' :: e :: rest) = (readPieces rest).map fun r => (.char c :: r.1, r.2) := by
  have hall : ∀ p ∈ escapes, escaped? p.1 = some p.2 ∧ p.1 ≠ 'u' := by decide
  obtain ⟨hescaped, hu⟩ := hall _ h
  rw [readPieces]
  · rw [hescaped]
    cases readPieces rest <;> rfl
  · exact fun _ _ _ _ _ h _ => hu h

theorem readPieces_unit {h₁ h₂ h₃ h₄ : Char} {n : Nat}
    (h : numberInBase? 16 [h₁, h₂, h₃, h₄] = some n) (rest : List Char) :
    readPieces ('\\' :: 'u' :: h₁ :: h₂ :: h₃ :: h₄ :: rest)
      = (readPieces rest).map fun r => (.unit n :: r.1, r.2) := by
  rw [readPieces, h]
  cases readPieces rest <;> rfl

theorem joinUnits_unit (c : Char) (ps : List Piece) :
    joinUnits (.unit c.toNat :: ps) = (joinUnits ps).map (c :: ·) := by
  have hvalid : c.toNat < 0xd800 ∨ 0xe000 ≤ c.toNat :=
    c.valid.imp_right fun h => Nat.succ_le_of_lt h.1
  have hscalar : ¬(0xd800 ≤ c.toNat ∧ c.toNat < 0xe000) := by omega
  have hchar : Char.ofNat c.toNat = c := Char.ofNat_toNat c
  cases ps with
  | nil => simp only [joinUnits, if_neg hscalar, hchar]
  | cons p ps =>
    cases p with
    | char d => simp only [joinUnits, if_neg hscalar, hchar]
    | unit low => rw [joinUnits, if_neg (by omega), if_neg (by omega), hchar]

theorem joinUnits_pair {c : Char} {high low : Nat} (hhigh : high < 0x400) (hlow : low < 0x400)
    (h : c.toNat = 0x10000 + high * 0x400 + low) (ps : List Piece) :
    joinUnits (.unit (0xd800 + high) :: .unit (0xdc00 + low) :: ps)
      = (joinUnits ps).map (c :: ·) := by
  have hchar : Char.ofNat
      (0x10000 + (0xd800 + high - 0xd800) * 0x400 + (0xdc00 + low - 0xdc00)) = c := by
    rw [Nat.add_sub_cancel_left, Nat.add_sub_cancel_left, ← h, Char.ofNat_toNat]
  rw [joinUnits, if_pos (by omega), if_pos (by omega), hchar]

theorem Spelling.pieces {c : Char} {s : List Char} (h : Spelling c s) : ∃ ps,
    (∀ rest, readPieces (s ++ rest) = (readPieces rest).map fun r => (ps ++ r.1, r.2)) ∧
      ∀ qs, joinUnits (ps ++ qs) = (joinUnits qs).map (c :: ·) := by
  cases h with
  | plain h hquote hbackslash =>
    exact ⟨[.char c], readPieces_plain h hquote hbackslash, fun qs => rfl⟩
  | escape h => exact ⟨[.char c], readPieces_escape h, fun qs => rfl⟩
  | unit h => exact ⟨[.unit c.toNat], readPieces_unit h, joinUnits_unit c⟩
  | @pair h₁ h₂ h₃ h₄ l₁ l₂ l₃ l₄ high low hhigh hlt hlow hlt' h =>
    refine ⟨[.unit (0xd800 + high), .unit (0xdc00 + low)], fun rest => ?_,
      joinUnits_pair hlt hlt' h⟩
    have hread := readPieces_unit hhigh ('\\' :: 'u' :: l₁ :: l₂ :: l₃ :: l₄ :: rest)
    rw [readPieces_unit hlow, Option.map_map] at hread
    exact hread

theorem readString_append {cs s : List Char} (h : Spelled cs s) (rest : List Char) :
    readString (s ++ '"' :: rest) = some (String.ofList cs, rest) := by
  have hpieces :
      ∃ ps, readPieces (s ++ '"' :: rest) = some (ps, rest) ∧ joinUnits ps = some cs := by
    induction h with
    | nil => exact ⟨[], rfl, rfl⟩
    | @cons c cs s t h ht ih =>
      obtain ⟨ps, hread, hjoin⟩ := ih
      obtain ⟨qs, hread', hjoin'⟩ := h.pieces
      refine ⟨qs ++ ps, ?_, ?_⟩
      · rw [List.append_assoc, hread', hread]
        rfl
      · rw [hjoin', hjoin]
        rfl
  obtain ⟨ps, hread, hjoin⟩ := hpieces
  rw [readString, hread]
  dsimp only
  rw [hjoin]
  rfl

theorem tokens_eq (s : List Char) : tokens s =
    match s.dropWhile isSpace with
    | [] => []
    | c :: t => (readToken (c :: t)).1 :: tokens (readToken (c :: t)).2 := by
  rw [tokens]
  split
  next h => rw [h]
  next h => simp only [h]

theorem tokens_blank {b : List Char} (hb : Blank b) (s : List Char) :
    tokens (b ++ s) = tokens s := by
  rw [tokens_eq (b ++ s), List.dropWhile_append_of_pos hb, ← tokens_eq]

theorem tokens_cons {c : Char} (hc : isSpace c = false) (s : List Char) :
    tokens (c :: s) = (readToken (c :: s)).1 :: tokens (readToken (c :: s)).2 := by
  rw [tokens_eq, List.dropWhile_cons_of_neg (by simp [hc])]

theorem ends_blank {b s : List Char} (hb : Blank b) (hs : Ends s) : Ends (b ++ s) := by
  cases b with
  | nil => exact hs
  | cons c cs =>
    rintro _ ⟨⟩
    have hc := hb c (by simp)
    simp only [isSpace, Bool.or_eq_true, beq_iff_eq] at hc
    rcases hc with ((h | h) | h) | h <;> rw [h] <;> decide

theorem ends_of_mem {c : Char} (hc : c ∈ [',', '\x7d', ']']) (s : List Char) : Ends (c :: s) := by
  rintro _ ⟨⟩
  revert c
  decide

theorem readToken_number {c : Char} (hc : c.isDigit = true ∨ c = '-') {s rest : List Char}
    {v : Value} (h : readNumber (c :: s) = some (v, rest)) :
    readToken (c :: s) = (.scalar v, rest) := by
  have hne : ∀ d ∈ ['\x7b', '\x7d', '[', ']', ',', ':', 'n', 't', 'f', '"'], c ≠ d := by
    have hall : ∀ d ∈ ['\x7b', '\x7d', '[', ']', ',', ':', 'n', 't', 'f', '"'],
        ¬(d.isDigit = true ∨ d = '-') := by decide
    rintro d hd rfl
    exact hall c hd hc
  rw [readToken, h]
  · nofun
  all_goals exact fun t h => hne _ (by decide) (List.cons.inj h).1

theorem tokens_quoted {t : String} {s : List Char} (h : Quoted t s) (rest : List Char) :
    tokens (s ++ rest) = .scalar (.text t) :: tokens rest := by
  obtain ⟨u, hu, rfl⟩ := h
  have hread := readString_append hu rest
  rw [String.ofList_toList] at hread
  rw [List.cons_append, List.append_assoc, List.singleton_append, tokens_cons (by decide),
    readToken, hread]

theorem tokens_number {n : Numeral} (hn : n.Proper) (h : n.InRange) (negative : Bool)
    {rest : List Char} (hrest : Ends rest) :
    tokens (Binary64.sign negative ++ n.chars ++ rest)
      = .scalar (n.value negative) :: tokens rest := by
  have hread := readNumber_append hn h negative hrest
  rw [List.append_assoc]
  obtain ⟨c, s, hs, hc⟩ : ∃ c s, Binary64.sign negative ++ (n.chars ++ rest) = c :: s ∧
      (c.isDigit = true ∨ c = '-') := by
    cases negative with
    | true => exact ⟨'-', _, rfl, .inr rfl⟩
    | false =>
      obtain ⟨d, ds, hds⟩ := List.exists_cons_of_ne_nil hn.ne_nil
      refine ⟨d, ds ++ (Numeral.fractionChars n.fraction ++ Numeral.powerChars n.power) ++ rest, ?_,
        .inl (hn.isDigit d (by simp [hds]))⟩
      rw [Numeral.chars, hds]
      rfl
  have hspace : isSpace c = false := by
    have hall : ∀ d ∈ [' ', '\t', '\n', '\r'], ¬(d.isDigit = true ∨ d = '-') := by decide
    exact Bool.eq_false_iff.2 fun h => hall c (by simpa [isSpace, or_assoc] using h) hc
  rw [hs] at hread ⊢
  rw [tokens_cons hspace, readToken_number hc hread]

/-- Whether a value is a list or a map, of which only the first bracket is looked at. -/
def IsNested (v : Value) : Prop := v = .sequence ∨ v = .map

/-- A value begins with one token that tells it, and has no others if it is a scalar. -/
theorem tokens_written {l : Literal} {s rest : List Char} (h : Written l s) (hrest : Ends rest) :
    ∃ t ts, tokens (s ++ rest) = t :: ts ∧ t.value? = some l.value ∧
      (IsNested l.value ∨ ts = tokens rest) := by
  cases h with
  | null => exact ⟨_, _, tokens_cons (by decide) _, rfl, .inr rfl⟩
  | true => exact ⟨_, _, tokens_cons (by decide) _, rfl, .inr rfl⟩
  | false => exact ⟨_, _, tokens_cons (by decide) _, rfl, .inr rfl⟩
  | number hn h => exact ⟨_, _, tokens_number hn h _ hrest, rfl, .inr rfl⟩
  | text h => exact ⟨_, _, tokens_quoted h rest, rfl, .inr rfl⟩
  | sequence h =>
    obtain ⟨u, rfl⟩ := h.exists_cons
    exact ⟨_, _, tokens_cons (by decide) _, rfl, .inl (.inl rfl)⟩
  | map h =>
    obtain ⟨u, rfl⟩ := h.exists_cons
    exact ⟨_, _, tokens_cons (by decide) _, rfl, .inl (.inr rfl)⟩

end Json

end RetryDelay.Document
