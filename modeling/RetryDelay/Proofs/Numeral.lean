import RetryDelay.Binary64.Layout
import RetryDelay.Proofs.Shortest

set_option autoImplicit false

namespace RetryDelay

open Text

namespace Text

def IsSign (s : List Char) : Prop := s = [] ∨ s = ['+'] ∨ s = ['-']

theorem not_isSign_of_isDigit {c : Char} (h : c.isDigit = true) : c ≠ '-' ∧ c ≠ '+' := by
  constructor <;> (rintro rfl; cases h)

theorem IsSign.splitSign_append {sign s : List Char} (h : IsSign sign)
    (hs : ∀ c ∈ s.head?, c ≠ '-' ∧ c ≠ '+') :
    splitSign (sign ++ s) = (decide (sign = ['-']), s) := by
  rcases h with rfl | rfl | rfl
  · rw [List.nil_append, splitSign]
    · rfl
    · rintro t rfl
      exact (hs '-' rfl).1 rfl
    · rintro t rfl
      exact (hs '+' rfl).2 rfl
  · rfl
  · rfl

end Text

structure Power where
  mark : Char
  sign : List Char
  digits : List Char

namespace Power

def chars (p : Power) : List Char := p.mark :: (p.sign ++ p.digits)

def value (p : Power) : Int :=
  if p.sign = ['-'] then -(digitsValue p.digits : Int) else digitsValue p.digits

structure Proper (p : Power) : Prop where
  mark : p.mark = 'e' ∨ p.mark = 'E'
  sign : p.sign = [] ∨ p.sign = ['+'] ∨ p.sign = ['-']
  ne_nil : p.digits ≠ []
  isDigit : ∀ c ∈ p.digits, c.isDigit = true

theorem Proper.splitSign_append {p : Power} (hp : p.Proper) (rest : List Char) :
    splitSign (p.sign ++ (p.digits ++ rest)) = (decide (p.sign = ['-']), p.digits ++ rest) := by
  obtain ⟨d, ds, hds⟩ := List.exists_cons_of_ne_nil hp.ne_nil
  refine IsSign.splitSign_append hp.sign ?_
  rw [hds]
  rintro _ ⟨⟩
  exact not_isSign_of_isDigit (hp.isDigit d (by simp [hds]))

end Power

structure Numeral where
  whole : List Char
  fraction : Option (List Char)
  power : Option Power

namespace Numeral

def fractionChars : Option (List Char) → List Char
  | none => []
  | some ds => '.' :: ds

def powerChars : Option Power → List Char
  | none => []
  | some p => p.chars

def chars (n : Numeral) : List Char := n.whole ++ (fractionChars n.fraction ++ powerChars n.power)

def exponent (n : Numeral) : Int := (n.power.map Power.value).getD 0

def decimal (n : Numeral) : Decimal := .ofParts n.whole (n.fraction.getD []) n.exponent

theorem e_of_mem_head?_powerChars {power : Option Power} (h : ∀ p ∈ power, p.Proper) :
    ∀ c ∈ (powerChars power).head?, c = 'e' ∨ c = 'E' := by
  cases power with
  | none => nofun
  | some p =>
    rintro _ ⟨⟩
    exact (h p rfl).mark

theorem isDigit_head?_fractionChars (fraction : Option (List Char)) {s : List Char}
    (hs : ∀ c ∈ s.head?, c.isDigit = false) :
    ∀ c ∈ (fractionChars fraction ++ s).head?, c.isDigit = false := by
  cases fraction with
  | none => exact hs
  | some ds => rintro _ ⟨⟩; rfl

/-- Digits stand where they have to, and no zero is in front of others. -/
structure Proper (n : Numeral) : Prop where
  ne_nil : n.whole ≠ []
  isDigit : ∀ c ∈ n.whole, c.isDigit = true
  head : n.whole.head? = some '0' → n.whole = ['0']
  fraction : ∀ ds ∈ n.fraction, ds ≠ [] ∧ ∀ c ∈ ds, c.isDigit = true
  power : ∀ p ∈ n.power, p.Proper

def IsWhole (n : Numeral) : Prop := n.fraction = none ∧ n.power = none

instance (n : Numeral) : Decidable n.IsWhole :=
  match n with
  | ⟨_, none, none⟩ => isTrue ⟨rfl, rfl⟩
  | ⟨_, some _, _⟩ => isFalse nofun
  | ⟨_, _, some _⟩ => isFalse nofun

def significant (n : Numeral) : List Char :=
  (n.whole ++ n.fraction.getD []).dropWhile (· == '0')

def ofNat (n : Nat) : Numeral := ⟨digits n, none, none⟩

theorem chars_ofNat (n : Nat) : (ofNat n).chars = digits n := List.append_nil _

theorem digitsValue_whole_ofNat (n : Nat) : digitsValue (ofNat n).whole = n := digitsValue_digits n

theorem proper_ofNat (n : Nat) : (ofNat n).Proper where
  ne_nil := digits_ne_nil n
  isDigit c hc := isDigit_of_mem_digits hc
  head h := by
    by_cases h0 : n = 0
    · rw [h0]
      rfl
    · exact absurd h (head?_digits_ne h0)
  fraction := nofun
  power := nofun

end Numeral

namespace Binary64

/-- Layouts in which every number shows that it is no integer. -/
structure Layout.Pointed (l : Layout) : Prop where
  afterWhole : l.afterWhole = ['.', '0']
  positive : l.positive = [] ∨ l.positive = ['+']

theorem Layout.pointed_json : Layout.json.Pointed := ⟨rfl, .inr rfl⟩

namespace Digits

def zeros (n : Int) : List Char := List.replicate n.toNat '0'

def full (d : Digits) : Numeral :=
  if d.point ≤ 0 then ⟨['0'], some (zeros (-d.point) ++ d.figures), none⟩
  else if d.point.toNat < d.figures.length then
    ⟨d.figures.take d.point.toNat, some (d.figures.drop d.point.toNat), none⟩
  else ⟨d.figures ++ zeros (d.point - d.figures.length), some ['0'], none⟩

def powered (positive : List Char) (d : Digits) : Numeral :=
  ⟨d.figures.take 1, if d.figures.length ≤ 1 then none else some (d.figures.drop 1),
    some ⟨'e', if d.point - 1 < 0 then ['-'] else positive, Text.digits (d.point - 1).natAbs⟩⟩

theorem chars_full (d : Digits) : d.full.chars = d.inFull ['.', '0'] := by
  unfold full inFull
  split
  · simp [Numeral.chars, Numeral.fractionChars, Numeral.powerChars, zeros]
  · dsimp only
    split
    · simp [Numeral.chars, Numeral.fractionChars, Numeral.powerChars]
    · have hsub : (d.point - d.figures.length).toNat = d.point.toNat - d.figures.length := by omega
      simp [Numeral.chars, Numeral.fractionChars, Numeral.powerChars, zeros, hsub]

theorem power_full (d : Digits) : d.full.power = none := by
  unfold full
  split
  · rfl
  · split <;> rfl

theorem chars_powered (positive : List Char) (d : Digits) :
    (d.powered positive).chars = d.scientific positive := by
  unfold powered scientific
  by_cases h : d.figures.length ≤ 1 <;>
    simp [Numeral.chars, Numeral.fractionChars, Numeral.powerChars, Power.chars, h]

theorem Proper.eq_zero {d : Digits} (hd : d.Proper) (h : d.figures.head? = some '0') :
    d.figures = ['0'] ∧ d.point = 1 := by
  rw [hd.head h]
  exact ⟨rfl, rfl⟩

theorem isDigit_of_mem_zeros {n : Int} {c : Char} (h : c ∈ zeros n) : c.isDigit = true := by
  rw [(List.mem_replicate.1 h).2]
  rfl

theorem proper_full {d : Digits} (hd : d.Proper) : d.full.Proper := by
  unfold full
  split
  · refine ⟨nofun, ?_, fun _ => rfl, ?_, nofun⟩
    · exact List.forall_mem_singleton.2 rfl
    rintro _ ⟨⟩
    refine ⟨by simp [hd.ne_nil], fun c hc => ?_⟩
    exact (List.mem_append.1 hc).elim isDigit_of_mem_zeros (hd.isDigit c)
  · next hpos =>
    split
    next hlt =>
      refine ⟨?_, fun c hc => hd.isDigit c (List.mem_of_mem_take hc), fun h => ?_, ?_, nofun⟩
      · simp only [ne_eq, List.take_eq_nil_iff, hd.ne_nil, or_false]
        omega
      · rw [List.head?_take, if_neg (by omega)] at h
        obtain ⟨hfigures, hpoint⟩ := hd.eq_zero h
        rw [hfigures, hpoint] at hlt
        exact absurd hlt (by decide)
      · rintro _ ⟨⟩
        refine ⟨?_, fun c hc => hd.isDigit c (List.mem_of_mem_drop hc)⟩
        simp only [ne_eq, List.drop_eq_nil_iff]
        omega
    next =>
      refine ⟨by simp [hd.ne_nil], fun c hc => ?_, fun h => ?_, ?_, nofun⟩
      · exact (List.mem_append.1 hc).elim (hd.isDigit c) isDigit_of_mem_zeros
      · rw [List.head?_append_of_ne_nil _ hd.ne_nil] at h
        obtain ⟨hfigures, hpoint⟩ := hd.eq_zero h
        rw [hfigures, hpoint]
        rfl
      · rintro _ ⟨⟩
        exact ⟨nofun, by decide⟩

theorem proper_powered {d : Digits} (hd : d.Proper) {positive : List Char}
    (hp : positive = [] ∨ positive = ['+']) : (d.powered positive).Proper := by
  obtain ⟨c, cs, hcs⟩ := List.exists_cons_of_ne_nil hd.ne_nil
  have hwhole : d.figures.take 1 = [c] := by rw [hcs]; rfl
  refine ⟨?_, fun c hc => hd.isDigit c (List.mem_of_mem_take hc), fun h => ?_, ?_, ?_⟩
  · rw [powered, hwhole]
    nofun
  · rw [powered, hwhole] at h ⊢
    cases h
    rfl
  · intro ds hds
    unfold powered at hds
    split at hds
    · cases hds
    · cases hds
      refine ⟨?_, fun c hc => hd.isDigit c (List.mem_of_mem_drop hc)⟩
      simp only [ne_eq, List.drop_eq_nil_iff]
      omega
  · rintro _ ⟨⟩
    refine ⟨.inl rfl, ?_, digits_ne_nil _, fun c hc => isDigit_of_mem_digits hc⟩
    dsimp only
    split
    · exact .inr (.inr rfl)
    · exact hp.imp_right .inl

theorem toRat_full (d : Digits) : d.full.decimal.toRat = d.decimal.toRat := by
  unfold full
  split
  next hle =>
    have hzeros : ['0'] ++ (zeros (-d.point) ++ d.figures)
        = List.replicate ((-d.point).toNat + 1) '0' ++ d.figures := rfl
    have hexp : (0 : Int) - (zeros (-d.point) ++ d.figures).length
        = d.point - d.figures.length := by
      simp only [zeros, List.length_append, List.length_replicate]
      omega
    simp only [Numeral.decimal, Numeral.exponent, Decimal.ofParts, Digits.decimal,
      Option.getD_some, Option.map_none, Option.getD_none, hzeros, hexp, digitsValue_zeros_append]
  next =>
    split
    next hlt =>
      have hexp : (0 : Int) - (d.figures.drop d.point.toNat).length
          = d.point - d.figures.length := by
        rw [List.length_drop]
        omega
      simp only [Numeral.decimal, Numeral.exponent, Decimal.ofParts, Digits.decimal,
        Option.getD_some, Option.map_none, Option.getD_none, List.take_append_drop, hexp]
    next =>
      obtain ⟨k, hk⟩ := Int.eq_ofNat_of_zero_le (a := d.point - d.figures.length) (by omega)
      have hzeros : d.figures ++ zeros k ++ ['0'] = d.figures ++ List.replicate (k + 1) '0' := by
        rw [zeros, Int.toNat_natCast, List.append_assoc, List.replicate_succ']
      simp only [Numeral.decimal, Numeral.exponent, Decimal.ofParts, Digits.decimal,
        Decimal.toRat, Option.getD_some, Option.map_none, Option.getD_none, hk, hzeros,
        digitsValue_append_zeros, List.length_singleton, zpow_natCast]
      rw [show (0 : Int) - (1 : Nat) = -1 from rfl, zpow_neg_one, pow_succ]
      push_cast
      ring

theorem value_power {n : Int} {positive : List Char} (hp : positive = [] ∨ positive = ['+']) :
    Power.value ⟨'e', if n < 0 then ['-'] else positive, Text.digits n.natAbs⟩ = n := by
  have hne : positive ≠ ['-'] := by rcases hp with rfl | rfl <;> decide
  by_cases hn : n < 0
  · simp only [Power.value, if_pos hn, if_true, digitsValue_digits]
    omega
  · simp only [Power.value, if_neg hn, if_neg hne, digitsValue_digits]
    omega

theorem decimal_powered {d : Digits} (hd : d.Proper) {positive : List Char}
    (hp : positive = [] ∨ positive = ['+']) : (d.powered positive).decimal = d.decimal := by
  have hpos : 0 < d.figures.length := List.length_pos_iff.2 hd.ne_nil
  have hvalue := value_power (n := d.point - 1) hp
  simp only [powered, Numeral.decimal, Numeral.exponent, Option.map_some, Option.getD_some, hvalue]
  by_cases h : d.figures.length ≤ 1
  · have hlength : d.figures.length = 1 := by omega
    rw [if_pos h, Option.getD_none, List.take_of_length_le h]
    simp [Decimal.ofParts, Digits.decimal, hlength]
  · have hexp : d.point - 1 - (d.figures.drop 1).length = d.point - d.figures.length := by
      rw [List.length_drop]
      omega
    simp only [Decimal.ofParts, Digits.decimal, if_neg h, Option.getD_some,
      List.take_append_drop, hexp]

theorem length_significant_full (d : Digits) :
    d.full.significant.length ≤ max d.figures.length (d.point.toNat + 1) := by
  unfold full Numeral.significant
  split
  · have hzeros : ∀ c ∈ '0' :: zeros (-d.point), (c == '0') = true := by
      intro c hc
      rcases List.mem_cons.1 hc with rfl | hc
      · rfl
      · exact beq_iff_eq.2 (List.mem_replicate.1 hc).2
    dsimp only [Option.getD_some]
    rw [← List.append_assoc, List.singleton_append, List.dropWhile_append_of_pos hzeros]
    exact Nat.le_trans (List.dropWhile_sublist _).length_le (Nat.le_max_left _ _)
  · split
    · dsimp only [Option.getD_some]
      rw [List.take_append_drop]
      exact Nat.le_trans (List.dropWhile_sublist _).length_le (Nat.le_max_left _ _)
    · refine Nat.le_trans (List.dropWhile_sublist _).length_le ?_
      simp only [zeros, Option.getD_some, List.length_append, List.length_replicate,
        List.length_singleton]
      omega

theorem length_significant_powered (d : Digits) (positive : List Char) :
    (d.powered positive).significant.length ≤ d.figures.length := by
  unfold powered Numeral.significant
  refine Nat.le_trans (List.dropWhile_sublist _).length_le ?_
  by_cases h : d.figures.length ≤ 1
  · simp [h]
  · simp only [if_neg h, Option.getD_some, List.take_append_drop, Nat.le_refl]

end Digits

namespace Layout
variable {l : Layout} {d : Digits}

def numeral (l : Layout) (d : Digits) : Numeral :=
  if l.inFull (d.point - 1) then d.full else d.powered l.positive

theorem chars_numeral (hl : l.Pointed) (d : Digits) : (l.numeral d).chars = l.place d := by
  unfold numeral place
  split
  · rw [hl.afterWhole, Digits.chars_full]
  · exact d.chars_powered l.positive

theorem proper_numeral (hl : l.Pointed) (hd : d.Proper) : (l.numeral d).Proper := by
  unfold numeral
  split
  · exact d.proper_full hd
  · exact d.proper_powered hd hl.positive

theorem toRat_numeral (hl : l.Pointed) (hd : d.Proper) :
    (l.numeral d).decimal.toRat = d.decimal.toRat := by
  unfold numeral
  split
  · exact d.toRat_full
  · rw [d.decimal_powered hd hl.positive]

theorem not_isWhole_numeral (l : Layout) (d : Digits) : ¬(l.numeral d).IsWhole := by
  rintro ⟨hfraction, hpower⟩
  unfold numeral at hfraction hpower
  split at hfraction
  · unfold Digits.full at hfraction
    split at hfraction
    · cases hfraction
    · split at hfraction <;> cases hfraction
  · rename_i hfull
    rw [if_neg hfull] at hpower
    cases hpower

/-- The shortest digits of a double, written in any layout that tells them from an integer, have
that double nearest to them. -/
theorem toBinary64_numeral (hl : l.Pointed) (negative : Bool) {units : Nat}
    (h : Representable units) :
    (l.numeral (shortest l.tie units)).decimal.toBinary64 negative = .finite negative units h := by
  refine Decimal.toBinary64_of_nearest negative h ?_
  rw [Decimal.nearest_units_congr (toRat_numeral hl (proper_shortest l.tie units))]
  exact nearest_shortest l.tie h

theorem length_significant_json {units : Nat} (h : Representable units) :
    (json.numeral (shortest json.tie units)).significant.length ≤ Document.Json.exactDigits := by
  have hfigures := length_shortest json.tie h
  unfold numeral
  split
  next hfull =>
    have hpoint := of_decide_eq_true hfull
    have hdigits : 17 ≤ Document.Json.exactDigits := by decide
    exact Nat.le_trans (Digits.length_significant_full _) (Nat.max_le.2 ⟨hfigures, by omega⟩)
  next => exact Nat.le_trans (Digits.length_significant_powered _ _) hfigures

end Layout

end Binary64

end RetryDelay
