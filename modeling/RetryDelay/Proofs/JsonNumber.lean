import RetryDelay.Proofs.Bound
import RetryDelay.Proofs.Numeral

/-!
Numbers in JSON. Every numeral whose value is in the range of doubles is read, to its last
character, as long as nothing follows that could belong to it. It counts as an integer if it has
neither a point nor a power of ten and fits a word; all others are doubles. Up to 768 digits these
are the nearest, and with more digits they stay in range.
-/

set_option autoImplicit false

namespace RetryDelay

namespace Text

theorem takeWhile_zero_eq_replicate (ds : List Char) :
    ds.takeWhile (· == '0') = List.replicate (ds.takeWhile (· == '0')).length '0' :=
  List.eq_replicate_iff.2 ⟨rfl, fun c hc => by simpa using List.mem_takeWhile_imp hc⟩

theorem length_dropWhile_le_append (p : Char → Bool) (xs ys : List Char) :
    (xs.dropWhile p).length ≤ ((xs ++ ys).dropWhile p).length := by
  rw [List.dropWhile_append]
  split
  next h => simp [List.isEmpty_iff.1 h]
  next => simp

theorem digitsValue_dropWhile_zero (ds : List Char) :
    digitsValue (ds.dropWhile (· == '0')) = digitsValue ds := by
  rw [← digitsValue_zeros_append (ds.takeWhile (· == '0')).length, ← takeWhile_zero_eq_replicate,
    List.takeWhile_append_dropWhile]

theorem one_le_digitsValue {c : Char} (hc : c.isDigit = true) (h0 : c ≠ '0') :
    1 ≤ digitsValue [c] := by
  have hlow : 48 ≤ c.toNat := by
    simp only [Char.isDigit, Bool.and_eq_true, decide_eq_true_eq, ge_iff_le,
      UInt32.le_iff_toNat_le] at hc
    exact hc.1
  have hne : c.toNat ≠ 48 := fun h => h0 (Char.toNat_inj.1 h)
  have hvalue : digitsValue [c] = c.toNat - 48 := by simp [digitsValue, Nat.ofDigitChars]
  omega

theorem ten_pow_le_digitsValue {c : Char} (hc : c.isDigit = true) (h0 : c ≠ '0')
    (cs : List Char) : 10 ^ cs.length ≤ digitsValue (c :: cs) := by
  have hcons : digitsValue (c :: cs) = 10 ^ cs.length * digitsValue [c] + digitsValue cs :=
    digitsValue_append [c] cs
  rw [hcons]
  exact Nat.le_add_right_of_le (Nat.le_mul_of_pos_right _ (one_le_digitsValue hc h0))

end Text

open Text

namespace Numeral
open Document

variable {n : Numeral}

def InRange (n : Numeral) : Prop := n.decimal.toRat < Decimal.bound

/-- A number as an exact reader takes it. -/
def counted (n : Numeral) : Decimal := Json.decimal n.whole (n.fraction.getD []) n.exponent

def countedDigits (n : Numeral) : List Char :=
  (n.whole ++ dropLastZeros (n.fraction.getD [])).dropWhile (· == '0')

theorem length_countedDigits_le (n : Numeral) : n.countedDigits.length ≤ n.significant.length := by
  have hsplit := dropLastZeros_append (n.fraction.getD [])
  rw [significant, countedDigits]
  nth_rewrite 2 [← hsplit]
  rw [← List.append_assoc]
  exact length_dropWhile_le_append _ _ _

theorem counted_eq_decimal (h : n.significant.length ≤ Json.exactDigits) : n.counted = n.decimal :=
  if_pos (Nat.le_trans n.length_countedDigits_le h)

theorem toRat_eq_countedDigits (n : Numeral) :
    n.decimal.toRat = digitsValue n.countedDigits
      * 10 ^ (n.exponent - (dropLastZeros (n.fraction.getD [])).length) := by
  have hsplit := dropLastZeros_append (n.fraction.getD [])
  have hle := length_dropLastZeros_le (n.fraction.getD [])
  obtain ⟨z, hz⟩ := Nat.exists_eq_add_of_le hle
  rw [hz, Nat.add_sub_cancel_left] at hsplit
  have hexp : n.exponent - (n.fraction.getD []).length
      = n.exponent - (dropLastZeros (n.fraction.getD [])).length - z := by omega
  rw [countedDigits, digitsValue_dropWhile_zero, decimal, Decimal.ofParts, Decimal.toRat, hexp,
    zpow_sub₀ (by norm_num), zpow_natCast]
  generalize (10 : ℚ) ^ (n.exponent - (dropLastZeros (n.fraction.getD [])).length) = scale
  nth_rewrite 1 [← hsplit]
  rw [← List.append_assoc, digitsValue_append_zeros]
  push_cast
  field_simp

theorem Proper.isDigit_of_mem_countedDigits (hn : n.Proper) {c : Char}
    (hc : c ∈ n.countedDigits) : c.isDigit = true := by
  rcases List.mem_append.1 ((List.dropWhile_sublist _).subset hc) with hwhole | hplaces
  · exact hn.isDigit c hwhole
  · have hfraction : c ∈ n.fraction.getD [] := by
      rw [← dropLastZeros_append (n.fraction.getD [])]
      exact List.mem_append_left _ hplaces
    cases hf : n.fraction with
    | none => simp [hf] at hfraction
    | some ds =>
      rw [hf, Option.getD_some] at hfraction
      exact (hn.fraction ds hf).2 c hfraction

theorem ne_zero_of_countedDigits {c : Char} {cs : List Char} (h : n.countedDigits = c :: cs) :
    c ≠ '0' := by
  have hhead := List.head?_dropWhile_not (· == '0')
    (n.whole ++ dropLastZeros (n.fraction.getD []))
  have hc : ((n.whole ++ dropLastZeros (n.fraction.getD [])).dropWhile (· == '0')).head? = some c :=
    congrArg List.head? h
  rw [hc] at hhead
  simpa using hhead

theorem ten_pow_le_firstDigits (hn : n.Proper) {e : Nat} (h : e < n.countedDigits.length) :
    10 ^ e ≤ digitsValue (n.countedDigits.take (e + 1)) := by
  obtain ⟨c, cs, hcs⟩ := List.exists_cons_of_length_pos (Nat.lt_of_le_of_lt e.zero_le h)
  have hle := ten_pow_le_digitsValue (hn.isDigit_of_mem_countedDigits (c := c) (by simp [hcs]))
    (ne_zero_of_countedDigits hcs) (cs.take e)
  rw [hcs, List.length_cons] at h
  rwa [List.length_take, Nat.min_eq_left (by omega), ← List.take_succ_cons, ← hcs] at hle

/-- Of a number with too many digits an exact reader takes the first, and a tenth more. -/
theorem exists_cut (hn : n.Proper) {e : Nat} (hdigits : Json.exactDigits = e + 1)
    (hlength : e + 1 < n.countedDigits.length) :
    ∃ (first : Nat) (k : Int), 10 ^ e ≤ first ∧ first * 10 ^ k ≤ n.decimal.toRat ∧
      n.counted.toRat = (first + 1 / 10) * 10 ^ k := by
  obtain ⟨p, hp⟩ : ∃ p, p = n.exponent - (dropLastZeros (n.fraction.getD [])).length := ⟨_, rfl⟩
  have hcounted : n.counted = ⟨digitsValue (n.countedDigits.take (e + 1) ++ ['1']),
      p + (n.countedDigits.drop (e + 1 + 1)).length⟩ := by
    rw [hp, ← hdigits]
    exact if_neg (by rw [hdigits]; exact Nat.not_le.2 hlength)
  have hvalue := n.toRat_eq_countedDigits
  rw [← hp, ← List.take_append_drop (e + 1) n.countedDigits, digitsValue_append,
    List.length_drop] at hvalue
  rw [digitsValue_append, List.length_drop] at hcounted
  have hfirst := ten_pow_le_firstDigits hn (Nat.lt_of_succ_lt hlength)
  generalize digitsValue (n.countedDigits.take (e + 1)) = first at hfirst hcounted hvalue
  obtain ⟨m, hm⟩ : ∃ m, n.countedDigits.length - (e + 1) = m + 1 :=
    Nat.exists_eq_succ_of_ne_zero (by omega)
  rw [hm] at hvalue
  rw [show n.countedDigits.length - (e + 1 + 1) = m by omega] at hcounted
  have hscale : (0 : ℚ) < 10 ^ p := zpow_pos (by norm_num) p
  refine ⟨first, p + m + 1, hfirst, ?_, ?_⟩
  · have hpow : (10 : ℚ) ^ (p + m + 1) = 10 ^ p * 10 ^ (m + 1) := by
      rw [add_assoc, zpow_add₀ (by norm_num)]
      exact congrArg _ (zpow_natCast 10 (m + 1))
    have hdropped : (0 : ℚ) ≤ digitsValue (n.countedDigits.drop (e + 1)) := Nat.cast_nonneg _
    have hrest := mul_nonneg hdropped hscale.le
    rw [hvalue, hpow]
    push_cast
    linarith
  · rw [hcounted, Decimal.toRat, zpow_add_one₀ (by norm_num)]
    push_cast
    rw [show digitsValue ['1'] = 1 from rfl]
    norm_num
    ring

theorem counted_lt_bound (hn : n.Proper) (h : n.InRange) : n.counted.toRat < Decimal.bound := by
  obtain ⟨e, hdigits, he⟩ : ∃ e, Json.exactDigits = e + 1 ∧ 310 ≤ e := ⟨767, rfl, by decide⟩
  by_cases hlength : n.countedDigits.length ≤ Json.exactDigits
  · rw [show n.counted = n.decimal from if_pos hlength]
    exact h
  · obtain ⟨first, k, hfirst, hle, hcut⟩ := exists_cut hn hdigits (by omega)
    exact Decimal.lt_bound_of_cut he hfirst hle hcut h

def value (negative : Bool) (n : Numeral) : Value :=
  Json.number negative n.whole n.fraction (n.power.map Power.value)

/-- The double of a number with its sign: the nearest, up to `exactDigits` digits. -/
def double (negative : Bool) (n : Numeral) : Binary64 := n.counted.toBinary64 negative

/-- Whether a number with its sign is an integer as it is written. A zero with a sign is none. -/
def IsInteger (negative : Bool) (n : Numeral) (z : Int) : Prop :=
  n.IsWhole ∧ z = (if negative then -(digitsValue n.whole : Int) else digitsValue n.whole) ∧
    (negative = true → z ≠ 0)

theorem double_eq_nearest (negative : Bool) (h : n.significant.length ≤ Json.exactDigits) :
    n.double negative = n.decimal.toBinary64 negative := by
  rw [double, counted_eq_decimal h]

theorem decimal_of_isWhole (h : n.IsWhole) : n.decimal = ⟨digitsValue n.whole, 0⟩ := by
  simp [decimal, Decimal.ofParts, exponent, h.1, h.2]

theorem value_of_isWhole (negative : Bool) (h : n.IsWhole) :
    n.value negative = Json.wholeNumber negative (digitsValue n.whole) := by
  rw [value, h.1, h.2]
  rfl

theorem value_of_not_isWhole (negative : Bool) (h : ¬n.IsWhole) :
    n.value negative = .float (n.double negative) := by
  obtain ⟨whole, fraction, power⟩ := n
  cases fraction with
  | some ds => rfl
  | none =>
    cases power with
    | some p => rfl
    | none => exact absurd ⟨rfl, rfl⟩ h

theorem counted_of_isWhole (hn : n.Proper) (h : n.InRange) (hw : n.IsWhole) :
    n.counted = n.decimal := by
  obtain ⟨e, he, hdigits⟩ : ∃ e, 310 ≤ e ∧ e < Json.exactDigits := ⟨310, by decide, by decide⟩
  have hlt : digitsValue n.whole < 10 ^ e := by
    have hbound := lt_of_lt_of_le h (Decimal.bound_le_ten_pow he)
    rw [decimal_of_isWhole hw, Decimal.toRat, zpow_zero, mul_one] at hbound
    exact_mod_cast hbound
  have hvalue : digitsValue n.countedDigits = digitsValue n.whole := by
    rw [countedDigits, digitsValue_dropWhile_zero, hw.1]
    exact congrArg digitsValue (List.append_nil _)
  refine if_pos (show n.countedDigits.length ≤ Json.exactDigits from ?_)
  cases hs : n.countedDigits with
  | nil => exact Nat.zero_le _
  | cons c cs =>
    have hc := hn.isDigit_of_mem_countedDigits (c := c) (by simp [hs])
    have hle := ten_pow_le_digitsValue hc (ne_zero_of_countedDigits hs) cs
    rw [← hs, hvalue] at hle
    have hlength : cs.length < e :=
      (Nat.pow_lt_pow_iff_right (by decide)).1 (Nat.lt_of_le_of_lt hle hlt)
    rw [List.length_cons]
    omega

theorem value_eq_integer_iff {negative : Bool} {z : Int} : n.value negative = .integer z ↔
    n.IsInteger negative z ∧ -2 ^ 63 ≤ z ∧ z < 2 ^ 64 := by
  by_cases hw : n.IsWhole
  · rw [value_of_isWhole negative hw, Json.wholeNumber]
    cases negative with
    | true =>
      rw [if_pos rfl, IsInteger, if_pos rfl]
      split
      next h =>
        rw [Value.integer.injEq]
        exact ⟨fun hz => ⟨⟨hw, hz.symm, by omega⟩, by omega, by omega⟩, fun hz => hz.1.2.1.symm⟩
      next h =>
        refine ⟨nofun, fun ⟨⟨_, hz, hne⟩, hlow, _⟩ => absurd (hne rfl) ?_⟩
        omega
    | false =>
      rw [if_neg Bool.false_ne_true, IsInteger, if_neg Bool.false_ne_true]
      split
      next h =>
        rw [Value.integer.injEq]
        exact ⟨fun hz => ⟨⟨hw, hz.symm, nofun⟩, by omega, by omega⟩, fun hz => hz.1.2.1.symm⟩
      next h =>
        refine ⟨nofun, fun ⟨⟨_, hz, _⟩, _, hhigh⟩ => ?_⟩
        omega
  · rw [value_of_not_isWhole negative hw]
    exact ⟨nofun, fun h => absurd h.1.1 hw⟩

theorem value_integer_or_float (negative : Bool) (n : Numeral) :
    (∃ z, n.value negative = .integer z) ∨ ∃ x, n.value negative = .float x := by
  by_cases hw : n.IsWhole
  · rw [value_of_isWhole negative hw, Json.wholeNumber]
    split
    · split
      · exact .inl ⟨_, rfl⟩
      · exact .inr ⟨_, rfl⟩
    · split
      · exact .inl ⟨_, rfl⟩
      · exact .inr ⟨_, rfl⟩
  · exact .inr ⟨_, value_of_not_isWhole negative hw⟩

theorem value_cases (hn : n.Proper) (h : n.InRange) (negative : Bool) :
    (∃ z, n.value negative = .integer z) ∨ n.value negative = .float (n.double negative) := by
  by_cases hw : n.IsWhole
  · rw [value_of_isWhole negative hw, double, counted_of_isWhole hn h hw, decimal_of_isWhole hw,
      Json.wholeNumber]
    cases negative with
    | true =>
      rw [if_pos rfl]
      split
      · exact .inl ⟨_, rfl⟩
      · exact .inr rfl
    | false =>
      rw [if_neg Bool.false_ne_true]
      split
      · exact .inl ⟨_, rfl⟩
      · exact .inr rfl
  · exact .inr (value_of_not_isWhole negative hw)

theorem double_eq_ofInt (hn : n.Proper) (h : n.InRange) {negative : Bool} {z : Int}
    (hz : n.IsInteger negative z) : n.double negative = .ofInt z := by
  obtain ⟨hw, hvalue, hsign⟩ := hz
  have hparts : negative = decide (z < 0) ∧ z.natAbs = digitsValue n.whole := by
    cases negative with
    | true =>
      rw [if_pos rfl] at hvalue
      exact ⟨(decide_eq_true (by have := hsign rfl; omega)).symm, by omega⟩
    | false =>
      rw [if_neg Bool.false_ne_true] at hvalue
      exact ⟨(decide_eq_false (by omega)).symm, by omega⟩
  obtain ⟨hnegative, habs⟩ := hparts
  rw [double, counted_of_isWhole hn h hw, decimal_of_isWhole hw, Decimal.toBinary64_eq_round,
    Binary64.ofInt, habs, ← hnegative]
  simp [Decimal.units]

theorem inRange?_value (hn : n.Proper) (h : n.InRange) (negative : Bool) :
    Json.inRange? (n.value negative) = some (n.value negative) := by
  rcases n.value_cases hn h negative with ⟨z, hz⟩ | hfloat
  · rw [hz]
    rfl
  · obtain ⟨units, hu, hd⟩ := Decimal.toBinary64_of_lt_bound negative (counted_lt_bound hn h)
    rw [hfloat, double, hd]
    rfl

end Numeral

namespace Document.Json

/-- Whether no character that could belong to a number comes next. -/
def Ends (rest : List Char) : Prop :=
  ∀ c ∈ rest.head?, c.isDigit = false ∧ c ≠ '.' ∧ c ≠ 'e' ∧ c ≠ 'E'

variable {rest : List Char}

theorem readExponent_append {power : Option Power} (hp : ∀ p ∈ power, p.Proper)
    (hrest : Ends rest) :
    readExponent (Numeral.powerChars power ++ rest) = some (power.map Power.value, rest) := by
  cases power with
  | none =>
    cases rest with
    | nil => rfl
    | cons c cs =>
      obtain ⟨-, -, he, hE⟩ := hrest c rfl
      rw [Numeral.powerChars, List.nil_append, readExponent, if_neg (by simp [he, hE])]
      rfl
  | some p =>
    have hproper := hp p rfl
    have hdigits := splitDigits_append hproper.isDigit fun c hc => (hrest c hc).1
    rw [Numeral.powerChars, Power.chars, List.cons_append, readExponent, if_pos hproper.mark,
      List.append_assoc, hproper.splitSign_append]
    dsimp only
    rw [hdigits, if_neg hproper.ne_nil, Option.map_some, Power.value]
    simp only [decide_eq_true_eq]

theorem not_digit_of_mem_head?_powerChars {power : Option Power} (hp : ∀ p ∈ power, p.Proper)
    (hrest : Ends rest) :
    ∀ c ∈ (Numeral.powerChars power ++ rest).head?, c.isDigit = false ∧ c ≠ '.' := by
  cases power with
  | none => exact fun c hc => ⟨(hrest c hc).1, (hrest c hc).2.1⟩
  | some p =>
    rintro c ⟨⟩
    rcases (hp p rfl).mark with h | h <;> rw [h] <;> decide

theorem readFraction_append {n : Numeral} (hn : n.Proper) (hrest : Ends rest) :
    readFraction (Numeral.fractionChars n.fraction ++ (Numeral.powerChars n.power ++ rest))
      = some (n.fraction, Numeral.powerChars n.power ++ rest) := by
  have hhead := not_digit_of_mem_head?_powerChars hn.power hrest
  generalize Numeral.powerChars n.power ++ rest = s at hhead ⊢
  cases hf : n.fraction with
  | none =>
    rw [Numeral.fractionChars, List.nil_append, readFraction]
    rintro t rfl
    exact (hhead '.' rfl).2 rfl
  | some ds =>
    obtain ⟨hne, hdigits⟩ := hn.fraction ds hf
    have hsplit := splitDigits_append hdigits fun c hc => (hhead c hc).1
    rw [Numeral.fractionChars, List.cons_append, readFraction]
    dsimp only
    rw [hsplit, if_neg hne]

theorem readUnsigned_append {n : Numeral} (hn : n.Proper) (h : n.InRange) (negative : Bool)
    (hrest : Ends rest) :
    readUnsigned negative (n.chars ++ rest) = some (n.value negative, rest) := by
  have hhead : ∀ c ∈ (Numeral.fractionChars n.fraction
      ++ (Numeral.powerChars n.power ++ rest)).head?, c.isDigit = false :=
    Numeral.isDigit_head?_fractionChars n.fraction fun c hc =>
      (not_digit_of_mem_head?_powerChars hn.power hrest c hc).1
  have hwhole : ¬(n.whole = [] ∨ n.whole.head? = some '0' ∧ n.whole ≠ ['0']) := by
    rintro (hnil | ⟨hzero, hne⟩)
    · exact hn.ne_nil hnil
    · exact hne (hn.head hzero)
  rw [readUnsigned, Numeral.chars, List.append_assoc, List.append_assoc,
    splitDigits_append hn.isDigit hhead]
  dsimp only
  rw [if_neg hwhole, readFraction_append hn hrest]
  dsimp only
  rw [readExponent_append hn.power hrest]
  dsimp only
  rw [show inRange? (number negative n.whole n.fraction (n.power.map Power.value))
    = some (n.value negative) from n.inRange?_value hn h negative]
  rfl

theorem readNumber_append {n : Numeral} (hn : n.Proper) (h : n.InRange) (negative : Bool)
    (hrest : Ends rest) :
    readNumber (Binary64.sign negative ++ (n.chars ++ rest)) = some (n.value negative, rest) := by
  have hread := readUnsigned_append hn h negative hrest
  cases negative with
  | true => exact hread
  | false =>
    obtain ⟨d, ds, hds⟩ := List.exists_cons_of_ne_nil hn.ne_nil
    have hd := hn.isDigit d (by simp [hds])
    rw [← hread, show Binary64.sign false = [] from rfl, List.nil_append, Numeral.chars, hds]
    refine readNumber.eq_2 _ ?_
    rintro s ⟨⟩
    cases hd

end Document.Json

end RetryDelay
