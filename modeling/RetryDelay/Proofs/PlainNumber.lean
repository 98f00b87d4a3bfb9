import RetryDelay.Proofs.Exponent
import RetryDelay.Text.Blank

/-!
Numbers that are the whole of a plain text. An integer is a sign that may be left out and digits,
and it has to be in range. A double is an infinity or no number by name, in letters of either case,
or a numeral, where digits may be missing on one side of the point. The readers accept these texts
and no others.
-/

set_option autoImplicit false

namespace RetryDelay

namespace Text

def Trimmed (text core : List Char) : Prop :=
  ∃ l r, text = l ++ core ++ r ∧ (∀ c ∈ l, isBlank c = true) ∧ (∀ c ∈ r, isBlank c = true) ∧
    (∀ c ∈ core.head?, isBlank c = false) ∧ ∀ c ∈ core.getLast?, isBlank c = false

theorem isBlank_head?_dropWhile (s : List Char) :
    ∀ c ∈ (s.dropWhile isBlank).head?, isBlank c = false := by
  intro c hc
  have h := List.head?_dropWhile_not isBlank s
  rw [Option.mem_def.1 hc] at h
  exact h

theorem trim_eq_iff {text core : List Char} : trim text = core ↔ Trimmed text core := by
  constructor
  · rintro rfl
    let s := text.dropWhile isBlank
    have hs : s = trim text ++ (s.reverse.takeWhile isBlank).reverse := by
      rw [trim, trimRight, ← List.reverse_append, List.takeWhile_append_dropWhile,
        List.reverse_reverse]
    refine ⟨text.takeWhile isBlank, (s.reverse.takeWhile isBlank).reverse, ?_,
      fun c => List.mem_takeWhile_imp, fun c hc => ?_, fun c hc => ?_, fun c hc => ?_⟩
    · rw [List.append_assoc, ← hs, List.takeWhile_append_dropWhile]
    · exact List.mem_takeWhile_imp (List.mem_reverse.1 hc)
    · refine isBlank_head?_dropWhile text c ?_
      show c ∈ s.head?
      rw [hs, List.head?_append, Option.mem_def.1 hc]
      rfl
    · rw [trim, trimRight, List.getLast?_reverse] at hc
      exact isBlank_head?_dropWhile _ c hc
  · rintro ⟨l, r, rfl, hl, hr, hhead, hlast⟩
    exact trim_append hl hr hhead hlast

theorem exists_isSign (s : List Char) : ∃ sign, IsSign sign ∧ s = sign ++ (splitSign s).2 ∧
    (splitSign s).1 = decide (sign = ['-']) := by
  unfold splitSign
  split
  · exact ⟨['-'], .inr (.inr rfl), rfl, rfl⟩
  · exact ⟨['+'], .inr (.inl rfl), rfl, rfl⟩
  · exact ⟨[], .inl rfl, rfl, rfl⟩

/-- An integer in range as it is written: a sign that may be left out, and at least one digit. -/
def WritesInt64 (s : List Char) (z : Int64) : Prop :=
  ∃ sign ds, s = sign ++ ds ∧ IsSign sign ∧ ds ≠ [] ∧ (∀ c ∈ ds, c.isDigit = true) ∧
    z.toInt = if sign = ['-'] then -(digitsValue ds : Int) else digitsValue ds

theorem readInt64?_eq_some_iff {s : List Char} {z : Int64} :
    readInt64? s = some z ↔ WritesInt64 s z := by
  constructor
  · intro h
    obtain ⟨sign, hsign, hs, hnegative⟩ := exists_isSign s
    simp only [readInt64?, readInt?, readDigits?, hnegative, Option.bind_eq_some_iff,
      Option.map_eq_some_iff, decide_eq_true_eq] at h
    obtain ⟨n, ⟨v, hv, rfl⟩, hz⟩ := h
    split at hv
    · next hds =>
      rw [← Option.some.inj hv] at hz
      exact ⟨sign, _, hs, hsign, hds.1, List.all_eq_true.1 hds.2, toInt64?_eq_some_iff.1 hz⟩
    · cases hv
  · rintro ⟨sign, ds, rfl, hsign, hne, hds, hz⟩
    have hsplit : splitSign (sign ++ ds) = (decide (sign = ['-']), ds) :=
      hsign.splitSign_append fun c hc => not_isSign_of_isDigit (hds c (List.mem_of_mem_head? hc))
    simp only [readInt64?, readInt?, readDigits?, hsplit, decide_eq_true_eq]
    rw [if_pos ⟨hne, List.all_eq_true.2 hds⟩]
    exact toInt64?_eq_some_iff.2 hz

theorem WritesInt64.iff_eq {s : List Char} {z z' : Int64} (h : WritesInt64 s z) :
    WritesInt64 s z' ↔ z' = z := by
  rw [← readInt64?_eq_some_iff, readInt64?_eq_some_iff.2 h, Option.some_inj, eq_comm]

end Text

open Text

namespace Decimal

theorem toBinary64_of_zero {d : Decimal} (h : d.digits = 0) (negative : Bool) :
    d.toBinary64 negative = .finite negative 0 Binary64.representable_zero := by
  simp [toBinary64, isHuge, isTiny, h]

theorem toBinary64_of_large {d : Decimal} (h : d.digits ≠ 0) (he : 310 ≤ d.exponent)
    (negative : Bool) : d.toBinary64 negative = .infinity negative := by
  simp [toBinary64, isHuge, h, he]

theorem toBinary64_of_small {d : Decimal} (h : d.exponent + d.digits.log2 < -400)
    (negative : Bool) :
    d.toBinary64 negative = .finite negative 0 Binary64.representable_zero := by
  have he : ¬310 ≤ d.exponent := by omega
  simp [toBinary64, isHuge, isTiny, he, h]

end Decimal

namespace Numeral

/-- Digits, with at least one of them on some side of the point. -/
structure Plain (n : Numeral) : Prop where
  ne_nil : ¬(n.whole = [] ∧ n.fraction.getD [] = [])
  isDigit : ∀ c ∈ n.whole, c.isDigit = true
  fraction : ∀ ds ∈ n.fraction, ∀ c ∈ ds, c.isDigit = true
  power : ∀ p ∈ n.power, p.Proper

def reading (n : Numeral) : Decimal :=
  .ofParts n.whole (n.fraction.getD []) ((n.power.map Power.counted).getD 0)

theorem Proper.plain {n : Numeral} (h : n.Proper) : n.Plain where
  ne_nil := fun hnil => h.ne_nil hnil.1
  isDigit := h.isDigit
  fraction := fun ds hds => (h.fraction ds hds).2
  power := h.power

theorem Plain.isDigit_of_mem_append {n : Numeral} (h : n.Plain) :
    ∀ c ∈ n.whole ++ n.fraction.getD [], c.isDigit = true := by
  intro c hc
  rcases List.mem_append.1 hc with hc | hc
  · exact h.isDigit c hc
  · cases hf : n.fraction with
    | none =>
      rw [hf] at hc
      cases hc
    | some ds =>
      rw [hf] at hc
      exact h.fraction ds hf c hc

theorem reading_eq_decimal {n : Numeral} (h : ∀ p ∈ n.power, digitsValue p.digits < 65536) :
    n.reading = n.decimal := by
  rw [reading, decimal, exponent]
  cases hp : n.power with
  | none => rfl
  | some p =>
    rw [Option.map_some, Option.map_some, p.counted_eq_value (h p hp)]

/-- As long as a numeral is not absurdly long, the digits of an exponent that do not count make no
difference: it is out of the range of doubles either way. -/
theorem toBinary64_reading {n : Numeral} (h : n.Plain)
    (hlength : (n.whole ++ n.fraction.getD []).length ≤ 16000) (negative : Bool) :
    n.reading.toBinary64 negative = n.decimal.toBinary64 negative := by
  by_cases hm : ∀ p ∈ n.power, digitsValue p.digits < 65536
  · rw [reading_eq_decimal hm]
  · obtain ⟨p, hp, hlarge⟩ : ∃ p ∈ n.power, 65536 ≤ digitsValue p.digits := by
      simpa only [not_forall, Nat.not_lt, exists_prop] using hm
    have hsize := le_exponentSize hlarge
    have hfraction : (n.fraction.getD []).length ≤ 16000 := by
      rw [List.length_append] at hlength
      omega
    rw [reading, decimal, exponent, Option.mem_def.1 hp, Option.map_some, Option.map_some,
      Option.getD_some, Option.getD_some, Decimal.ofParts, Decimal.ofParts]
    by_cases h0 : digitsValue (n.whole ++ n.fraction.getD []) = 0
    · rw [Decimal.toBinary64_of_zero h0, Decimal.toBinary64_of_zero h0]
    by_cases hs : p.sign = ['-']
    · have hlog := Binary64.log2_digitsValue_lt h.isDigit_of_mem_append fun hnil =>
        h.ne_nil (List.append_eq_nil_iff.1 hnil)
      rw [Decimal.toBinary64_of_small, Decimal.toBinary64_of_small]
      all_goals simp only [Power.counted, Power.value, signedExponent, hs, decide_true, if_true]
      all_goals omega
    · rw [Decimal.toBinary64_of_large h0, Decimal.toBinary64_of_large h0]
      all_goals simp only [Power.counted, Power.value, signedExponent, hs, decide_false, if_false,
        Bool.false_eq_true]
      all_goals omega

end Numeral

namespace Text

theorem isDigit_of_mem_splitDigits {s : List Char} :
    ∀ c ∈ (splitDigits s).1, c.isDigit = true := fun _ => List.mem_takeWhile_imp

theorem append_splitDigits (s : List Char) : (splitDigits s).1 ++ (splitDigits s).2 = s :=
  List.takeWhile_append_dropWhile

theorem splitFraction_sound (s : List Char) : ∃ fraction : Option (List Char),
    s = Numeral.fractionChars fraction ++ (splitFraction s).2 ∧
      (splitFraction s).1 = fraction.getD [] ∧ ∀ ds ∈ fraction, ∀ c ∈ ds, c.isDigit = true := by
  unfold splitFraction
  split
  · next s =>
    refine ⟨some (splitDigits s).1, ?_, rfl, ?_⟩
    · rw [Numeral.fractionChars, List.cons_append, append_splitDigits]
    · rintro _ ⟨⟩
      exact isDigit_of_mem_splitDigits
  · exact ⟨none, rfl, rfl, fun ds hds => absurd hds (Option.not_mem_none ds)⟩

theorem readExponent?_sound {s : List Char} {e : Int} (h : readExponent? s = some e) :
    ∃ power : Option Power, s = Numeral.powerChars power ∧ (∀ p ∈ power, p.Proper) ∧
      e = (power.map Power.counted).getD 0 := by
  unfold readExponent? at h
  split at h
  · exact ⟨none, rfl, nofun, (Option.some.inj h).symm⟩
  · next c s =>
    obtain ⟨sign, hsign, hs, hnegative⟩ := exists_isSign s
    dsimp only at h
    split at h
    · next hp =>
      refine ⟨some ⟨c, sign, (splitSign s).2⟩, ?_, ?_, ?_⟩
      · rw [Numeral.powerChars, Power.chars, ← hs]
      · rintro _ ⟨⟩
        exact ⟨hp.1, hsign, hp.2.1, List.all_eq_true.1 hp.2.2⟩
      · rw [← Option.some.inj h, hnegative]
        rfl
    · cases h

theorem readExponent?_powerChars {power : Option Power} (h : ∀ p ∈ power, p.Proper) :
    readExponent? (Numeral.powerChars power) = some ((power.map Power.counted).getD 0) := by
  cases power with
  | none => rfl
  | some p =>
    have hp := h p rfl
    have hsign := hp.splitSign_append []
    rw [List.append_nil] at hsign
    rw [Numeral.powerChars, Power.chars, readExponent?, hsign]
    exact if_pos ⟨hp.mark, hp.ne_nil, List.all_eq_true.2 hp.isDigit⟩

theorem splitFraction_append {fraction : Option (List Char)} {s : List Char}
    (h : ∀ ds ∈ fraction, ∀ c ∈ ds, c.isDigit = true)
    (hs : ∀ c ∈ s.head?, c.isDigit = false ∧ c ≠ '.') :
    splitFraction (Numeral.fractionChars fraction ++ s) = (fraction.getD [], s) := by
  cases fraction with
  | some ds => exact splitDigits_append (h ds rfl) fun c hc => (hs c hc).1
  | none =>
    rw [Numeral.fractionChars, List.nil_append, splitFraction]
    · rfl
    · rintro t rfl
      exact (hs '.' rfl).2 rfl

theorem readDecimal?_eq_some_iff {s : List Char} {d : Decimal} : readDecimal? s = some d ↔
    ∃ n : Numeral, n.Plain ∧ s = n.chars ∧ d = n.reading := by
  constructor
  · intro h
    unfold readDecimal? at h
    dsimp only at h
    obtain ⟨fraction, hs, hvalue, hdigits⟩ := splitFraction_sound (splitDigits s).2
    split at h
    · cases h
    · next hne =>
      obtain ⟨e, he, rfl⟩ := Option.map_eq_some_iff.1 h
      obtain ⟨power, hpower, hproper, rfl⟩ := readExponent?_sound he
      refine ⟨⟨(splitDigits s).1, fraction, power⟩, ⟨?_, ?_, hdigits, hproper⟩, ?_, ?_⟩
      · rw [← hvalue]; exact hne
      · exact isDigit_of_mem_splitDigits
      · rw [Numeral.chars, ← hpower, ← hs, append_splitDigits]
      · rw [Numeral.reading, ← hvalue]
  · rintro ⟨n, hn, rfl, rfl⟩
    have hpower : ∀ c ∈ (Numeral.powerChars n.power).head?, c.isDigit = false ∧ c ≠ '.' := by
      intro c hc
      rcases Numeral.e_of_mem_head?_powerChars hn.power c hc with rfl | rfl <;> decide
    rw [readDecimal?, Numeral.chars, splitDigits_append hn.isDigit
      (Numeral.isDigit_head?_fractionChars n.fraction fun c hc => (hpower c hc).1)]
    dsimp only
    rw [splitFraction_append hn.fraction hpower]
    dsimp only
    rw [if_neg hn.ne_nil, readExponent?_powerChars hn.power]
    rfl

/-- A double as it is written after its sign, which makes no difference to `nan`. -/
inductive WritesUnsigned (negative : Bool) : List Char → Binary64 → Prop
  | inf {s : List Char} (h : s.map Char.toLower = ['i', 'n', 'f'] ∨
      s.map Char.toLower = ['i', 'n', 'f', 'i', 'n', 'i', 't', 'y']) :
      WritesUnsigned negative s (.infinity negative)
  | nan {s : List Char} (h : s.map Char.toLower = ['n', 'a', 'n']) : WritesUnsigned negative s .nan
  | numeral {n : Numeral} (h : n.Plain) :
      WritesUnsigned negative n.chars (n.reading.toBinary64 negative)

def WritesBinary64 (s : List Char) (x : Binary64) : Prop :=
  ∃ sign rest, s = sign ++ rest ∧ IsSign sign ∧ WritesUnsigned (decide (sign = ['-'])) rest x

theorem exists_cons_of_plain {n : Numeral} (h : n.Plain) :
    ∃ c s, n.chars = c :: s ∧ (c.isDigit = true ∨ c = '.') := by
  cases hw : n.whole with
  | cons c ds =>
    exact ⟨c, _, by rw [Numeral.chars, hw]; rfl, .inl (h.isDigit c (by simp [hw]))⟩
  | nil =>
    cases hf : n.fraction with
    | none => exact absurd ⟨hw, by rw [hf]; rfl⟩ h.ne_nil
    | some ds => exact ⟨'.', _, by rw [Numeral.chars, hw, hf]; rfl, .inr rfl⟩

theorem toLower_of_isDigit {c : Char} (h : c.isDigit = true) : c.toLower = c := by
  simp only [Char.isDigit, Bool.and_eq_true, decide_eq_true_eq, ge_iff_le,
    UInt32.le_iff_toNat_le] at h
  refine dif_neg fun hupper => ?_
  exact absurd (Nat.le_trans (UInt32.le_iff_toNat_le.1 hupper.1) h.2) (by decide)

theorem toLower_ne {c d : Char} (hd : d = 'i' ∨ d = 'n')
    (hc : c.isDigit = true ∨ c = '.' ∨ c = '-' ∨ c = '+') : c.toLower ≠ d := by
  rcases hc with hc | rfl | rfl | rfl
  · rw [toLower_of_isDigit hc]
    rintro rfl
    rcases hd with rfl | rfl <;> cases hc
  all_goals rcases hd with rfl | rfl <;> decide

theorem toLower_ne_of_plain {n : Numeral} (h : n.Plain) {d : Char} (hd : d = 'i' ∨ d = 'n')
    (t : List Char) : n.chars.map Char.toLower ≠ d :: t := by
  obtain ⟨c, s, hs, hc⟩ := exists_cons_of_plain h
  rw [hs, List.map_cons]
  exact fun heq => toLower_ne hd (hc.imp_right .inl) (List.cons.inj heq).1

theorem not_isSign_of_toLower {s t : List Char} {d : Char} (hd : d = 'i' ∨ d = 'n')
    (h : s.map Char.toLower = d :: t) : ∀ c ∈ s.head?, c ≠ '-' ∧ c ≠ '+' := by
  obtain ⟨c, cs, rfl, hc, -⟩ := List.map_eq_cons_iff.1 h
  rintro _ ⟨⟩
  exact ⟨fun hminus => toLower_ne hd (.inr (.inr (.inl hminus))) hc,
    fun hplus => toLower_ne hd (.inr (.inr (.inr hplus))) hc⟩

theorem WritesUnsigned.not_isSign {negative : Bool} {s : List Char} {x : Binary64}
    (h : WritesUnsigned negative s x) : ∀ c ∈ s.head?, c ≠ '-' ∧ c ≠ '+' := by
  cases h with
  | inf h => exact h.elim (not_isSign_of_toLower (.inl rfl)) (not_isSign_of_toLower (.inl rfl))
  | nan h => exact not_isSign_of_toLower (.inr rfl) h
  | numeral hn =>
    obtain ⟨c, s, hs, hc⟩ := exists_cons_of_plain hn
    rw [hs]
    rintro _ ⟨⟩
    rcases hc with hc | rfl
    · exact not_isSign_of_isDigit hc
    · decide

theorem readBinary64?_eq_some_iff {s : List Char} {x : Binary64} :
    readBinary64? s = some x ↔ WritesBinary64 s x := by
  constructor
  · intro h
    obtain ⟨sign, hsign, hs, hnegative⟩ := exists_isSign s
    refine ⟨sign, (splitSign s).2, hs, hsign, ?_⟩
    rw [← hnegative]
    unfold readBinary64? at h
    dsimp only at h
    split at h
    · next hinf => cases h; exact .inf hinf
    · split at h
      · next hnan => cases h; exact .nan hnan
      · obtain ⟨d, hd, rfl⟩ := Option.map_eq_some_iff.1 h
        obtain ⟨n, hn, hchars, rfl⟩ := readDecimal?_eq_some_iff.1 hd
        rw [hchars]
        exact .numeral hn
  · rintro ⟨sign, rest, rfl, hsign, h⟩
    rw [readBinary64?, hsign.splitSign_append h.not_isSign]
    dsimp only
    cases h with
    | inf hinf => rw [if_pos hinf]
    | nan hnan => rw [hnan]; rfl
    | numeral hn =>
      have hinf := toLower_ne_of_plain hn (.inl rfl)
      have hnan := toLower_ne_of_plain hn (.inr rfl)
      rw [if_neg (not_or.2 ⟨hinf _, hinf _⟩), if_neg (hnan _),
        readDecimal?_eq_some_iff.2 ⟨_, hn, rfl, rfl⟩]
      rfl

theorem WritesBinary64.iff_eq {s : List Char} {x x' : Binary64} (h : WritesBinary64 s x) :
    WritesBinary64 s x' ↔ x' = x := by
  rw [← readBinary64?_eq_some_iff, readBinary64?_eq_some_iff.2 h, Option.some_inj, eq_comm]

theorem trimmed_append {l s r : List Char} (hl : ∀ c ∈ l, isBlank c = true)
    (hr : ∀ c ∈ r, isBlank c = true) (hs : ∀ c ∈ s, isBlank c = false) :
    Trimmed (l ++ s ++ r) s :=
  ⟨l, r, rfl, hl, hr, fun c hc => hs c (List.mem_of_mem_head? hc),
    fun c hc => hs c (List.mem_of_mem_getLast? hc)⟩

theorem IsSign.isBlank_eq_false {sign : List Char} (h : IsSign sign) :
    ∀ c ∈ sign, isBlank c = false := by
  rcases h with rfl | rfl | rfl <;> simp [isBlank]

/-- The digits of an integer in range, after any number of zeros and its sign, which is a plus or
nothing for one that is not negative. -/
theorem writesInt64_digits {z : Int64} {sign : List Char}
    (h : if z.toInt < 0 then sign = ['-'] else sign = [] ∨ sign = ['+']) (k : Nat) :
    WritesInt64 (sign ++ (List.replicate k '0' ++ digits z.toInt.natAbs)) z := by
  refine ⟨sign, _, rfl, ?_, ?_, fun c hc => ?_, ?_⟩
  · split at h
    · exact .inr (.inr h)
    · exact h.imp_right .inl
  · exact fun hnil => digits_ne_nil _ (List.append_eq_nil_iff.1 hnil).2
  · rcases List.mem_append.1 hc with hc | hc
    · rw [(List.mem_replicate.1 hc).2]
      rfl
    · exact isDigit_of_mem_digits hc
  · rw [digitsValue_zeros_append, digitsValue_digits]
    split at h
    · rw [if_pos h]
      omega
    · have hsign : sign ≠ ['-'] := by rcases h with rfl | rfl <;> decide
      rw [if_neg hsign]
      omega

theorem WritesInt64.isBlank_eq_false {s : List Char} {z : Int64} (h : WritesInt64 s z) :
    ∀ c ∈ s, isBlank c = false := by
  obtain ⟨sign, ds, rfl, hsign, -, hds, -⟩ := h
  intro c hc
  exact (List.mem_append.1 hc).elim (hsign.isBlank_eq_false c) fun hc =>
    isBlank_eq_false_of_isDigit (hds c hc)

theorem isBlank_eq_false_of_power {power : Option Power} (h : ∀ p ∈ power, p.Proper) :
    ∀ c ∈ Numeral.powerChars power, isBlank c = false := by
  cases power with
  | none => nofun
  | some p =>
    have hp := h p rfl
    intro c hc
    rcases List.mem_cons.1 hc with rfl | hc
    · rcases hp.mark with hmark | hmark <;> rw [hmark] <;> decide
    · exact (List.mem_append.1 hc).elim (IsSign.isBlank_eq_false hp.sign c) fun hc =>
        isBlank_eq_false_of_isDigit (hp.isDigit c hc)

theorem isBlank_eq_false_of_plain {n : Numeral} (h : n.Plain) :
    ∀ c ∈ n.chars, isBlank c = false := by
  intro c hc
  rcases List.mem_append.1 hc with hc | hc
  · exact isBlank_eq_false_of_isDigit (h.isDigit c hc)
  rcases List.mem_append.1 hc with hc | hc
  · cases hf : n.fraction with
    | none =>
      rw [hf] at hc
      cases hc
    | some ds =>
      rw [hf] at hc
      rcases List.mem_cons.1 hc with rfl | hc
      · decide
      · exact isBlank_eq_false_of_isDigit (h.fraction ds hf c hc)
  · exact isBlank_eq_false_of_power h.power c hc

theorem toLower_of_isBlank {c : Char} (h : isBlank c = true) : c.toLower = c := by
  refine dif_neg fun hupper => ?_
  have hlow : 65 ≤ c.toNat := UInt32.le_iff_toNat_le.1 hupper.1
  have hhigh : c.toNat ≤ 90 := UInt32.le_iff_toNat_le.1 hupper.2
  simp only [isBlank, Bool.or_eq_true, decide_eq_true_eq, beq_iff_eq] at h
  omega

theorem isBlank_eq_false_of_toLower {s name : List Char} (h : s.map Char.toLower = name)
    (hname : ∀ c ∈ name, isBlank c = false) : ∀ c ∈ s, isBlank c = false := by
  intro c hc
  by_contra hblank
  have hlower := toLower_of_isBlank (Bool.eq_true_of_not_eq_false hblank)
  have hmem : c ∈ name := by
    rw [← h, ← hlower]
    exact List.mem_map_of_mem hc
  exact hblank (hname c hmem)

theorem WritesUnsigned.isBlank_eq_false {negative : Bool} {s : List Char} {x : Binary64}
    (h : WritesUnsigned negative s x) : ∀ c ∈ s, isBlank c = false := by
  cases h with
  | inf h =>
    exact h.elim (isBlank_eq_false_of_toLower · (by decide))
      (isBlank_eq_false_of_toLower · (by decide))
  | nan h => exact isBlank_eq_false_of_toLower h (by decide)
  | numeral hn => exact isBlank_eq_false_of_plain hn

theorem WritesBinary64.isBlank_eq_false {s : List Char} {x : Binary64} (h : WritesBinary64 s x) :
    ∀ c ∈ s, isBlank c = false := by
  obtain ⟨sign, rest, rfl, hsign, h⟩ := h
  intro c hc
  exact (List.mem_append.1 hc).elim (hsign.isBlank_eq_false c) (h.isBlank_eq_false c)

theorem isSign_sign (negative : Bool) : IsSign (Binary64.sign negative) ∧
    decide (Binary64.sign negative = ['-']) = negative := by
  cases negative
  · exact ⟨.inl rfl, rfl⟩
  · exact ⟨.inr (.inr rfl), rfl⟩

theorem writesBinary64_chars (x : Binary64) : WritesBinary64 (x.chars .json) x := by
  cases x with
  | nan => exact ⟨[], _, rfl, .inl rfl, .nan rfl⟩
  | infinity negative =>
    obtain ⟨hsign, hnegative⟩ := isSign_sign negative
    exact ⟨Binary64.sign negative, _, rfl, hsign, hnegative.symm ▸ .inf (.inl rfl)⟩
  | finite negative units h =>
    obtain ⟨hsign, hnegative⟩ := isSign_sign negative
    let n := Binary64.Layout.json.numeral (Binary64.shortest Binary64.Layout.json.tie units)
    have hn : n.Plain := (Binary64.Layout.proper_numeral Binary64.Layout.pointed_json
      (Binary64.proper_shortest _ units)).plain
    have hreading : n.reading = n.decimal :=
      Numeral.reading_eq_decimal (Binary64.Layout.digitsValue_power_lt .json h)
    have hdouble : n.reading.toBinary64 negative = .finite negative units h := by
      rw [hreading]
      exact Binary64.Layout.toBinary64_numeral Binary64.Layout.pointed_json negative h
    refine ⟨Binary64.sign negative, n.chars, ?_, hsign, ?_⟩
    · rw [Binary64.chars, ← Binary64.Layout.chars_numeral Binary64.Layout.pointed_json]
    · rw [hnegative, ← hdouble]
      exact .numeral hn

end Text

end RetryDelay
