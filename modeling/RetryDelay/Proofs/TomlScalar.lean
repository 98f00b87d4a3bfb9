import RetryDelay.Options.Document
import RetryDelay.Proofs.Exponent

set_option autoImplicit false

namespace RetryDelay

open Text

namespace Document.Toml

theorem ungroup_digits {ds : List Char} (hne : ds ≠ []) (h : ∀ c ∈ ds, c.isDigit = true) :
    ungroup Char.isDigit ds = some ds := by
  induction ds with
  | nil => exact absurd rfl hne
  | cons c ds ih =>
    obtain ⟨hc, hds⟩ := List.forall_mem_cons.1 h
    cases ds with
    | nil => rw [ungroup, if_pos hc]
    | cons d ds =>
      have hd : d ≠ '_' := by
        rintro rfl
        cases (List.forall_mem_cons.1 hds).1
      rw [ungroup, if_pos hc, ih nofun hds]
      · rfl
      · nofun
      · exact fun s h => hd (List.cons.inj h).1

theorem isGrouped_of_isDigit {c : Char} (h : c.isDigit = true) : isGrouped c = true := by
  rw [isGrouped, h]
  rfl

theorem split_grouped {ds t : List Char} (hds : ∀ c ∈ ds, c.isDigit = true)
    (ht : ∀ c ∈ t.head?, isGrouped c = false) :
    (ds ++ t).takeWhile isGrouped = ds ∧ (ds ++ t).dropWhile isGrouped = t := by
  have hgrouped : ∀ c ∈ ds, isGrouped c = true := fun c hc => isGrouped_of_isDigit (hds c hc)
  rw [List.takeWhile_append_of_pos hgrouped, List.dropWhile_append_of_pos hgrouped]
  cases t with
  | nil => simp
  | cons c t => simp [ht c rfl]

theorem readWhole?_of_proper {n : Numeral} (hn : n.Proper) :
    readWhole? n.whole = some n.whole := by
  rw [readWhole?, ungroup_digits hn.ne_nil hn.isDigit]
  split
  next h => exact h.symm
  next hne h =>
    have hhead := hn.head (by rw [Option.some_inj.1 h]; rfl)
    rw [hhead] at h
    cases h
    exact absurd rfl hne
  next => rfl

/-- Exponents that are read as they are written. -/
def Moderate (n : Numeral) : Prop := ∀ p ∈ n.power, digitsValue p.digits < 65536

theorem readExponent?_power {p : Power} (hp : p.Proper) (h : digitsValue p.digits < 65536) :
    readExponent? (p.sign ++ p.digits) = some p.value := by
  have hsign := hp.splitSign_append []
  rw [List.append_nil] at hsign
  rw [readExponent?, hsign]
  dsimp only
  rw [ungroup_digits hp.ne_nil hp.isDigit, Option.map_some]
  exact congrArg some (p.counted_eq_value h)

theorem readRest?_powerChars {n : Numeral} (hn : n.Proper) (hm : Moderate n) (negative : Bool)
    (whole fraction : List Char) :
    readRest? negative whole fraction (Numeral.powerChars n.power)
      = readFloat? negative whole fraction n.exponent := by
  unfold Numeral.exponent
  cases hp : n.power with
  | none => rfl
  | some p =>
    have hproper := hn.power p hp
    rw [Numeral.powerChars, Power.chars, readRest?, if_pos hproper.mark,
      readExponent?_power hproper (hm p hp)]
    rfl

theorem not_grouped_of_mem_head?_powerChars {n : Numeral} (hn : n.Proper) :
    ∀ c ∈ (Numeral.powerChars n.power).head?, isGrouped c = false ∧ c ≠ '.' := by
  intro c hc
  rcases Numeral.e_of_mem_head?_powerChars hn.power c hc with rfl | rfl <;> decide

theorem readNumber?_chars {n : Numeral} (hn : n.Proper) (hm : Moderate n) (hw : ¬n.IsWhole)
    (negative : Bool) :
    readNumber? negative n.chars = readFloat? negative n.whole (n.fraction.getD []) n.exponent := by
  have hpower := not_grouped_of_mem_head?_powerChars hn
  cases hf : n.fraction with
  | some ds =>
    obtain ⟨hne, hds⟩ := hn.fraction ds hf
    obtain ⟨hwhole, hrest⟩ := split_grouped (t := '.' :: (ds ++ Numeral.powerChars n.power))
      hn.isDigit (by rintro c ⟨⟩; rfl)
    obtain ⟨hfraction, hrest'⟩ := split_grouped hds fun c hc => (hpower c hc).1
    rw [Numeral.chars, hf, Numeral.fractionChars, List.cons_append, readNumber?, hwhole, hrest,
      readWhole?_of_proper hn]
    simp only
    rw [hfraction, hrest', ungroup_digits hne hds]
    exact readRest?_powerChars hn hm negative n.whole ds
  | none =>
    obtain ⟨hwhole, hrest⟩ := split_grouped hn.isDigit fun c hc => (hpower c hc).1
    obtain ⟨c, t, ht⟩ : ∃ c t, Numeral.powerChars n.power = c :: t := by
      cases hp : n.power with
      | none => exact absurd ⟨hf, hp⟩ hw
      | some p => exact ⟨_, _, rfl⟩
    rw [Numeral.chars, hf, Numeral.fractionChars, List.nil_append, readNumber?, hwhole, hrest,
      readWhole?_of_proper hn, ht]
    have hpoint := (hpower c (by rw [ht]; rfl)).2
    rw [← readRest?_powerChars hn hm, ht]
    split
    next h => cases h
    next h => cases h
    next h => exact absurd (List.cons.inj h).1 hpoint
    next h _ _ =>
      cases h
      rfl

theorem readNumber?_of_isWhole {n : Numeral} (hn : n.Proper) (hw : n.IsWhole) (negative : Bool) :
    readNumber? negative n.chars = readInteger? negative n.whole := by
  have hchars : n.chars = n.whole ++ [] := by
    rw [Numeral.chars, hw.1, hw.2]
    rfl
  obtain ⟨hwhole, hrest⟩ := split_grouped (t := []) hn.isDigit (by simp)
  rw [readNumber?, hchars, hwhole, hrest, readWhole?_of_proper hn]

theorem head?_chars_of_zero {n : Numeral} (hn : n.Proper) {s : List Char} (h : n.chars = '0' :: s) :
    ∀ c ∈ s.head?, c ∉ ['x', 'o', 'b'] := by
  have hwhole : n.whole = ['0'] := by
    refine hn.head ?_
    rw [Numeral.chars] at h
    obtain ⟨c, cs, hcs⟩ := List.exists_cons_of_ne_nil hn.ne_nil
    rw [hcs, List.cons_append] at h
    rw [hcs, (List.cons.inj h).1]
    rfl
  rw [Numeral.chars, hwhole] at h
  have hs : s = Numeral.fractionChars n.fraction ++ Numeral.powerChars n.power :=
    (List.cons.inj h).2.symm
  rw [hs]
  cases n.fraction with
  | some ds =>
    rintro c ⟨⟩
    decide
  | none =>
    cases hp : n.power with
    | none => rintro c ⟨⟩
    | some p =>
      rintro c ⟨⟩
      rcases (hn.power p hp).mark with hmark | hmark <;> rw [hmark] <;> decide

theorem readScalar?_chars {n : Numeral} (hn : n.Proper) (negative : Bool) :
    readScalar? (Binary64.sign negative ++ n.chars) = readNumber? negative n.chars := by
  obtain ⟨c, s, hs, hc⟩ : ∃ c s, n.chars = c :: s ∧ c.isDigit = true := by
    obtain ⟨c, cs, hcs⟩ := List.exists_cons_of_ne_nil hn.ne_nil
    exact ⟨c, _, by rw [Numeral.chars, hcs, List.cons_append], hn.isDigit c (by simp [hcs])⟩
  have hne {d : Char} (hd : d ∈ ['t', 'f', 'i', 'n', '-', '+']) : c ≠ d := by
    have hall : ∀ d ∈ ['t', 'f', 'i', 'n', '-', '+'], ¬d.isDigit = true := by decide
    rintro rfl
    exact hall c hd hc
  have hinf : c :: s ≠ ['i', 'n', 'f'] := fun h => hne (by decide) (List.cons.inj h).1
  have hnan : c :: s ≠ ['n', 'a', 'n'] := fun h => hne (by decide) (List.cons.inj h).1
  have hbase {d : Char} {t : List Char} (hd : d ∈ ['x', 'o', 'b']) : c :: s ≠ '0' :: d :: t :=
    fun h => head?_chars_of_zero hn (hs.trans h) d rfl hd
  rw [hs]
  cases negative with
  | true =>
    have hsplit : splitSign ('-' :: c :: s) = (true, c :: s) := rfl
    rw [Binary64.sign, if_pos rfl, List.singleton_append, readScalar?, hsplit]
    · dsimp only
      rw [if_neg hinf, if_neg hnan]
    all_goals simp
  | false =>
    have hsplit : splitSign (c :: s) = (false, c :: s) := by
      rw [splitSign]
      · exact fun _ h => hne (by decide) (List.cons.inj h).1
      · exact fun _ h => hne (by decide) (List.cons.inj h).1
    rw [Binary64.sign, if_neg Bool.false_ne_true, List.nil_append, readScalar?, hsplit]
    · dsimp only
      rw [if_neg hinf, if_neg hnan]
    · exact fun h => hne (by decide) (List.cons.inj h).1
    · exact fun h => hne (by decide) (List.cons.inj h).1
    all_goals exact fun _ => hbase (by decide)

theorem readScalar?_intChars {z : Int} (hlow : -2 ^ 63 ≤ z) (hhigh : z < 2 ^ 63) :
    readScalar? (Options.intChars z) = some (.integer z) := by
  have hn := Numeral.proper_ofNat z.natAbs
  have hz : (if decide (z < 0) then -(z.natAbs : Int) else z.natAbs) = z := by
    split
    next h => have := of_decide_eq_true h; omega
    next h => have := of_decide_eq_false (Bool.eq_false_iff.2 h); omega
  have hword : (toInt64? z).isSome := by
    rw [toInt64?, if_pos ⟨hlow, hhigh⟩]
    rfl
  rw [Options.intChars, ← Numeral.chars_ofNat, readScalar?_chars hn,
    readNumber?_of_isWhole hn ⟨rfl, rfl⟩, readInteger?, Numeral.digitsValue_whole_ofNat]
  simp only [hz, hword, if_true]

theorem readScalar?_finite {l : Binary64.Layout} (hl : l.Pointed) (negative : Bool) {units : Nat}
    (h : Binary64.Representable units) :
    readScalar? ((Binary64.finite negative units h).chars l)
      = some (.float (.finite negative units h)) := by
  have hn := Binary64.Layout.proper_numeral hl (Binary64.proper_shortest l.tie units)
  have hread := readNumber?_chars hn (Binary64.Layout.digitsValue_power_lt l h)
    (Binary64.Layout.not_isWhole_numeral l _) negative
  have hdouble := Binary64.Layout.toBinary64_numeral hl negative h
  rw [Numeral.decimal] at hdouble
  rw [Binary64.chars, ← Binary64.Layout.chars_numeral hl, readScalar?_chars hn, hread, readFloat?,
    hdouble]
  rfl

end Document.Toml

end RetryDelay
