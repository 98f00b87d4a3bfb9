import Mathlib.Data.List.TakeWhile
import RetryDelay.Document.Scalar
import RetryDelay.Proofs.Decimal

set_option autoImplicit false

namespace RetryDelay

namespace Text

theorem digits_of_ten_le {n : Nat} (h : 10 ≤ n) :
    digits n = digits (n / 10) ++ [Nat.digitChar (n % 10)] :=
  Nat.toDigits_of_base_le (by decide) h

theorem length_digits_le {n k : Nat} (hk : 0 < k) (h : n < 10 ^ k) : (digits n).length ≤ k :=
  (Nat.length_toDigits_le_iff (by decide) hk).2 h

theorem head?_digits_ne {n : Nat} (h : n ≠ 0) : (digits n).head? ≠ some '0' := by
  induction n using Nat.strongRecOn with
  | ind n ih =>
    rcases Nat.lt_or_ge n 10 with hlt | hge
    · rw [digits, Nat.toDigits_of_lt_base hlt]
      have hchar : ∀ m < 10, m ≠ 0 → [Nat.digitChar m].head? ≠ some '0' := by decide
      exact hchar n hlt h
    · rw [digits_of_ten_le hge, List.head?_append_of_ne_nil _ (digits_ne_nil _)]
      exact ih (n / 10) (by omega) (by omega)

theorem digits_mul_ten_pow {n : Nat} (h : n ≠ 0) (k : Nat) :
    digits (n * 10 ^ k) = digits n ++ List.replicate k '0' := by
  induction k with
  | zero => simp
  | succ k ih =>
    have hpos : 0 < n * 10 ^ k := Nat.mul_pos (Nat.pos_of_ne_zero h) (Nat.pow_pos (by decide))
    have hmul : n * 10 ^ (k + 1) = n * 10 ^ k * 10 := by rw [Nat.pow_succ, Nat.mul_assoc]
    rw [hmul, digits_of_ten_le (by omega), Nat.mul_div_cancel _ (by decide), ih,
      Nat.mul_mod_left, List.replicate_succ', List.append_assoc]
    rfl

theorem dropLastZeros_append (ds : List Char) :
    dropLastZeros ds ++ List.replicate (ds.length - (dropLastZeros ds).length) '0' = ds := by
  have hsplit := List.takeWhile_append_dropWhile (p := (· == '0')) (l := ds.reverse)
  have hzeros : ds.reverse.takeWhile (· == '0')
      = List.replicate (ds.reverse.takeWhile (· == '0')).length '0' := by
    rw [List.eq_replicate_iff]
    exact ⟨rfl, fun c hc => by simpa using List.mem_takeWhile_imp hc⟩
  have hds : ds = dropLastZeros ds ++ (ds.reverse.takeWhile (· == '0')).reverse := by
    rw [dropLastZeros, ← List.reverse_append, hsplit, List.reverse_reverse]
  have hlength : ds.length - (dropLastZeros ds).length
      = (ds.reverse.takeWhile (· == '0')).length := by
    have := congrArg List.length hds
    rw [List.length_append, List.length_reverse] at this
    omega
  rw [hlength, ← List.reverse_replicate, ← hzeros]
  exact hds.symm

theorem dropLastZeros_append_zeros (ds : List Char) (k : Nat) :
    dropLastZeros (ds ++ List.replicate k '0') = dropLastZeros ds := by
  rw [dropLastZeros, List.reverse_append, List.reverse_replicate, dropLastZeros]
  congr 1
  induction k with
  | zero => rfl
  | succ k ih => simp [List.replicate_succ, ih]

theorem dropLastZeros_mul_ten_pow {n : Nat} (h : n ≠ 0) (k : Nat) :
    dropLastZeros (digits (n * 10 ^ k)) = dropLastZeros (digits n) := by
  rw [digits_mul_ten_pow h, dropLastZeros_append_zeros]

end Text

open Text

namespace Binary64

/-- Figures that are written as they are: at least one, and none of them a zero in front, except
for zero itself. -/
structure Digits.Proper (d : Digits) : Prop where
  ne_nil : d.figures ≠ []
  isDigit : ∀ c ∈ d.figures, c.isDigit = true
  head : d.figures.head? = some '0' → d = ⟨['0'], 1⟩

def Digits.decimal (d : Digits) : Decimal := ⟨digitsValue d.figures, d.point - d.figures.length⟩

theorem toRat_ofMultiple (n : Nat) (k : Int) :
    (Digits.ofMultiple n k).decimal.toRat = (⟨n, k⟩ : Decimal).toRat := by
  have happend := dropLastZeros_append (digits n)
  have hle := length_dropLastZeros_le (digits n)
  obtain ⟨dropped, hdropped⟩ := Nat.exists_eq_add_of_le hle
  rw [hdropped, Nat.add_sub_cancel_left] at happend
  have hvalue : n = 10 ^ dropped * digitsValue (dropLastZeros (digits n)) := by
    rw [← digitsValue_append_zeros, happend, digitsValue_digits]
  have hexp : ((digits n).length : Int) + k - (dropLastZeros (digits n)).length = dropped + k := by
    omega
  simp only [Digits.decimal, Digits.ofMultiple, Decimal.toRat, hexp]
  generalize digitsValue (dropLastZeros (digits n)) = m at hvalue
  rw [hvalue, zpow_add₀ (by norm_num), zpow_natCast]
  push_cast
  ring

theorem proper_ofMultiple {n : Nat} (h : n ≠ 0) (k : Int) : (Digits.ofMultiple n k).Proper := by
  have happend := dropLastZeros_append (digits n)
  have hhead : (dropLastZeros (digits n)).head? = some '0' ∨ dropLastZeros (digits n) = [] →
      (digits n).head? = some '0' := by
    intro hd
    rw [← happend]
    rcases hd with hd | hd
    · rw [List.head?_append, hd]
      rfl
    · have hlength : 0 < (digits n).length := List.length_pos_iff.2 (digits_ne_nil n)
      obtain ⟨m, hm⟩ := Nat.exists_eq_succ_of_ne_zero (Nat.pos_iff_ne_zero.1 hlength)
      rw [hd, hm]
      rfl
  refine ⟨fun hnil => head?_digits_ne h (hhead (.inr hnil)), fun c hc => ?_,
    fun hd => absurd (hhead (.inl hd)) (head?_digits_ne h)⟩
  refine isDigit_of_mem_digits (n := n) ?_
  rw [← happend]
  exact List.mem_append_left _ hc

theorem gridPoint_cases {tie : Tie} {units n : Nat} {k : Int}
    (h : gridPoint tie units k = some n) :
    readsBack units ⟨n, k⟩ = true ∧ n ≤ (onGrid units k).1 / (onGrid units k).2 + 1 := by
  have hbest : nearestMultiple tie units k ≤ (onGrid units k).1 / (onGrid units k).2 + 1 :=
    roundDiv_le tie _ _
  unfold gridPoint at h
  dsimp only at h
  generalize (onGrid units k).1 / (onGrid units k).2 = below at h hbest ⊢
  have hother : (if nearestMultiple tie units k = below then below + 1 else below) ≤ below + 1 := by
    split <;> omega
  generalize (if nearestMultiple tie units k = below then below + 1 else below) = other
    at h hother
  by_cases hb : readsBack units ⟨nearestMultiple tie units k, k⟩ = true
  · rw [if_pos hb] at h
    cases h
    exact ⟨hb, hbest⟩
  · rw [if_neg hb] at h
    by_cases ho : readsBack units ⟨other, k⟩ = true
    · rw [if_pos ho] at h
      cases h
      exact ⟨ho, hother⟩
    · rw [if_neg ho] at h
      cases h

theorem le_place (units : Nat) : -323 ≤ place units :=
  Int.sub_le_sub_right (Int.ofNat_le.2 (List.length_pos_iff.2 (digits_ne_nil _))) 324

/-- The exact digits stand in with the exponent of the unit, which is a name here so that no power
is computed. -/
theorem shortest_cases (tie : Tie) {units : Nat} (h0 : units ≠ 0) :
    (∃ n k, -340 ≤ k ∧ gridPoint tie units k = some n ∧ shortest tie units = .ofMultiple n k) ∨
      ∃ e : Nat, e = 1074 ∧ shortest tie units = .ofMultiple (units * 5 ^ e) (-e) := by
  rw [shortest, if_neg h0]
  cases hf : (List.range 17).findSome? fun (n : Nat) =>
      (gridPoint tie units (place units - (n + 1))).map
        (Digits.ofMultiple · (place units - (n + 1))) with
  | none => exact .inr ⟨1074, rfl, Option.getD_none⟩
  | some d =>
    left
    obtain ⟨i, hi, hd⟩ := List.exists_of_findSome?_eq_some hf
    obtain ⟨n, hn, rfl⟩ := Option.map_eq_some_iff.1 hd
    refine ⟨n, place units - (i + 1), ?_, hn, rfl⟩
    have hplace := le_place units
    have hlt := List.mem_range.1 hi
    omega

theorem nearest_exact {units e : Nat} (h : Representable units) (he : e = 1074) :
    nearest (Decimal.units ⟨units * 5 ^ e, -e⟩).1 (Decimal.units ⟨units * 5 ^ e, -e⟩).2
      = units := by
  have hunit : unit = 2 ^ e := by rw [he, unit]
  obtain ⟨k, rfl⟩ := Nat.exists_eq_succ_of_ne_zero (n := e) (by omega)
  have hten : 10 ^ (k + 1) = 5 ^ (k + 1) * 2 ^ (k + 1) := by rw [← Nat.mul_pow]
  have hpos : 0 < 10 ^ (k + 1) := Nat.pow_pos (by decide)
  calc nearest (units * 5 ^ (k + 1) * unit) (10 ^ (k + 1)) = nearest units 1 := by
        refine nearest_congr hpos Nat.one_pos ?_
        rw [hunit, hten, Nat.mul_one, Nat.mul_assoc]
    _ = units := nearest_one_of_representable h

theorem nearest_shortest (tie : Tie) {units : Nat} (h : Representable units) :
    nearest (shortest tie units).decimal.units.1 (shortest tie units).decimal.units.2 = units := by
  by_cases h0 : units = 0
  · rw [h0]
    exact Decimal.nearest_of_isTiny rfl
  · rcases shortest_cases tie h0 with ⟨n, k, -, hn, hs⟩ | ⟨e, he, hs⟩
    · rw [hs, Decimal.nearest_units_congr (toRat_ofMultiple n k)]
      exact beq_iff_eq.1 (gridPoint_cases hn).1
    · rw [hs, Decimal.nearest_units_congr (toRat_ofMultiple _ _)]
      exact nearest_exact h he

theorem shortest_zero (tie : Tie) : shortest tie 0 = ⟨['0'], 1⟩ := if_pos rfl

theorem proper_shortest (tie : Tie) (units : Nat) : (shortest tie units).Proper := by
  by_cases h0 : units = 0
  · rw [h0, shortest_zero]
    exact ⟨by decide, by decide, fun _ => rfl⟩
  · rcases shortest_cases tie h0 with ⟨n, k, -, hn, hs⟩ | ⟨e, -, hs⟩
    · rw [hs]
      refine proper_ofMultiple (fun hzero => h0 ?_) k
      have hback := beq_iff_eq.1 (gridPoint_cases hn).1
      rw [hzero] at hback
      rw [← hback]
      exact Decimal.nearest_of_isTiny rfl
    · rw [hs]
      exact proper_ofMultiple (Nat.mul_ne_zero h0 (Nat.ne_of_gt (Nat.pow_pos (by decide)))) _

theorem exists_mul_pow_of_representable {n : Nat} (h : Representable n) :
    ∃ m k, n = m * 2 ^ k ∧ m < 2 ^ 53 ∧ k ≤ 2045 := by
  refine ⟨n / spacing n, n.log2 - 52, ?_, ?_, ?_⟩
  · exact (Nat.div_mul_cancel (Nat.dvd_of_mod_eq_zero h.1)).symm
  · exact Nat.div_lt_of_lt_mul (by rw [Nat.mul_comm]; exact lt_mul_spacing n)
  · by_cases h0 : n = 0
    · simp [h0]
    · have hlt := h.2
      unfold limit at hlt
      have hlog := (Nat.log2_lt h0).2 hlt
      omega

theorem onGrid_lt {units e : Nat} {k : Int} (h : units < limit) (hk : -340 ≤ k) (he : 650 ≤ e) :
    (onGrid units k).1 / (onGrid units k).2 < 10 ^ e := by
  cases k with
  | ofNat j =>
    have hpos : 0 < 10 ^ j := Nat.pow_pos (by decide)
    refine Nat.div_lt_of_lt_mul ?_
    calc units < limit := h
      _ ≤ 10 ^ e * unit := Decimal.limit_le_ten_pow (by omega)
      _ = unit * 10 ^ e := Nat.mul_comm _ _
      _ ≤ unit * 10 ^ j * 10 ^ e := Nat.mul_le_mul_right _ (Nat.le_mul_of_pos_right unit hpos)
  | negSucc j =>
    simp only [onGrid]
    refine Nat.div_lt_of_lt_mul ?_
    calc units * 10 ^ (j + 1) < limit * 10 ^ (j + 1) :=
          Nat.mul_lt_mul_of_pos_right h (Nat.pow_pos (by decide))
      _ ≤ 10 ^ (e - 340) * unit * 10 ^ (j + 1) :=
        Nat.mul_le_mul_right _ (Decimal.limit_le_ten_pow (by omega))
      _ = unit * 10 ^ (e - 340 + (j + 1)) := by
        rw [Nat.mul_comm _ unit, Nat.mul_assoc, ← Nat.pow_add]
      _ ≤ unit * 10 ^ e :=
        Nat.mul_le_mul_left unit (Nat.pow_le_pow_right (by decide) (by omega))

theorem five_pow_lt {e n k : Nat} (he : e = 103 * k + 44) (hn : 72 * k + 47 ≤ n) :
    2 ^ 53 * 5 ^ e < 10 ^ n := by
  have hfive : 5 ^ (103 * k) ≤ 10 ^ (72 * k) := by
    rw [Nat.pow_mul, Nat.pow_mul]
    exact Nat.pow_le_pow_left (by decide) k
  calc 2 ^ 53 * 5 ^ e = 5 ^ (103 * k) * (2 ^ 53 * 5 ^ 44) := by
        rw [he, Nat.pow_add, Nat.mul_left_comm]
    _ < 5 ^ (103 * k) * 10 ^ 47 :=
      Nat.mul_lt_mul_of_pos_left (by decide) (Nat.pow_pos (by decide))
    _ ≤ 10 ^ (72 * k) * 10 ^ 47 := Nat.mul_le_mul_right _ hfive
    _ = 10 ^ (72 * k + 47) := (Nat.pow_add 10 _ _).symm
    _ ≤ 10 ^ n := Nat.pow_le_pow_right (by decide) hn

theorem exact_eq_mul_pow {units e : Nat} (h : Representable units) (he : e = 1074) :
    ∃ n k, units * 5 ^ e = n * 10 ^ k ∧ n < 2 ^ 53 * 5 ^ e := by
  obtain ⟨m, k, rfl, hm, hk⟩ := exists_mul_pow_of_representable h
  have hten (j : Nat) : 10 ^ j = 2 ^ j * 5 ^ j := by rw [← Nat.mul_pow]
  have hlt {p : Nat} (hp : p ≤ 5 ^ e) : m * p < 2 ^ 53 * 5 ^ e :=
    Nat.lt_of_le_of_lt (Nat.mul_le_mul_left m hp)
      (Nat.mul_lt_mul_of_pos_right hm (Nat.pow_pos (by decide)))
  rcases Nat.le_total k e with hle | hle
  · obtain ⟨j, rfl⟩ := Nat.exists_eq_add_of_le hle
    refine ⟨m * 5 ^ j, k, ?_, hlt (Nat.pow_le_pow_right (by decide) (Nat.le_add_left j k))⟩
    rw [hten, Nat.pow_add]
    ring
  · obtain ⟨j, rfl⟩ := Nat.exists_eq_add_of_le hle
    refine ⟨m * 2 ^ j, e, ?_, hlt ?_⟩
    · rw [hten, Nat.pow_add]
      ring
    · exact Nat.le_trans (Nat.pow_le_pow_left (by decide) j)
        (Nat.pow_le_pow_right (by decide) (by omega))

theorem length_shortest (tie : Tie) {units : Nat} (h : Representable units) :
    (shortest tie units).figures.length ≤ Document.Json.exactDigits := by
  obtain ⟨e, hdigits, he⟩ : ∃ e, Document.Json.exactDigits = e + 1 ∧ 650 ≤ e :=
    ⟨767, rfl, by decide⟩
  by_cases h0 : units = 0
  · rw [h0, shortest_zero, hdigits]
    exact Nat.succ_le_succ (Nat.zero_le _)
  · rcases shortest_cases tie h0 with ⟨n, k, hk, hn, hs⟩ | ⟨u, hu, hs⟩
    · have hle := (gridPoint_cases hn).2
      have hlt := onGrid_lt h.2 hk he
      rw [hs, hdigits]
      refine Nat.le_trans (length_dropLastZeros_le _) (length_digits_le (Nat.succ_pos e) ?_)
      have hpos : 0 < 10 ^ e := Nat.pow_pos (by decide)
      rw [Nat.pow_succ]
      omega
    · obtain ⟨n, k, hmul, hn⟩ := exact_eq_mul_pow h hu
      have hne : n ≠ 0 := by
        rintro rfl
        rw [Nat.zero_mul] at hmul
        exact Nat.mul_ne_zero h0 (Nat.ne_of_gt (Nat.pow_pos (by decide))) hmul
      rw [hs, Digits.ofMultiple, hmul, dropLastZeros_mul_ten_pow hne]
      refine Nat.le_trans (length_dropLastZeros_le _) (length_digits_le ?_ ?_)
      · rw [hdigits]
        exact Nat.succ_pos e
      · exact Nat.lt_trans hn (five_pow_lt (k := 10) hu (by decide))

end Binary64

end RetryDelay
