import RetryDelay.Proofs.JsonReading

set_option autoImplicit false

namespace RetryDelay
open Document Document.Json Text

namespace Decimal

theorem pow_le_bound : 2 ^ 64 ≤ bound := by
  obtain ⟨k, hk, hle⟩ : ∃ k, k = 970 ∧ 11 ≤ k := ⟨970, rfl, by decide⟩
  have hlow : (2 : ℚ) ^ 970 = 2 ^ k := by rw [hk]
  have hhigh : (2 : ℚ) ^ 1024 = 2 ^ 54 * 2 ^ k := by rw [← pow_add, hk]
  have hpow : (2 : ℚ) ^ 11 ≤ 2 ^ k := pow_le_pow_right₀ (by norm_num) hle
  rw [bound, hlow, hhigh]
  generalize (2 : ℚ) ^ k = t at hpow
  clear hlow hhigh
  norm_num at hpow ⊢
  linarith

end Decimal

namespace Numeral

theorem inRange_ofNat {n : Nat} (h : n < 2 ^ 64) : (ofNat n).InRange := by
  have hn : (n : ℚ) < 2 ^ 64 := by exact_mod_cast h
  rw [InRange, decimal_of_isWhole ⟨rfl, rfl⟩, digitsValue_whole_ofNat, Decimal.toRat, zpow_zero,
    mul_one]
  exact lt_of_lt_of_le hn Decimal.pow_le_bound

end Numeral

namespace Binary64
variable {units : Nat}

theorem inRange_json (h : Representable units) :
    (Layout.json.numeral (shortest Layout.json.tie units)).InRange := by
  have hlt : nearest (shortest Layout.json.tie units).decimal.units.1
      (shortest Layout.json.tie units).decimal.units.2 < limit := by
    rw [nearest_shortest Layout.json.tie h]
    exact h.2
  rw [Numeral.InRange, Layout.toRat_numeral Layout.pointed_json (proper_shortest _ _)]
  exact (Decimal.nearest_lt_limit_iff_lt_bound _).1 hlt

theorem double_json (h : Representable units) (negative : Bool) :
    (Layout.json.numeral (shortest Layout.json.tie units)).double negative
      = .finite negative units h := by
  rw [Numeral.double_eq_nearest negative (Layout.length_significant_json h)]
  exact Layout.toBinary64_numeral Layout.pointed_json negative h

end Binary64

namespace Document.Literal

def ofInt (z : Int) : Literal := .number (decide (z < 0)) (.ofNat z.natAbs)

def ofBinary64 : Binary64 → Literal
  | .finite negative units _ =>
    .number negative
      (Binary64.Layout.json.numeral (Binary64.shortest Binary64.Layout.json.tie units))
  | _ => .null

theorem value_ofInt {z : Int} (hlow : -2 ^ 63 ≤ z) (hhigh : z < 2 ^ 63) :
    (ofInt z).value = .integer z := by
  refine Numeral.value_eq_integer_iff.2 ⟨⟨⟨rfl, rfl⟩, ?_, ?_⟩, hlow, by omega⟩
  · rw [Numeral.digitsValue_whole_ofNat]
    split
    next h => have := of_decide_eq_true h; omega
    next h => have := of_decide_eq_false (Bool.eq_false_iff.2 h); omega
  · intro h
    have := of_decide_eq_true h
    omega

theorem value_ofBinary64_finite (negative : Bool) {units : Nat} (h : Binary64.Representable units) :
    (ofBinary64 (.finite negative units h)).value = .float (.finite negative units h) := by
  have hpoint := Binary64.Layout.not_isWhole_numeral .json
    (Binary64.shortest Binary64.Layout.json.tie units)
  rw [ofBinary64, value, Numeral.value_of_not_isWhole negative hpoint, Binary64.double_json h]

end Document.Literal

namespace Document.Json

theorem spelled_plain {cs : List Char}
    (h : ∀ c ∈ cs, 0x20 ≤ c.toNat ∧ c ≠ '"' ∧ c ≠ '\\') : Spelled cs cs := by
  induction cs with
  | nil => exact .nil
  | cons c cs ih =>
    obtain ⟨hc, hcs⟩ := List.forall_mem_cons.1 h
    exact .cons (.plain hc.1 hc.2.1 hc.2.2) (ih hcs)

theorem quoted_name (f : Field) : Quoted f.name ('"' :: (f.name.toList ++ ['"'])) :=
  ⟨_, spelled_plain (by cases f <;> decide), rfl⟩

theorem written_ofInt {z : Int} (hlow : -2 ^ 63 ≤ z) (hhigh : z < 2 ^ 63) :
    Written (.ofInt z) (Options.intChars z) := by
  have hchars := Numeral.chars_ofNat z.natAbs
  rw [Options.intChars, ← hchars]
  exact .number (Numeral.proper_ofNat _) (Numeral.inRange_ofNat (by omega))

theorem written_ofBinary64 (x : Binary64) : Written (.ofBinary64 x) (Options.jsonNumber x) := by
  cases x with
  | finite negative units h =>
    have hchars := Binary64.Layout.chars_numeral Binary64.Layout.pointed_json
      (Binary64.shortest Binary64.Layout.json.tie units)
    rw [Options.jsonNumber, Binary64.chars, ← hchars]
    exact .number (Binary64.Layout.proper_numeral Binary64.Layout.pointed_json
      (Binary64.proper_shortest _ _)) (Binary64.inRange_json h)
  | nan => exact .null
  | infinity => exact .null

end Document.Json

namespace Options

def members (c : Options) : List (String × Literal) :=
  [(Field.baseMs.name, .ofInt c.baseMs.toInt), (Field.maxMs.name, .ofInt c.maxMs.toInt),
    (Field.jitter.name, .ofBinary64 c.jitter)]

theorem written_toInt (z : Int64) : Written (.ofInt z.toInt) (intChars z.toInt) :=
  written_ofInt z.le_toInt z.toInt_lt

theorem member_name (f : Field) {l : Literal} {s : List Char} (h : Written l s) :
    Member Written (f.name, l) ('"' :: (f.name.toList ++ '"' :: ':' :: s)) := by
  have hblank : Blank [] := nofun
  have hmember := Member.mk (quoted_name f) hblank hblank h
  rwa [List.nil_append, List.nil_append, List.cons_append, List.append_assoc,
    List.singleton_append] at hmember

theorem toList_toJson (c : Options) : c.toJson.toList = '\x7b' ::
    ('"' :: (Field.baseMs.name.toList ++ '"' :: ':' :: intChars c.baseMs.toInt) ++ ',' ::
      ('"' :: (Field.maxMs.name.toList ++ '"' :: ':' :: intChars c.maxMs.toInt) ++ ',' ::
        ('"' :: (Field.jitter.name.toList ++ '"' :: ':' :: jsonNumber c.jitter) ++ ['\x7d']))) := by
  unfold toJson
  rw [String.toList_ofList]
  simp [Field.name]

theorem holds_toJson (c : Options) : Holds (.map c.members) c.toJson := by
  have hblank : Blank [] := nofun
  have hbase := member_name .baseMs (written_toInt c.baseMs)
  have hmax := member_name .maxMs (written_toInt c.maxMs)
  have hjitter := member_name .jitter (written_ofBinary64 c.jitter)
  have hlisted := Listed.cons hbase hblank hblank (.cons hmax hblank hblank (.one hjitter))
  refine ⟨[], _, [], hblank, .map (.items hblank hlisted hblank), hblank, ?_⟩
  rw [toList_toJson]
  simp

theorem millis?_value_toInt (z : Int64) :
    Given.millis? (Literal.ofInt z.toInt).value = .ok z := by
  rw [Literal.value_ofInt z.le_toInt z.toInt_lt, Given.millis?,
    toInt64?_eq_some_iff.2 rfl]

theorem ofEntries_members (c : Options) : Given.ofEntries (c.members.map Literal.entry)
    = (Given.fraction? (Literal.ofBinary64 c.jitter).value).map fun x =>
      { c with jitter := x } := by
  have hbase : Given.empty.enter (Field.baseMs.name, (Literal.ofInt c.baseMs.toInt).value)
      = .ok { Given.empty with baseMs := some c.baseMs } := by
    rw [Given.enter_name rfl, Given.assign, millis?_value_toInt]
    rfl
  have hmax : Given.enter { Given.empty with baseMs := some c.baseMs }
      (Field.maxMs.name, (Literal.ofInt c.maxMs.toInt).value)
      = .ok { Given.empty with baseMs := some c.baseMs, maxMs := some c.maxMs } := by
    rw [Given.enter_name rfl, Given.assign, millis?_value_toInt]
    rfl
  rw [Given.ofEntries]
  simp only [members, List.map_cons, List.map_nil, List.foldlM_cons, List.foldlM_nil, Literal.entry,
    hbase, hmax, bind, Except.bind]
  rw [Given.enter_name rfl, Given.assign]
  cases Given.fraction? (Literal.ofBinary64 c.jitter).value <;> rfl

theorem ofJson_toJson_eq (c : Options) : ofJson c.toJson
    = ((Given.fraction? (Literal.ofBinary64 c.jitter).value).map fun x =>
      { c with jitter := x }).mapError .data := by
  rw [Given.ofJson_map c.holds_toJson, ofEntries_members]

theorem ofJson_toJson_of_null {c : Options} (h : Literal.ofBinary64 c.jitter = .null)
    (hchars : jsonNumber c.jitter = "null".toList) :
    ",\"jitter\":null\x7d".toList <:+ c.toJson.toList ∧
      ofJson c.toJson = .error (.data (.invalidType .null .number)) := by
  refine ⟨⟨"\x7b\"base_ms\":".toList ++ intChars c.baseMs.toInt ++ ",\"max_ms\":".toList
    ++ intChars c.maxMs.toInt, ?_⟩, by rw [ofJson_toJson_eq, h]; rfl⟩
  unfold toJson
  rw [String.toList_ofList, hchars]
  simp

/-- What is written is read back number for number, unless the fraction is not finite: that is
written as null and is an error for the reader, never other options. -/
theorem ofJson_toJson (c : Options) :
    match c.jitter with
    | .finite .. => ofJson c.toJson = .ok c
    | _ => ",\"jitter\":null\x7d".toList <:+ c.toJson.toList ∧
      ofJson c.toJson = .error (.data (.invalidType .null .number)) ∧
      DataError.message .json (.invalidType .null .number)
        = "invalid type: null, expected f64" := by
  have hread := c.ofJson_toJson_eq
  have hnull := @ofJson_toJson_of_null c
  have hmessage : DataError.message .json (.invalidType .null .number)
      = "invalid type: null, expected f64" := by decide
  obtain ⟨baseMs, maxMs, jitter⟩ := c
  cases jitter with
  | finite negative units h =>
    rw [Literal.value_ofBinary64_finite] at hread
    exact hread
  | nan => exact ⟨(hnull rfl rfl).1, (hnull rfl rfl).2, hmessage⟩
  | infinity => exact ⟨(hnull rfl rfl).1, (hnull rfl rfl).2, hmessage⟩

end Options

end RetryDelay
