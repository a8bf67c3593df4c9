import DocumentStore.Proofs.Number.Layout

/-! How large the parts of a written decimal are. Main statement: where the leading digit of a
decimal stands is told by its value. The whole digits and the exponent of its numeral are thereby
bounded in every layout, however the decimal was found. -/
namespace DocumentStore.Number

theorem digitValue_le {c : Char} (hc : c.isDigit = true) : digitValue c ≤ 9 := by
  have hle := (Text.toNat_of_isDigit hc).2
  unfold digitValue
  omega

/-- What stands before some digits is moved up by them, and they add less than one to it there. -/
theorem foldl_digits_bounds {ds : List Char} (hds : Digits ds) (n : ℕ) :
    n * 10 ^ ds.length ≤ ds.foldl (fun n d => n * 10 + digitValue d) n
      ∧ ds.foldl (fun n d => n * 10 + digitValue d) n < (n + 1) * 10 ^ ds.length := by
  induction ds generalizing n with
  | nil => simp
  | cons d ds ih =>
    have hd := digitValue_le (hds d (by simp))
    obtain ⟨hlow, hhigh⟩ := ih (fun c hc => hds c (by simp [hc])) (n * 10 + digitValue d)
    simp only [List.foldl_cons, List.length_cons, pow_succ]
    constructor
    · calc n * (10 ^ ds.length * 10) = n * 10 * 10 ^ ds.length := by ring
        _ ≤ (n * 10 + digitValue d) * 10 ^ ds.length := Nat.mul_le_mul_right _ (Nat.le_add_right _ _)
        _ ≤ _ := hlow
    · refine hhigh.trans_le ?_
      calc (n * 10 + digitValue d + 1) * 10 ^ ds.length ≤ ((n + 1) * 10) * 10 ^ ds.length :=
            Nat.mul_le_mul_right _ (by omega)
        _ = (n + 1) * (10 ^ ds.length * 10) := by ring

theorem digitsValue_lt {ds : List Char} (hds : Digits ds) : digitsValue ds < 10 ^ ds.length := by
  simpa [digitsValue] using (foldl_digits_bounds hds 0).2

/-- Digits that do not begin with a zero stand for a number of just so many digits. -/
theorem pow_le_digitsValue {ds : List Char} (hds : Digits ds) (hne : ds ≠ [])
    (hstart : ds.head? ≠ some '0') : 10 ^ (ds.length - 1) ≤ digitsValue ds := by
  obtain ⟨d, ds, rfl⟩ := List.exists_cons_of_ne_nil hne
  have hd : 1 ≤ digitValue d := by
    have hdigit := hds d (by simp)
    have hzero : d ≠ '0' := by simpa using hstart
    have hne : d.toNat ≠ 48 := fun h => hzero (Char.toNat_inj.mp h)
    have hge := (Text.toNat_of_isDigit hdigit).1
    unfold digitValue
    omega
  have hrest : Digits ds := fun c hc => hds c (by simp [hc])
  have hlow := (foldl_digits_bounds hrest (digitValue d)).1
  calc 10 ^ ((d :: ds).length - 1) ≤ digitValue d * 10 ^ ds.length := Nat.le_mul_of_pos_left _ hd
    _ ≤ digitsValue (d :: ds) := by simpa [digitsValue] using hlow

namespace Layout

variable {l : Layout} {d : Decimal}

theorem leadingPlace_bounds (hd : 0 < d.digits) :
    (10 : ℚ) ^ leadingPlace d ≤ d.value ∧ d.value < 10 ^ (leadingPlace d + 1) := by
  obtain ⟨hne, hds, hstart, hvalue⟩ := trimZeros_spec hd
  have hten : (10 : ℚ) ≠ 0 := by norm_num
  have hlength : 1 ≤ (trimZeros d.digits).1.length := List.length_pos_iff.mpr hne
  have hscaled : d.value = digitsValue (trimZeros d.digits).1
      * 10 ^ (d.exponent + (trimZeros d.digits).2) := by
    rw [Decimal.value, zpow_add₀ hten, zpow_natCast]
    conv_lhs => rw [← hvalue]
    push_cast
    ring
  have hlow : (10 : ℚ) ^ ((trimZeros d.digits).1.length - 1) ≤ digitsValue (trimZeros d.digits).1 := by
    exact_mod_cast pow_le_digitsValue hds hne hstart
  have hhigh : (digitsValue (trimZeros d.digits).1 : ℚ) < 10 ^ (trimZeros d.digits).1.length := by
    exact_mod_cast digitsValue_lt hds
  rw [hscaled]
  constructor
  · calc (10 : ℚ) ^ leadingPlace d
        = 10 ^ ((trimZeros d.digits).1.length - 1) * 10 ^ (d.exponent + (trimZeros d.digits).2) := by
          rw [← zpow_natCast, ← zpow_add₀ hten, leadingPlace]
          congr 1
          push_cast [hlength]
          ring
      _ ≤ _ := by gcongr
  · calc (digitsValue (trimZeros d.digits).1 : ℚ) * 10 ^ (d.exponent + (trimZeros d.digits).2)
        < 10 ^ (trimZeros d.digits).1.length * 10 ^ (d.exponent + (trimZeros d.digits).2) := by
          gcongr
      _ = 10 ^ (leadingPlace d + 1) := by
        rw [← zpow_natCast, ← zpow_add₀ hten, leadingPlace]
        congr 1
        ring

/-- The whole digits of a numeral are one digit, or as many as the layout allows. -/
theorem length_whole_le (hl : l.highest ≤ 17) (d : Decimal) : (l.numeral d).whole.length ≤ 18 := by
  unfold numeral
  split
  · simp
  · split
    · rename_i hplace
      unfold positionalNumeral
      split
      · simp
      · simp only [List.length_append, List.length_take, List.length_replicate]
        omega
    · simp only [scientificNumeral, List.length_take]
      omega

theorem whole_lt (hl : l.highest ≤ 17) (d : Decimal) : digitsValue (l.numeral d).whole < 2 ^ 64 := by
  calc digitsValue (l.numeral d).whole < 10 ^ (l.numeral d).whole.length :=
        digitsValue_lt (l.numeral_strict d).whole
    _ ≤ 10 ^ 18 := Nat.pow_le_pow_right (by norm_num) (length_whole_le hl d)
    _ ≤ 2 ^ 64 := by norm_num

theorem exponent_eq {e : Exponent} (he : e ∈ (l.numeral d).exponent) : e.value = leadingPlace d := by
  unfold numeral at he
  split at he
  · cases he
  · split at he
    · unfold positionalNumeral at he
      split at he <;> cases he
    · cases he
      exact scientificExponent_value l _

theorem exponent_natAbs_lt (hd : 0 < d.digits) (hlow : (2 : ℚ) ^ (-1075 : ℤ) ≤ d.value)
    (hhigh : d.value < 2 ^ (1026 : ℤ)) {e : Exponent} (he : e ∈ (l.numeral d).exponent) :
    e.value.natAbs < 0x80000000 := by
  obtain ⟨hplace, hplace'⟩ := leadingPlace_bounds hd
  have hle : leadingPlace d ≤ 400 :=
    exponent_le one_ne_zero (by simpa using hplace.trans_lt hhigh)
  have hpower : (2 : ℚ) ^ (-1075 : ℤ) ≤ (1 : ℕ) * 10 ^ (leadingPlace d + 1) := by
    simpa using hlow.trans hplace'.le
  have hge := le_exponent_add_log2 hpower
  have hlog : Nat.log2 1 = 0 := by decide
  rw [hlog] at hge
  rw [exponent_eq he]
  omega

end Layout

end DocumentStore.Number
