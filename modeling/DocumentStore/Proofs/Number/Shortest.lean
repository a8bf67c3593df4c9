import DocumentStore.Proofs.Number.Rounding
import Mathlib

/-! The shortest decimal of a finite number. The search ends on a grid that is finer than the
rounding interval, so that the decimal found lies in it and is rounded back. -/
namespace DocumentStore.Number

namespace Decimal

def value (d : Decimal) : ℚ := d.digits * 10 ^ d.exponent

end Decimal

namespace RoundingInterval

variable {i : RoundingInterval} {k : ℤ} {c : ℕ}

theorem scales_spec (i : RoundingInterval) (k : ℤ) :
    ∃ s : ℚ, 0 < s ∧ ((i.scales k).1 : ℚ) = 10 ^ k * s
      ∧ ((i.scales k).2 : ℚ) = 2 ^ i.exponent * s := by
  refine ⟨10 ^ (-k).toNat * 2 ^ (-i.exponent).toNat, by positivity, ?_, ?_⟩
  · rw [← pow_toNat_div 10 k]
    simp only [scales, Nat.pow_eq]
    push_cast
    field_simp
  · rw [← pow_toNat_div 2 i.exponent]
    simp only [scales, Nat.pow_eq]
    push_cast
    field_simp

theorem holds_iff : i.holds k c = true ↔ i.Contains (c * 10 ^ k) := by
  obtain ⟨s, hs, ha, hb⟩ := i.scales_spec k
  have hle (n : ℕ) : n * (i.scales k).2 ≤ c * (i.scales k).1
      ↔ (n : ℚ) * 2 ^ i.exponent ≤ c * 10 ^ k := by
    rw [← Nat.cast_le (α := ℚ), Nat.cast_mul, Nat.cast_mul, ha, hb, ← mul_assoc, ← mul_assoc]
    exact mul_le_mul_iff_left₀ hs
  have hge (n : ℕ) : c * (i.scales k).1 ≤ n * (i.scales k).2
      ↔ (c : ℚ) * 10 ^ k ≤ n * 2 ^ i.exponent := by
    rw [← Nat.cast_le (α := ℚ), Nat.cast_mul, Nat.cast_mul, ha, hb, ← mul_assoc, ← mul_assoc]
    exact mul_le_mul_iff_left₀ hs
  have hlt (n : ℕ) : n * (i.scales k).2 < c * (i.scales k).1
      ↔ (n : ℚ) * 2 ^ i.exponent < c * 10 ^ k := by rw [← not_le, hge, not_le]
  have hgt (n : ℕ) : c * (i.scales k).1 < n * (i.scales k).2
      ↔ (c : ℚ) * 10 ^ k < n * 2 ^ i.exponent := by rw [← not_le, hle, not_le]
  unfold holds
  simp only
  split
  · rename_i hclosed
    simp only [Bool.and_eq_true, decide_eq_true_eq, hle, hge]
    exact ⟨fun ⟨hl, hh⟩ => ⟨hl, hh, .inl hclosed⟩, fun h => ⟨h.low, h.high⟩⟩
  · rename_i hopen
    simp only [Bool.and_eq_true, decide_eq_true_eq, hlt, hgt]
    exact ⟨fun h => ⟨h.1.le, h.2.le, .inr h⟩, fun h => h.strict.resolve_left hopen⟩

theorem holds_of_nearest? (h : i.nearest? k = some c) : i.holds k c = true := by
  unfold nearest? at h
  simp only at h
  split at h
  · rename_i hhere hnext
    split at h
    · cases h
      exact hhere
    · split at h
      · cases h
        exact hnext
      · cases h
        rcases Nat.mod_two_eq_zero_or_one (i.middle * (i.scales k).2 / (i.scales k).1) with h₀ | h₁
        · rw [h₀]
          exact hhere
        · rw [h₁]
          exact hnext
  · rename_i hhere _
    cases h
    exact hhere
  · rename_i _ hnext
    cases h
    exact hnext
  · cases h

/-- A grid of which the step is less than half of the interval has a point in it. -/
theorem nearest?_isSome (hlow : i.low ≤ i.middle) (hhigh : i.high = i.middle + 2)
    (hstep : (10 : ℚ) ^ k < 2 * 2 ^ i.exponent) : (i.nearest? k).isSome := by
  obtain ⟨s, hs, ha, hb⟩ := i.scales_spec k
  have hstep' : (i.scales k).1 < 2 * (i.scales k).2 := by
    rw [← Nat.cast_lt (α := ℚ), Nat.cast_mul, ha, hb, ← mul_assoc]
    exact mul_lt_mul_of_pos_right (by exact_mod_cast hstep) hs
  have hpos : 0 < (i.scales k).1 := by
    rw [← Nat.cast_pos (α := ℚ), ha]
    positivity
  have hbelow := Nat.lt_div_mul_add hpos (a := i.middle * (i.scales k).2)
  have habove := Nat.div_mul_le_self (i.middle * (i.scales k).2) (i.scales k).1
  have hlow' : i.low * (i.scales k).2 ≤ i.middle * (i.scales k).2 := Nat.mul_le_mul_right _ hlow
  have hhigh' : i.high * (i.scales k).2 = i.middle * (i.scales k).2 + 2 * (i.scales k).2 := by
    rw [hhigh, Nat.add_mul]
  have hnext : i.holds k (i.middle * (i.scales k).2 / (i.scales k).1 + 1) = true := by
    unfold holds
    simp only [Nat.add_mul, one_mul]
    split <;> simp only [Bool.and_eq_true, decide_eq_true_eq] <;> omega
  unfold nearest?
  simp only [hnext]
  cases i.holds k (i.middle * (i.scales k).2 / (i.scales k).1) with
  | true =>
    simp only
    split
    · rfl
    · split <;> rfl
  | false => rfl

/-- A search ends in the interval if one of the grids that it goes through has a point there. -/
theorem holds_search {steps n : ℕ} (hn : n < steps) (h : (i.nearest? (k - n)).isSome) :
    i.holds (i.search steps k).exponent (i.search steps k).digits = true := by
  induction steps generalizing k n with
  | zero => omega
  | succ steps ih =>
    unfold search
    cases hfirst : i.nearest? k with
    | some c => exact holds_of_nearest? hfirst
    | none =>
      cases n with
      | zero => simp [hfirst] at h
      | succ n =>
        have hrest : (i.nearest? (k - 1 - n)).isSome := by
          rwa [show k - 1 - (n : ℤ) = k - (n + 1 : ℕ) by push_cast; ring]
        exact ih (Nat.lt_of_succ_lt_succ hn) hrest

end RoundingInterval

namespace BinaryFormat

variable {f : BinaryFormat} {m : ℕ} {e : ℤ}

theorem ten_zpow_lt_two_zpow {k : ℤ} (hlow : -2800 ≤ e) (hhigh : e ≤ 5500)
    (hk : k * 100000 ≤ (53 + e) * 30103 - 2200000) : (10 : ℚ) ^ k < 2 ^ (e - 1) := by
  rcases le_or_gt 0 k with hsign | hsign
  · have hcube : ((10 : ℚ) ^ k) ^ 3 < (2 ^ (e - 1)) ^ 3 := by
      calc ((10 : ℚ) ^ k) ^ 3 = 1000 ^ k := by
            rw [← zpow_natCast, ← zpow_mul, mul_comm, zpow_mul]
            norm_num
        _ ≤ 1024 ^ k := zpow_le_zpow_left₀ hsign (by norm_num) (by norm_num)
        _ = 2 ^ (10 * k) := by
          rw [zpow_mul]
          norm_num
        _ < 2 ^ ((e - 1) * 3) := zpow_lt_zpow_right₀ (by norm_num) (by omega)
        _ = (2 ^ (e - 1)) ^ 3 := by
          rw [zpow_mul]
          norm_cast
    exact lt_of_pow_lt_pow_left₀ 3 (by positivity) hcube
  · have htenth : ((10 : ℚ) ^ k) ^ 10 < (2 ^ (e - 1)) ^ 10 := by
      calc ((10 : ℚ) ^ k) ^ 10 = (10 ^ 10) ^ k := by
            rw [← zpow_natCast, ← zpow_mul, mul_comm, zpow_mul]
            norm_num
        _ ≤ (2 ^ 33) ^ k := by
          rw [← neg_neg k, zpow_neg, zpow_neg (2 ^ 33 : ℚ)]
          exact inv_anti₀ (by positivity) (zpow_le_zpow_left₀ (by omega) (by norm_num) (by norm_num))
        _ = 2 ^ (33 * k) := by
          rw [zpow_mul]
          norm_num
        _ < 2 ^ ((e - 1) * 10) := zpow_lt_zpow_right₀ (by norm_num) (by omega)
        _ = (2 ^ (e - 1)) ^ 10 := by
          rw [zpow_mul]
          norm_cast
    exact lt_of_pow_lt_pow_left₀ 10 (by positivity) htenth

theorem contains_shortest (hm : m < 2 ^ 53) (hlow : -2800 ≤ e) (hhigh : e ≤ 5500) :
    (f.interval m e).Contains (f.shortest m e).value := by
  have hlog : m.log2 < 53 := by
    rcases Nat.eq_zero_or_pos m with rfl | hpos
    · decide
    · exact (Nat.log2_lt hpos.ne').mpr hm
  have hstep : (10 : ℚ) ^ (((m.log2 : ℤ) + e + 1) * 30103 / 100000 + 1 - (23 : ℕ))
      < 2 * 2 ^ (f.interval m e).exponent := by
    calc (10 : ℚ) ^ (((m.log2 : ℤ) + e + 1) * 30103 / 100000 + 1 - (23 : ℕ)) < 2 ^ (e - 1) :=
          ten_zpow_lt_two_zpow hlow hhigh (by omega)
      _ = 2 * 2 ^ (e - 2) := by
        rw [← zpow_one_add₀ (by norm_num)]
        congr 1
        ring
  have hsome := RoundingInterval.nearest?_isSome (i := f.interval m e) (Nat.sub_le _ _) rfl hstep
  exact RoundingInterval.holds_iff.mp (RoundingInterval.holds_search (by norm_num) hsome)

end BinaryFormat

theorem BinaryFormat.datum_eq_finite {f : BinaryFormat} {bits : ℕ} {negative : Bool} {m : ℕ} {e : ℤ}
    (h : f.datum bits = .finite negative m e) :
    f.Canonical m e ∧ f.magnitude m e < f.infinity
      ∧ (if negative then f.signBit else 0) + f.magnitude m e = bits % f.signBit
        + (if f.signBit ≤ bits then f.signBit else 0) := by
  unfold datum at h
  simp only at h
  split at h
  · rename_i hfinite
    cases h
    rw [f.magnitude_unpack]
    refine ⟨f.unpack_canonical _, hfinite, ?_⟩
    simp only [decide_eq_true_eq]
    omega
  · split at h <;> cases h

theorem toBits_toNat_lt (x : Float) : x.toBits.toNat < 2 * binary64.signBit := by
  simpa [binary64, BinaryFormat.signBit] using x.toBits.toNat_lt

theorem ofBits_eq_of_doubleDatum {x : Float} {negative : Bool} {m : ℕ} {e : ℤ}
    (hx : doubleDatum x = .finite negative m e) :
    Float.ofBits ((if negative then binary64.signBit else 0) + binary64.magnitude m e).toUInt64
      = x := by
  obtain ⟨-, -, hbits⟩ := BinaryFormat.datum_eq_finite hx
  have hlt := toBits_toNat_lt x
  have hwhole : x.toBits.toNat % binary64.signBit
      + (if binary64.signBit ≤ x.toBits.toNat then binary64.signBit else 0) = x.toBits.toNat := by
    split
    · rw [Nat.mod_eq_sub_mod (by assumption), Nat.mod_eq_of_lt (by omega)]
      omega
    · rw [Nat.mod_eq_of_lt (by omega)]
      omega
  rw [hbits, hwhole]
  simp

theorem exponent_bounds {m : ℕ} {e : ℤ} (hc : binary64.Canonical m e)
    (hfinite : binary64.magnitude m e < binary64.infinity) : -1074 ≤ e ∧ e ≤ 972 := by
  have hlower := hc.lower
  simp only [binary64, BinaryFormat.magnitude, BinaryFormat.infinity, BinaryFormat.minExponent,
    Nat.pow_eq]
    at hlower hfinite
  omega

/-- A positive number near a finite double lies between the bounds beyond which decimals are not
looked at. -/
theorem bounds_of_contains {m : ℕ} {e : ℤ} {x : ℚ} (hm : 0 < m) (hc : binary64.Canonical m e)
    (hfinite : binary64.magnitude m e < binary64.infinity)
    (h : (binary64.interval m e).Contains x) : (2 : ℚ) ^ (-1075 : ℤ) ≤ x ∧ x < 2 ^ (1026 : ℤ) := by
  obtain ⟨hlow, hhigh, -, -⟩ := BinaryFormat.contains_interval_scaled hm h
  obtain ⟨he, he'⟩ := exponent_bounds hc hfinite
  have htwo : (2 : ℚ) ≠ 0 := by norm_num
  have hone : (1 : ℚ) ≤ m := by exact_mod_cast hm
  have hupper : (m : ℚ) + 1 ≤ 2 ^ (53 : ℤ) := by exact_mod_cast hc.upper
  constructor
  · calc (2 : ℚ) ^ (-1075 : ℤ) ≤ 2 ^ (e - 1) := zpow_le_zpow_right₀ (by norm_num) (by omega)
      _ = 1 / 2 * 2 ^ e := by
        rw [zpow_sub_one₀ htwo]
        ring
      _ ≤ x * 2 ^ (-e) * 2 ^ e := by gcongr; linarith
      _ = x := BinaryFormat.scaled_mul x e
  · calc x = x * 2 ^ (-e) * 2 ^ e := (BinaryFormat.scaled_mul x e).symm
      _ < 2 ^ (53 : ℤ) * 2 ^ e := by gcongr; linarith
      _ = 2 ^ (53 + e) := by rw [zpow_add₀ htwo]
      _ ≤ 2 ^ (1026 : ℤ) := zpow_le_zpow_right₀ (by norm_num) (by omega)

theorem le_exponent_add_log2 {digits : ℕ} {exponent : ℤ}
    (h : (2 : ℚ) ^ (-1075 : ℤ) ≤ digits * 10 ^ exponent) :
    -1200 ≤ exponent + (digits.log2 : ℤ) := by
  by_contra hlt
  have hsign : 0 ≤ -exponent := by omega
  have hbase : (10 : ℚ) ^ exponent ≤ 2 ^ exponent := by
    have hinv := inv_anti₀ (by positivity)
      (zpow_le_zpow_left₀ hsign (by norm_num) (by norm_num : (2 : ℚ) ≤ 10))
    rwa [zpow_neg, zpow_neg, inv_inv, inv_inv] at hinv
  refine absurd h (not_le.mpr ?_)
  calc (digits : ℚ) * 10 ^ exponent ≤ digits * 2 ^ exponent := by gcongr
    _ < 2 ^ ((digits.log2 : ℤ) + 1) * 2 ^ exponent := by
      gcongr
      exact lt_two_zpow_of_log2 digits
    _ = 2 ^ ((digits.log2 : ℤ) + 1 + exponent) := (zpow_add₀ (by norm_num) _ _).symm
    _ ≤ 2 ^ (-1075 : ℤ) := zpow_le_zpow_right₀ (by norm_num) (by omega)

theorem exponent_le {digits : ℕ} {exponent : ℤ} (hdigits : digits ≠ 0)
    (h : (digits : ℚ) * 10 ^ exponent < 2 ^ (1026 : ℤ)) : exponent ≤ 400 := by
  by_contra hlt
  have hone : (1 : ℚ) ≤ digits := by exact_mod_cast Nat.pos_of_ne_zero hdigits
  refine absurd h (not_lt.mpr ?_)
  calc (2 : ℚ) ^ (1026 : ℤ) ≤ 2 ^ (3 * exponent) := zpow_le_zpow_right₀ (by norm_num) (by omega)
    _ = 8 ^ exponent := by
      rw [zpow_mul]
      norm_num
    _ ≤ 10 ^ exponent := zpow_le_zpow_left₀ (by omega) (by norm_num) (by norm_num)
    _ ≤ digits * 10 ^ exponent := le_mul_of_one_le_left (by positivity) hone

/-- A decimal in the rounding interval of a finite double is read as that double. -/
theorem doubleOfDecimal_eq_of_contains {x : Float} {negative : Bool} {m : ℕ} {e : ℤ}
    (hx : doubleDatum x = .finite negative m e) (hm : 0 < m) {digits : ℕ} {exponent : ℤ}
    (h : (binary64.interval m e).Contains (digits * 10 ^ exponent)) :
    doubleOfDecimal negative digits exponent = x := by
  obtain ⟨hc, hfinite, -⟩ := BinaryFormat.datum_eq_finite hx
  obtain ⟨hlow, hhigh⟩ := bounds_of_contains hm hc hfinite h
  have hdigits : digits ≠ 0 := by
    rintro rfl
    rw [Nat.cast_zero, zero_mul] at hlow
    exact absurd hlow (not_le.mpr (by positivity))
  have hsmall : ¬exponent + (digits.log2 : ℤ) < -1200 := not_lt.mpr (le_exponent_add_log2 hlow)
  have hlarge : ¬400 < exponent := not_lt.mpr (exponent_le hdigits hhigh)
  have hquotient : ((digits * 10 ^ exponent.toNat : ℕ) : ℚ) / (10 ^ (-exponent).toNat : ℕ)
      = digits * 10 ^ exponent := by
    push_cast
    rw [mul_div_assoc, pow_toNat_div]
  have hround : binary64.round (digits * 10 ^ exponent.toNat) (10 ^ (-exponent).toNat)
      = binary64.magnitude m e :=
    BinaryFormat.round_eq_magnitude (by positivity) hm hc hfinite.le (by rwa [hquotient])
  simp only [doubleOfDecimal, Nat.pow_eq, hdigits, hsmall, hlarge, hround, or_self, if_false]
  exact ofBits_eq_of_doubleDatum hx

theorem doubleOfDecimal_zero {x : Float} {negative : Bool} {e : ℤ}
    (hx : doubleDatum x = .finite negative 0 e) (exponent : ℤ) :
    doubleOfDecimal negative 0 exponent = x := by
  obtain ⟨hc, -, -⟩ := BinaryFormat.datum_eq_finite hx
  have he : e = binary64.minExponent := hc.normal.resolve_right (by simp)
  have hbits := ofBits_eq_of_doubleDatum hx
  simpa [doubleOfDecimal, BinaryFormat.magnitude, he] using hbits

theorem doubleOfDecimal_shortest {x : Float} {negative : Bool} {m : ℕ} {e : ℤ}
    (hx : doubleDatum x = .finite negative m e) (hm : 0 < m) {digits : ℕ} {exponent : ℤ}
    (h : (digits : ℚ) * 10 ^ exponent = (binary64.shortest m e).value) :
    doubleOfDecimal negative digits exponent = x := by
  obtain ⟨hc, hfinite, -⟩ := BinaryFormat.datum_eq_finite hx
  obtain ⟨he, he'⟩ := exponent_bounds hc hfinite
  apply doubleOfDecimal_eq_of_contains hx hm
  rw [h]
  exact BinaryFormat.contains_shortest hc.upper (by omega) (by omega)

end DocumentStore.Number
