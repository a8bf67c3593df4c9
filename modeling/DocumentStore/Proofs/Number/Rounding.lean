import DocumentStore.Number.Shortest
import Mathlib.Algebra.Order.Field.Power
import Mathlib.Algebra.Order.Field.Rat
import Mathlib.Data.Nat.Log
import Mathlib.Tactic.FieldSimp
import Mathlib.Tactic.Linarith
import Mathlib.Tactic.Positivity
import Mathlib.Tactic.Ring

/-! Rounding to a binary format, in rational numbers. Main statement: every quotient in the rounding
interval of a finite number is rounded to that number. -/
namespace DocumentStore.Number

theorem pow_toNat_div (b : ℚ) (k : ℤ) : b ^ k.toNat / b ^ (-k).toNat = b ^ k := by
  rcases le_total 0 k with hk | hk
  · obtain ⟨n, rfl⟩ := Int.eq_ofNat_of_zero_le hk
    simp
  · obtain ⟨n, hn⟩ := Int.eq_ofNat_of_zero_le (neg_nonneg.mpr hk)
    obtain rfl : k = -(n : ℤ) := by omega
    simp

theorem mul_pow_le_mul_pow_iff {b num den : ℕ} (hb : 0 < b) (hden : 0 < den) (k : ℤ) :
    den * b ^ k.toNat ≤ num * b ^ (-k).toNat ↔ (b : ℚ) ^ k ≤ num / den := by
  have hb' : (0 : ℚ) < b := by exact_mod_cast hb
  have hden' : (0 : ℚ) < den := by exact_mod_cast hden
  have hpow : (0 : ℚ) < (b : ℚ) ^ (-k).toNat := by positivity
  rw [← pow_toNat_div b k, div_le_div_iff₀ hpow hden', ← Nat.cast_le (α := ℚ)]
  push_cast
  rw [mul_comm (den : ℚ)]

theorem natCast_mul_pow_div (b num den : ℕ) (k : ℤ) :
    ((num * b ^ (-k).toNat : ℕ) : ℚ) / (den * b ^ k.toNat : ℕ) = num / den * (b : ℚ) ^ (-k) := by
  have hpow := pow_toNat_div b (-k)
  rw [neg_neg] at hpow
  rw [← hpow]
  push_cast
  rw [div_mul_div_comm]

theorem divHalfEven_eq {num den q : ℕ} (hden : 0 < den) (hlow : 2 * (q * den) ≤ 2 * num + den)
    (hhigh : 2 * num ≤ 2 * (q * den) + den)
    (htie : q % 2 = 0 ∨ 2 * (q * den) < 2 * num + den ∧ 2 * num < 2 * (q * den) + den) :
    divHalfEven num den = q := by
  have hsplit : num / den * den + num % den = num := Nat.div_add_mod' num den
  have hrest : num % den < den := Nat.mod_lt _ hden
  have hle : num / den ≤ q := by
    by_contra hlt
    have hmul : (q + 1) * den ≤ num / den * den := Nat.mul_le_mul_right _ (by omega)
    rw [Nat.succ_mul] at hmul
    omega
  have hge : q ≤ num / den + 1 := by
    by_contra hlt
    have hmul : (num / den + 2) * den ≤ q * den := Nat.mul_le_mul_right _ (by omega)
    rw [Nat.add_mul] at hmul
    omega
  unfold divHalfEven
  simp only
  rcases Nat.eq_or_lt_of_le hle with heq | hlt
  · rw [heq] at hsplit ⊢
    split
    · rfl
    · split <;> omega
  · obtain rfl : q = num / den + 1 := by omega
    simp only [Nat.succ_mul] at hlow hhigh htie
    split
    · omega
    · split <;> omega

/-- The natural number that is nearest to a quotient, an even one if it lies half way. -/
theorem divHalfEven_eq_of_abs {num den q : ℕ} (hden : 0 < den)
    (hlow : (q : ℚ) - 1 / 2 ≤ num / den) (hhigh : (num : ℚ) / den ≤ q + 1 / 2)
    (htie : q % 2 = 0 ∨ (q : ℚ) - 1 / 2 < num / den ∧ (num : ℚ) / den < q + 1 / 2) :
    divHalfEven num den = q := by
  have hden' : (0 : ℚ) < den := by exact_mod_cast hden
  have hlow' : 2 * (q * den) ≤ 2 * num + den := by
    rw [le_div_iff₀ hden'] at hlow
    rw [← Nat.cast_le (α := ℚ)]
    push_cast
    linarith
  have hhigh' : 2 * num ≤ 2 * (q * den) + den := by
    rw [div_le_iff₀ hden'] at hhigh
    rw [← Nat.cast_le (α := ℚ)]
    push_cast
    linarith
  refine divHalfEven_eq hden hlow' hhigh' (htie.imp_right fun ⟨hl, hh⟩ => ⟨?_, ?_⟩)
  · rw [lt_div_iff₀ hden'] at hl
    rw [← Nat.cast_lt (α := ℚ)]
    push_cast
    linarith
  · rw [div_lt_iff₀ hden'] at hh
    rw [← Nat.cast_lt (α := ℚ)]
    push_cast
    linarith

theorem two_zpow_le_of_log2 {n : ℕ} (hn : n ≠ 0) : (2 : ℚ) ^ (n.log2 : ℤ) ≤ n := by
  exact_mod_cast Nat.log2_self_le hn

theorem lt_two_zpow_of_log2 (n : ℕ) : (n : ℚ) < 2 ^ ((n.log2 : ℤ) + 1) := by
  exact_mod_cast Nat.lt_log2_self (n := n)

theorem floorLog2_spec {num den : ℕ} (hnum : 0 < num) (hden : 0 < den) :
    (2 : ℚ) ^ floorLog2 num den ≤ num / den
      ∧ (num : ℚ) / den < 2 ^ (floorLog2 num den + 1) := by
  have hden' : (0 : ℚ) < den := by exact_mod_cast hden
  have hnumLow := two_zpow_le_of_log2 hnum.ne'
  have hnumHigh := lt_two_zpow_of_log2 num
  have hdenLow := two_zpow_le_of_log2 hden.ne'
  have hdenHigh := lt_two_zpow_of_log2 den
  have hiff := @mul_pow_le_mul_pow_iff 2 num den two_pos hden ((num.log2 : ℤ) - den.log2)
  simp only [floorLog2, Nat.pow_eq]
  split
  · rename_i hreached
    refine ⟨by exact_mod_cast hiff.mp hreached, ?_⟩
    rw [div_lt_iff₀ hden']
    calc (num : ℚ) < 2 ^ ((num.log2 : ℤ) + 1) := hnumHigh
      _ = 2 ^ ((num.log2 : ℤ) - den.log2 + 1) * 2 ^ (den.log2 : ℤ) := by
        rw [← zpow_add₀ (by norm_num)]
        congr 1
        ring
      _ ≤ 2 ^ ((num.log2 : ℤ) - den.log2 + 1) * den := by gcongr
  · rename_i hmissed
    have hlt : (num : ℚ) / den < 2 ^ ((num.log2 : ℤ) - den.log2) := by
      rw [← not_le]
      exact_mod_cast fun h => hmissed (hiff.mpr (by exact_mod_cast h))
    refine ⟨?_, by rwa [sub_add_cancel]⟩
    rw [le_div_iff₀ hden']
    calc (2 : ℚ) ^ ((num.log2 : ℤ) - den.log2 - 1) * den
        ≤ 2 ^ ((num.log2 : ℤ) - den.log2 - 1) * 2 ^ ((den.log2 : ℤ) + 1) := by gcongr
      _ = 2 ^ (num.log2 : ℤ) := by
        rw [← zpow_add₀ (by norm_num)]
        congr 1
        ring
      _ ≤ num := hnumLow

theorem le_floorLog2 {num den : ℕ} {k : ℤ} (hnum : 0 < num) (hden : 0 < den)
    (h : (2 : ℚ) ^ k ≤ num / den) : k ≤ floorLog2 num den := by
  have hlt : k < floorLog2 num den + 1 :=
    (zpow_lt_zpow_iff_right₀ (by norm_num : (1 : ℚ) < 2)).mp
      (h.trans_lt (floorLog2_spec hnum hden).2)
  omega

theorem floorLog2_lt {num den : ℕ} {k : ℤ} (hnum : 0 < num) (hden : 0 < den)
    (h : (num : ℚ) / den < 2 ^ k) : floorLog2 num den < k :=
  (zpow_lt_zpow_iff_right₀ (by norm_num : (1 : ℚ) < 2)).mp
    ((floorLog2_spec hnum hden).1.trans_lt h)

/-- Whether a rational number lies in an interval, of which the ends may be excluded. -/
structure RoundingInterval.Contains (i : RoundingInterval) (x : ℚ) : Prop where
  low : (i.low : ℚ) * 2 ^ i.exponent ≤ x
  high : x ≤ i.high * 2 ^ i.exponent
  strict : i.closed = true
    ∨ (i.low : ℚ) * 2 ^ i.exponent < x ∧ x < i.high * 2 ^ i.exponent

namespace BinaryFormat

variable {f : BinaryFormat} {m : ℕ} {e : ℤ}

/-- A significand and an exponent as they are read off a magnitude. -/
structure Canonical (f : BinaryFormat) (m : ℕ) (e : ℤ) : Prop where
  lower : f.minExponent ≤ e
  upper : m < 2 ^ (f.fractionBits + 1)
  normal : e = f.minExponent ∨ 2 ^ f.fractionBits ≤ m

/-- The magnitude from which a canonical significand and exponent are read. -/
def magnitude (f : BinaryFormat) (m : ℕ) (e : ℤ) : ℕ :=
  (e - f.minExponent).toNat * 2 ^ f.fractionBits + m

theorem unpack_canonical (f : BinaryFormat) (n : ℕ) :
    f.Canonical (f.unpack n).1 (f.unpack n).2 := by
  have hpos : 0 < 2 ^ f.fractionBits := by positivity
  have hrest : n % 2 ^ f.fractionBits < 2 ^ f.fractionBits := Nat.mod_lt _ hpos
  simp only [unpack, Nat.pow_eq]
  split
  · rename_i hsmall
    exact ⟨le_rfl, by simp only [pow_succ]; omega, .inl rfl⟩
  · exact ⟨by simp only; omega, by simp only [pow_succ]; omega, .inr (Nat.le_add_right _ _)⟩

theorem magnitude_unpack (f : BinaryFormat) (n : ℕ) :
    f.magnitude (f.unpack n).1 (f.unpack n).2 = n := by
  simp only [unpack, Nat.pow_eq]
  split
  · simp [magnitude]
  · rename_i hlarge
    have hpos : 0 < 2 ^ f.fractionBits := by positivity
    have hone : 1 ≤ n / 2 ^ f.fractionBits := (Nat.one_le_div_iff hpos).mpr (by omega)
    have hsplit : n / 2 ^ f.fractionBits * 2 ^ f.fractionBits + n % 2 ^ f.fractionBits = n :=
      Nat.div_add_mod' n _
    obtain ⟨k, hk⟩ := Nat.exists_eq_add_of_le hone
    have hexponent : (f.minExponent + (n / 2 ^ f.fractionBits - 1 : ℕ) - f.minExponent).toNat = k := by
      omega
    simp only [magnitude, hexponent]
    rw [hk, Nat.add_mul, one_mul] at hsplit
    omega

theorem contains_interval_scaled {x : ℚ} (hm : 0 < m) (h : (f.interval m e).Contains x) :
    (m : ℚ) - 1 / 2 ≤ x * 2 ^ (-e) ∧ x * 2 ^ (-e) ≤ m + 1 / 2
      ∧ (m % 2 = 0 ∨ (m : ℚ) - 1 / 2 < x * 2 ^ (-e) ∧ x * 2 ^ (-e) < m + 1 / 2)
      ∧ (m = 2 ^ f.fractionBits → f.minExponent < e → (m : ℚ) - 1 / 4 ≤ x * 2 ^ (-e)) := by
  have hunit : (2 : ℚ) ^ (e - 2) * 2 ^ (-e) = 1 / 4 := by
    rw [← zpow_add₀ (by norm_num), show e - 2 + -e = -2 by ring]
    norm_num
  have hpos : (0 : ℚ) < 2 ^ (-e) := by positivity
  have hscale (n : ℚ) : n * 2 ^ (e - 2) * 2 ^ (-e) = n / 4 := by
    rw [mul_assoc, hunit]
    ring
  have hlow := mul_le_mul_of_nonneg_right h.low hpos.le
  have hhigh := mul_le_mul_of_nonneg_right h.high hpos.le
  have hstrict := h.strict.imp_right fun ⟨hl, hh⟩ =>
    And.intro (mul_lt_mul_of_pos_right hl hpos) (mul_lt_mul_of_pos_right hh hpos)
  simp only [interval, Nat.pow_eq, hscale] at hlow hhigh hstrict
  have hmiddle : ((4 * m - 2 : ℕ) : ℚ) = 4 * m - 2 := by
    rw [Nat.cast_sub (by omega)]
    push_cast
    ring
  have hnarrow : ((4 * m - 1 : ℕ) : ℚ) = 4 * m - 1 := by
    rw [Nat.cast_sub (by omega)]
    push_cast
    ring
  push_cast at hhigh hstrict
  simp only [beq_iff_eq] at hstrict
  split at hlow <;> rename_i hbelow
  · simp only [hbelow, if_true, hnarrow] at hlow hstrict
    refine ⟨by linarith, by linarith, ?_, fun _ _ => by linarith⟩
    exact hstrict.imp_right fun ⟨hl, hh⟩ => ⟨by linarith, by linarith⟩
  · simp only [hbelow, Bool.false_eq_true, if_false, hmiddle] at hlow hstrict
    refine ⟨by linarith, by linarith, ?_, fun h₁ h₂ => absurd ?_ hbelow⟩
    · exact hstrict.imp_right fun ⟨hl, hh⟩ => ⟨by linarith, by linarith⟩
    · simp [h₁, h₂]

theorem scaled_mul (x : ℚ) (e : ℤ) : x * 2 ^ (-e) * 2 ^ e = x := by
  rw [mul_assoc, ← zpow_add₀ (by norm_num), neg_add_cancel, zpow_zero, mul_one]

theorem pos_of_contains {x : ℚ} (hm : 0 < m) (h : (f.interval m e).Contains x) : 0 < x := by
  obtain ⟨hlow, -, -, -⟩ := contains_interval_scaled hm h
  have hone : (1 : ℚ) ≤ m := by exact_mod_cast hm
  rw [← scaled_mul x e]
  exact mul_pos (by linarith) (by positivity)

/-- A quotient in the rounding interval of a number is measured in the number's own units, or in
units half as large if it lies just below a power of two. -/
theorem place_of_contains {num den : ℕ} (hnum : 0 < num) (hden : 0 < den) (hm : 0 < m)
    (hc : f.Canonical m e) (h : (f.interval m e).Contains (num / den)) :
    max f.minExponent (floorLog2 num den - f.fractionBits) = e
      ∨ m = 2 ^ f.fractionBits ∧ f.minExponent < e ∧ (num : ℚ) / den * 2 ^ (-e) < m
        ∧ max f.minExponent (floorLog2 num den - f.fractionBits) = e - 1 := by
  obtain ⟨hlow, hhigh, -, hnarrow⟩ := contains_interval_scaled hm h
  have htwo : (2 : ℚ) ≠ 0 := by norm_num
  have hlower := hc.lower
  have hupper : (m : ℚ) + 1 ≤ 2 ^ ((f.fractionBits : ℤ) + 1) := by exact_mod_cast hc.upper
  have hbinade : floorLog2 num den < e + f.fractionBits + 1 := by
    apply floorLog2_lt hnum hden
    calc (num : ℚ) / den = num / den * 2 ^ (-e) * 2 ^ e := (scaled_mul _ e).symm
      _ < 2 ^ ((f.fractionBits : ℤ) + 1) * 2 ^ e := by gcongr; linarith
      _ = 2 ^ (e + f.fractionBits + 1) := by
        rw [← zpow_add₀ htwo]
        congr 1
        ring
  by_cases hplace : max f.minExponent (floorLog2 num den - f.fractionBits) = e
  · exact .inl hplace
  · have hmin : f.minExponent < e := by omega
    have hlt : (num : ℚ) / den * 2 ^ (-e) < 2 ^ (f.fractionBits : ℤ) := by
      calc (num : ℚ) / den * 2 ^ (-e) < 2 ^ (floorLog2 num den + 1) * 2 ^ (-e) := by
            have hbin := (floorLog2_spec hnum hden).2
            gcongr
        _ = 2 ^ (floorLog2 num den + 1 + -e) := by rw [← zpow_add₀ htwo]
        _ ≤ 2 ^ (f.fractionBits : ℤ) := by
          apply zpow_le_zpow_right₀ (by norm_num)
          omega
    have hpower : m = 2 ^ f.fractionBits := by
      have hge := hc.normal.resolve_left hmin.ne'
      have hlt' : (m : ℚ) < 2 ^ f.fractionBits + 1 := by
        rw [zpow_natCast] at hlt
        linarith
      have hle : m < 2 ^ f.fractionBits + 1 := by exact_mod_cast hlt'
      omega
    have hcast : (m : ℚ) = 2 ^ (f.fractionBits : ℤ) := by
      rw [hpower, zpow_natCast]
      push_cast
      rfl
    have hquarter := hnarrow hpower hmin
    have hone : (1 : ℚ) ≤ m := by exact_mod_cast hm
    have hreached : e + f.fractionBits - 1 ≤ floorLog2 num den := by
      apply le_floorLog2 hnum hden
      calc (2 : ℚ) ^ (e + f.fractionBits - 1) = m / 2 * 2 ^ e := by
            rw [hcast, zpow_sub_one₀ htwo, zpow_add₀ htwo]
            ring
        _ ≤ num / den * 2 ^ (-e) * 2 ^ e := by gcongr; linarith
        _ = num / den := scaled_mul _ e
    exact .inr ⟨hpower, hmin, hcast ▸ hlt, by omega⟩

theorem divHalfEven_of_contains {num den : ℕ} (hden : 0 < den) (hm : 0 < m)
    (h : (f.interval m e).Contains (num / den)) :
    divHalfEven (num * 2 ^ (-e).toNat) (den * 2 ^ e.toNat) = m := by
  obtain ⟨hlow, hhigh, htie, -⟩ := contains_interval_scaled hm h
  have hden' : 0 < den * 2 ^ e.toNat := by positivity
  apply divHalfEven_eq_of_abs hden' <;> rw [natCast_mul_pow_div]
  · exact_mod_cast hlow
  · exact_mod_cast hhigh
  · exact_mod_cast htie

/-- Just below a power of two, in units half as large, the nearest count is twice the
significand. -/
theorem divHalfEven_of_contains_below {num den : ℕ} (hden : 0 < den) (hm : 0 < m)
    (h : (f.interval m e).Contains (num / den)) (hpower : m = 2 ^ f.fractionBits)
    (hmin : f.minExponent < e) (hbelow : (num : ℚ) / den * 2 ^ (-e) < m) :
    divHalfEven (num * 2 ^ (-(e - 1)).toNat) (den * 2 ^ (e - 1).toNat) = 2 * m := by
  obtain ⟨-, -, -, hnarrow⟩ := contains_interval_scaled hm h
  have hquarter := hnarrow hpower hmin
  have hden' : 0 < den * 2 ^ (e - 1).toNat := by positivity
  have hdouble : (num : ℚ) / den * 2 ^ (-(e - 1)) = 2 * (num / den * 2 ^ (-e)) := by
    rw [show -(e - 1) = -e + 1 by ring, zpow_add_one₀ (by norm_num)]
    ring
  apply divHalfEven_eq_of_abs hden' <;> rw [natCast_mul_pow_div] <;>
    simp only [Nat.cast_ofNat, hdouble, Nat.cast_mul]
  · linarith
  · linarith
  · exact .inl (by omega)

theorem magnitude_below (hmin : f.minExponent < e) (hpower : m = 2 ^ f.fractionBits) :
    (e - 1 - f.minExponent).toNat * 2 ^ f.fractionBits + 2 * m = f.magnitude m e := by
  obtain ⟨n, hn⟩ := Int.eq_ofNat_of_zero_le (by omega : 0 ≤ e - 1 - f.minExponent)
  have hn' : (e - f.minExponent).toNat = n + 1 := by omega
  rw [magnitude, hn', hn, Int.toNat_natCast, Nat.succ_mul, ← hpower]
  ring

theorem round_eq_magnitude {num den : ℕ} (hden : 0 < den) (hm : 0 < m) (hc : f.Canonical m e)
    (hfinite : f.magnitude m e ≤ f.infinity) (h : (f.interval m e).Contains (num / den)) :
    f.round num den = f.magnitude m e := by
  have hquotient := pos_of_contains hm h
  have hnum : 0 < num := by
    rcases Nat.eq_zero_or_pos num with rfl | hpos
    · simp at hquotient
    · exact hpos
  simp only [round, Nat.pow_eq, hnum.ne', if_false]
  rcases place_of_contains hnum hden hm hc h with
    hplace | ⟨hpower, hmin, hbelow, hplace⟩
  · rw [hplace, divHalfEven_of_contains hden hm h]
    exact min_eq_right hfinite
  · rw [hplace, divHalfEven_of_contains_below hden hm h hpower hmin hbelow,
      magnitude_below hmin hpower]
    exact min_eq_right hfinite

end BinaryFormat

end DocumentStore.Number
