import DocumentStore.Proofs.Number.Order
import DocumentStore.Proofs.Number.Overflow
import DocumentStore.Proofs.Number.Shortest

/-! The two zeros. Main statements: the total order of finite doubles refines the order of their
values, and parts from it at the zeros only; and no number taken from one leaves negative zero. -/
namespace DocumentStore.Number

open Float.Model Float.Model.UnpackedFloat

namespace BinaryFormat

variable {f : BinaryFormat} {m m' : ℕ} {e e' : ℤ}

theorem Canonical.lt_of_magnitude_lt (h : f.Canonical m e) (h' : f.Canonical m' e')
    (hlt : f.magnitude m e < f.magnitude m' e') : (m : ℚ) * 2 ^ e < m' * 2 ^ e' := by
  have hlower := h.lower
  have hlower' := h'.lower
  have hupper := h.upper
  have hupper' := h'.upper
  rw [pow_succ] at hupper hupper'
  unfold magnitude at hlt
  rcases lt_trichotomy e e' with he | rfl | he
  · -- A larger exponent is not the least one, so that all bits of the significand are there.
    have hfull : 2 ^ f.fractionBits ≤ m' := h'.normal.resolve_left (by omega)
    have hm : (m : ℚ) < 2 ^ f.fractionBits * 2 := by exact_mod_cast hupper
    have hm' : (2 : ℚ) ^ f.fractionBits ≤ m' := by exact_mod_cast hfull
    calc (m : ℚ) * 2 ^ e < 2 ^ f.fractionBits * 2 * 2 ^ e := by gcongr
      _ = 2 ^ f.fractionBits * 2 ^ (e + 1) := by rw [zpow_add_one₀ (by norm_num)]; ring
      _ ≤ m' * 2 ^ e' := by gcongr <;> [norm_num; omega]
  · have hm : m < m' := by omega
    gcongr
  · have hfull : 2 ^ f.fractionBits ≤ m := h.normal.resolve_left (by omega)
    obtain ⟨k, hk⟩ : ∃ k, (e - f.minExponent).toNat = (e' - f.minExponent).toNat + (k + 1) :=
      ⟨(e - e' - 1).toNat, by omega⟩
    rw [hk, Nat.add_mul, Nat.add_mul, one_mul] at hlt
    omega

def magnitudeValue (f : BinaryFormat) (n : ℕ) : ℚ := (f.unpack n).1 * 2 ^ (f.unpack n).2

theorem magnitudeValue_strictMono (f : BinaryFormat) : StrictMono f.magnitudeValue := by
  intro n n' h
  refine (f.unpack_canonical n).lt_of_magnitude_lt (f.unpack_canonical n') ?_
  rwa [f.magnitude_unpack, f.magnitude_unpack]

theorem magnitudeValue_zero (f : BinaryFormat) : f.magnitudeValue 0 = 0 := by
  simp [magnitudeValue, unpack]

end BinaryFormat

def magnitudeOf (x : Float) : ℕ := x.toBits.toNat % binary64.signBit

def isNegative (x : Float) : Bool := decide (binary64.signBit ≤ x.toBits.toNat)

theorem totalKey_eq (x : Float) :
    totalKey x = if isNegative x then -(magnitudeOf x : ℤ) - 1 else magnitudeOf x := by
  have hlt := toBits_toNat_lt x
  have hsign : binary64.signBit = 9223372036854775808 := rfl
  unfold totalKey isNegative magnitudeOf
  rw [hsign] at hlt ⊢
  simp only [decide_eq_true_eq]
  split <;> split <;> omega

theorem doubleDatum_of_isFinite {x : Float} (h : x.isFinite = true) :
    doubleDatum x = .finite (isNegative x) (binary64.unpack (magnitudeOf x)).1
      (binary64.unpack (magnitudeOf x)).2 := by
  have hexponent : @unpackExponent Format.binary64 x.toBits.toBitVec ≠ -1#11 := by
    intro heq
    have hinfinite : x.isFinite = false := by
      simp only [Float.isFinite, Float.Model.isFinite, Float.Model.unpack, UnpackedFloat.unpack]
      rw [if_pos (by exact heq)]
      split <;> rfl
    rw [h] at hinfinite
    cases hinfinite
  have hsmall : x.toBits.toNat % binary64.signBit < binary64.infinity := by
    by_contra hlarge
    refine hexponent (BitVec.eq_of_toNat_eq ?_)
    simp only [unpackExponent, BitVec.toNat_cast, BitVec.extractLsb_toNat,
      Nat.shiftRight_eq_div_pow]
    simp only [binary64, BinaryFormat.signBit, BinaryFormat.infinity, Nat.pow_eq] at hlarge
    change x.toBits.toNat / 2 ^ 52 % 2 ^ 11 = 2047
    omega
  rw [doubleDatum, BinaryFormat.datum, if_pos hsmall]
  rfl

theorem value_of_isFinite {x : Float} (h : x.isFinite = true) :
    (doubleDatum x).value
      = if isNegative x then -binary64.magnitudeValue (magnitudeOf x)
        else binary64.magnitudeValue (magnitudeOf x) := by
  rw [doubleDatum_of_isFinite h, Datum.value, BinaryFormat.magnitudeValue]
  cases isNegative x <;> simp

theorem rank_of_isFinite {x : Float} (h : x.isFinite = true) : (doubleDatum x).rank = 1 := by
  rw [doubleDatum_of_isFinite h]
  rfl

theorem eq_of_magnitude {x y : Float} (hsign : isNegative x = isNegative y)
    (hmagnitude : magnitudeOf x = magnitudeOf y) : x = y := by
  apply totalKey_injective
  rw [totalKey_eq, totalKey_eq, hsign, hmagnitude]

theorem value_eq_zero_iff {x : Float} (hx : x.isFinite = true) :
    (doubleDatum x).value = 0 ↔ x = 0.0 ∨ x = -0.0 := by
  have hzero : binary64.magnitudeValue (magnitudeOf x) = 0 ↔ magnitudeOf x = 0 := by
    rw [← binary64.magnitudeValue_zero, binary64.magnitudeValue_strictMono.injective.eq_iff]
  rw [value_of_isFinite hx]
  constructor
  · intro h
    cases hsign : isNegative x <;>
      simp only [hsign, if_true, if_false, Bool.false_eq_true, neg_eq_zero, hzero] at h
    · exact .inl (eq_of_magnitude hsign h)
    · exact .inr (eq_of_magnitude hsign h)
  · rintro (rfl | rfl)
    · rw [hzero.mpr (by decide)]
      simp
    · rw [hzero.mpr (by decide)]
      simp

/-- The smaller double in the total order is the smaller number, unless both are zero. -/
theorem value_lt_of_totalKey_lt {x y : Float} (hx : x.isFinite = true) (hy : y.isFinite = true)
    (h : totalKey x < totalKey y) :
    (doubleDatum x).value < (doubleDatum y).value ∨ x = -0.0 ∧ y = 0.0 := by
  have hmono := binary64.magnitudeValue_strictMono
  rw [totalKey_eq, totalKey_eq] at h
  rw [value_of_isFinite hx, value_of_isFinite hy]
  cases hsx : isNegative x <;> cases hsy : isNegative y <;>
    simp only [hsx, hsy, if_true, if_false, Bool.false_eq_true] at h ⊢
  · exact .inl (hmono (by omega))
  · omega
  · have hzero := binary64.magnitudeValue_zero
    rcases Nat.eq_zero_or_pos (magnitudeOf x + magnitudeOf y) with hsum | hsum
    · obtain ⟨hmx, hmy⟩ := Nat.add_eq_zero_iff.mp hsum
      exact .inr ⟨eq_of_magnitude hsx hmx, eq_of_magnitude hsy hmy⟩
    · have hvx := hmono.monotone (Nat.zero_le (magnitudeOf x))
      have hvy := hmono.monotone (Nat.zero_le (magnitudeOf y))
      rw [hzero] at hvx hvy
      left
      rcases Nat.eq_zero_or_pos (magnitudeOf x) with hmx | hmx
      · have hlt := hmono (show 0 < magnitudeOf y by omega)
        rw [hzero] at hlt
        linarith
      · have hlt := hmono hmx
        rw [hzero] at hlt
        linarith
  · exact .inl (neg_lt_neg (hmono (by omega)))

theorem exponent_unpack {x : Float.Model} {s : Sign} {m : ℕ} {e : ℤ} {h : 0 < m}
    (hx : x.unpack = .finite s m e h) : -1074 ≤ e := by
  unfold Float.Model.unpack UnpackedFloat.unpack at hx
  have hbias : Format.binary64.exponentBias = 1023 := rfl
  simp only [hbias] at hx
  split at hx
  · split at hx <;> cases hx
  · split at hx
    · split at hx
      · cases hx
      · rename_i hzero _
        cases hx
        rw [hzero]
        decide
    · rename_i hzero
      cases hx
      have hpos := Nat.pos_of_ne_zero fun h => hzero (BitVec.eq_of_toNat_eq h)
      push_cast
      omega

/-- Nothing that is not zero is lost when all bits above the last place are kept. -/
theorem div_lastPlace_pos {m : ℕ} {e : ℤ} (hm : 0 < m) (he : -1074 ≤ e) :
    0 < m / 2 ^ (lastPlace m e - e).toNat := by
  refine Nat.div_pos ?_ (by positivity)
  calc 2 ^ (lastPlace m e - e).toNat ≤ 2 ^ m.log2 :=
        Nat.pow_le_pow_right two_pos (by unfold lastPlace; omega)
    _ ≤ m := Nat.log2_self_le hm.ne'

theorem pack_finite_ne_zero {m : ℕ} {e : ℤ} (h : 0 < m) (hm : m < 2 ^ 53) (he : -1074 ≤ e)
    (s s' : Sign) :
    UnpackedFloat.pack Format.binary64 (.finite s m e h) ≠ packedZero Format.binary64 s' := by
  intro hzero
  have hexponent := congrArg unpackExponent hzero
  have hmantissa := congrArg unpackMantissa hzero
  simp only [packedZero, unpackExponent_packComponents, unpackMantissa_packComponents]
    at hexponent hmantissa
  rcases le_or_gt e 971 with hle | hgt
  · rw [pack_finite hle] at hexponent hmantissa
    split at hexponent
    · rw [unpackExponent_packComponents] at hexponent
      have hbits := congrArg BitVec.toNat hexponent
      rw [BitVec.toNat_ofNat] at hbits
      change _ = 0 at hbits
      omega
    · rename_i hshort
      rw [if_neg hshort, unpackMantissa_packComponents] at hmantissa
      have hbits := congrArg BitVec.toNat hmantissa
      rw [BitVec.toNat_ofNat] at hbits
      change _ = 0 at hbits
      have hlog : m.log2 < 53 := (Nat.log2_lt h.ne').mpr hm
      have hlt : m < 2 ^ 52 := (Nat.log2_lt h.ne').mp (by omega)
      omega
  · have hlarge : 2 ^ Format.binary64.exponentBits
        ≤ (e + Format.binary64.exponentBias + Format.binary64.mantissaBitsWithoutImplicit).toNat
          + 1 := by
      simp only [Format.exponentBias]
      omega
    rw [UnpackedFloat.pack, if_pos hlarge, packedInfinity, unpackExponent_packComponents]
      at hexponent
    revert hexponent
    decide

theorem log2_mul_two_pow {m : ℕ} (hm : 0 < m) (k : ℕ) : (m * 2 ^ k).log2 = m.log2 + k := by
  rw [Nat.log2_eq_iff (by positivity), pow_add, Nat.add_right_comm, pow_add]
  constructor
  · exact Nat.mul_le_mul_right _ (Nat.log2_self_le hm.ne')
  · exact Nat.mul_lt_mul_of_pos_right Nat.lt_log2_self (by positivity)

theorem pack_round_ne_zero {m : ℕ} {e : ℤ} (hm : 0 < m) (he : -1074 ≤ e) (s s' : Sign) :
    UnpackedFloat.pack Format.binary64 (UnpackedFloat.round Format.binary64 s m e)
      ≠ packedZero Format.binary64 s' := by
  have hlow : -1074 ≤ lastPlace m e := le_max_right _ _
  obtain ⟨m', e', hm', he', hplace, hround⟩ : ∃ m' e', 0 < m' ∧ -1074 ≤ e' ∧ e' ≤ lastPlace m' e'
      ∧ UnpackedFloat.round Format.binary64 s m e = roundWithAccuracy Format.binary64 s m' e' .exact := by
    refine ⟨m * 2 ^ (e - lastPlace m e).toNat, e - (e - lastPlace m e).toNat, by positivity,
      by omega, ?_, ?_⟩
    · unfold lastPlace at hlow ⊢
      rw [log2_mul_two_pow hm]
      omega
    · rw [UnpackedFloat.round, targetExponent_eq, decreaseExponent, Nat.shiftLeft_eq]
  obtain ⟨r, hle, -, ⟨rfl, -⟩ | ⟨h, hlt, hcase⟩ | ⟨h, -, hcase⟩⟩ := roundWithAccuracy_cases s hplace
  · have hpos := div_lastPlace_pos hm' he'
    omega
  · rw [hround, hcase]
    exact pack_finite_ne_zero h hlt (le_max_right _ _) s s'
  · rw [hround, hcase]
    have hlow' : -1074 ≤ lastPlace m' e' := le_max_right _ _
    exact pack_finite_ne_zero h (by norm_num) (by omega) s s'

theorem one_sub_ne_negative_zero (x : Float) : 1.0 - x ≠ -0.0 := by
  intro heq
  have hbits : UnpackedFloat.pack Format.binary64
      (UnpackedFloat.sub Format.binary64 (.finite .positive (2 ^ 52) (-52) (by decide))
        x.toModel.unpack) = packedZero Format.binary64 .negative :=
    congrArg (fun y : Float => y.toModel.toBits.toBitVec) heq
  cases hx : x.toModel.unpack with
  | notANumber =>
    rw [hx] at hbits
    revert hbits
    decide
  | infinity s =>
    rw [hx] at hbits
    revert hbits
    cases s <;> decide
  | zero s =>
    rw [hx] at hbits
    revert hbits
    cases s <;> decide
  | finite s m e h =>
    have he := exponent_unpack hx
    rw [hx] at hbits
    -- An exact difference of zero is positive, and any other one is rounded to no zero.
    have hmin : -1074 ≤ min (-52) e := by omega
    simp only [UnpackedFloat.sub, UnpackedFloat.normalize] at hbits
    split at hbits
    · rename_i hlt
      rw [compare_lt_iff_lt] at hlt
      exact pack_round_ne_zero (by omega) hmin _ _ hbits
    · revert hbits
      decide
    · rename_i hgt
      rw [compare_gt_iff_gt] at hgt
      exact pack_round_ne_zero (by omega) hmin _ _ hbits

end DocumentStore.Number
