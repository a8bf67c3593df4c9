import DocumentStore.Json.Reader
import DocumentStore.Proofs.Number.Layout

/-! Products of doubles that do not overflow. Main statement: a natural number below `2 ^ 64` times
a power of ten is scaled to a number, as long as it stays a few last places below the largest
double. The two factors and their product are each rounded by less than a last place, which is what
the places below the largest double are for. -/
namespace DocumentStore.Number

open Float.Model Float.Model.UnpackedFloat

theorem mantissa_shiftRight (em : ExtendedMantissa) (n : ℕ) :
    (em >>> n).mantissa = em.mantissa / 2 ^ n := by
  induction n generalizing em with
  | zero => simp [HShiftRight.hShiftRight, Nat.repeat]
  | succ n ih =>
    change (em >>> n).mantissa / 2 = _
    rw [ih, Nat.div_div_eq_div_mul, pow_succ]

theorem roundedMantissa_bounds (em : ExtendedMantissa) :
    em.mantissa ≤ em.roundedMantissa ∧ em.roundedMantissa ≤ em.mantissa + 1 := by
  obtain ⟨m, round, sticky⟩ := em
  cases round <;> cases sticky <;>
    simp [ExtendedMantissa.roundedMantissa, ExtendedMantissa.accuracy, Accuracy.roundToNearestEven]
  omega

/-- Where the last place of a double stands that is nearest to `m * 2 ^ e`. -/
def lastPlace (m : ℕ) (e : ℤ) : ℤ := max ((m.log2 : ℤ) + e - 52) (-1074)

theorem targetExponent_eq (m : ℕ) (e : ℤ) :
    Format.binary64.targetExponent (totalExponent m e) = lastPlace m e := by
  simp only [Format.targetExponent, totalExponent, Format.mantissaBits, Format.minExponent, lastPlace]
  norm_num
  ring_nf

theorem shiftToTargetExponent_fst (m : ℕ) (e : ℤ) :
    (shiftToTargetExponent Format.binary64 m e .exact).1.mantissa
      = m / 2 ^ (lastPlace m e - e).toNat := by
  rw [shiftToTargetExponent, shiftToExponent, targetExponent_eq]
  simp only
  rw [mantissa_shiftRight]
  rfl

theorem shiftToTargetExponent_snd (m : ℕ) (e : ℤ) :
    (shiftToTargetExponent Format.binary64 m e .exact).2 = e + (lastPlace m e - e).toNat := by
  rw [shiftToTargetExponent, shiftToExponent, targetExponent_eq]

theorem div_lastPlace_lt {m : ℕ} {e : ℤ} : m / 2 ^ (lastPlace m e - e).toNat < 2 ^ 53 := by
  rw [Nat.div_lt_iff_lt_mul (by positivity), ← pow_add]
  refine Nat.lt_log2_self.trans_le (Nat.pow_le_pow_right two_pos ?_)
  unfold lastPlace
  omega

theorem lastPlace_of_short {r : ℕ} {e : ℤ} (hr : r < 2 ^ 53) (he : -1074 ≤ e) :
    (lastPlace r e - e).toNat = 0 := by
  have hlog : r.log2 < 53 := by
    rcases Nat.eq_zero_or_pos r with rfl | hpos
    · decide
    · exact (Nat.log2_lt hpos.ne').mpr hr
  rw [lastPlace]
  omega

theorem lastPlace_of_full {e : ℤ} (he : -1074 ≤ e) : (lastPlace (2 ^ 53) e - e).toNat = 1 := by
  have hlog : Nat.log2 (2 ^ 53) = 53 := by decide
  rw [lastPlace, hlog]
  omega

/-- A product is rounded to a neighbour of its quotient by the last place, and becomes shorter by a
bit if that neighbour has grown too long. -/
theorem roundWithAccuracy_cases (s : Sign) {m : ℕ} {e : ℤ} (he : e ≤ lastPlace m e) :
    ∃ r, m / 2 ^ (lastPlace m e - e).toNat ≤ r ∧ r ≤ m / 2 ^ (lastPlace m e - e).toNat + 1
      ∧ ((r = 0 ∧ roundWithAccuracy Format.binary64 s m e .exact = .zero s)
        ∨ (∃ h, r < 2 ^ 53
          ∧ roundWithAccuracy Format.binary64 s m e .exact = .finite s r (lastPlace m e) h)
        ∨ (∃ h, r = 2 ^ 53
          ∧ roundWithAccuracy Format.binary64 s m e .exact
            = .finite s (2 ^ 52) (lastPlace m e + 1) h)) := by
  have hfst := shiftToTargetExponent_fst m e
  have hsnd := shiftToTargetExponent_snd m e
  rw [Int.toNat_of_nonneg (by omega), add_sub_cancel] at hsnd
  have hshort := @div_lastPlace_lt m e
  have hlow : -1074 ≤ lastPlace m e := le_max_right _ _
  -- the first shift leaves the quotient and its rest, of which the rest is rounded
  rw [roundWithAccuracy]
  generalize shiftToTargetExponent Format.binary64 m e .exact = first at hfst hsnd
  obtain ⟨em, e₁⟩ := first
  simp only at hfst hsnd
  subst hsnd
  obtain ⟨hle, hge⟩ := roundedMantissa_bounds em
  rw [hfst] at hle hge
  refine ⟨em.roundedMantissa, hle, hge, ?_⟩
  -- the second one takes a bit off what has grown to 54 bits
  have hfst' := shiftToTargetExponent_fst em.roundedMantissa (lastPlace m e)
  have hsnd' := shiftToTargetExponent_snd em.roundedMantissa (lastPlace m e)
  simp only
  generalize shiftToTargetExponent Format.binary64 em.roundedMantissa (lastPlace m e) .exact = second
    at hfst' hsnd'
  obtain ⟨em₂, e₂⟩ := second
  simp only at hfst' hsnd' ⊢
  generalize em.roundedMantissa = r at hle hge hfst' hsnd'
  rcases Nat.lt_or_ge r (2 ^ 53) with hr | hr
  · rw [lastPlace_of_short hr hlow] at hfst' hsnd'
    simp only [pow_zero, Nat.div_one, Nat.cast_zero, add_zero] at hfst' hsnd'
    subst hsnd'
    rcases Nat.eq_zero_or_pos r with rfl | hpos
    · exact .inl ⟨rfl, by simp [hfst']⟩
    · refine .inr (.inl ⟨hpos, hr, ?_⟩)
      simp [hfst', hpos.ne']
  · obtain rfl : r = 2 ^ 53 := by omega
    rw [lastPlace_of_full hlow] at hfst' hsnd'
    refine .inr (.inr ⟨by positivity, rfl, ?_⟩)
    simp [hfst', hsnd']

/-- A significand with all its bits is rounded to another one, larger by less than a last place. -/
theorem roundWithAccuracy_of_long (s : Sign) {m : ℕ} {e : ℤ} (hm : 2 ^ 52 ≤ m) (he : -1074 ≤ e) :
    ∃ r p h, roundWithAccuracy Format.binary64 s m e .exact = .finite s r p h
      ∧ 2 ^ 52 ≤ r ∧ r < 2 ^ 53 ∧ e ≤ p ∧ (r : ℚ) * 2 ^ p ≤ m * 2 ^ e * (1 + 1 / 2 ^ 52) := by
  have hlog : 52 ≤ m.log2 := (Nat.le_log2 (by omega)).mpr hm
  obtain ⟨k, hk⟩ := Nat.exists_eq_add_of_le hlog
  have hplace : lastPlace m e = e + k := by
    rw [lastPlace, hk]
    omega
  obtain ⟨r, hlow, hhigh, hcases⟩ :=
    roundWithAccuracy_cases s (m := m) (e := e) (by rw [hplace]; omega)
  rw [hplace, add_sub_cancel_left, Int.toNat_natCast] at hlow hhigh
  have hfull : 2 ^ 52 * 2 ^ k ≤ m := by
    rw [← pow_add, ← hk]
    exact Nat.log2_self_le (by omega)
  have hquotient : 2 ^ 52 ≤ m / 2 ^ k := (Nat.le_div_iff_mul_le (by positivity)).mpr hfull
  have hbound : (r : ℚ) * 2 ^ (e + k) ≤ m * 2 ^ e * (1 + 1 / 2 ^ 52) := by
    have hnat : r * 2 ^ k ≤ m + 2 ^ k := by
      calc r * 2 ^ k ≤ (m / 2 ^ k + 1) * 2 ^ k := Nat.mul_le_mul_right _ hhigh
        _ = m / 2 ^ k * 2 ^ k + 2 ^ k := Nat.succ_mul _ _
        _ ≤ m + 2 ^ k := Nat.add_le_add_right (Nat.div_mul_le_self m _) _
    have hcount : (r : ℚ) * 2 ^ k ≤ m + 2 ^ k := by exact_mod_cast hnat
    have hplaces : (2 : ℚ) ^ k ≤ m / 2 ^ 52 := by
      rw [le_div_iff₀ (by positivity), mul_comm]
      exact_mod_cast hfull
    calc (r : ℚ) * 2 ^ (e + k) = r * 2 ^ k * 2 ^ e := by
          rw [zpow_add₀ (by norm_num), zpow_natCast]
          ring
      _ ≤ (m + m / 2 ^ 52) * 2 ^ e := by gcongr; linarith
      _ = m * 2 ^ e * (1 + 1 / 2 ^ 52) := by ring
  rw [hplace] at hcases
  rcases hcases with ⟨rfl, -⟩ | ⟨h, hlt, hround⟩ | ⟨h, rfl, hround⟩
  · omega
  · exact ⟨r, e + k, h, hround, by omega, hlt, by omega, hbound⟩
  · refine ⟨2 ^ 52, e + k + 1, h, hround, le_rfl, by norm_num, by omega, ?_⟩
    calc ((2 ^ 52 : ℕ) : ℚ) * 2 ^ (e + k + 1) = ((2 ^ 53 : ℕ) : ℚ) * 2 ^ (e + k) := by
          rw [zpow_add_one₀ (by norm_num)]
          push_cast
          ring
      _ ≤ m * 2 ^ e * (1 + 1 / 2 ^ 52) := hbound

/-- A double of which the value stays below the range has an exponent within it. -/
theorem exponent_le_of_value_lt {m : ℕ} {e : ℤ} (hm : 2 ^ 52 ≤ m)
    (h : (m : ℚ) * 2 ^ e < 2 ^ (1024 : ℤ)) : e ≤ 971 := by
  have hm' : (2 : ℚ) ^ (52 : ℤ) ≤ m := by exact_mod_cast hm
  have hpow : (2 : ℚ) ^ (52 + e) < 2 ^ (1024 : ℤ) := by
    calc (2 : ℚ) ^ (52 + e) = 2 ^ (52 : ℤ) * 2 ^ e := zpow_add₀ (by norm_num) _ _
      _ ≤ m * 2 ^ e := by gcongr
      _ < 2 ^ (1024 : ℤ) := h
  have := (zpow_lt_zpow_iff_right₀ (by norm_num : (1 : ℚ) < 2)).mp hpow
  omega

theorem ofNat_spec {n : ℕ} (hn : 0 < n) :
    ∃ m e h, UnpackedFloat.ofNat Format.binary64 n = .finite .positive m e h
      ∧ 2 ^ 52 ≤ m ∧ m < 2 ^ 53 ∧ -52 ≤ e ∧ (m : ℚ) * 2 ^ e ≤ n * (1 + 1 / 2 ^ 52) := by
  have hshift : (-lastPlace n 0).toNat = 52 - n.log2 := by
    rw [lastPlace]
    omega
  have hround : UnpackedFloat.ofNat Format.binary64 n
      = roundWithAccuracy Format.binary64 .positive (n * 2 ^ (52 - n.log2))
        (-(52 - n.log2 : ℕ)) .exact := by
    have hcompare : compare (n : ℤ) 0 = .gt := by
      rw [compare_gt_iff_gt]
      omega
    simp only [UnpackedFloat.ofNat, UnpackedFloat.ofInt, UnpackedFloat.normalize, hcompare, Int.toNat_natCast,
      UnpackedFloat.round, decreaseExponent, targetExponent_eq, zero_sub, hshift, Nat.shiftLeft_eq]
  have hlong : 2 ^ 52 ≤ n * 2 ^ (52 - n.log2) := by
    calc 2 ^ 52 ≤ 2 ^ (n.log2 + (52 - n.log2)) := Nat.pow_le_pow_right two_pos (by omega)
      _ = 2 ^ n.log2 * 2 ^ (52 - n.log2) := pow_add _ _ _
      _ ≤ n * 2 ^ (52 - n.log2) := Nat.mul_le_mul_right _ (Nat.log2_self_le hn.ne')
  obtain ⟨m, e, h, hcast, hm, hm', he, hvalue⟩ :=
    roundWithAccuracy_of_long .positive hlong (e := -(52 - n.log2 : ℕ)) (by omega)
  refine ⟨m, e, h, hround.trans hcast, hm, hm', by omega, hvalue.trans_eq ?_⟩
  push_cast
  rw [mul_assoc (n : ℚ), zpow_neg, zpow_natCast, mul_inv_cancel₀ (by positivity), mul_one]

theorem pack_finite {m : ℕ} {e : ℤ} (he : e ≤ 971) (s : Sign) (h : 0 < m) :
    UnpackedFloat.pack Format.binary64 (.finite s m e h)
      = if m.log2 = 52 then
          packComponents Format.binary64 s (BitVec.ofNat 11 (e + 1075).toNat) (BitVec.ofNat 52 m)
        else packComponents Format.binary64 s 0#11 (BitVec.ofNat 52 m) := by
  have hbiased : e + (Format.binary64.exponentBias : ℤ) + (52 : ℕ) = e + 1075 := by
    simp only [Format.exponentBias]
    omega
  have hfits : ¬2 ^ 11 ≤ (e + 1075).toNat + 1 := by omega
  have hbits : Format.binary64.mantissaBits = 52 + 1 := rfl
  simp only [UnpackedFloat.pack, hbiased, hfits, if_false, hbits, Nat.add_right_cancel_iff]

theorem ofNat_ne_neg_one {n : ℕ} (hn : n < 2047) : BitVec.ofNat 11 n ≠ -1#_ := by
  intro h
  have hnat := congrArg BitVec.toNat h
  rw [BitVec.toNat_ofNat, Nat.mod_eq_of_lt (by omega)] at hnat
  have hones : (-1#11).toNat = 2047 := by decide
  omega

theorem unpackExponent_ne {m : ℕ} {e : ℤ} (he : e ≤ 971) (s : Sign) (h : 0 < m) :
    unpackExponent (UnpackedFloat.pack Format.binary64 (.finite s m e h)) ≠ -1#_ := by
  rw [pack_finite he]
  split
  · rw [unpackExponent_packComponents]
    exact ofNat_ne_neg_one (by omega)
  · rw [unpackExponent_packComponents]
    decide

theorem isInf_pack_finite {m : ℕ} {e : ℤ} (he : e ≤ 971) (s : Sign) (h : 0 < m) :
    (Float.Model.pack (.finite s m e h)).isInf = false := by
  have hne := unpackExponent_ne he s h
  rw [Float.Model.isInf, Float.Model.unpack, Float.Model.pack, UnpackedFloat.unpack]
  simp only [hne, if_false]
  split
  · split <;> rfl
  · rfl

theorem isInf_pack_zero (s : Sign) : (Float.Model.pack (.zero s)).isInf = false := by
  cases s <;> decide

theorem unpackSign_packComponents (exponent : BitVec 11) (mantissa : BitVec 52) (s : Sign) :
    unpackSign (packComponents Format.binary64 s exponent mantissa) = s.toBitVec := by
  change (s.toBitVec ++ exponent ++ mantissa).extractLsb' 63 1 = _
  rw [BitVec.extractLsb'_append_eq_of_le (by decide), BitVec.extractLsb'_append_eq_of_le (by decide)]
  cases s <;> decide

theorem unpack_pack {m : ℕ} {e : ℤ} (hm : 2 ^ 52 ≤ m) (hm' : m < 2 ^ 53) (he : -1074 ≤ e)
    (he' : e ≤ 971) (h : 0 < m) :
    (Float.Model.pack (.finite .positive m e h)).unpack = .finite .positive m e h := by
  have hlog : m.log2 = 52 := (Nat.log2_eq_iff h.ne').mpr ⟨hm, hm'⟩
  have hexponent : (BitVec.ofNat 11 (e + 1075).toNat).toNat = (e + 1075).toNat := by
    rw [BitVec.toNat_ofNat, Nat.mod_eq_of_lt (by omega)]
  have hzero : BitVec.ofNat 11 (e + 1075).toNat ≠ 0#11 := by
    intro hz
    rw [hz] at hexponent
    simp at hexponent
    omega
  have hmantissa : (1#1 ++ BitVec.ofNat 52 m).toNat = m := by
    rw [BitVec.toNat_append, ← Nat.shiftLeft_add_eq_or_of_lt (BitVec.isLt _), Nat.shiftLeft_eq,
      BitVec.toNat_ofNat m 52]
    change 1 * 2 ^ 52 + _ = _
    omega
  have hplace : ((e + 1075).toNat : ℤ)
      - (Format.binary64.exponentBias + Format.binary64.mantissaBitsWithoutImplicit) = e := by
    simp only [Format.exponentBias]
    omega
  change UnpackedFloat.unpack Format.binary64
    (UnpackedFloat.pack Format.binary64 (.finite .positive m e h)) = _
  rw [pack_finite he', if_pos hlog, UnpackedFloat.unpack]
  simp only [unpackExponent_packComponents, unpackMantissa_packComponents,
    unpackSign_packComponents, ofNat_ne_neg_one (show (e + 1075).toNat < 2047 by omega), hzero,
    if_false, hmantissa, hexponent, hplace]
  rfl

/-- Whether a double is positive, has all its bits and is larger than some number by less than a
last place. -/
def IsRoundedFrom (x : Float) (v : ℚ) : Prop :=
  ∃ m e h, x.toModel.unpack = .finite .positive m e h ∧ 2 ^ 52 ≤ m ∧ -53 ≤ e
    ∧ (m : ℚ) * 2 ^ e ≤ v * (1 + 1 / 2 ^ 52)

theorem isRoundedFrom_pack {m : ℕ} {e : ℤ} {v : ℚ} (h : 0 < m) (hm : 2 ^ 52 ≤ m) (hm' : m < 2 ^ 53)
    (he : -53 ≤ e) (hvalue : (m : ℚ) * 2 ^ e ≤ v * (1 + 1 / 2 ^ 52)) (hv : v ≤ 2 ^ (1022 : ℤ) * 3) :
    IsRoundedFrom (.ofModel (Float.Model.pack (.finite .positive m e h))) v := by
  have hrange : (m : ℚ) * 2 ^ e < 2 ^ (1024 : ℤ) := by
    calc (m : ℚ) * 2 ^ e ≤ 2 ^ (1022 : ℤ) * 3 * (1 + 1 / 2 ^ 52) := hvalue.trans (by gcongr)
      _ = 2 ^ (1022 : ℤ) * (3 * (1 + 1 / 2 ^ 52)) := mul_assoc _ _ _
      _ < 2 ^ (1022 : ℤ) * 2 ^ (2 : ℤ) := by gcongr; norm_num
      _ = 2 ^ (1024 : ℤ) := (zpow_add₀ (by norm_num) 1022 2).symm
  exact ⟨m, e, h, unpack_pack hm hm' (by omega) (exponent_le_of_value_lt hm hrange) h, hm, he, hvalue⟩

theorem isRoundedFrom_toFloat {n : ℕ} (hn : 0 < n) (hfits : n < 2 ^ 64) :
    IsRoundedFrom n.toUInt64.toFloat n := by
  obtain ⟨m, e, h, hcast, hm, hm', he, hvalue⟩ := ofNat_spec hn
  have hnat : n.toUInt64.toNat = n := UInt64.toNat_ofNat_of_lt' hfits
  have hfloat : n.toUInt64.toFloat = .ofModel (Float.Model.pack (.finite .positive m e h)) := by
    rw [UInt64.toFloat, Float.Model.ofUInt64, UnpackedFloat.ofUInt64, hnat, hcast]
  rw [hfloat]
  refine isRoundedFrom_pack h hm hm' (by omega) hvalue ?_
  calc (n : ℚ) ≤ 2 ^ (64 : ℤ) := by exact_mod_cast hfits.le
    _ ≤ 2 ^ (1022 : ℤ) := zpow_le_zpow_right₀ (by norm_num) (by norm_num)
    _ ≤ 2 ^ (1022 : ℤ) * 3 := le_mul_of_one_le_right (by positivity) (by norm_num)

def isExactPower (k : ℕ) : Bool :=
  match (Json.powerOfTen k).toModel.unpack with
  | .finite .positive m e _ =>
    decide (2 ^ 52 ≤ m) && decide (-53 ≤ e) && decide (m * 2 ^ e.toNat = 10 ^ k * 2 ^ (-e).toNat)
  | _ => false

theorem isExactPower_of_le : ∀ k ≤ 22, isExactPower k = true := by decide +kernel

theorem powerOfTen_eq {k : ℕ} (hlow : 22 < k) (hhigh : k ≤ 308) :
    Json.powerOfTen k = .ofModel (Float.Model.pack
      (roundWithAccuracy Format.binary64 .positive (2 ^ 53 * 10 ^ k) (-53) .exact)) := by
  have hslow : ¬(1 < 2 ^ 53 ∧ k ≤ 22) := by omega
  have hfits : ¬(k : ℤ) > 2 ^ Format.binary64.exponentBits := by
    change ¬(k : ℤ) > 2 ^ 11
    omega
  have hnonneg : ¬(k : ℤ) < -(2 ^ Format.binary64.exponentBits + (Nat.log2 1 : ℤ)) := by
    have hpow : (0 : ℤ) ≤ 2 ^ Format.binary64.exponentBits := by positivity
    omega
  rw [Json.powerOfTen, Float.ofScientific, dif_neg hslow]
  simp only [Bool.false_eq_true, if_false, Float.Model.ofScientific, UnpackedFloat.ofScientific,
    Int.ofNat_eq_natCast, hfits, hnonneg, one_ne_zero, dif_neg, not_false_eq_true,
    Int.natCast_nonneg, if_true, UnpackedFloat.mul, Int.toNat_natCast]
  rfl

theorem natCast_pow_le {a b c m n : ℕ} (h : a ^ m ≤ b ^ n * c) : (a : ℚ) ^ m ≤ b ^ n * c := by
  exact_mod_cast h

theorem isRoundedFrom_powerOfTen {k : ℕ} (hk : k ≤ 308) :
    IsRoundedFrom (Json.powerOfTen k) (10 ^ k) := by
  rcases Nat.lt_or_ge 22 k with hlarge | hsmall
  · have hlong : 2 ^ 52 ≤ 2 ^ 53 * 10 ^ k :=
      (Nat.pow_le_pow_right two_pos (by omega)).trans (Nat.le_mul_of_pos_right _ (by positivity))
    obtain ⟨m, e, h, hround, hm, hm', he, hvalue⟩ :=
      roundWithAccuracy_of_long .positive hlong (e := -53) (by omega)
    have hexact : ((2 ^ 53 * 10 ^ k : ℕ) : ℚ) * 2 ^ (-53 : ℤ) = 10 ^ k := by
      push_cast
      rw [zpow_neg]
      field_simp
      norm_num
    rw [hexact] at hvalue
    rw [powerOfTen_eq hlarge hk, hround]
    refine isRoundedFrom_pack h hm hm' (by omega) hvalue ?_
    calc (10 : ℚ) ^ k ≤ 10 ^ 308 := pow_le_pow_right₀ (by norm_num) hk
      _ ≤ 2 ^ 1022 * 3 := natCast_pow_le (a := 10) (b := 2) (c := 3) (by decide +kernel)
      _ = 2 ^ (1022 : ℤ) * 3 := by rw [← zpow_natCast]; rfl
  · have hexact := isExactPower_of_le k hsmall
    unfold isExactPower at hexact
    split at hexact
    · rename_i m e h hunpack
      simp only [Bool.and_eq_true, decide_eq_true_eq] at hexact
      obtain ⟨⟨hm, he⟩, hvalue⟩ := hexact
      refine ⟨m, e, h, hunpack, hm, he, ?_⟩
      have heq : (m : ℚ) * 2 ^ e = 10 ^ k := by
        rw [← pow_toNat_div 2 e, mul_div_assoc', div_eq_iff (by positivity)]
        exact_mod_cast hvalue
      rw [heq]
      exact le_mul_of_one_le_right (by positivity) (by norm_num)
    · cases hexact

theorem toModel_mul (x y : Float) : (x * y).toModel
    = Float.Model.pack (UnpackedFloat.mul Format.binary64 x.toModel.unpack y.toModel.unpack) := rfl

/-- A number below which two factors that are rounded, and a product that is rounded in turn, stay
within the range of doubles. -/
def safeBound : ℚ := (2 ^ 53 - 6) * 2 ^ (971 : ℤ)

theorem safeBound_le : safeBound ≤ 2 ^ (1024 : ℤ) := by
  calc safeBound ≤ 2 ^ (53 : ℤ) * 2 ^ (971 : ℤ) := by
        rw [safeBound]
        gcongr
        norm_num
    _ = 2 ^ (1024 : ℤ) := (zpow_add₀ (by norm_num) 53 971).symm

theorem isInf_mul {x y : Float} {v w : ℚ} (hx : IsRoundedFrom x v) (hy : IsRoundedFrom y w)
    (hv : 0 ≤ v) (h : v * w < safeBound) : (x * y).isInf = false := by
  obtain ⟨m, e, hpos, hunpack, hm, he, hvalue⟩ := hx
  obtain ⟨m', e', hpos', hunpack', hm', he', hvalue'⟩ := hy
  have hlong : 2 ^ 52 ≤ m * m' := hm.trans (Nat.le_mul_of_pos_right _ hpos')
  obtain ⟨r, p, h₀, hround, hr, -, -, hproduct⟩ :=
    roundWithAccuracy_of_long (.positive * .positive) hlong (e := e + e') (by omega)
  have hrange : (r : ℚ) * 2 ^ p < 2 ^ (1024 : ℤ) := by
    calc (r : ℚ) * 2 ^ p ≤ (m * m' : ℕ) * 2 ^ (e + e') * (1 + 1 / 2 ^ 52) := hproduct
      _ = m * 2 ^ e * (m' * 2 ^ e') * (1 + 1 / 2 ^ 52) := by
        rw [zpow_add₀ (by norm_num)]
        push_cast
        ring
      _ ≤ v * (1 + 1 / 2 ^ 52) * (w * (1 + 1 / 2 ^ 52)) * (1 + 1 / 2 ^ 52) := by gcongr
      _ = v * w * (1 + 1 / 2 ^ 52) ^ 3 := by ring
      _ ≤ safeBound * (1 + 1 / 2 ^ 52) ^ 3 := by gcongr
      _ = (2 ^ 53 - 6) * (1 + 1 / 2 ^ 52) ^ 3 * 2 ^ (971 : ℤ) := by
        rw [safeBound]
        ring
      _ < 2 ^ (53 : ℤ) * 2 ^ (971 : ℤ) := by gcongr; norm_num
      _ = 2 ^ (1024 : ℤ) := (zpow_add₀ (by norm_num) 53 971).symm
  rw [Float.isInf, toModel_mul, hunpack, hunpack', UnpackedFloat.mul, hround]
  exact isInf_pack_finite (exponent_le_of_value_lt hr hrange) _ h₀

theorem isInf_zero_mul {y : Float} {w : ℚ} (hy : IsRoundedFrom y w) :
    ((0 : ℕ).toUInt64.toFloat * y).isInf = false := by
  obtain ⟨m, e, hpos, hunpack, -⟩ := hy
  have hzero : (0 : ℕ).toUInt64.toFloat.toModel.unpack = .zero .positive := rfl
  rw [Float.isInf, toModel_mul, hzero, hunpack, UnpackedFloat.mul]
  exact isInf_pack_zero _

/-- A significand that fits 64 bits is scaled to a number if that number is not too large. -/
theorem scaleReal_isSome {significand : ℕ} {exponent : ℤ} (hfits : significand < 2 ^ 64)
    (h : (significand : ℚ) * 10 ^ exponent < safeBound) :
    (Json.scaleReal significand exponent).isSome := by
  unfold Json.scaleReal
  simp only
  split
  · rename_i hsign
    split
    · rename_i hhigh
      have hpower := isRoundedFrom_powerOfTen (k := exponent.toNat) (by omega)
      have hinf : (significand.toUInt64.toFloat * Json.powerOfTen exponent.toNat).isInf = false := by
        rcases Nat.eq_zero_or_pos significand with rfl | hpos
        · exact isInf_zero_mul hpower
        · refine isInf_mul (isRoundedFrom_toFloat hpos hfits) hpower (by positivity) ?_
          rwa [← zpow_natCast, Int.toNat_of_nonneg hsign]
      rw [hinf]
      rfl
    · rename_i hhigh
      have hzero : significand = 0 := by
        by_contra hpos
        have hone : (1 : ℚ) ≤ significand := by exact_mod_cast Nat.pos_of_ne_zero hpos
        refine absurd h (not_lt.mpr ?_)
        calc safeBound ≤ 2 ^ (1024 : ℤ) := safeBound_le
          _ = 2 ^ 1024 := zpow_natCast 2 1024
          _ ≤ 10 ^ 309 * 1 := natCast_pow_le (a := 2) (b := 10) (c := 1) (by decide +kernel)
          _ = 10 ^ (309 : ℤ) := (mul_one _).trans (zpow_natCast 10 309).symm
          _ ≤ 10 ^ exponent := zpow_le_zpow_right₀ (by norm_num) (by omega)
          _ ≤ significand * 10 ^ exponent := le_mul_of_one_le_left (by positivity) hone
      have hequal : ((0 : ℕ).toUInt64.toFloat == 0) = true := by decide
      rw [hzero, hequal]
      rfl
  · rfl

end DocumentStore.Number
