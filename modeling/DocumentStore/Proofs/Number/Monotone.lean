import DocumentStore.Proofs.Number.Zeros

/-! Rounding keeps the order of the numbers that are rounded. Main statement: doubles that are
nearest to two rational numbers stand in the order of these numbers, whether they are exact, rounded
or infinite. -/
namespace DocumentStore.Number

theorem divHalfEven_bounds (num : ℕ) {den : ℕ} (hden : 0 < den) :
    (divHalfEven num den : ℚ) - 1 / 2 ≤ num / den ∧ (num : ℚ) / den ≤ divHalfEven num den + 1 / 2
      ∧ (divHalfEven num den % 2 = 0
        ∨ (divHalfEven num den : ℚ) - 1 / 2 < num / den
          ∧ (num : ℚ) / den < divHalfEven num den + 1 / 2) := by
  have hden' : (0 : ℚ) < den := by exact_mod_cast hden
  have hsplit : (num : ℚ) / den = (num / den : ℕ) + (num % den : ℕ) / den := by
    field_simp
    exact_mod_cast (Nat.div_add_mod num den).symm
  have hrest : ((num % den : ℕ) : ℚ) / den < 1 := by
    rw [div_lt_one hden']
    exact_mod_cast Nat.mod_lt num hden
  have hhalf : ((num % den : ℕ) : ℚ) / den < 1 / 2 ↔ 2 * (num % den) < den := by
    rw [div_lt_div_iff₀ hden' two_pos, ← Nat.cast_lt (α := ℚ)]
    push_cast
    rw [one_mul, mul_comm]
  have hover : (1 : ℚ) / 2 < ((num % den : ℕ) : ℚ) / den ↔ den < 2 * (num % den) := by
    rw [div_lt_div_iff₀ two_pos hden', ← Nat.cast_lt (α := ℚ)]
    push_cast
    rw [one_mul, mul_comm]
  have hnonneg : (0 : ℚ) ≤ ((num % den : ℕ) : ℚ) / den := by positivity
  rw [hsplit]
  generalize ((num % den : ℕ) : ℚ) / den = r at hrest hhalf hover hnonneg
  unfold divHalfEven
  simp only
  split
  · rename_i hlow
    have hr := hhalf.mpr hlow
    exact ⟨by linarith, by linarith, .inr ⟨by linarith, by linarith⟩⟩
  · rename_i hlow
    split
    · rename_i hhigh
      have hr := hover.mpr hhigh
      push_cast
      exact ⟨by linarith, by linarith, .inr ⟨by linarith, by linarith⟩⟩
    · rename_i hhigh
      have hr : r = 1 / 2 :=
        le_antisymm (not_lt.mp (mt hover.mp hhigh)) (not_lt.mp (mt hhalf.mp hlow))
      have hparity : ((num / den % 2 : ℕ) : ℚ) = 0 ∨ ((num / den % 2 : ℕ) : ℚ) = 1 := by
        rcases Nat.mod_two_eq_zero_or_one (num / den) with h | h <;> simp [h]
      push_cast [hr]
      refine ⟨?_, ?_, .inl (by omega)⟩
      · rcases hparity with h | h <;> linarith
      · rcases hparity with h | h <;> linarith

theorem divHalfEven_mono {num den num' den' : ℕ} (hden : 0 < den) (hden' : 0 < den')
    (h : (num : ℚ) / den ≤ num' / den') : divHalfEven num den ≤ divHalfEven num' den' := by
  obtain ⟨hlow, -, htie⟩ := divHalfEven_bounds num hden
  obtain ⟨-, hhigh', htie'⟩ := divHalfEven_bounds num' hden'
  by_contra hlt
  -- Two counts the wrong way round would be neighbours, both of them even.
  have hnext : ((divHalfEven num' den' : ℕ) : ℚ) + 1 ≤ divHalfEven num den := by
    exact_mod_cast Nat.succ_le_of_lt (not_le.mp hlt)
  have heven := htie.resolve_right fun ⟨hl, _⟩ => by linarith
  have heven' := htie'.resolve_right fun ⟨_, hh⟩ => by linarith
  have hle : (divHalfEven num den : ℚ) ≤ divHalfEven num' den' + 1 := by linarith
  have hle' : divHalfEven num den ≤ divHalfEven num' den' + 1 := by exact_mod_cast hle
  omega

theorem divHalfEven_one (n : ℕ) : divHalfEven n 1 = n := by
  simp [divHalfEven, Nat.mod_one]

namespace BinaryFormat

variable {f : BinaryFormat}

theorem floorLog2_mono {num den num' den' : ℕ} (hnum : 0 < num) (hden : 0 < den)
    (hden' : 0 < den') (h : (num : ℚ) / den ≤ num' / den') :
    floorLog2 num den ≤ floorLog2 num' den' := by
  have hnum' : 0 < num' := by
    by_contra hzero
    obtain rfl : num' = 0 := by omega
    have hpos : (0 : ℚ) < num / den := by positivity
    simp only [Nat.cast_zero, zero_div] at h
    linarith
  exact le_floorLog2 hnum' hden' ((floorLog2_spec hnum hden).1.trans h)

theorem round_mono {num den num' den' : ℕ} (hden : 0 < den) (hden' : 0 < den')
    (h : (num : ℚ) / den ≤ num' / den') : f.round num den ≤ f.round num' den' := by
  rcases Nat.eq_zero_or_pos num with rfl | hnum
  · simp [round]
  have hnum' : 0 < num' := by
    by_contra hzero
    obtain rfl : num' = 0 := by omega
    have hpos : (0 : ℚ) < num / den := by positivity
    simp only [Nat.cast_zero, zero_div] at h
    linarith
  have hlog := floorLog2_mono hnum hden hden' h
  simp only [round, Nat.pow_eq, hnum.ne', hnum'.ne', if_false]
  obtain ⟨e, he⟩ : ∃ e, max f.minExponent (floorLog2 num den - f.fractionBits) = e := ⟨_, rfl⟩
  obtain ⟨e', he'⟩ : ∃ e, max f.minExponent (floorLog2 num' den' - f.fractionBits) = e := ⟨_, rfl⟩
  rw [he, he']
  apply min_le_min_left
  rcases (show e ≤ e' by omega).eq_or_lt with rfl | hlt
  · have hcount : divHalfEven (num * 2 ^ (-e).toNat) (den * 2 ^ e.toNat)
        ≤ divHalfEven (num' * 2 ^ (-e).toNat) (den' * 2 ^ e.toNat) := by
      apply divHalfEven_mono (by positivity) (by positivity)
      rw [natCast_mul_pow_div, natCast_mul_pow_div]
      gcongr
    omega
  · -- Below a power of two there are at most so many units; from it on there are at least half as many.
    have hsmall : divHalfEven (num * 2 ^ (-e).toNat) (den * 2 ^ e.toNat)
        ≤ 2 ^ (f.fractionBits + 1) := by
      rw [← divHalfEven_one (2 ^ (f.fractionBits + 1))]
      apply divHalfEven_mono (by positivity) one_pos
      rw [natCast_mul_pow_div]
      calc (num : ℚ) / den * (2 : ℕ) ^ (-e)
          ≤ 2 ^ (floorLog2 num den + 1) * 2 ^ (-e) := by
            have hbinade := (floorLog2_spec hnum hden).2.le
            push_cast
            gcongr
        _ = 2 ^ (floorLog2 num den + 1 + -e) := (zpow_add₀ (by norm_num) _ _).symm
        _ ≤ 2 ^ ((f.fractionBits + 1 : ℕ) : ℤ) := zpow_le_zpow_right₀ (by norm_num) (by push_cast; omega)
        _ = ((2 ^ (f.fractionBits + 1) : ℕ) : ℚ) / (1 : ℕ) := by
          rw [zpow_natCast]
          push_cast
          rw [div_one]
    have hlarge : 2 ^ f.fractionBits
        ≤ divHalfEven (num' * 2 ^ (-e').toNat) (den' * 2 ^ e'.toNat) := by
      rw [← divHalfEven_one (2 ^ f.fractionBits)]
      apply divHalfEven_mono one_pos (by positivity)
      rw [natCast_mul_pow_div]
      calc ((2 ^ f.fractionBits : ℕ) : ℚ) / (1 : ℕ) = 2 ^ (floorLog2 num' den' + -e') := by
            rw [show floorLog2 num' den' + -e' = (f.fractionBits : ℤ) by omega, zpow_natCast]
            push_cast
            rw [div_one]
        _ = 2 ^ floorLog2 num' den' * 2 ^ (-e') := zpow_add₀ (by norm_num) _ _
        _ ≤ (num' : ℚ) / den' * (2 : ℕ) ^ (-e') := by
          have hbinade := (floorLog2_spec hnum' hden').1
          push_cast
          gcongr
    have hsteps : ((e - f.minExponent).toNat + 1) * 2 ^ f.fractionBits
        ≤ (e' - f.minExponent).toNat * 2 ^ f.fractionBits := Nat.mul_le_mul_right _ (by omega)
    rw [Nat.add_mul, one_mul] at hsteps
    rw [pow_succ] at hsmall
    omega

theorem contains_self {m : ℕ} (hm : 0 < m) (e : ℤ) : (f.interval m e).Contains (m * 2 ^ e) := by
  have hquarter : (2 : ℚ) ^ e = 4 * 2 ^ (e - 2) := by
    rw [zpow_sub₀ (by norm_num)]
    norm_num
    ring
  have hunit : (0 : ℚ) < 2 ^ (e - 2) := by positivity
  have hlow : (((f.interval m e).low : ℕ) : ℚ) < 4 * m := by
    have hlt : (f.interval m e).low < 4 * m := by
      simp only [interval]
      split <;> omega
    exact_mod_cast hlt
  have hhigh : (4 * m : ℚ) < ((f.interval m e).high : ℕ) := by
    have hlt : 4 * m < (f.interval m e).high := by
      simp only [interval]
      omega
    exact_mod_cast hlt
  have hvalue : (m : ℚ) * 2 ^ e = 4 * m * 2 ^ (e - 2) := by rw [hquarter]; ring
  have hbelow := mul_lt_mul_of_pos_right hlow hunit
  have habove := mul_lt_mul_of_pos_right hhigh hunit
  rw [hvalue]
  exact ⟨hbelow.le, habove.le, .inr ⟨hbelow, habove⟩⟩

theorem round_of_magnitudeValue {p num den : ℕ} (hp : p ≤ f.infinity) (hden : 0 < den)
    (h : (num : ℚ) / den = f.magnitudeValue p) : f.round num den = p := by
  have hcanonical := f.unpack_canonical p
  have hmagnitude := f.magnitude_unpack p
  rw [magnitudeValue] at h
  rcases Nat.eq_zero_or_pos (f.unpack p).1 with hzero | hpos
  · have hden' : (den : ℚ) ≠ 0 := by positivity
    rw [hzero, Nat.cast_zero, zero_mul, div_eq_zero_iff, or_iff_left hden'] at h
    obtain rfl : num = 0 := by exact_mod_cast h
    have hleast := hcanonical.normal.resolve_right (by rw [hzero]; simp)
    rw [hzero, hleast, magnitude, sub_self] at hmagnitude
    simpa [round] using hmagnitude
  · have hround := round_eq_magnitude hden hpos hcanonical (hmagnitude.trans_le hp)
      (h ▸ contains_self hpos _)
    rw [hround, hmagnitude]

/-- The magnitude nearest to a rational number, with the sign of the number. -/
def nearest (f : BinaryFormat) (v : ℚ) : ℤ :=
  if v < 0 then -(f.round v.num.natAbs v.den : ℤ) else f.round v.num.natAbs v.den

theorem natAbs_div_den (v : ℚ) : ((v.num.natAbs : ℕ) : ℚ) / (v.den : ℕ) = |v| := by
  rw [Nat.cast_natAbs, Int.cast_abs]
  conv_rhs => rw [← Rat.num_div_den v, abs_div]
  simp

theorem nearest_mono (f : BinaryFormat) : Monotone f.nearest := by
  intro v w hvw
  have hmono {v w : ℚ} (h : |v| ≤ |w|) :
      f.round v.num.natAbs v.den ≤ f.round w.num.natAbs w.den := by
    apply round_mono v.den_pos w.den_pos
    rwa [natAbs_div_den, natAbs_div_den]
  unfold nearest
  split
  · rename_i hv
    split
    · rename_i hw
      have hle := hmono (v := w) (w := v) (by rw [abs_of_neg hv, abs_of_neg hw]; linarith)
      omega
    · omega
  · rename_i hv
    have hw : ¬w < 0 := fun hw => hv (hvw.trans_lt hw)
    rw [if_neg hw]
    have hle := hmono (v := v) (w := w) (by
      rwa [abs_of_nonneg (not_lt.mp hv), abs_of_nonneg (not_lt.mp hw)])
    omega

def pattern (f : BinaryFormat) (negative : Bool) (p : ℕ) : ℕ :=
  (if negative then f.signBit else 0) + p

def signed (negative : Bool) (p : ℕ) : ℤ := if negative then -(p : ℤ) else p

def signedValue (f : BinaryFormat) (negative : Bool) (p : ℕ) : ℚ :=
  if negative then -f.magnitudeValue p else f.magnitudeValue p

theorem magnitudeValue_nonneg (f : BinaryFormat) (p : ℕ) : 0 ≤ f.magnitudeValue p :=
  f.magnitudeValue_zero ▸ f.magnitudeValue_strictMono.monotone (Nat.zero_le p)

theorem abs_signedValue (f : BinaryFormat) (negative : Bool) (p : ℕ) :
    |f.signedValue negative p| = f.magnitudeValue p := by
  cases negative <;> simp [signedValue, abs_of_nonneg, f.magnitudeValue_nonneg]

theorem signedValue_mono {negative negative' : Bool} {p p' : ℕ}
    (h : signed negative p ≤ signed negative' p') :
    f.signedValue negative p ≤ f.signedValue negative' p' := by
  have hmono := f.magnitudeValue_strictMono.monotone
  have hp := f.magnitudeValue_nonneg p
  have hp' := f.magnitudeValue_nonneg p'
  cases negative <;> cases negative' <;>
    simp only [signed, signedValue, Bool.false_eq_true, if_true, if_false] at h ⊢
  · exact hmono (by omega)
  · -- Only the two zeros stand this way round.
    obtain ⟨rfl, rfl⟩ : p = 0 ∧ p' = 0 := by omega
    simp [f.magnitudeValue_zero]
  · linarith
  · exact neg_le_neg (hmono (by omega))

theorem nearest_signedValue (negative : Bool) {p : ℕ} (hp : p ≤ f.infinity) :
    f.nearest (f.signedValue negative p) = signed negative p := by
  have hround := round_of_magnitudeValue hp (f.signedValue negative p).den_pos
    (by rw [natAbs_div_den, abs_signedValue])
  rw [nearest, hround]
  cases negative with
  | false =>
    have hle := f.magnitudeValue_nonneg p
    simp [signed, signedValue, not_lt.mpr hle]
  | true =>
    by_cases hzero : p = 0
    · simp [signed, signedValue, hzero, f.magnitudeValue_zero]
    · have hpos := f.magnitudeValue_strictMono (Nat.pos_of_ne_zero hzero)
      rw [f.magnitudeValue_zero] at hpos
      simp [signed, signedValue, hpos]

theorem place_pattern (hsign : f.infinity < f.signBit) (negative : Bool) {p : ℕ}
    (hp : p ≤ f.infinity) :
    (f.datum (f.pattern negative p)).place
      = if p < f.infinity then toLex (1, f.signedValue negative p)
        else toLex (if negative then 0 else 2, 0) := by
  have hmagnitude : f.pattern negative p % f.signBit = p := by
    have hmod : p % f.signBit = p := Nat.mod_eq_of_lt (by omega)
    cases negative <;> simp [pattern, hmod]
  have hnegative : decide (f.signBit ≤ f.pattern negative p) = negative := by
    cases negative <;> simp only [pattern, Bool.false_eq_true, if_true, if_false,
      decide_eq_true_eq, decide_eq_false_iff_not] <;> omega
  simp only [datum, hmagnitude, hnegative]
  split
  · cases negative <;> simp [Datum.place, Datum.rank, Datum.value, signedValue, magnitudeValue]
  · rw [if_pos (show p = f.infinity by omega)]
    cases negative <;> rfl

end BinaryFormat

open BinaryFormat (signed signedValue pattern)

theorem infinity_eq : binary64.infinity = 2047 * 2 ^ 52 := by decide

theorem infinity_lt_signBit : binary64.infinity < binary64.signBit := by decide

theorem place_pattern_mono {negative negative' : Bool} {p p' : ℕ} (hp : p ≤ binary64.infinity)
    (hp' : p' ≤ binary64.infinity) (h : signed negative p ≤ signed negative' p') :
    (binary64.datum (binary64.pattern negative p)).place
      ≤ (binary64.datum (binary64.pattern negative' p')).place := by
  have hinfinity := infinity_eq
  rw [BinaryFormat.place_pattern infinity_lt_signBit negative hp,
    BinaryFormat.place_pattern infinity_lt_signBit negative' hp']
  by_cases hfinite : p < binary64.infinity
  · rw [if_pos hfinite]
    by_cases hfinite' : p' < binary64.infinity
    · rw [if_pos hfinite']
      exact Prod.Lex.toLex_le_toLex.mpr (.inr ⟨rfl, BinaryFormat.signedValue_mono h⟩)
    · -- Nothing finite is below the infinity that is below everything.
      obtain rfl : negative' = false := by
        cases negative <;> cases negative' <;> simp [signed] at h ⊢ <;> omega
      rw [if_neg hfinite']
      exact Prod.Lex.toLex_le_toLex.mpr (.inl one_lt_two)
  · rw [if_neg hfinite]
    by_cases hfinite' : p' < binary64.infinity
    · obtain rfl : negative = true := by
        cases negative <;> cases negative' <;> simp [signed] at h ⊢ <;> omega
      rw [if_pos hfinite']
      exact Prod.Lex.toLex_le_toLex.mpr (.inl zero_lt_one)
    · rw [if_neg hfinite']
      cases negative with
      | true =>
        cases negative' with
        | true => exact le_rfl
        | false => exact Prod.Lex.toLex_le_toLex.mpr (.inl two_pos)
      | false =>
        cases negative' with
        | true =>
          simp only [signed, Bool.false_eq_true, if_true, if_false] at h
          omega
        | false => exact le_rfl

/-- The bits of a double are kept, unless they are another spelling of what is no number. -/
theorem toBits_ofBits {u : UInt64} (h : Float.Model.Format.binary64.Valid u.toBitVec) :
    (Float.ofBits u).toBits = u := by
  have hkept : Float.ofBits u = ⟨⟨u, h⟩⟩ := Float.ofBits_toBits ⟨⟨u, h⟩⟩
  rw [hkept]
  rfl

theorem doubleDatum_ofBits (negative : Bool) {p : ℕ} (hp : p ≤ binary64.infinity) :
    doubleDatum (Float.ofBits (binary64.pattern negative p).toUInt64)
      = binary64.datum (binary64.pattern negative p) := by
  have hinfinity := infinity_eq
  have hsign : binary64.signBit = 2 ^ 63 := by decide
  have hrest : binary64.pattern negative p % 2 ^ 63 = p := by
    cases negative <;> simp [pattern, hsign] <;> omega
  have hlt : binary64.pattern negative p < 2 ^ 64 := by
    rw [BinaryFormat.pattern, hsign]
    split <;> omega
  have hnat : (binary64.pattern negative p).toUInt64.toNat = binary64.pattern negative p := by
    simp only [Nat.toUInt64, UInt64.toNat_ofNat', Nat.mod_eq_of_lt hlt]
  have hvalid : Float.Model.Format.binary64.Valid (binary64.pattern negative p).toUInt64.toBitVec := by
    refine ⟨fun hexponent hmantissa => absurd ?_ hmantissa⟩
    have hexponent' := congrArg BitVec.toNat hexponent
    simp only [Float.Model.UnpackedFloat.unpackExponent, BitVec.toNat_cast,
      BitVec.extractLsb_toNat, Nat.shiftRight_eq_div_pow, UInt64.toNat_toBitVec, hnat] at hexponent'
    apply BitVec.eq_of_toNat_eq
    simp only [Float.Model.UnpackedFloat.unpackMantissa, BitVec.toNat_cast,
      BitVec.extractLsb_toNat, Nat.shiftRight_eq_div_pow, UInt64.toNat_toBitVec, hnat]
    change binary64.pattern negative p / 2 ^ 52 % 2 ^ 11 = 2047 at hexponent'
    change binary64.pattern negative p / 2 ^ 0 % 2 ^ 52 = 0
    omega
  rw [doubleDatum, toBits_ofBits hvalid, hnat]

/-- Whether a double is the one nearest to a number. -/
def IsNearest (x : Float) (v : ℚ) : Prop :=
  ∃ negative p, doubleDatum x = binary64.datum (binary64.pattern negative p) ∧ p ≤ binary64.infinity
    ∧ signed negative p = binary64.nearest v

theorem isNearest_doubleOfInt (n : ℤ) : IsNearest (doubleOfInt n) n := by
  have hround : binary64.round n.natAbs 1 ≤ binary64.infinity := by
    unfold BinaryFormat.round
    split
    · exact Nat.zero_le _
    · exact min_le_left _ _
  refine ⟨decide (n < 0), binary64.round n.natAbs 1, ?_, hround, ?_⟩
  · rw [← doubleDatum_ofBits _ hround]
    simp [doubleOfInt, BinaryFormat.ofDatum, BinaryFormat.pattern]
  · simp [signed, BinaryFormat.nearest]

theorem isNearest_value {x : Float} {negative : Bool} {m : ℕ} {e : ℤ}
    (hx : doubleDatum x = .finite negative m e) : IsNearest x (doubleDatum x).value := by
  have hlt := toBits_toNat_lt x
  have hbits : x.toBits.toNat = binary64.pattern (isNegative x) (magnitudeOf x) := by
    have hsign : binary64.signBit = 2 ^ 63 := by decide
    rw [hsign] at hlt
    simp only [BinaryFormat.pattern, isNegative, magnitudeOf, decide_eq_true_eq, hsign]
    split <;> omega
  have hfinite : magnitudeOf x < binary64.infinity := by
    by_contra hlarge
    rw [magnitudeOf] at hlarge
    rw [doubleDatum, BinaryFormat.datum, if_neg hlarge] at hx
    split at hx <;> cases hx
  have hplace := BinaryFormat.place_pattern infinity_lt_signBit (isNegative x) hfinite.le
  rw [← hbits, if_pos hfinite] at hplace
  have hvalue : (doubleDatum x).value = binary64.signedValue (isNegative x) (magnitudeOf x) :=
    congrArg Prod.snd hplace
  refine ⟨isNegative x, magnitudeOf x, by rw [doubleDatum, ← hbits], hfinite.le, ?_⟩
  rw [hvalue, BinaryFormat.nearest_signedValue _ hfinite.le]

theorem IsNearest.place_le {x y : Float} {v w : ℚ} (hx : IsNearest x v) (hy : IsNearest y w)
    (h : v ≤ w) : (doubleDatum x).place ≤ (doubleDatum y).place := by
  obtain ⟨negative, p, hx, hp, hv⟩ := hx
  obtain ⟨negative', p', hy, hp', hw⟩ := hy
  rw [hx, hy]
  apply place_pattern_mono hp hp'
  rw [hv, hw]
  exact binary64.nearest_mono h

end DocumentStore.Number
