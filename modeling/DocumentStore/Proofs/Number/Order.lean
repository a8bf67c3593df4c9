import DocumentStore.Number.Order
import Mathlib

/-! The two orders of numbers. By value, numbers are compared by their rank and then as rationals,
so that this is a linear preorder; in the total order, different doubles have different keys. -/
namespace DocumentStore.Number

namespace Datum

/-- The number, or zero for what is not finite. -/
def value : Datum → ℚ
  | .finite negative m e => (if negative then -(m : ℚ) else m) * 2 ^ e
  | _ => 0

theorem scaled_eq {d : Datum} {unit : ℤ} (h : unit ≤ d.exponent) :
    (d.scaled unit : ℚ) = d.value * 2 ^ (-unit) := by
  cases d with
  | finite negative m e =>
    have hunit : ((e - unit).toNat : ℤ) = e - unit := Int.toNat_of_nonneg (sub_nonneg.mpr h)
    have hpow : ((2 : ℚ) ^ (e - unit).toNat) = 2 ^ e * 2 ^ (-unit) := by
      rw [← zpow_natCast, hunit, sub_eq_add_neg, zpow_add₀ (by norm_num)]
    cases negative <;> simp [scaled, value, hpow, mul_assoc]
  | infinite negative => simp [scaled, value]
  | nan => simp [scaled, value]

theorem compare_mul {x y : ℤ} {a b c : ℚ} (hc : 0 < c) (hx : (x : ℚ) = a * c)
    (hy : (y : ℚ) = b * c) : Ord.compare x y = Ord.compare a b := by
  rcases lt_trichotomy a b with hab | rfl | hab
  · have hxy : x < y := by
      rw [← Int.cast_lt (R := ℚ), hx, hy]
      exact mul_lt_mul_of_pos_right hab hc
    rw [compare_lt_iff_lt.mpr hxy, compare_lt_iff_lt.mpr hab]
  · have hxy : x = y := by
      rw [← Int.cast_inj (α := ℚ), hx, hy]
    rw [compare_eq_iff_eq.mpr hxy, compare_eq_iff_eq.mpr rfl]
  · have hxy : y < x := by
      rw [← Int.cast_lt (R := ℚ), hx, hy]
      exact mul_lt_mul_of_pos_right hab hc
    rw [compare_gt_iff_gt.mpr hxy, compare_gt_iff_gt.mpr hab]

theorem compare_eq (a b : Datum) :
    a.compare b = (Ord.compare a.rank b.rank).then (Ord.compare a.value b.value) := by
  have hscaled : Ord.compare (a.scaled (min a.exponent b.exponent))
      (b.scaled (min a.exponent b.exponent)) = Ord.compare a.value b.value :=
    compare_mul (zpow_pos (by norm_num) _) (scaled_eq (min_le_left _ _))
      (scaled_eq (min_le_right _ _))
  unfold compare
  cases Ord.compare a.rank b.rank with
  | eq => exact hscaled
  | lt => rfl
  | gt => rfl

/-- Where a number stands among the numbers: its rank, then its value. -/
def place (d : Datum) : ℕ ×ₗ ℚ := toLex (d.rank, d.value)

theorem compare_eq_place (a b : Datum) : a.compare b = Ord.compare a.place b.place := by
  rw [compare_eq]
  rcases lt_trichotomy a.rank b.rank with h | h | h
  · have hlt : a.place < b.place := Prod.Lex.toLex_lt_toLex.mpr (.inl h)
    rw [compare_lt_iff_lt.mpr h, compare_lt_iff_lt.mpr hlt]
    rfl
  · rw [h, compare_eq_iff_eq.mpr rfl, Ordering.eq_then]
    rcases lt_trichotomy a.value b.value with hv | hv | hv
    · have hlt : a.place < b.place := Prod.Lex.toLex_lt_toLex.mpr (.inr ⟨h, hv⟩)
      rw [compare_lt_iff_lt.mpr hv, compare_lt_iff_lt.mpr hlt]
    · have heq : a.place = b.place := by rw [place, place, h, hv]
      rw [compare_eq_iff_eq.mpr hv, compare_eq_iff_eq.mpr heq]
    · have hgt : b.place < a.place := Prod.Lex.toLex_lt_toLex.mpr (.inr ⟨h.symm, hv⟩)
      rw [compare_gt_iff_gt.mpr hv, compare_gt_iff_gt.mpr hgt]
  · have hgt : b.place < a.place := Prod.Lex.toLex_lt_toLex.mpr (.inl h)
    rw [compare_gt_iff_gt.mpr h, compare_gt_iff_gt.mpr hgt]
    rfl

end Datum

theorem totalKey_injective : Function.Injective totalKey := by
  intro x y h
  have hx := x.toBits.toNat_lt
  have hy := y.toBits.toNat_lt
  have hbits : x.toBits.toNat = y.toBits.toNat := by
    simp only [totalKey] at h
    split at h <;> split at h <;> omega
  exact Float.toBits_inj.mp (UInt64.toNat_inj.mp hbits)

end DocumentStore.Number
