import DocumentStore.Proofs.Filter.Value
import DocumentStore.Proofs.Number.Monotone

/-! The order of cells. Cells of different kinds stand in the order of their kinds, numbers in the
order of their values. Main statement: as cells, numbers stand in their exact order although some of
them are rounded, and what is at most the smaller of two numbers is at most the larger one. -/
namespace DocumentStore

open Number (Datum IsNearest doubleDatum doubleOfInt)

namespace Cell

def datum? : Cell → Option Datum
  | .integer n => some (.ofInt n)
  | .real x => some (doubleDatum x)
  | _ => none

variable {x y z : Cell} {p q : Datum}

theorem compare_of_rank_lt (h : x.rank < y.rank) : x.compare y = .lt := by
  cases x <;> cases y <;> simp [rank] at h <;> rfl

theorem compare_of_rank_gt (h : y.rank < x.rank) : x.compare y = .gt := by
  cases x <;> cases y <;> simp [rank] at h <;> rfl

theorem isNull_iff_rank : x.isNull = true ↔ x.rank = 0 := by
  cases x <;> simp [isNull, rank]

theorem rank_of_datum? (hx : x.datum? = some p) : x.rank = 1 := by
  cases x with
  | integer n => rfl
  | real v => rfl
  | _ => cases hx

theorem exists_datum? (h : x.rank = 1) : ∃ p, x.datum? = some p := by
  cases x with
  | integer n => exact ⟨_, rfl⟩
  | real v => exact ⟨_, rfl⟩
  | _ => cases h

theorem place_ofInt (n : ℤ) : (Datum.ofInt n).place = toLex (1, (n : ℚ)) := by
  have hvalue : (Datum.ofInt n).value = n := by
    by_cases hn : n < 0
    · simp [Datum.ofInt, Datum.value, hn, abs_of_neg]
    · simp [Datum.ofInt, Datum.value, hn, abs_of_nonneg (not_lt.mp hn)]
  rw [Datum.place, hvalue]
  rfl

theorem compare_of_datum? (hx : x.datum? = some p) (hy : y.datum? = some q) :
    x.compare y = Ord.compare p.place q.place := by
  cases x with
  | integer m =>
    obtain rfl := Option.some.inj hx
    cases y with
    | integer n =>
      obtain rfl := Option.some.inj hy
      have hmono : StrictMono fun n : ℤ => toLex ((1 : ℕ), (n : ℚ)) := fun m n h =>
        Prod.Lex.toLex_lt_toLex.mpr (.inr ⟨rfl, Int.cast_lt.mpr h⟩)
      rw [compare, place_ofInt, place_ofInt, ← cmp_eq_compare, ← cmp_eq_compare, hmono.cmp_map_eq]
    | real v =>
      obtain rfl := Option.some.inj hy
      exact Datum.compare_eq_place _ _
    | _ => cases hy
  | real u =>
    obtain rfl := Option.some.inj hx
    cases y with
    | integer n =>
      obtain rfl := Option.some.inj hy
      exact Datum.compare_eq_place _ _
    | real v =>
      obtain rfl := Option.some.inj hy
      exact Datum.compare_eq_place _ _
    | _ => cases hy
  | _ => cases hx

theorem isLE_compare_iff (hx : x.datum? = some p) (hy : y.datum? = some q) :
    (x.compare y).isLE = true ↔ p.place ≤ q.place := by
  rw [compare_of_datum? hx hy]
  rcases lt_trichotomy p.place q.place with h | h | h
  · simp [compare_lt_iff_lt.mpr h, h.le]
  · simp [h]
  · simp [compare_gt_iff_gt.mpr h, h.not_ge]

theorem rank_le_of_isLE (h : (x.compare y).isLE = true) : x.rank ≤ y.rank := by
  by_contra hlt
  rw [compare_of_rank_gt (not_le.mp hlt)] at h
  cases h

theorem isLE_trans (hy : y.datum? = some p) (hz : z.datum? = some q)
    (hxy : (x.compare y).isLE = true) (hyz : (y.compare z).isLE = true) :
    (x.compare z).isLE = true := by
  have hrank := rank_le_of_isLE hxy
  rw [rank_of_datum? hy] at hrank
  by_cases hx : x.rank = 1
  · obtain ⟨r, hr⟩ := exists_datum? hx
    rw [isLE_compare_iff hr hz]
    rw [isLE_compare_iff hr hy] at hxy
    rw [isLE_compare_iff hy hz] at hyz
    exact hxy.trans hyz
  · rw [compare_of_rank_lt (by rw [rank_of_datum? hz]; omega)]
    rfl

theorem compare_self (x : Cell) : x.compare x = .eq := by
  cases x with
  | integer n => exact compare_eq_iff_eq.mpr rfl
  | real v => rw [compare_of_datum? rfl rfl, compare_eq_iff_eq]
  | text s => exact compare_eq_iff_eq.mpr rfl
  | blob s =>
    show Ord.compare s s = .eq
    exact Std.ReflCmp.compare_self
  | null => rfl

theorem rank_eq_of_compare (h : x.compare y = .eq) : x.rank = y.rank := by
  rcases lt_trichotomy x.rank y.rank with hlt | heq | hgt
  · rw [compare_of_rank_lt hlt] at h
    cases h
  · exact heq
  · rw [compare_of_rank_gt hgt] at h
    cases h

theorem eq_of_compare (hx : x.rank ≠ 1) (h : x.compare y = .eq) : x = y := by
  have hrank := rank_eq_of_compare h
  cases x with
  | integer n => exact absurd rfl hx
  | real v => exact absurd rfl hx
  | null => cases y <;> first | rfl | cases hrank
  | text s =>
    cases y with
    | text t =>
      have heq : Ord.compare s t = .eq := h
      rw [Std.LawfulEqCmp.eq_of_compare heq]
    | _ => cases hrank
  | blob s =>
    cases y with
    | blob t =>
      have heq : Ord.compare s t = .eq := h
      rw [Std.LawfulEqCmp.eq_of_compare heq]
    | _ => cases hrank

theorem compare_congr (h : x.compare y = .eq) (z : Cell) : x.compare z = y.compare z := by
  have hrank := rank_eq_of_compare h
  by_cases hx : x.rank = 1
  · obtain ⟨p, hp⟩ := exists_datum? hx
    obtain ⟨q, hq⟩ := exists_datum? (hrank ▸ hx)
    have hplace : p.place = q.place := by
      rw [compare_of_datum? hp hq] at h
      exact compare_eq_iff_eq.mp h
    rcases lt_trichotomy z.rank 1 with hlt | heq | hgt
    · rw [compare_of_rank_gt (by omega), compare_of_rank_gt (by omega)]
    · obtain ⟨o, ho⟩ := exists_datum? heq
      rw [compare_of_datum? hp ho, compare_of_datum? hq ho, hplace]
    · rw [compare_of_rank_lt (by omega), compare_of_rank_lt (by omega)]
  · rw [eq_of_compare hx h]

theorem isNull_congr (h : x.compare y = .eq) : x.isNull = y.isNull := by
  rw [Bool.eq_iff_iff, isNull_iff_rank, isNull_iff_rank, rank_eq_of_compare h]

end Cell

def Json.number? : Json → Option ℚ
  | .integer n => some n
  | .real x => if isFinite x then some (doubleDatum x).value else none
  | _ => none

namespace Number

theorem exists_doubleDatum {x : Float} (h : Json.isFinite x = true) :
    ∃ negative m e, doubleDatum x = .finite negative m e := by
  cases hx : doubleDatum x with
  | finite negative m e => exact ⟨negative, m, e, rfl⟩
  | _ => simp [Json.isFinite, doubleText?, shortestText?, hx] at h

theorem place_doubleOfInt_bound : (doubleDatum (doubleOfInt 0x8000000000000000)).place
    = toLex (1, 0x8000000000000000) := by
  have hdatum : doubleDatum (doubleOfInt 0x8000000000000000) = .finite false (2 ^ 52) 11 := by
    decide +kernel
  rw [hdatum]
  simp only [Datum.place, Datum.rank, Datum.value]
  norm_num

theorem place_doubleOfInt_neg_bound : (doubleDatum (doubleOfInt (-0x8000000000000000))).place
    = toLex (1, -0x8000000000000000) := by
  have hdatum : doubleDatum (doubleOfInt (-0x8000000000000000)) = .finite true (2 ^ 52) 11 := by
    decide +kernel
  rw [hdatum]
  simp only [Datum.place, Datum.rank, Datum.value]
  norm_num

theorem place_doubleOfInt {x : Float} {n : ℤ} (h : (doubleDatum x).place = toLex (1, (n : ℚ))) :
    (doubleDatum (doubleOfInt n)).place = (doubleDatum x).place := by
  have hrank : (doubleDatum x).rank = 1 := congrArg (fun p => (ofLex p).1) h
  have hvalue : (doubleDatum x).value = n := congrArg (fun p => (ofLex p).2) h
  cases hx : doubleDatum x with
  | finite negative m e =>
    have hnear := isNearest_value hx
    rw [hvalue] at hnear
    rw [← hx]
    exact le_antisymm ((isNearest_doubleOfInt n).place_le hnear le_rfl)
      (hnear.place_le (isNearest_doubleOfInt n) le_rfl)
  | infinite negative =>
    rw [hx] at hrank
    cases negative <;> cases hrank
  | nan =>
    rw [hx] at hrank
    cases hrank

end Number

namespace Cell

theorem place_le_of_le {m n : ℚ} (h : m ≤ n) : toLex ((1 : ℕ), m) ≤ toLex ((1 : ℕ), n) :=
  Prod.Lex.toLex_le_toLex.mpr (.inr ⟨rfl, h⟩)

/-- A number stands in a cell exactly, or as the nearest double if it is an integer that is too
long. -/
theorem ofJson_number {v : Json} {m : ℚ} (h : v.number? = some m) :
    ∃ p, (ofJson v).datum? = some p
      ∧ (p.place = toLex (1, m) ∧ -0x8000000000000000 ≤ m ∧ m < 0x8000000000000000
        ∨ (∃ x, p = doubleDatum x ∧ IsNearest x m)
          ∧ (m < -0x8000000000000000 ∨ 0x8000000000000000 ≤ m ∨ p.place = toLex (1, m))) := by
  cases v with
  | integer n =>
    obtain rfl : (n : ℚ) = m := Option.some.inj h
    by_cases hfits : -0x8000000000000000 ≤ n ∧ n < 0x8000000000000000
    · refine ⟨.ofInt n, by rw [ofJson, ofInt, if_pos hfits]; rfl, .inl ⟨place_ofInt n, ?_, ?_⟩⟩
      · exact_mod_cast hfits.1
      · exact_mod_cast hfits.2
    · refine ⟨doubleDatum (doubleOfInt n), by rw [ofJson, ofInt, if_neg hfits]; rfl,
        .inr ⟨⟨_, rfl, Number.isNearest_doubleOfInt n⟩, ?_⟩⟩
      rcases not_and_or.mp hfits with hlow | hhigh
      · exact .inl (by exact_mod_cast not_le.mp hlow)
      · exact .inr (.inl (by exact_mod_cast not_lt.mp hhigh))
  | real x =>
    by_cases hx : Json.isFinite x = true
    · obtain rfl : (doubleDatum x).value = m := by simpa [Json.number?, hx] using h
      obtain ⟨negative, k, e, hdatum⟩ := Number.exists_doubleDatum hx
      refine ⟨doubleDatum x, rfl, .inr ⟨⟨x, rfl, Number.isNearest_value hdatum⟩, .inr (.inr ?_)⟩⟩
      rw [Datum.place, hdatum]
      rfl
    · simp [Json.number?, hx] at h
  | _ => cases h

/-- As cells, numbers stand in their exact order, or at the same place if a rounding has made them
equal. -/
theorem isLE_compare_ofJson {v w : Json} {m n : ℚ} (hv : v.number? = some m)
    (hw : w.number? = some n) (h : m ≤ n) : ((ofJson v).compare (ofJson w)).isLE = true := by
  obtain ⟨p, hp, hm⟩ := ofJson_number hv
  obtain ⟨q, hq, hn⟩ := ofJson_number hw
  rw [isLE_compare_iff hp hq]
  rcases hm with ⟨hexact, hlow, hhigh⟩ | ⟨⟨x, rfl, hx⟩, hm⟩
  · rcases hn with ⟨hexact', -, -⟩ | ⟨⟨y, rfl, hy⟩, hn⟩
    · rw [hexact, hexact']
      exact place_le_of_le h
    · rcases hn with hbelow | habove | hexact'
      · linarith
      · -- The bound lies between the two, and it is a double.
        calc p.place ≤ (doubleDatum (doubleOfInt 0x8000000000000000)).place := by
              rw [hexact, Number.place_doubleOfInt_bound]
              exact place_le_of_le hhigh.le
          _ ≤ (doubleDatum y).place :=
            (Number.isNearest_doubleOfInt _).place_le hy (by exact_mod_cast habove)
      · rw [hexact, hexact']
        exact place_le_of_le h
  · rcases hn with ⟨hexact', hlow, hhigh⟩ | ⟨⟨y, rfl, hy⟩, -⟩
    · rcases hm with hbelow | habove | hexact
      · calc (doubleDatum x).place ≤ (doubleDatum (doubleOfInt (-0x8000000000000000))).place :=
              hx.place_le (Number.isNearest_doubleOfInt _) (by exact_mod_cast hbelow.le)
          _ ≤ q.place := by
            rw [hexact', Number.place_doubleOfInt_neg_bound]
            exact place_le_of_le hlow
      · linarith
      · rw [hexact, hexact']
        exact place_le_of_le h
    · exact hx.place_le hy h

end Cell

end DocumentStore
