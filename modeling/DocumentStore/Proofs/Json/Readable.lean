import DocumentStore.Proofs.Json.SinglesText
import DocumentStore.Proofs.Number.Magnitude
import DocumentStore.Proofs.Number.Overflow

/-! Texts that can be read. Main statement: every value that stands in some text has a compact text
that the strict reader accepts. A double need not be read as it was, but it is read as some number,
as the reader's products do not overflow even for the largest doubles. -/
namespace DocumentStore

namespace Number

theorem exists_singleDatum {x : Float32} (h : x.isFinite = true) :
    ∃ negative m e, singleDatum x = .finite negative m e := by
  have hexponent : @Float.Model.UnpackedFloat.unpackExponent Float.Model.Format.binary32
      x.toBits.toBitVec ≠ -1#8 := by
    intro heq
    have hinfinite : x.isFinite = false := by
      simp only [Float32.isFinite, Float32.Model.isFinite, Float32.Model.unpack,
        Float.Model.UnpackedFloat.unpack]
      rw [if_pos (by exact heq)]
      split <;> rfl
    rw [h] at hinfinite
    cases hinfinite
  have hsmall : x.toBits.toNat % binary32.signBit < binary32.infinity := by
    by_contra hlarge
    refine hexponent (BitVec.eq_of_toNat_eq ?_)
    simp only [Float.Model.UnpackedFloat.unpackExponent, BitVec.toNat_cast, BitVec.extractLsb_toNat,
      Nat.shiftRight_eq_div_pow]
    simp only [binary32, BinaryFormat.signBit, BinaryFormat.infinity, Nat.pow_eq] at hlarge
    change x.toBits.toNat / 2 ^ 23 % 2 ^ 8 = 255
    omega
  exact ⟨_, _, _, by rw [singleDatum, BinaryFormat.datum, if_pos hsmall]⟩

end Number

namespace Json

open Number (BinaryFormat Numeral Layout Digits digitsValue digitValue safeBound)

theorem absorbFraction_le {ds : List Char} (hds : Digits ds) (significand : ℕ) :
    (absorbFraction significand ds).1 * 10 ^ ds.length
      ≤ ds.foldl (fun n d => n * 10 + digitValue d) significand
        * 10 ^ (absorbFraction significand ds).2 := by
  induction ds generalizing significand with
  | nil => simp [absorbFraction]
  | cons d ds ih =>
    simp only [absorbFraction, List.foldl_cons, List.length_cons]
    split
    · have hrest := ih (fun c hc => hds c (by simp [hc])) (significand * 10 + digitValue d)
      simp only [pow_succ, ← mul_assoc]
      exact Nat.mul_le_mul_right 10 hrest
    · have hall := (Number.foldl_digits_bounds hds significand).1
      simpa using hall

theorem absorbFraction_lt {significand : ℕ} (h : significand < 2 ^ 64) (ds : List Char) :
    (absorbFraction significand ds).1 < 2 ^ 64 := by
  induction ds generalizing significand with
  | nil => exact h
  | cons d ds ih =>
    simp only [absorbFraction]
    split
    · rename_i hfits
      exact ih hfits
    · exact h

/-- What is taken in, put at its places, is no larger than all digits at theirs. -/
theorem taken_mul_le {significand taken digits places : ℕ}
    (h : significand * 10 ^ places ≤ digits * 10 ^ taken) (x : ℤ) :
    (significand : ℚ) * 10 ^ (x - taken) ≤ digits * 10 ^ (x - places) := by
  have hten : (10 : ℚ) ≠ 0 := by norm_num
  have hcast : (significand : ℚ) * 10 ^ places ≤ digits * 10 ^ taken := by exact_mod_cast h
  rw [zpow_sub₀ hten, zpow_sub₀ hten, zpow_natCast, zpow_natCast, mul_div_assoc', mul_div_assoc',
    div_le_div_iff₀ (by positivity) (by positivity)]
  calc (significand : ℚ) * 10 ^ x * 10 ^ places = significand * 10 ^ places * 10 ^ x := by ring
    _ ≤ digits * 10 ^ taken * 10 ^ x := by gcongr
    _ = digits * 10 ^ x * 10 ^ taken := by ring

/-- A numeral with a point or an exponent is read as a number if neither its whole digits nor its
exponent nor its value is too large. -/
theorem numberOfNumeral_real {n : Numeral} (h : n.Strict) (negative : Bool)
    (hreal : n.isInteger = false) (hwhole : digitsValue n.whole < 2 ^ 64)
    (hexponent : ∀ e ∈ n.exponent, e.value.natAbs < 0x80000000) (hvalue : n.value < safeBound) :
    ∃ y, numberOfNumeral negative n = some (.real y) := by
  have habsorb : absorbWhole 0 n.whole = (digitsValue n.whole, 0) := absorbWhole_eq hwhole
  have hplaces : Digits (n.places.getD []) := by
    intro c hc
    cases hp : n.places with
    | none => simp [hp] at hc
    | some ds => exact (h.places ds hp).2 c (by simpa [hp] using hc)
  have hfits := absorbFraction_lt hwhole (n.places.getD [])
  have hle := absorbFraction_le hplaces (digitsValue n.whole)
  have hdigits : (n.places.getD []).foldl (fun n d => n * 10 + digitValue d) (digitsValue n.whole)
      = digitsValue n.digits := by
    simp only [digitsValue, Numeral.digits, List.foldl_append]
  rw [hdigits] at hle
  obtain ⟨⟨significand, taken⟩, hfraction⟩ :
      ∃ p, absorbFraction (digitsValue n.whole) (n.places.getD []) = p := ⟨_, rfl⟩
  rw [hfraction] at hfits hle
  have hsome (x : ℤ) (hx : (n.exponent.map Number.Exponent.value).getD 0 = x) :
      (scaleReal significand ((0 : ℕ) - (taken : ℤ) + x)).isSome := by
    have hscale : ((0 : ℕ) : ℤ) - taken + x = x - taken := by omega
    rw [Numeral.value, Numeral.scale, hx] at hvalue
    rw [hscale]
    exact Number.scaleReal_isSome hfits ((taken_mul_le hle x).trans_lt hvalue)
  simp only [numberOfNumeral, habsorb, hreal, hfraction, Bool.false_eq_true, if_false]
  cases he : n.exponent with
  | none =>
    have hnone := hsome 0 (by rw [he]; rfl)
    rw [add_zero] at hnone
    obtain ⟨y, hy⟩ := Option.isSome_iff_exists.mp hnone
    exact ⟨signed negative y, by simp only [hy, Option.map_some]⟩
  | some e =>
    obtain ⟨y, hy⟩ := Option.isSome_iff_exists.mp (hsome e.value (by rw [he]; rfl))
    exact ⟨signed negative y, by simp only [hexponent e he, if_true, hy, Option.map_some]⟩

theorem numberOfNumeral_numeral {l : Layout} (hl : l.highest ≤ 17) {d : Number.Decimal}
    (hd : 0 < d.digits) (hlow : (2 : ℚ) ^ (-1075 : ℤ) ≤ d.value) (hhigh : d.value < safeBound)
    (negative : Bool) : ∃ y, numberOfNumeral negative (l.numeral d) = some (.real y) := by
  refine numberOfNumeral_real (l.numeral_strict d) negative (l.numeral_isInteger d)
    (Layout.whole_lt hl d) (fun e he => Layout.exponent_natAbs_lt hd hlow ?_ he) ?_
  · calc d.value < safeBound := hhigh
      _ ≤ 2 ^ (1024 : ℤ) := Number.safeBound_le
      _ ≤ 2 ^ (1026 : ℤ) := zpow_le_zpow_right₀ (by norm_num) (by norm_num)
  · rwa [Layout.numeral_value]

theorem numberOfNumeral_zero {l : Layout} (hl : l.highest ≤ 17) (negative : Bool) :
    ∃ y, numberOfNumeral negative (l.numeral ⟨0, 0⟩) = some (.real y) := by
  refine numberOfNumeral_real (l.numeral_strict _) negative (l.numeral_isInteger _)
    (Layout.whole_lt hl _) (fun _ he => nomatch he) ?_
  rw [Layout.numeral_value, Number.Decimal.value, Nat.cast_zero, zero_mul, safeBound]
  exact mul_pos (by norm_num) (by positivity)

theorem shortest_bounds {f : BinaryFormat} {m : ℕ} {e : ℤ} (hm : 0 < m) (hm' : m < 2 ^ 53)
    (he : -2800 ≤ e) (he' : e ≤ 5500) :
    ((m : ℚ) - 1 / 2) * 2 ^ e ≤ (f.shortest m e).value
      ∧ (f.shortest m e).value ≤ (m + 1 / 2) * 2 ^ e := by
  obtain ⟨hlow, hhigh, -, -⟩ := BinaryFormat.contains_interval_scaled hm
    (BinaryFormat.contains_shortest (f := f) hm' he he')
  have hvalue := BinaryFormat.scaled_mul (f.shortest m e).value e
  rw [← hvalue]
  constructor <;> gcongr

theorem two_zpow_le_half {m : ℚ} {e : ℤ} (hm : 1 ≤ m) (he : -1074 ≤ e) :
    (2 : ℚ) ^ (-1075 : ℤ) ≤ (m - 1 / 2) * 2 ^ e := by
  calc (2 : ℚ) ^ (-1075 : ℤ) ≤ 2 ^ (e - 1) := zpow_le_zpow_right₀ (by norm_num) (by omega)
    _ = 1 / 2 * 2 ^ e := by
      rw [zpow_sub_one₀ (by norm_num)]
      ring
    _ ≤ (m - 1 / 2) * 2 ^ e := by gcongr; linarith

theorem add_half_lt_safeBound {m : ℕ} {e : ℤ} (hm : m < 2 ^ 53) (he : e ≤ 971)
    (h : ¬(e = 971 ∧ 2 ^ 53 - 6 ≤ m)) : ((m : ℚ) + 1 / 2) * 2 ^ e < safeBound := by
  rcases Int.lt_or_eq_of_le he with hlt | rfl
  · have hle : (m : ℚ) + 1 / 2 ≤ 2 ^ 53 := by
      have hle' : (m : ℚ) + 1 ≤ 2 ^ 53 := by exact_mod_cast hm
      linarith
    calc ((m : ℚ) + 1 / 2) * 2 ^ e ≤ 2 ^ 53 * 2 ^ (970 : ℤ) := by
          gcongr
          · norm_num
          · omega
      _ = 2 ^ 52 * 2 ^ (971 : ℤ) := by
        rw [show (971 : ℤ) = 970 + 1 from rfl, zpow_add_one₀ (by norm_num)]
        ring
      _ < safeBound := by
        rw [safeBound]
        gcongr
        norm_num
  · have hle : (m : ℚ) + 7 ≤ 2 ^ 53 := by
      have hle' : m + 7 ≤ 2 ^ 53 := by omega
      exact_mod_cast hle'
    rw [safeBound]
    gcongr
    linarith

theorem digits_pos_of_value {d : Number.Decimal} (h : 0 < d.value) : 0 < d.digits := by
  rcases Nat.eq_zero_or_pos d.digits with hzero | hpos
  · simp [Number.Decimal.value, hzero] at h
  · exact hpos

/-- The shortest text of a safe number is read as a number, whatever format it is shortest for. -/
theorem numberOfNumeral_shortest_safe (f : BinaryFormat) {l : Layout} (hl : l.highest ≤ 17) {m : ℕ}
    {e : ℤ} (hm : 0 < m) (hm' : m < 2 ^ 53) (he : -1074 ≤ e ∧ e ≤ 971)
    (h : ¬(e = 971 ∧ 2 ^ 53 - 6 ≤ m)) (negative : Bool) :
    ∃ y, numberOfNumeral negative (l.numeral (f.shortest m e)) = some (.real y) := by
  obtain ⟨hlow, hhigh⟩ := @shortest_bounds f m e hm hm' (by omega) (by omega)
  have hone : (1 : ℚ) ≤ m := by exact_mod_cast hm
  have hpos : (2 : ℚ) ^ (-1075 : ℤ) ≤ (f.shortest m e).value :=
    (two_zpow_le_half hone he.1).trans hlow
  have hdigits := digits_pos_of_value (lt_of_lt_of_le (by positivity) hpos)
  exact numberOfNumeral_numeral hl hdigits hpos
    (hhigh.trans_lt (add_half_lt_safeBound hm' he.2 h)) negative

theorem numberOfNumeral_largest : ∀ k < 6, ∀ negative : Bool,
    (numberOfNumeral negative
      (Layout.double.numeral (Number.binary64.shortest (2 ^ 53 - 1 - k) 971))).isSome := by
  decide +kernel

/-- The text of a double is read as a number. -/
theorem numberOfNumeral_shortest {m : ℕ} {e : ℤ} (hm : 0 < m) (hc : Number.binary64.Canonical m e)
    (hfinite : Number.binary64.magnitude m e < Number.binary64.infinity) (negative : Bool) :
    (numberOfNumeral negative (Layout.double.numeral (Number.binary64.shortest m e))).isSome := by
  have hm' : m < 2 ^ 53 := hc.upper
  have he : -1074 ≤ e ∧ e ≤ 971 := by
    have hlower := hc.lower
    have hnormal := hc.normal
    simp only [Number.binary64, BinaryFormat.magnitude, BinaryFormat.infinity,
      BinaryFormat.minExponent, Nat.pow_eq] at hlower hnormal hfinite
    omega
  by_cases hlargest : e = 971 ∧ 2 ^ 53 - 6 ≤ m
  · obtain ⟨rfl, hlarge⟩ := hlargest
    have hk : m = 2 ^ 53 - 1 - (2 ^ 53 - 1 - m) := by omega
    rw [hk]
    exact numberOfNumeral_largest _ (by omega) negative
  · have hl : Layout.double.highest ≤ 17 := by decide
    obtain ⟨y, hy⟩ := numberOfNumeral_shortest_safe Number.binary64 hl hm hm' he hlargest negative
    rw [hy]
    rfl

theorem numberOfNumeral_shortest_single {m : ℕ} {e : ℤ} (hm : 0 < m)
    (hc : Number.binary32.Canonical m e)
    (hfinite : Number.binary32.magnitude m e < Number.binary32.infinity) (negative : Bool) :
    ∃ y, numberOfNumeral negative (Layout.single.numeral (Number.binary32.shortest m e))
      = some (.real y) := by
  have hm' : m < 2 ^ 24 := hc.upper
  have he : -149 ≤ e ∧ e ≤ 104 := by
    have hlower := hc.lower
    have hnormal := hc.normal
    simp only [Number.binary32, BinaryFormat.magnitude, BinaryFormat.infinity,
      BinaryFormat.minExponent, Nat.pow_eq] at hlower hnormal hfinite
    omega
  exact numberOfNumeral_shortest_safe Number.binary32 (by decide) hm (by omega) (by omega) (by omega)
    negative

theorem shortestText?_finite (f : BinaryFormat) (l : Layout) (negative : Bool) (m : ℕ) (e : ℤ) :
    Number.shortestText? f l (.finite negative m e)
      = some (String.ofList
        ((l.numeral (if m = 0 then ⟨0, 0⟩ else f.shortest m e)).signedChars negative)) := by
  cases m <;> simp [Number.shortestText?, Layout.write_eq]

theorem exists_reads_realChars (x : Float) (depth : ℕ) : ∃ v, Reads depth (realChars x) v := by
  cases hx : Number.doubleDatum x with
  | finite negative m e =>
    obtain ⟨hc, hfinite, -⟩ := BinaryFormat.datum_eq_finite hx
    have hsome : (numberOfNumeral negative
        (Layout.double.numeral (if m = 0 then ⟨0, 0⟩ else Number.binary64.shortest m e))).isSome := by
      rcases Nat.eq_zero_or_pos m with rfl | hm
      · obtain ⟨y, hy⟩ := numberOfNumeral_zero (l := .double) (by decide) negative
        rw [if_pos rfl, hy]
        rfl
      · rw [if_neg hm.ne']
        exact numberOfNumeral_shortest hm hc hfinite negative
    obtain ⟨v, hv⟩ := Option.isSome_iff_exists.mp hsome
    have hreads := reads_signedChars (Layout.numeral_strict _ _) negative depth hv
    refine ⟨v, ?_⟩
    rwa [realChars, Number.doubleText?, hx, shortestText?_finite, Option.getD_some,
      String.toList_ofList]
  | infinite negative =>
    rw [Number.realChars_eq_null fun _ _ _ h => by rw [hx] at h; cases h]
    exact ⟨.null, reads_null depth⟩
  | nan =>
    rw [Number.realChars_eq_null fun _ _ _ h => by rw [hx] at h; cases h]
    exact ⟨.null, reads_null depth⟩

theorem exists_reads_singleChars {x : Float32} (hx : x.isFinite = true) (depth : ℕ) :
    ∃ v y, Reads depth (singleChars x) v ∧ asSingle v = .ok y := by
  obtain ⟨negative, m, e, hx⟩ := Number.exists_singleDatum hx
  obtain ⟨hc, hfinite, -⟩ := BinaryFormat.datum_eq_finite hx
  have hreal : ∃ y, numberOfNumeral negative
      (Layout.single.numeral (if m = 0 then ⟨0, 0⟩ else Number.binary32.shortest m e))
        = some (.real y) := by
    rcases Nat.eq_zero_or_pos m with rfl | hm
    · rw [if_pos rfl]
      exact numberOfNumeral_zero (by decide) negative
    · rw [if_neg hm.ne']
      exact numberOfNumeral_shortest_single hm hc hfinite negative
  obtain ⟨y, hy⟩ := hreal
  have hreads := reads_signedChars (Layout.numeral_strict _ _) negative depth hy
  refine ⟨.real y, Number.narrow y, ?_, rfl⟩
  rwa [singleChars, Number.singleText?, hx, shortestText?_finite, Option.getD_some,
    String.toList_ofList]

/-- Whether a value can stand in a text: its integers have 64 bits, with a sign or without, and at
most `depth` containers lie inside each other. -/
inductive Fits : ℕ → Json → Prop where
  | null (depth : ℕ) : Fits depth .null
  | bool (depth : ℕ) (b : Bool) : Fits depth (.bool b)
  | integer (depth : ℕ) {n : ℤ} (hlow : -0x8000000000000000 ≤ n)
      (hhigh : n < 0x10000000000000000) : Fits depth (.integer n)
  | real (depth : ℕ) (x : Float) : Fits depth (.real x)
  | string (depth : ℕ) (s : String) : Fits depth (.string s)
  | array {depth : ℕ} {items : List Json} (h : ∀ v ∈ items, Fits depth v) :
      Fits (depth + 1) (.array items)
  | object {depth : ℕ} {fields : Fields} (h : ∀ f ∈ fields, Fits depth f.2) :
      Fits (depth + 1) (.object fields)

theorem nestingOfItems_le {items : List Json} {depth : ℕ} (h : ∀ v ∈ items, v.nesting ≤ depth) :
    nestingOfItems items ≤ depth := by
  induction items with
  | nil => exact Nat.zero_le _
  | cons v vs ih =>
    rw [nestingOfItems]
    exact max_le (h v (by simp)) (ih fun w hw => h w (by simp [hw]))

theorem nestingOfFields_le {fields : Fields} {depth : ℕ} (h : ∀ f ∈ fields, f.2.nesting ≤ depth) :
    nestingOfFields fields ≤ depth := by
  induction fields with
  | nil => exact Nat.zero_le _
  | cons f fs ih =>
    rw [nestingOfFields]
    exact max_le (h f (by simp)) (ih fun g hg => h g (by simp [hg]))

theorem Fits.nesting_le {depth : ℕ} {v : Json} (h : Fits depth v) : v.nesting ≤ depth := by
  induction h with
  | array _ ih =>
    rw [nesting]
    exact Nat.succ_le_succ (nestingOfItems_le ih)
  | object _ ih =>
    rw [nesting]
    exact Nat.succ_le_succ (nestingOfFields_le ih)
  | _ => exact Nat.zero_le _

theorem exists_reads_object {depth : ℕ} {fields : Fields}
    (h : ∀ f ∈ fields, ∃ v, Reads depth f.2.chars v) :
    ∃ gs, Reads (depth + 1) (Json.object fields).chars (.object gs) := by
  have hfields : ∀ f ∈ fields, ∃ g, ReadsField depth f g := by
    intro f hf
    obtain ⟨v, hv⟩ := h f hf
    exact ⟨(f.1, v), rfl, hv⟩
  obtain ⟨gs, hgs⟩ := exists_forall₂ hfields
  exact ⟨fieldsOf gs, reads_fieldsOf hgs⟩

/-- The text of a value is read as some value. -/
theorem Fits.exists_reads {depth : ℕ} {v : Json} (h : Fits depth v) : ∃ w, Reads depth v.chars w := by
  induction h with
  | null depth => exact ⟨.null, reads_null depth⟩
  | bool depth b => exact ⟨.bool b, reads_bool depth b⟩
  | integer depth hlow hhigh => exact ⟨_, reads_integerChars hlow hhigh depth⟩
  | real depth x => exact exists_reads_realChars x depth
  | string depth s => exact ⟨.string s, reads_quotedChars depth s⟩
  | @array depth items _ ih =>
    obtain ⟨ws, hws⟩ := exists_forall₂ ih
    rw [chars_array_eq]
    exact ⟨.array ws, reads_listChars (List.forall₂_map_left_iff.mpr hws)⟩
  | object _ ih =>
    obtain ⟨gs, hgs⟩ := exists_reads_object ih
    exact ⟨.object gs, hgs⟩

theorem Fits.exists_read {v : Json} (h : Fits depthLimit v) : ∃ w, read v.text = some w := by
  obtain ⟨w, hw⟩ := h.exists_reads
  exact ⟨w, hw.read_eq⟩

theorem Fits.exists_read_object {fields : Fields} (h : Fits depthLimit (.object fields)) :
    ∃ gs, read (Json.object fields).text = some (.object gs) := by
  cases h with
  | object h =>
    obtain ⟨gs, hgs⟩ := exists_reads_object fun f hf => (h f hf).exists_reads
    exact ⟨gs, hgs.read_eq⟩

/-- What the text of a finite single precision number is read as. -/
def rereadSingle (x : Float32) : Float32 :=
  ((read (String.ofList (singleChars x))).bind fun v => (asSingle v).toOption).getD x

theorem reads_rereadSingle {x : Float32} (hx : x.isFinite = true) (depth : ℕ) :
    ∃ v, Reads depth (singleChars x) v ∧ asSingle v = .ok (rereadSingle x) := by
  obtain ⟨v, y, hv, hy⟩ := exists_reads_singleChars hx depthLimit
  have hread := hv.read_eq
  have hreread : rereadSingle x = y := by
    rw [rereadSingle, hread, Option.bind_some, hy]
    rfl
  rw [hreread]
  rcases singleChars_cases x with ⟨negative, n, hn, hchars⟩ | hchars
  · rw [hchars, read_signedChars hn] at hread
    rw [hchars]
    exact ⟨v, reads_signedChars hn negative depth hread, hy⟩
  · rw [hchars, (reads_null depthLimit).read_eq] at hread
    cases hread
    cases hy

theorem vector?_singlesText_eq (xs : List Float32) :
    Record.vector? (singlesText xs)
      = if xs.all Float32.isFinite then some (xs.map rereadSingle) else none :=
  vector?_singlesText_map fun _ _ hx => reads_rereadSingle hx 126

theorem absorbWhole_lt {significand : ℕ} (h : significand < 0x10000000000000000) (ds : List Char) :
    (absorbWhole significand ds).1 < 0x10000000000000000 := by
  induction ds generalizing significand with
  | nil => exact h
  | cons d ds ih =>
    simp only [absorbWhole]
    split
    · rename_i hfits
      exact ih hfits
    · exact h

theorem fits_of_numberOfNumeral {n : Numeral} {negative : Bool} {v : Json}
    (h : numberOfNumeral negative n = some v) (depth : ℕ) : Fits depth v := by
  have hlt := absorbWhole_lt (Nat.two_pow_pos 64) n.whole
  have hreal {o : Option Float} {g : Float → Float}
      (ho : (o.map fun x => Json.real (g x)) = some v) : Fits depth v := by
    obtain ⟨x, -, rfl⟩ := Option.map_eq_some_iff.mp ho
    exact .real depth _
  unfold numberOfNumeral at h
  simp only at h
  split at h
  · split at h
    · exact hreal h
    · split at h
      · cases h
        exact .integer depth (by omega) (by omega)
      · split at h <;> cases h
        · exact .integer depth (by omega) (by omega)
        · exact .real depth _
  · split at h
    · exact hreal h
    · split at h
      · exact hreal h
      · split at h <;> cases h
        exact .real depth _

theorem fits_of_readScalar {cs r : List Char} {v : Json} (h : readScalar cs = some (v, r))
    (depth : ℕ) : Fits depth v := by
  unfold readScalar at h
  split at h
  · cases h
    exact .null depth
  · cases h
    exact .bool depth true
  · cases h
    exact .bool depth false
  · obtain ⟨p, -, hp⟩ := Option.map_eq_some_iff.mp h
    cases hp
    exact .string depth _
  · unfold readNumber at h
    obtain ⟨p, -, hp⟩ := Option.bind_eq_some_iff.mp h
    simp only at hp
    split at hp
    · cases hp
    · obtain ⟨w, hw, heq⟩ := Option.map_eq_some_iff.mp hp
      cases heq
      exact fits_of_numberOfNumeral hw depth

section

variable {value : Reader Json} {P : Json → Prop}

theorem forall_of_readItems (hvalue : ∀ {cs v r}, value cs = some (v, r) → P v) {fuel : ℕ}
    {cs r : List Char} {vs : List Json} (h : readItems value fuel cs = some (vs, r)) :
    ∀ v ∈ vs, P v := by
  induction fuel generalizing cs r vs with
  | zero => cases h
  | succ fuel ih =>
    simp only [readItems] at h
    split at h
    · cases h
    · rename_i hv
      split at h
      · obtain ⟨p, hp, heq⟩ := Option.map_eq_some_iff.mp h
        cases heq
        exact List.forall_mem_cons.mpr ⟨hvalue hv, ih hp⟩
      · cases h
        exact List.forall_mem_cons.mpr ⟨hvalue hv, by simp⟩
      · cases h

theorem forall_of_readFields (hvalue : ∀ {cs v r}, value cs = some (v, r) → P v) {fuel : ℕ}
    {cs r : List Char} {fs : Fields} (h : readFields value fuel cs = some (fs, r)) :
    ∀ f ∈ fs, P f.2 := by
  induction fuel generalizing cs r fs with
  | zero => cases h
  | succ fuel ih =>
    simp only [readFields] at h
    split at h
    · cases h
    · split at h
      · split at h
        · cases h
        · rename_i hv
          split at h
          · obtain ⟨p, hp, heq⟩ := Option.map_eq_some_iff.mp h
            cases heq
            exact List.forall_mem_cons.mpr ⟨hvalue hv, ih hp⟩
          · cases h
            exact List.forall_mem_cons.mpr ⟨hvalue hv, by simp⟩
          · cases h
      · cases h

end

theorem mem_insertField {key : String} {value : Json} {fields : Fields} {f : String × Json}
    (h : f ∈ insertField key value fields) : f = (key, value) ∨ f ∈ fields := by
  induction fields with
  | nil => exact .inl (by simpa [insertField] using h)
  | cons g fields ih =>
    obtain ⟨k, v⟩ := g
    simp only [insertField] at h
    split at h
    · rcases List.mem_cons.mp h with h | h
      · exact .inl h
      · exact .inr (by simp [h])
    · split at h
      · rcases List.mem_cons.mp h with h | h
        · exact .inl h
        · exact .inr h
      · rcases List.mem_cons.mp h with h | h
        · exact .inr (by simp [h])
        · exact (ih h).imp_right (List.mem_cons_of_mem _)

theorem mem_foldl_insertField {pairs acc : Fields} {f : String × Json}
    (h : f ∈ pairs.foldl (fun fields p => insertField p.1 p.2 fields) acc) :
    f ∈ acc ∨ f ∈ pairs := by
  induction pairs generalizing acc with
  | nil => exact .inl h
  | cons p pairs ih =>
    rcases ih h with h | h
    · rcases mem_insertField h with rfl | h
      · exact .inr (by simp)
      · exact .inl h
    · exact .inr (List.mem_cons_of_mem _ h)

theorem mem_of_mem_fieldsOf {pairs : Fields} {f : String × Json} (h : f ∈ fieldsOf pairs) :
    f ∈ pairs :=
  (mem_foldl_insertField h).resolve_left (by simp)

/-- A value that is read fits into its text. -/
theorem fits_of_readValue {depth : ℕ} {cs r : List Char} {v : Json}
    (h : readValue depth cs = some (v, r)) : Fits depth v := by
  induction depth generalizing cs v r with
  | zero =>
    simp only [readValue] at h
    split at h
    · cases h
    · exact fits_of_readScalar h 0
  | succ depth ih =>
    simp only [readValue] at h
    split at h
    · split at h
      · cases h
        exact .array (by simp)
      · obtain ⟨p, hp, heq⟩ := Option.map_eq_some_iff.mp h
        cases heq
        exact .array (forall_of_readItems ih hp)
    · split at h
      · cases h
        exact .object (by simp)
      · obtain ⟨p, hp, heq⟩ := Option.map_eq_some_iff.mp h
        cases heq
        exact .object fun f hf => forall_of_readFields ih hp f (mem_of_mem_fieldsOf hf)
    · exact fits_of_readScalar h _

theorem fits_of_read {s : String} {v : Json} (h : read s = some v) : Fits depthLimit v := by
  unfold read at h
  split at h
  · rename_i hfront
    split at h <;> cases h
    exact fits_of_readValue hfront
  · cases h

end Json

end DocumentStore
