import DocumentStore.Number.Layout
import DocumentStore.Json.Printer
import DocumentStore.Proofs.Number.Numeral
import Mathlib.Data.List.TakeWhile

/-! The texts of integers and of decimals are strict numerals, and the numeral of a decimal stands
for the same number in every layout. Main statement: a finite double is read back from its text. -/
namespace DocumentStore.Number

theorem digits_toDigits (n : ℕ) : Digits (Nat.toDigits 10 n) :=
  fun _ hc => Nat.isDigit_of_mem_toDigits (by decide) (by decide) hc

theorem head?_toDigits {n : ℕ} (hn : 0 < n) : (Nat.toDigits 10 n).head? ≠ some '0' := by
  induction n using Nat.strongRecOn with
  | ind n ih =>
    rcases Nat.lt_or_ge n 10 with hlt | hge
    · rw [Nat.toDigits_of_lt_base hlt]
      have hall : ∀ k < 10, 0 < k → [k.digitChar].head? ≠ some '0' := by decide
      exact hall n hlt hn
    · rw [Nat.toDigits_of_base_le (by decide) hge,
        List.head?_append_of_ne_nil _ Nat.toDigits_ne_nil]
      exact ih (n / 10) (by omega) (by omega)

theorem digitsValue_eq_ofDigitChars (ds : List Char) :
    digitsValue ds = Nat.ofDigitChars 10 ds 0 := by
  simp only [digitsValue, Nat.ofDigitChars, digitValue, mul_comm 10]
  rfl

@[simp] theorem digitsValue_toDigits (n : ℕ) : digitsValue (Nat.toDigits 10 n) = n := by
  rw [digitsValue_eq_ofDigitChars, Nat.ofDigitChars_ten_toDigits]

theorem digitsValue_append_zeros (ds : List Char) (n : ℕ) :
    digitsValue (ds ++ List.replicate n '0') = digitsValue ds * 10 ^ n := by
  rw [digitsValue_eq_ofDigitChars, Nat.ofDigitChars_append, Nat.ofDigitChars_replicate_zero,
    ← digitsValue_eq_ofDigitChars, mul_comm]

theorem digitsValue_zeros_append (n : ℕ) (ds : List Char) :
    digitsValue (List.replicate n '0' ++ ds) = digitsValue ds := by
  rw [digitsValue_eq_ofDigitChars, Nat.ofDigitChars_append, Nat.ofDigitChars_replicate_zero,
    mul_zero, ← digitsValue_eq_ofDigitChars]

/-- Without the zeros at its end a positive number still has digits, which begin as before. -/
theorem trimZeros_spec {n : ℕ} (hn : 0 < n) :
    (trimZeros n).1 ≠ [] ∧ Digits (trimZeros n).1 ∧ (trimZeros n).1.head? ≠ some '0'
      ∧ digitsValue (trimZeros n).1 * 10 ^ (trimZeros n).2 = n := by
  have hjoin : (trimZeros n).1 ++ List.replicate (trimZeros n).2 '0' = Nat.toDigits 10 n := by
    have hzeros : ((Nat.toDigits 10 n).reverse.takeWhile (· = '0'))
        = List.replicate ((Nat.toDigits 10 n).reverse.takeWhile (· = '0')).length '0' :=
      List.eq_replicate_of_mem fun c hc => by simpa using List.mem_takeWhile_imp hc
    have hsplit := congrArg List.reverse
      (List.takeWhile_append_dropWhile (p := (· = '0')) (l := (Nat.toDigits 10 n).reverse))
    rw [List.reverse_append, List.reverse_reverse] at hsplit
    simp only [trimZeros]
    rw [hzeros, List.reverse_replicate] at hsplit
    simpa using hsplit
  have hdigits := digits_toDigits n
  have hvalue := digitsValue_toDigits n
  have hhead := head?_toDigits hn
  rw [← hjoin] at hdigits hvalue hhead
  rw [digitsValue_append_zeros] at hvalue
  have hne : (trimZeros n).1 ≠ [] := by
    intro hnil
    rw [hnil] at hvalue
    simp [digitsValue] at hvalue
    omega
  refine ⟨hne, fun c hc => hdigits c (List.mem_append_left _ hc), ?_, hvalue⟩
  rwa [List.head?_append_of_ne_nil _ hne] at hhead

theorem Digits.append {cs ds : List Char} (hcs : Digits cs) (hds : Digits ds) :
    Digits (cs ++ ds) :=
  fun c hc => (List.mem_append.mp hc).elim (hcs c) (hds c)

theorem digits_zeros (n : ℕ) : Digits (List.replicate n '0') := by
  intro c hc
  rw [List.eq_of_mem_replicate hc]
  decide

def Numeral.value (n : Numeral) : ℚ := digitsValue n.digits * 10 ^ n.scale

def wholeNumeral (n : ℕ) : Numeral := ⟨Nat.toDigits 10 n, none, none⟩

theorem wholeNumeral_strict (n : ℕ) : (wholeNumeral n).Strict where
  whole := digits_toDigits n
  whole_ne_nil := Nat.toDigits_ne_nil
  start := by
    rcases Nat.eq_zero_or_pos n with rfl | hn
    · rfl
    · simp [Numeral.hasLeadingZero, wholeNumeral, head?_toDigits hn]
  places _ h := nomatch h
  exponent _ h := nomatch h

theorem integerChars_eq (n : ℤ) :
    Json.integerChars n = (wholeNumeral n.natAbs).signedChars (decide (n < 0)) := by
  rw [Numeral.signedChars, (wholeNumeral_strict _).chars_eq]
  by_cases hn : n < 0 <;>
    simp [Json.integerChars, hn, wholeNumeral, Numeral.pointChars, Numeral.exponentChars]

theorem wholeValue_wholeNumeral (n : ℤ) :
    (wholeNumeral n.natAbs).wholeValue (decide (n < 0)) = n := by
  simp only [Numeral.wholeValue, wholeNumeral, digitsValue_toDigits, decide_eq_true_eq]
  split <;> omega

theorem ofNumeral_wholeNumeral (n : ℤ) :
    Cell.ofNumeral (decide (n < 0)) (wholeNumeral n.natAbs) = Cell.ofInt n := by
  have hwhole : (wholeNumeral n.natAbs).isInteger = true := rfl
  rw [Cell.ofNumeral, hwhole, if_pos rfl, wholeValue_wholeNumeral]

section

variable {ds : List Char}

def positionalNumeral (ds : List Char) (whole : ℤ) : Numeral :=
  if whole ≤ 0 then ⟨['0'], some (List.replicate (-whole).toNat '0' ++ ds), none⟩
  else ⟨ds.take whole.toNat ++ List.replicate (whole.toNat - ds.length) '0',
    some (if (ds.drop whole.toNat).isEmpty then ['0'] else ds.drop whole.toNat), none⟩

theorem positionalNumeral_strict (hne : ds ≠ []) (hds : Digits ds) (hstart : ds.head? ≠ some '0')
    (whole : ℤ) : (positionalNumeral ds whole).Strict := by
  unfold positionalNumeral
  split
  · exact {
      whole := digits_zeros 1
      whole_ne_nil := by simp
      start := rfl
      places := by
        rintro _ ⟨⟩
        exact ⟨by simp [hne], (digits_zeros _).append hds⟩
      exponent := fun _ h => nomatch h }
  · rename_i hpos
    have hw : whole.toNat ≠ 0 := by omega
    have hhead : (ds.take whole.toNat).head? = ds.head? := by
      simp [List.head?_take, hw]
    have htake : ds.take whole.toNat ≠ [] := by simp [hne, hw]
    exact {
      whole := Digits.append (fun c hc => hds c (List.mem_of_mem_take hc)) (digits_zeros _)
      whole_ne_nil := by simp [htake]
      start := by
        simp [Numeral.hasLeadingZero, List.head?_append_of_ne_nil _ htake, hhead, hstart]
      places := by
        rintro _ ⟨⟩
        split
        · exact ⟨by simp, digits_zeros 1⟩
        · rename_i hdrop
          exact ⟨by simpa using hdrop, fun c hc => hds c (List.mem_of_mem_drop hc)⟩
      exponent := fun _ h => nomatch h }

theorem positional_eq (hne : ds ≠ []) (hds : Digits ds) (hstart : ds.head? ≠ some '0')
    (whole : ℤ) : positional ds whole = (positionalNumeral ds whole).chars := by
  rw [(positionalNumeral_strict hne hds hstart whole).chars_eq]
  unfold positional positionalNumeral
  split <;> simp [Numeral.pointChars, Numeral.exponentChars]

theorem positionalNumeral_value (whole : ℤ) :
    (positionalNumeral ds whole).value = digitsValue ds * 10 ^ (whole - ds.length) := by
  have hten : (10 : ℚ) ≠ 0 := by norm_num
  unfold positionalNumeral
  split
  · have hdigits : digitsValue ('0' :: (List.replicate (-whole).toNat '0' ++ ds))
        = digitsValue ds := digitsValue_zeros_append ((-whole).toNat + 1) ds
    have hscale : (0 : ℤ) - (List.replicate (-whole).toNat '0' ++ ds).length
        = whole - ds.length := by
      simp only [List.length_append, List.length_replicate]
      omega
    simp only [Numeral.value, Numeral.digits, Numeral.scale, Option.getD_some, List.singleton_append,
      hdigits, Option.map_none, Option.getD_none, hscale]
  · split
    · rename_i hdrop
      have hlen : ds.length ≤ whole.toNat := by simpa using hdrop
      have hdigits : digitsValue (ds.take whole.toNat
          ++ List.replicate (whole.toNat - ds.length) '0' ++ ['0'])
          = digitsValue ds * 10 ^ (whole.toNat - ds.length + 1) := by
        rw [List.take_of_length_le hlen, ← digitsValue_append_zeros, List.replicate_succ',
          List.append_assoc]
      have hscale : whole - ds.length = ((whole.toNat - ds.length + 1 : ℕ) : ℤ) + (0 - 1) := by omega
      simp only [Numeral.value, Numeral.digits, Numeral.scale, Option.getD_some, hdigits,
        Option.map_none, Option.getD_none, List.length_singleton, hscale, zpow_add₀ hten,
        zpow_natCast]
      push_cast
      ring
    · rename_i hdrop
      have hlen : whole.toNat - ds.length = 0 := by
        simp at hdrop
        omega
      have hscale : (0 : ℤ) - (ds.drop whole.toNat).length = whole - ds.length := by
        simp at hdrop
        simp only [List.length_drop]
        omega
      simp only [Numeral.value, Numeral.digits, Numeral.scale, Option.getD_some, hlen,
        List.replicate_zero, List.append_nil, List.take_append_drop, Option.map_none,
        Option.getD_none, hscale]

/-- The numeral of the scientific form, of which the leading digit stands at `10 ^ x`. -/
def scientificNumeral (l : Layout) (ds : List Char) (x : ℤ) : Numeral where
  whole := ds.take 1
  places :=
    if (ds.drop 1).isEmpty then (if l.keepPoint then some ['0'] else none) else some (ds.drop 1)
  exponent := some ⟨'e', some (if x < 0 then '-' else '+'),
    padLeft l.exponentWidth (Nat.toDigits 10 x.natAbs)⟩

theorem scientificNumeral_strict (l : Layout) (hne : ds ≠ []) (hds : Digits ds) (x : ℤ) :
    (scientificNumeral l ds x).Strict where
  whole c hc := hds c (List.mem_of_mem_take hc)
  whole_ne_nil := by simp [scientificNumeral, hne]
  start := by
    obtain ⟨d, ds, rfl⟩ := List.exists_cons_of_ne_nil hne
    simp [Numeral.hasLeadingZero, scientificNumeral]
  places := by
    intro ps hps
    simp only [scientificNumeral] at hps
    split at hps
    · split at hps <;> cases hps
      exact ⟨by simp, digits_zeros 1⟩
    · rename_i hdrop
      cases hps
      exact ⟨by simpa using hdrop, fun c hc => hds c (List.mem_of_mem_drop hc)⟩
  exponent := by
    rintro _ ⟨⟩
    exact {
      letter := .inl rfl
      sign := by
        rintro _ ⟨⟩
        split
        · exact .inr rfl
        · exact .inl rfl
      digits := (digits_zeros _).append (digits_toDigits _)
      ne_nil := by simp [padLeft, Nat.toDigits_ne_nil] }

theorem scientificExponent_value (l : Layout) (x : ℤ) :
    (⟨'e', some (if x < 0 then '-' else '+'),
      padLeft l.exponentWidth (Nat.toDigits 10 x.natAbs)⟩ : Exponent).value = x := by
  simp only [Exponent.value, padLeft, digitsValue_zeros_append, digitsValue_toDigits]
  by_cases hx : x < 0
  · simp only [hx, if_true]
    omega
  · simp only [hx, if_false, Option.some.injEq, Char.reduceEq]
    omega

theorem scientificNumeral_value (l : Layout) (hne : ds ≠ []) (x : ℤ) :
    (scientificNumeral l ds x).value = digitsValue ds * 10 ^ (x + 1 - ds.length) := by
  have hten : (10 : ℚ) ≠ 0 := by norm_num
  have hexponent := scientificExponent_value l x
  obtain ⟨d, ds, rfl⟩ := List.exists_cons_of_ne_nil hne
  simp only [Numeral.value, Numeral.digits, Numeral.scale, scientificNumeral, Option.map_some,
    Option.getD_some, hexponent, List.take_succ_cons, List.take_zero, List.drop_succ_cons,
    List.drop_zero, List.length_cons]
  split
  · rename_i hnil
    obtain rfl : ds = [] := by simpa using hnil
    split
    · have hdigits : digitsValue ([d] ++ ['0']) = digitsValue [d] * 10 ^ 1 :=
        digitsValue_append_zeros [d] 1
      have hscale : x - (['0'].length : ℕ) = x + 1 - (0 + 1 : ℕ) - 1 := by simp
      simp only [Option.getD_some, hdigits, List.length_nil, hscale, zpow_sub_one₀ hten]
      push_cast
      ring
    · simp
  · simp only [Option.getD_some, List.singleton_append]
    congr 2
    push_cast
    ring

end

namespace Layout

def leadingPlace (d : Decimal) : ℤ :=
  d.exponent + (trimZeros d.digits).2 + ((trimZeros d.digits).1.length : ℤ) - 1

def numeral (l : Layout) (d : Decimal) : Numeral :=
  if d.digits = 0 then ⟨['0'], some ['0'], none⟩
  else if l.lowest ≤ leadingPlace d ∧ leadingPlace d ≤ l.highest then
    positionalNumeral (trimZeros d.digits).1 (leadingPlace d + 1)
  else scientificNumeral l (trimZeros d.digits).1 (leadingPlace d)

theorem numeral_strict (l : Layout) (d : Decimal) : (l.numeral d).Strict := by
  unfold numeral
  split
  · exact {
      whole := digits_zeros 1
      whole_ne_nil := by simp
      start := rfl
      places := by
        rintro _ ⟨⟩
        exact ⟨by simp, digits_zeros 1⟩
      exponent := fun _ h => nomatch h }
  · rename_i hpos
    obtain ⟨hne, hds, hstart, -⟩ := trimZeros_spec (Nat.pos_of_ne_zero hpos)
    split
    · exact positionalNumeral_strict hne hds hstart _
    · exact scientificNumeral_strict l hne hds _

theorem write_eq (l : Layout) (negative : Bool) (d : Decimal) :
    l.write negative d = (l.numeral d).signedChars negative := by
  unfold write numeral Numeral.signedChars
  congr 1
  by_cases hpos : d.digits = 0
  · simp only [hpos, if_true]
    rfl
  · obtain ⟨hne, hds, hstart, -⟩ := trimZeros_spec (Nat.pos_of_ne_zero hpos)
    simp only [hpos, if_false]
    unfold positive
    split
    rename_i ds zeros htrim
    simp only [leadingPlace, htrim] at hne hds hstart ⊢
    split
    · exact positional_eq hne hds hstart _
    · rw [(scientificNumeral_strict l hne hds _).chars_eq]
      simp only [scientificNumeral, Numeral.pointChars, Numeral.exponentChars, Exponent.chars,
        Option.map_some, Option.getD_some, Option.toList_some, List.singleton_append]
      split
      · split <;> simp
      · simp

theorem numeral_value (l : Layout) (d : Decimal) : (l.numeral d).value = d.value := by
  unfold numeral
  split
  · rename_i hzero
    simp [Numeral.value, Numeral.digits, digitsValue, digitValue, Decimal.value, hzero]
  · rename_i hpos
    obtain ⟨hne, -, -, hvalue⟩ := trimZeros_spec (Nat.pos_of_ne_zero hpos)
    have hscaled : (digitsValue (trimZeros d.digits).1 : ℚ)
        * 10 ^ (leadingPlace d + 1 - (trimZeros d.digits).1.length) = d.value := by
      have hplace : leadingPlace d + 1 - (trimZeros d.digits).1.length
          = d.exponent + (trimZeros d.digits).2 := by
        unfold leadingPlace
        ring
      rw [hplace, Decimal.value, zpow_add₀ (by norm_num), zpow_natCast]
      conv_rhs => rw [← hvalue]
      push_cast
      ring
    split
    · rw [positionalNumeral_value, hscaled]
    · rw [scientificNumeral_value l hne, hscaled]

theorem numeral_isInteger (l : Layout) (d : Decimal) : (l.numeral d).isInteger = false := by
  unfold numeral positionalNumeral scientificNumeral Numeral.isInteger
  split
  · rfl
  · split
    · split <;> rfl
    · simp

end Layout

theorem realChars_spec {x : Float} {negative : Bool} {m : ℕ} {e : ℤ}
    (hx : doubleDatum x = .finite negative m e) :
    ∃ n : Numeral, n.Strict ∧ Json.realChars x = n.signedChars negative
      ∧ Cell.ofNumeral negative n = .real x := by
  rcases Nat.eq_zero_or_pos m with rfl | hm
  · refine ⟨Layout.double.numeral ⟨0, 0⟩, Layout.numeral_strict _ _, ?_, ?_⟩
    · simp only [Json.realChars, doubleText?, hx, shortestText?, Option.getD_some,
        String.toList_ofList, Layout.write_eq]
    · rw [Cell.ofNumeral, Layout.numeral_isInteger, ← doubleOfDecimal_zero hx (-1)]
      rfl
  · have htext : doubleText? x = some (String.ofList
        (Layout.double.write negative (binary64.shortest m e))) := by
      rw [doubleText?, hx]
      cases m with
      | zero => omega
      | succ m => rfl
    refine ⟨Layout.double.numeral (binary64.shortest m e), Layout.numeral_strict _ _, ?_, ?_⟩
    · simp only [Json.realChars, htext, Option.getD_some, String.toList_ofList, Layout.write_eq]
    · have hvalue := Layout.numeral_value .double (binary64.shortest m e)
      rw [Cell.ofNumeral, Layout.numeral_isInteger, doubleOfDecimal_shortest hx hm hvalue]
      rfl

theorem realChars_eq_null {x : Float} (hx : ∀ negative m e, doubleDatum x ≠ .finite negative m e) :
    Json.realChars x = ['n', 'u', 'l', 'l'] := by
  have hnone : doubleText? x = none := by
    unfold doubleText?
    cases h : doubleDatum x with
    | finite negative m e => exact absurd h (hx _ _ _)
    | infinite negative => rfl
    | nan => rfl
  rw [Json.realChars, hnone]
  rfl

end DocumentStore.Number
