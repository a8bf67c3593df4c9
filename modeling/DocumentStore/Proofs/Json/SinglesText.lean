import DocumentStore.Document.Record
import DocumentStore.Proofs.Json.StrictText
import DocumentStore.Proofs.Outcome

/-! The text of a vector. Main statement: it is read as the vector that was written if all numbers
of that are finite, and cannot be read otherwise. -/
namespace DocumentStore

namespace Number

/-- The bits of a single precision number that is not finite are those of no finite number. -/
theorem singleDatum_ne_finite {x : Float32} (h : x.isFinite = false) (negative : Bool) (m : ℕ)
    (e : ℤ) : singleDatum x ≠ .finite negative m e := by
  have hexponent : @Float.Model.UnpackedFloat.unpackExponent Float.Model.Format.binary32
      x.toBits.toBitVec = -1#8 := by
    by_contra hne
    have hfinite : x.isFinite = true := by
      simp only [Float32.isFinite, Float32.Model.isFinite, Float32.Model.unpack,
        Float.Model.UnpackedFloat.unpack]
      rw [if_neg (by exact hne)]
      split
      · split <;> rfl
      · rfl
    rw [h] at hfinite
    cases hfinite
  have hbits := congrArg BitVec.toNat hexponent
  simp only [Float.Model.UnpackedFloat.unpackExponent, BitVec.toNat_cast, BitVec.extractLsb_toNat,
    Nat.shiftRight_eq_div_pow] at hbits
  have hlarge : ¬x.toBits.toNat % binary32.signBit < binary32.infinity := by
    simp only [binary32, BinaryFormat.signBit, BinaryFormat.infinity, Nat.pow_eq]
    change x.toBits.toNat / 2 ^ 23 % 2 ^ 8 = 255 at hbits
    omega
  simp only [singleDatum, BinaryFormat.datum, hlarge, if_false]
  split <;> simp

end Number

namespace Json

open Number (Numeral)

/-- Whether a single precision number is read from its text as it was. -/
def IsLegibleSingle (x : Float32) : Prop :=
  ((read (String.ofList (singleChars x))).bind fun v => (asSingle v).toOption) = some x

instance (x : Float32) : Decidable (IsLegibleSingle x) := inferInstanceAs (Decidable (_ = _))

/-- A single precision number is written as a numeral, or as null if it is not finite. -/
theorem singleChars_cases (x : Float32) :
    (∃ negative n, Numeral.Strict n ∧ singleChars x = n.signedChars negative)
      ∨ singleChars x = ['n', 'u', 'l', 'l'] := by
  have hnumeral {negative : Bool} {d : Number.Decimal}
      (hx : Number.singleText? x = some (String.ofList (Number.Layout.single.write negative d))) :
      ∃ negative n, Numeral.Strict n ∧ singleChars x = n.signedChars negative := by
    refine ⟨negative, Number.Layout.single.numeral d, Number.Layout.numeral_strict _ _, ?_⟩
    simp [singleChars, hx, Number.Layout.write_eq]
  cases h : Number.singleDatum x with
  | finite negative m e =>
    left
    cases m with
    | zero => exact hnumeral (by rw [Number.singleText?, h]; rfl)
    | succ m => exact hnumeral (by rw [Number.singleText?, h]; rfl)
  | infinite negative =>
    exact .inr (by simp [singleChars, Number.singleText?, h, Number.shortestText?])
  | nan => exact .inr (by simp [singleChars, Number.singleText?, h, Number.shortestText?])

theorem singleChars_eq_null {x : Float32} (h : x.isFinite = false) :
    singleChars x = ['n', 'u', 'l', 'l'] := by
  have hdatum := Number.singleDatum_ne_finite h
  cases hx : Number.singleDatum x with
  | finite negative m e => exact absurd hx (hdatum negative m e)
  | infinite negative => simp [singleChars, Number.singleText?, hx, Number.shortestText?]
  | nan => simp [singleChars, Number.singleText?, hx, Number.shortestText?]

theorem reads_singleChars {x : Float32} (hx : IsLegibleSingle x) (depth : ℕ) :
    ∃ v, Reads depth (singleChars x) v ∧ asSingle v = .ok x := by
  rw [IsLegibleSingle, Option.bind_eq_some_iff] at hx
  obtain ⟨v, hread, hv⟩ := hx
  have hok : asSingle v = .ok x := by
    cases h : asSingle v with
    | error e => rw [h] at hv; cases hv
    | ok y => rw [h] at hv; cases hv; rfl
  rcases singleChars_cases x with ⟨negative, n, hn, hchars⟩ | hchars
  · rw [hchars, read_signedChars hn] at hread
    rw [hchars]
    exact ⟨v, reads_signedChars hn negative depth hread, hok⟩
  · rw [hchars, (reads_null depthLimit).read_eq] at hread
    cases hread
    cases hok

theorem reads_singles {f : Float32 → Float32} {depth : ℕ} {xs : List Float32}
    (hf : ∀ x ∈ xs, x.isFinite = true → ∃ v, Reads depth (singleChars x) v ∧ asSingle v = .ok (f x)) :
    ∃ vs, List.Forall₂ (Reads depth) (xs.map singleChars) vs
      ∧ (vs.mapM asSingle).toOption = if xs.all Float32.isFinite then some (xs.map f) else none := by
  induction xs with
  | nil => exact ⟨[], .nil, rfl⟩
  | cons x xs ih =>
    obtain ⟨vs, hvs, hmap⟩ := ih fun y hy => hf y (by simp [hy])
    cases hfinite : x.isFinite with
    | true =>
      obtain ⟨v, hv, hok⟩ := hf x (by simp) hfinite
      refine ⟨v :: vs, .cons hv hvs, ?_⟩
      rw [toOption_mapM_cons, hok, hmap, List.all_cons, hfinite, Bool.true_and]
      split <;> rfl
    | false =>
      refine ⟨.null :: vs, .cons ?_ hvs, ?_⟩
      · rw [singleChars_eq_null hfinite]
        exact reads_null depth
      · rw [toOption_mapM_cons, List.all_cons, hfinite, Bool.false_and]
        rfl

/-- The text of a vector is read number by number, unless one of them is not finite. -/
theorem vector?_singlesText_map {f : Float32 → Float32} {xs : List Float32}
    (hf : ∀ x ∈ xs, x.isFinite = true → ∃ v, Reads 126 (singleChars x) v ∧ asSingle v = .ok (f x)) :
    Record.vector? (singlesText xs)
      = if xs.all Float32.isFinite then some (xs.map f) else none := by
  obtain ⟨vs, hvs, hmap⟩ := reads_singles hf
  have hread : read (singlesText xs) = some (.array vs) := (reads_listChars hvs).read_eq
  rw [Record.vector?, hread, Option.bind_some, ← hmap]
  rfl

theorem vector?_singlesText {xs : List Float32}
    (hx : ∀ x ∈ xs, x.isFinite = true → IsLegibleSingle x) :
    Record.vector? (singlesText xs) = if xs.all Float32.isFinite then some xs else none := by
  have hid := vector?_singlesText_map (f := id) fun x hmem hfinite =>
    reads_singleChars (hx x hmem hfinite) 126
  rwa [List.map_id] at hid

end Json

end DocumentStore
