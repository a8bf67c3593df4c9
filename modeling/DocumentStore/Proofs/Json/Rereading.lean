import DocumentStore.Proofs.Json.Readable
import DocumentStore.Proofs.Number.Zeros

/-! Texts that are written again. Main statement: the text of a value is read as this value with
every double replaced by what its own text is read as. A value is given back just if all its doubles
are, and one that is not given back is written as another text the next time. -/
namespace DocumentStore

namespace Json

open Number (Numeral Layout)

mutual

/-- What the text of a value is read as: a double may change, as it is read inexactly. -/
def reread : Json → Json
  | .real x => (read (Json.real x).text).getD .null
  | .array items => .array (rereadItems items)
  | .object fields => .object (rereadFields fields)
  | .null => .null
  | .bool b => .bool b
  | .integer n => .integer n
  | .string s => .string s

def rereadItems : List Json → List Json
  | [] => []
  | v :: vs => reread v :: rereadItems vs

def rereadFields : Fields → Fields
  | [] => []
  | (k, v) :: fs => (k, reread v) :: rereadFields fs

end

theorem rereadItems_eq_map (items : List Json) : rereadItems items = items.map reread := by
  induction items with
  | nil => simp [rereadItems]
  | cons v vs ih => simp [rereadItems, ih]

theorem rereadFields_eq_map (fields : Fields) :
    rereadFields fields = fields.map fun f => (f.1, reread f.2) := by
  induction fields with
  | nil => simp [rereadFields]
  | cons f fs ih => simp [rereadFields, ih]

theorem reads_reread_real (x : Float) (depth : ℕ) :
    Reads depth (realChars x) (Json.real x).reread := by
  rcases Node.realChars_cases x with ⟨-, negative, n, hn, hchars, -⟩ | ⟨-, hchars⟩
  · obtain ⟨v, hv⟩ := exists_reads_realChars x depthLimit
    have hread : read (Json.real x).text = some v := by
      rw [text, chars]
      exact hv.read_eq
    have hnumber : numberOfNumeral negative n = some v := by
      rw [← read_signedChars hn, ← hchars]
      exact hv.read_eq
    rw [reread, hread, hchars]
    exact reads_signedChars hn negative depth hnumber
  · rw [reread, text, chars, hchars, (reads_null depthLimit).read_eq]
    exact reads_null depth

theorem nesting_reread_real (x : Float) : (Json.real x).reread.nesting = 0 := by
  have hread := (reads_reread_real x 0).read [] Number.stops_nil
  exact Nat.le_zero.mp (fits_of_readValue hread).nesting_le

mutual

theorem nesting_reread (v : Json) : v.reread.nesting = v.nesting := by
  match v with
  | .real x => exact nesting_reread_real x
  | .array items => rw [reread, nesting, nesting, nestingOfItems_reread items]
  | .object fields => rw [reread, nesting, nesting, nestingOfFields_reread fields]
  | .null | .bool _ | .integer _ | .string _ => rfl

theorem nestingOfItems_reread (items : List Json) :
    nestingOfItems (rereadItems items) = nestingOfItems items := by
  match items with
  | [] => rfl
  | v :: vs =>
    rw [rereadItems, nestingOfItems, nestingOfItems, nesting_reread v, nestingOfItems_reread vs]

theorem nestingOfFields_reread (fields : Fields) :
    nestingOfFields (rereadFields fields) = nestingOfFields fields := by
  match fields with
  | [] => rfl
  | (k, v) :: fs =>
    rw [rereadFields, nestingOfFields, nestingOfFields, nesting_reread v,
      nestingOfFields_reread fs]

end

/-- Whether the fields of every object in a value stand in the order of their keys, all
different. -/
inductive IsSorted : Json → Prop where
  | scalar {v : Json} (h : Node.IsScalar v) : IsSorted v
  | array {items : List Json} (h : ∀ v ∈ items, IsSorted v) : IsSorted (.array items)
  | object {fields : Fields} (hkeys : fields.Pairwise fun f g => f.1 < g.1)
      (h : ∀ f ∈ fields, IsSorted f.2) : IsSorted (.object fields)

theorem pairwise_insertField {key : String} {value : Json} {fields : Fields}
    (h : fields.Pairwise fun f g => f.1 < g.1) :
    (insertField key value fields).Pairwise fun f g => f.1 < g.1 := by
  induction fields with
  | nil => simp [insertField]
  | cons f fields ih =>
    obtain ⟨k, v⟩ := f
    obtain ⟨hk, hfields⟩ := List.pairwise_cons.mp h
    rw [insertField]
    split
    · rename_i heq
      exact List.pairwise_cons.mpr ⟨fun g hg => heq ▸ hk g hg, hfields⟩
    · rename_i hne
      split
      · rename_i hlt
        refine List.pairwise_cons.mpr ⟨?_, h⟩
        exact List.forall_mem_cons.mpr ⟨hlt, fun g hg => String.lt_trans hlt (hk g hg)⟩
      · rename_i hge
        refine List.pairwise_cons.mpr ⟨fun g hg => ?_, ih hfields⟩
        rcases mem_insertField hg with rfl | hg
        · exact lt_of_le_of_ne (String.not_lt.mp hge) (Ne.symm hne)
        · exact hk g hg

theorem pairwise_fieldsOf (pairs : Fields) : (fieldsOf pairs).Pairwise fun f g => f.1 < g.1 := by
  have hfold (acc : Fields) (h : acc.Pairwise fun f g => f.1 < g.1) :
      (pairs.foldl (fun fields p => insertField p.1 p.2 fields) acc).Pairwise
        fun f g => f.1 < g.1 := by
    induction pairs generalizing acc with
    | nil => exact h
    | cons p pairs ih => exact ih _ (pairwise_insertField h)
  exact hfold [] .nil

theorem isSorted_of_readScalar {cs r : List Char} {v : Json} (h : readScalar cs = some (v, r)) :
    IsSorted v := by
  cases fits_of_readScalar h 0 <;> exact .scalar trivial

theorem isSorted_of_readValue {depth : ℕ} {cs r : List Char} {v : Json}
    (h : readValue depth cs = some (v, r)) : IsSorted v := by
  induction depth generalizing cs v r with
  | zero =>
    simp only [readValue] at h
    split at h
    · cases h
    · exact isSorted_of_readScalar h
  | succ depth ih =>
    simp only [readValue] at h
    split at h
    · split at h
      · cases h
        exact .array (by simp)
      · obtain ⟨p, hp, heq⟩ := Option.map_eq_some_iff.mp h
        cases heq
        exact .array (forall_of_readItems ih hp)
    · split at h
      · cases h
        exact .object .nil (by simp)
      · obtain ⟨p, hp, heq⟩ := Option.map_eq_some_iff.mp h
        cases heq
        exact .object (pairwise_fieldsOf _) fun f hf =>
          forall_of_readFields ih hp f (mem_of_mem_fieldsOf hf)
    · exact isSorted_of_readScalar h

theorem isSorted_of_read {s : String} {v : Json} (h : read s = some v) : IsSorted v := by
  unfold read at h
  split at h
  · rename_i hfront
    split at h <;> cases h
    exact isSorted_of_readValue hfront
  · cases h

section

variable {depth : ℕ} {v : Json}

theorem Fits.reads_reread (h : Fits depth v) (hsorted : v.IsSorted) :
    Reads depth v.chars v.reread := by
  induction h with
  | null depth => exact reads_null depth
  | bool depth b => exact reads_bool depth b
  | integer depth hlow hhigh => exact reads_integerChars hlow hhigh depth
  | real depth x =>
    rw [chars]
    exact reads_reread_real x depth
  | string depth s => exact reads_quotedChars depth s
  | @array depth items _ ih =>
    obtain ⟨⟨⟩⟩ | hitems := hsorted
    rw [chars_array_eq, reread, rereadItems_eq_map]
    apply reads_listChars
    rw [List.forall₂_map_left_iff, List.forall₂_map_right_iff, List.forall₂_same]
    exact fun v hv => ih v hv (hitems v hv)
  | @object depth fields _ ih =>
    obtain ⟨⟨⟩⟩ | - | ⟨hkeys, hfields⟩ := hsorted
    have hforall : List.Forall₂ (ReadsField depth) fields (rereadFields fields) := by
      rw [rereadFields_eq_map, List.forall₂_map_right_iff, List.forall₂_same]
      exact fun f hf => ⟨rfl, ih f hf (hfields f hf)⟩
    have hkept : (rereadFields fields).Pairwise fun f g => f.1 < g.1 := by
      rw [rereadFields_eq_map]
      exact List.pairwise_map.mpr hkeys
    have hreads := reads_fieldsOf hforall
    rwa [ofPairs, fieldsOf_of_sorted hkept] at hreads

theorem read_text_eq_reread (h : Fits depthLimit v) (hsorted : v.IsSorted) :
    read v.text = some v.reread :=
  (h.reads_reread hsorted).read_eq

end

section

variable {value value' : Reader Json} (h : ∀ cs p, value cs = some p → value' cs = some p)

include h

theorem readItems_mono {fuel : ℕ} {cs : List Char} {p : List Json × List Char}
    (hread : readItems value fuel cs = some p) : readItems value' fuel cs = some p := by
  induction fuel generalizing cs p with
  | zero => cases hread
  | succ fuel ih =>
    simp only [readItems] at hread ⊢
    split at hread
    · cases hread
    · rename_i v r hv
      simp only [h _ _ hv]
      split at hread
      · obtain ⟨q, hq, rfl⟩ := Option.map_eq_some_iff.mp hread
        rw [ih hq, Option.map_some]
      · exact hread
      · cases hread

theorem readFields_mono {fuel : ℕ} {cs : List Char} {p : Fields × List Char}
    (hread : readFields value fuel cs = some p) : readFields value' fuel cs = some p := by
  induction fuel generalizing cs p with
  | zero => cases hread
  | succ fuel ih =>
    simp only [readFields] at hread ⊢
    split at hread
    · cases hread
    · split at hread
      · split at hread
        · cases hread
        · rename_i v r hv
          simp only [h _ _ hv]
          split at hread
          · obtain ⟨q, hq, rfl⟩ := Option.map_eq_some_iff.mp hread
            rw [ih hq, Option.map_some]
          · exact hread
          · cases hread
      · cases hread

end

theorem readValue_mono {depth depth' : ℕ} (hle : depth ≤ depth') {cs : List Char}
    {p : Json × List Char} (h : readValue depth cs = some p) : readValue depth' cs = some p := by
  induction depth generalizing depth' cs p with
  | zero =>
    simp only [readValue] at h
    split at h
    · cases h
    · rename_i hscalar
      cases cs with
      | nil => cases h
      | cons c r =>
        simp only [List.head?_cons, Option.some.injEq, not_or] at hscalar
        rwa [readValue_of_scalar hscalar.1 hscalar.2]
  | succ depth ih =>
    obtain ⟨depth', rfl⟩ := Nat.exists_eq_add_of_le' (Nat.le_of_add_left_le hle)
    have hvalue (cs : List Char) (p : Json × List Char) :
        readValue depth cs = some p → readValue depth' cs = some p := ih (by omega)
    simp only [readValue] at h ⊢
    split at h
    · split at h
      · exact h
      · obtain ⟨q, hq, rfl⟩ := Option.map_eq_some_iff.mp h
        rw [readItems_mono hvalue hq, Option.map_some]
    · split at h
      · exact h
      · obtain ⟨q, hq, rfl⟩ := Option.map_eq_some_iff.mp h
        rw [readFields_mono hvalue hq, Option.map_some]
    · exact h

/-- Whatever is read of a text, at any nesting, is what is read again of its value. -/
theorem Fits.eq_reread_of_read {depth : ℕ} {v w : Json} (h : Fits depth v) (hsorted : v.IsSorted)
    (hread : read v.text = some w) : w = v.reread := by
  obtain ⟨⟨c, t, hchars, hc⟩, hreads⟩ := h.reads_reread hsorted
  have hdeep := readValue_mono (le_max_left depth depthLimit) (hreads [] Number.stops_nil)
  rw [read, readFront, text, String.toList_ofList, hchars, skipSpace_front hc, ← hchars] at hread
  split at hread
  · rename_i hfront
    have hshallow := readValue_mono (le_max_right depth depthLimit) hfront
    rw [List.append_nil, hshallow] at hdeep
    split at hread <;> cases hread
    exact congrArg Prod.fst (Option.some.inj hdeep)
  · cases hread

mutual

/-- A value that a document can hold can stand in a text, if that may be nested deeply enough. -/
theorem IsProper.stands (v : Json) {depth : ℕ} (h : v.IsProper) (hd : v.nesting ≤ depth) :
    Fits depth v ∧ v.IsSorted := by
  match v with
  | .null => exact ⟨.null _, .scalar trivial⟩
  | .bool b => exact ⟨.bool _ b, .scalar trivial⟩
  | .integer n => exact ⟨.integer _ h.1 h.2, .scalar trivial⟩
  | .real x => exact ⟨.real _ x, .scalar trivial⟩
  | .string s => exact ⟨.string _ s, .scalar trivial⟩
  | .array items =>
    rw [nesting] at hd
    obtain ⟨depth, rfl⟩ := Nat.exists_eq_add_of_le' (Nat.le_of_add_left_le hd)
    have hitems := AreProper.stand items h (Nat.le_of_succ_le_succ hd)
    exact ⟨.array fun v hv => (hitems v hv).1, .array fun v hv => (hitems v hv).2⟩
  | .object fields =>
    rw [nesting] at hd
    obtain ⟨depth, rfl⟩ := Nat.exists_eq_add_of_le' (Nat.le_of_add_left_le hd)
    have hfields := AreProperFields.stand fields h.2 (Nat.le_of_succ_le_succ hd)
    exact ⟨.object fun f hf => (hfields f hf).1, .object h.1 fun f hf => (hfields f hf).2⟩

theorem AreProper.stand (items : List Json) {depth : ℕ} (h : AreProper items)
    (hd : nestingOfItems items ≤ depth) : ∀ v ∈ items, Fits depth v ∧ v.IsSorted := by
  match items with
  | [] => simp
  | v :: vs =>
    rw [nestingOfItems] at hd
    exact List.forall_mem_cons.mpr ⟨IsProper.stands v h.1 ((le_max_left _ _).trans hd),
      AreProper.stand vs h.2 ((le_max_right _ _).trans hd)⟩

theorem AreProperFields.stand (fields : Fields) {depth : ℕ} (h : AreProperFields fields)
    (hd : nestingOfFields fields ≤ depth) : ∀ f ∈ fields, Fits depth f.2 ∧ f.2.IsSorted := by
  match fields with
  | [] => simp
  | (k, v) :: fs =>
    rw [nestingOfFields] at hd
    exact List.forall_mem_cons.mpr ⟨IsProper.stands v h.1 ((le_max_left _ _).trans hd),
      AreProperFields.stand fs h.2 ((le_max_right _ _).trans hd)⟩

end

theorem IsProper.eq_reread_of_read {v w : Json} (h : v.IsProper) (hread : read v.text = some w) :
    w = v.reread := by
  obtain ⟨hfits, hsorted⟩ := IsProper.stands v h le_rfl
  exact hfits.eq_reread_of_read hsorted hread

theorem IsProper.nesting_le_of_read {v w : Json} (h : v.IsProper) (hread : read v.text = some w) :
    v.nesting ≤ depthLimit := by
  rw [← nesting_reread, ← h.eq_reread_of_read hread]
  exact (fits_of_read hread).nesting_le

mutual

theorem IsProper.isFinite_reals (v : Json) (h : v.IsProper) : ∀ x ∈ v.reals, x.isFinite = true := by
  match v with
  | .real x => exact List.forall_mem_singleton.mpr h
  | .array items => exact AreProper.isFinite_reals items h
  | .object fields => exact AreProperFields.isFinite_reals fields h.2
  | .null | .bool _ | .integer _ | .string _ => simp [reals]

theorem AreProper.isFinite_reals (items : List Json) (h : AreProper items) :
    ∀ x ∈ realsOfItems items, x.isFinite = true := by
  match items with
  | [] => simp [realsOfItems]
  | v :: vs =>
    rw [realsOfItems]
    exact List.forall_mem_append.mpr
      ⟨IsProper.isFinite_reals v h.1, AreProper.isFinite_reals vs h.2⟩

theorem AreProperFields.isFinite_reals (fields : Fields) (h : AreProperFields fields) :
    ∀ x ∈ realsOfFields fields, x.isFinite = true := by
  match fields with
  | [] => simp [realsOfFields]
  | (k, v) :: fs =>
    rw [realsOfFields]
    exact List.forall_mem_append.mpr
      ⟨IsProper.isFinite_reals v h.1, AreProperFields.isFinite_reals fs h.2⟩

end

mutual

theorem reread_eq_self_iff (v : Json) : v.reread = v ↔ ∀ x ∈ v.reals, IsLegible x := by
  match v with
  | .real x =>
    simp only [reread, reals, List.mem_singleton, forall_eq, IsLegible]
    cases read (Json.real x).text <;> simp
  | .array items => simp [reread, reals, rereadItems_eq_self_iff items]
  | .object fields => simp [reread, reals, rereadFields_eq_self_iff fields]
  | .null | .bool _ | .integer _ | .string _ => simp [reread, reals]

theorem rereadItems_eq_self_iff (items : List Json) :
    rereadItems items = items ↔ ∀ x ∈ realsOfItems items, IsLegible x := by
  match items with
  | [] => simp [rereadItems, realsOfItems]
  | v :: vs =>
    simp [rereadItems, realsOfItems, reread_eq_self_iff v, rereadItems_eq_self_iff vs, or_imp,
      forall_and]

theorem rereadFields_eq_self_iff (fields : Fields) :
    rereadFields fields = fields ↔ ∀ x ∈ realsOfFields fields, IsLegible x := by
  match fields with
  | [] => simp [rereadFields, realsOfFields]
  | (k, v) :: fs =>
    simp [rereadFields, realsOfFields, reread_eq_self_iff v, rereadFields_eq_self_iff fs, or_imp,
      forall_and]

end

theorem ofJson_eq_of_text {v w : Json} (h : v.text = w.text) : Node.ofJson v = Node.ofJson w := by
  have hchars : v.chars = w.chars := String.ofList_injective h
  have hv := Node.readValue_chars v (max v.nesting w.nesting) Number.stops_nil
  have hw := Node.readValue_chars w (max v.nesting w.nesting) Number.stops_nil
  rw [if_pos (le_max_left _ _)] at hv
  rw [if_pos (le_max_right _ _), ← hchars, hv] at hw
  exact congrArg Prod.fst (Option.some.inj hw)

theorem realChars_inj {x y : Float} (hx : x.isFinite = true) (h : realChars x = realChars y) :
    x = y := by
  have hread {z : Float} {negative : Bool} {n : Numeral} (hn : n.Strict)
      (hchars : realChars z = n.signedChars negative) (hz : Cell.ofNumeral negative n = .real z) :
      Cell.readNumber (realChars z) = some (.real z, []) := by
    have hread := hn.readNumber_signedChars negative Number.stops_nil
    rwa [List.append_nil, ← hchars, hz] at hread
  obtain ⟨n, hn, hchars, hcell⟩ := Number.realChars_spec (Number.doubleDatum_of_isFinite hx)
  have hreadx := hread hn hchars hcell
  rcases Node.realChars_cases y with ⟨-, negative, n', hn', hchars', hcell'⟩ | ⟨-, hnull⟩
  · have hready := hread hn' hchars' hcell'
    rw [h, hready] at hreadx
    exact (Cell.real.inj (congrArg Prod.fst (Option.some.inj hreadx))).symm
  · have hnone : Cell.readNumber ['n', 'u', 'l', 'l'] = none := rfl
    rw [h, hnull, hnone] at hreadx
    cases hreadx

theorem numberOfNumeral_eq_real {negative : Bool} {n : Numeral} {v : Json}
    (hn : n.isInteger = false) (h : numberOfNumeral negative n = some v) : ∃ y, v = .real y := by
  have hmap {o : Option Float} {g : Float → Json} (hg : ∀ x, ∃ y, g x = .real y)
      (ho : o.map g = some v) : ∃ y, v = .real y := by
    obtain ⟨x, -, rfl⟩ := Option.map_eq_some_iff.mp ho
    exact hg x
  simp only [numberOfNumeral, hn, Bool.false_eq_true, if_false] at h
  split at h
  · exact hmap (fun _ => ⟨_, rfl⟩) h
  · split at h
    · exact hmap (fun _ => ⟨_, rfl⟩) h
    · split at h <;> cases h
      exact ⟨_, rfl⟩

theorem exists_reread_real {x : Float} (hx : x.isFinite = true) :
    ∃ y, (Json.real x).reread = .real y := by
  have hdatum := Number.doubleDatum_of_isFinite hx
  obtain ⟨v, hv⟩ := exists_reads_realChars x depthLimit
  have hread := hv.read_eq
  have hreread : (Json.real x).reread = v := by rw [reread, text, chars, hread]; rfl
  rw [hreread]
  rw [realChars, Number.doubleText?, hdatum, shortestText?_finite, Option.getD_some,
    String.toList_ofList, read_signedChars (Layout.numeral_strict _ _)] at hread
  exact numberOfNumeral_eq_real (Layout.numeral_isInteger _ _) hread

theorem isFinite_of_isFinite {x : Float} (hx : x.isFinite = true) : isFinite x = true := by
  rw [isFinite, Number.doubleText?, Number.doubleDatum_of_isFinite hx, shortestText?_finite]
  rfl

theorem ofJson_real {x : Float} (hx : x.isFinite = true) :
    Node.ofJson (.real x) = .number (realChars x) := by
  rw [Node.ofJson, if_pos (isFinite_of_isFinite hx)]

mutual

theorem reread_eq_of_ofJson (v : Json) (hfinite : ∀ x ∈ v.reals, x.isFinite = true)
    (h : Node.ofJson v.reread = Node.ofJson v) : v.reread = v := by
  match v with
  | .real x =>
    have hx : x.isFinite = true := hfinite x (by simp [reals])
    obtain ⟨y, hy⟩ := exists_reread_real hx
    rw [hy, ofJson_real hx, Node.ofJson] at h
    split at h
    · rw [hy, realChars_inj hx (Node.number.inj h).symm]
    · cases h
  | .array items =>
    simp only [reread, Node.ofJson, Node.array.injEq] at h
    rw [reread, rereadItems_eq_of_ofItems items hfinite h]
  | .object fields =>
    simp only [reread, Node.ofJson, Node.object.injEq] at h
    rw [reread, rereadFields_eq_of_ofFields fields hfinite h]
  | .null | .bool _ | .integer _ | .string _ => simp [reread]

theorem rereadItems_eq_of_ofItems (items : List Json)
    (hfinite : ∀ x ∈ realsOfItems items, x.isFinite = true)
    (h : Node.ofItems (rereadItems items) = Node.ofItems items) : rereadItems items = items := by
  match items with
  | [] => rfl
  | v :: vs =>
    simp only [realsOfItems, List.mem_append, or_imp, forall_and] at hfinite
    simp only [rereadItems, Node.ofItems, List.cons.injEq] at h
    rw [rereadItems, reread_eq_of_ofJson v hfinite.1 h.1,
      rereadItems_eq_of_ofItems vs hfinite.2 h.2]

theorem rereadFields_eq_of_ofFields (fields : Fields)
    (hfinite : ∀ x ∈ realsOfFields fields, x.isFinite = true)
    (h : Node.ofFields (rereadFields fields) = Node.ofFields fields) :
    rereadFields fields = fields := by
  match fields with
  | [] => rfl
  | (k, v) :: fs =>
    simp only [realsOfFields, List.mem_append, or_imp, forall_and] at hfinite
    simp only [rereadFields, Node.ofFields, List.cons.injEq, Prod.mk.injEq, true_and] at h
    rw [rereadFields, reread_eq_of_ofJson v hfinite.1 h.1,
      rereadFields_eq_of_ofFields fs hfinite.2 h.2]

end

theorem reread_eq_self_of_text {v : Json} (hfinite : ∀ x ∈ v.reals, x.isFinite = true)
    (htext : v.reread.text = v.text) : v.reread = v :=
  reread_eq_of_ofJson v hfinite (ofJson_eq_of_text htext)

theorem isLegibleSingle_iff {x : Float32} :
    IsLegibleSingle x ↔ x.isFinite = true ∧ rereadSingle x = x := by
  constructor
  · intro h
    refine ⟨?_, by rw [rereadSingle, h]; rfl⟩
    by_contra hx
    rw [IsLegibleSingle, singleChars_eq_null (Bool.eq_false_iff.mpr hx),
      (reads_null depthLimit).read_eq] at h
    cases h
  · rintro ⟨hx, hreread⟩
    obtain ⟨v, hv, hok⟩ := reads_rereadSingle hx depthLimit
    rw [IsLegibleSingle, hv.read_eq, Option.bind_some, hok, hreread]
    rfl

end Json

end DocumentStore
