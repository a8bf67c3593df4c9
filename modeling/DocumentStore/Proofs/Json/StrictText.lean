import DocumentStore.Proofs.Json.StoredText

/-! Compact text under the strict reader. Main statement: the text of a value that a document can
hold is read as this value, as long as every double in it is read from its text as it was, and the
value is not nested too deeply. -/
namespace DocumentStore.Json

open Number (Numeral Stops)

mutual

/-- Whether a document can hold a value: integers have 64 bits, with a sign or without, doubles are
finite, and the fields of an object are sorted by their keys, which are all different. -/
def IsProper : Json → Prop
  | .integer n => -0x8000000000000000 ≤ n ∧ n < 0x10000000000000000
  | .real x => x.isFinite = true
  | .array items => AreProper items
  | .object fields => fields.Pairwise (fun f g => f.1 < g.1) ∧ AreProperFields fields
  | _ => True

def AreProper : List Json → Prop
  | [] => True
  | v :: vs => IsProper v ∧ AreProper vs

def AreProperFields : Fields → Prop
  | [] => True
  | (_, v) :: fs => IsProper v ∧ AreProperFields fs

end

mutual

def reals : Json → List Float
  | .real x => [x]
  | .array items => realsOfItems items
  | .object fields => realsOfFields fields
  | _ => []

def realsOfItems : List Json → List Float
  | [] => []
  | v :: vs => reals v ++ realsOfItems vs

def realsOfFields : Fields → List Float
  | [] => []
  | (_, v) :: fs => reals v ++ realsOfFields fs

end

/-- Whether a double is read from its text as it was. The reader scales a significand by a power of
ten in double precision, so that it misses some doubles with many digits by a last place. -/
def IsLegible (x : Float) : Prop := read (Json.real x).text = some (.real x)

instance (x : Float) : Decidable (IsLegible x) := inferInstanceAs (Decidable (_ = _))

theorem skipSpace_front {c : Char} (hc : Node.IsFront c) (t : List Char) :
    skipSpace (c :: t) = c :: t := by
  have hspace : isSpace c = false := by
    have hloose := hc.space
    simp only [Node.isLooseSpace, Bool.or_eq_false_iff] at hloose
    exact hloose.1.1.1.1.1.1.1.1.1.1.1
  simp [skipSpace, hspace]

theorem readQuoted_plain {c : Char} (hquote : c ≠ '"') (hbackslash : c ≠ '\\')
    (hcontrol : ¬c.toNat < 0x20) (r : List Char) :
    readQuoted (c :: r) = (readQuoted r).map fun p => (c :: p.1, p.2) := by
  simp [readQuoted, hbackslash, hcontrol]

theorem readQuoted_escapeChar (c : Char) (r : List Char) :
    readQuoted (escapeChar c ++ r) = (readQuoted r).map fun p => (c :: p.1, p.2) := by
  by_cases hshort : c = '"' ∨ c = '\\' ∨ c = '\x08' ∨ c = '\x0c' ∨ c = '\n' ∨ c = '\r' ∨ c = '\t'
  · rcases hshort with rfl | rfl | rfl | rfl | rfl | rfl | rfl <;>
      simp [escapeChar, readQuoted, shortEscape?]
  · simp only [not_or] at hshort
    obtain ⟨hquote, hbackslash, hb, hf, hn, hr, ht⟩ := hshort
    by_cases hcontrol : c.toNat < 0x20
    · have hlow : ¬(0xd800 ≤ c.toNat ∧ c.toNat < 0xdc00) := by omega
      have hhigh : ¬(0xdc00 ≤ c.toNat ∧ c.toNat < 0xe000) := by omega
      simp [escapeChar, hquote, hbackslash, hb, hf, hn, hr, ht, hcontrol, readQuoted,
        Node.codeUnit?_control hcontrol, hlow, hhigh]
    · have hescape : escapeChar c = [c] := by simp [escapeChar, *]
      rw [hescape, List.singleton_append, readQuoted_plain hquote hbackslash hcontrol]

theorem readQuoted_escaped (cs rest : List Char) :
    readQuoted (cs.flatMap escapeChar ++ '"' :: rest) = some (cs, rest) := by
  induction cs with
  | nil => simp [readQuoted]
  | cons c cs ih =>
    rw [List.flatMap_cons, List.append_assoc, readQuoted_escapeChar, ih]
    rfl

theorem readString_quotedChars (s : String) (rest : List Char) :
    readString (quotedChars s ++ rest) = some (s, rest) := by
  simp [quotedChars, readString, readQuoted_escaped]

section

variable {n : Numeral} {rest : List Char}

theorem readNumber_signedChars (h : n.Strict) (negative : Bool) (hrest : Stops rest) :
    readNumber (n.signedChars negative ++ rest)
      = (numberOfNumeral negative n).map fun v => (v, rest) := by
  have hwhole : n.whole ≠ [] := h.whole_ne_nil
  have hplaces : n.places ≠ some [] := fun hp => (h.places [] hp).1 rfl
  cases negative with
  | true =>
    simp [readNumber, Numeral.signedChars, h.read_chars hrest, hwhole, h.start, hplaces]
  | false =>
    obtain ⟨d, t, hfront, hd⟩ := Node.chars_front h rest
    have hminus : d ≠ '-' := (Number.digit_ne_sign hd).1
    have hread := h.read_chars hrest
    rw [hfront] at hread
    simp [readNumber, Numeral.signedChars, hfront, hminus, hread, hwhole, h.start, hplaces]

theorem readScalar_of_isNumeric {c : Char} (hc : Node.IsNumeric c) (r : List Char) :
    readScalar (c :: r) = readNumber (c :: r) := by
  have hn : c ≠ 'n' := hc.ne (by decide)
  have ht : c ≠ 't' := hc.ne (by decide)
  have hf : c ≠ 'f' := hc.ne (by decide)
  have hquote : c ≠ '"' := hc.ne (by decide)
  simp [readScalar, hn, ht, hf, hquote]

theorem readScalar_signedChars (h : n.Strict) (negative : Bool) (hrest : Stops rest) :
    readScalar (n.signedChars negative ++ rest)
      = (numberOfNumeral negative n).map fun v => (v, rest) := by
  obtain ⟨c, t, hfront, hc⟩ := Node.signedChars_front h negative rest
  rw [← readNumber_signedChars h negative hrest, hfront, readScalar_of_isNumeric hc]

end

theorem le_foldl_digits (ds : List Char) (n : ℕ) :
    n ≤ ds.foldl (fun n d => n * 10 + Number.digitValue d) n := by
  induction ds generalizing n with
  | nil => exact le_rfl
  | cons d ds ih =>
    have hrest := ih (n * 10 + Number.digitValue d)
    simp only [List.foldl_cons]
    omega

theorem absorbWhole_eq {ds : List Char} {n : ℕ}
    (h : ds.foldl (fun n d => n * 10 + Number.digitValue d) n < 0x10000000000000000) :
    absorbWhole n ds = (ds.foldl (fun n d => n * 10 + Number.digitValue d) n, 0) := by
  induction ds generalizing n with
  | nil => rfl
  | cons d ds ih =>
    have hle := le_foldl_digits ds (n * 10 + Number.digitValue d)
    simp only [List.foldl_cons] at h ⊢
    have hfits : n * 10 + Number.digitValue d < 0x10000000000000000 := hle.trans_lt h
    simp only [absorbWhole, hfits, if_true, ih h]

theorem numberOfNumeral_wholeNumeral {n : ℤ} (hlow : -0x8000000000000000 ≤ n)
    (hhigh : n < 0x10000000000000000) :
    numberOfNumeral (decide (n < 0)) (Number.wholeNumeral n.natAbs) = some (.integer n) := by
  have hvalue : (Nat.toDigits 10 n.natAbs).foldl (fun n d => n * 10 + Number.digitValue d) 0
      = n.natAbs := Number.digitsValue_toDigits n.natAbs
  have habsorb : absorbWhole 0 (Nat.toDigits 10 n.natAbs) = (n.natAbs, 0) := by
    rw [absorbWhole_eq (by rw [hvalue]; omega), hvalue]
  by_cases hn : n < 0
  · have hpos : 0 < n.natAbs ∧ n.natAbs ≤ 0x8000000000000000 := by omega
    simp [numberOfNumeral, Number.wholeNumeral, habsorb, Numeral.isInteger, hn, hpos,
      abs_of_neg hn]
  · have habs : (n.natAbs : ℤ) = n := by omega
    simp [numberOfNumeral, Number.wholeNumeral, habsorb, Numeral.isInteger, hn, habs]

/-- A piece of a text that is read as a value, whatever stops it. -/
structure Reads (depth : ℕ) (cs : List Char) (v : Json) : Prop where
  front : ∃ c t, cs = c :: t ∧ Node.IsFront c
  read : ∀ rest, Stops rest → readValue depth (cs ++ rest) = some (v, rest)

theorem readValue_of_scalar {c : Char} (hbracket : c ≠ '[') (hbrace : c ≠ '\x7b') (depth : ℕ)
    (r : List Char) : readValue depth (c :: r) = readScalar (c :: r) := by
  cases depth <;> simp [readValue, hbracket, hbrace]

theorem reads_null (depth : ℕ) : Reads depth ['n', 'u', 'l', 'l'] .null where
  front := ⟨'n', _, rfl, Node.isFront_of_mem (by decide)⟩
  read _ _ := readValue_of_scalar (by decide) (by decide) _ _

theorem reads_bool (depth : ℕ) (b : Bool) : Reads depth (Json.bool b).chars (.bool b) := by
  cases b with
  | true =>
    exact ⟨⟨'t', _, rfl, Node.isFront_of_mem (by decide)⟩,
      fun _ _ => readValue_of_scalar (by decide) (by decide) _ _⟩
  | false =>
    exact ⟨⟨'f', _, rfl, Node.isFront_of_mem (by decide)⟩,
      fun _ _ => readValue_of_scalar (by decide) (by decide) _ _⟩

theorem reads_quotedChars (depth : ℕ) (s : String) : Reads depth (quotedChars s) (.string s) where
  front := ⟨'"', _, rfl, Node.isFront_of_mem (by decide)⟩
  read rest _ := by
    have hquote : readScalar (quotedChars s ++ rest) = some (.string s, rest) := by
      simp [quotedChars, readScalar, readQuoted_escaped]
    rw [← hquote]
    exact readValue_of_scalar (by decide) (by decide) _ _

theorem readValue_signedChars {n : Numeral} (h : n.Strict) (negative : Bool) (depth : ℕ)
    {rest : List Char} (hrest : Stops rest) :
    readValue depth (n.signedChars negative ++ rest)
      = (numberOfNumeral negative n).map fun v => (v, rest) := by
  obtain ⟨c, t, hfront, hc⟩ := Node.signedChars_front h negative rest
  rw [← readScalar_signedChars h negative hrest, hfront]
  exact readValue_of_scalar (hc.ne (by decide)) (hc.ne (by decide)) _ _

theorem reads_signedChars {n : Numeral} (h : n.Strict) (negative : Bool) (depth : ℕ) {v : Json}
    (hv : numberOfNumeral negative n = some v) : Reads depth (n.signedChars negative) v where
  front := by
    obtain ⟨c, t, hfront, hc⟩ := Node.signedChars_front h negative []
    exact ⟨c, t, by simpa using hfront, hc.isFront⟩
  read rest hrest := by rw [readValue_signedChars h negative depth hrest, hv]; rfl

theorem read_ofList {cs t : List Char} {c : Char} (hcs : cs = c :: t) (hc : Node.IsFront c)
    {o : Option Json} (h : readValue depthLimit cs = o.map fun v => (v, [])) :
    read (String.ofList cs) = o := by
  subst hcs
  rw [read, readFront, String.toList_ofList, skipSpace_front hc, h]
  cases o <;> rfl

theorem Reads.read_eq {cs : List Char} {v : Json} (h : Reads depthLimit cs v) :
    Json.read (String.ofList cs) = some v := by
  obtain ⟨c, t, hcs, hc⟩ := h.front
  refine read_ofList hcs hc ?_
  simpa using h.read [] Number.stops_nil

theorem read_signedChars {n : Numeral} (h : n.Strict) (negative : Bool) :
    read (String.ofList (n.signedChars negative)) = numberOfNumeral negative n := by
  obtain ⟨c, t, hfront, hc⟩ := Node.signedChars_front h negative []
  refine read_ofList (by simpa using hfront) hc.isFront ?_
  simpa using readValue_signedChars h negative depthLimit Number.stops_nil

theorem reads_realChars {x : Float} (hx : IsLegible x) (depth : ℕ) :
    Reads depth (realChars x) (.real x) := by
  unfold IsLegible text at hx
  rcases Node.realChars_cases x with ⟨-, negative, n, hn, hchars, -⟩ | ⟨-, hchars⟩
  · rw [chars, hchars, read_signedChars hn] at hx
    rw [hchars]
    exact reads_signedChars hn negative depth hx
  · rw [chars, hchars, (reads_null depthLimit).read_eq] at hx
    cases hx

theorem reads_integerChars {n : ℤ} (hlow : -0x8000000000000000 ≤ n)
    (hhigh : n < 0x10000000000000000) (depth : ℕ) : Reads depth (integerChars n) (.integer n) := by
  rw [Number.integerChars_eq]
  exact reads_signedChars (Number.wholeNumeral_strict _) _ depth
    (numberOfNumeral_wholeNumeral hlow hhigh)

def listChars (ps : List (List Char)) : List Char :=
  '[' :: ((ps.intersperse [',']).flatten ++ [']'])

theorem flatten_intersperse (p : List Char) (ps : List (List Char)) :
    ((p :: ps).intersperse [',']).flatten = p ++ ps.flatMap (',' :: ·) := by
  induction ps generalizing p with
  | nil => simp
  | cons q ps ih => simpa [List.intersperse_cons_cons] using ih q

theorem chars_array_eq (items : List Json) :
    (Json.array items).chars = listChars (items.map chars) := by
  have hitems (vs : List Json) : itemChars vs = (vs.map chars).flatMap (',' :: ·) ++ [']'] := by
    induction vs with
    | nil => simp [itemChars]
    | cons v vs ih => simp [itemChars, ih]
  cases items with
  | nil => simp [chars, listChars]
  | cons v vs => simp [chars, listChars, flatten_intersperse, hitems]

section

variable {depth fuel : ℕ} {p : List Char} {v : Json} {ps : List (List Char)} {vs : List Json}

theorem skipSpace_bracket (r : List Char) : skipSpace (']' :: r) = ']' :: r := rfl

theorem skipSpace_comma (r : List Char) : skipSpace (',' :: r) = ',' :: r := rfl

theorem skipSpace_colon (r : List Char) : skipSpace (':' :: r) = ':' :: r := rfl

theorem skipSpace_brace (r : List Char) : skipSpace ('\x7d' :: r) = '\x7d' :: r := rfl

theorem stops_cons {c : Char} (hc : c ∈ [']', ',', '\x7d']) (r : List Char) : Stops (c :: r) := by
  rintro _ ⟨⟩
  simp only [List.mem_cons, List.not_mem_nil, or_false] at hc
  rcases hc with rfl | rfl | rfl <;> decide

theorem Reads.skipSpace_append (h : Reads depth p v) (rest : List Char) :
    skipSpace (p ++ rest) = p ++ rest := by
  obtain ⟨c, t, rfl, hc⟩ := h.front
  exact skipSpace_front hc _

theorem readItems_last (h : Reads depth p v) (r : List Char) :
    readItems (readValue depth) (fuel + 1) (p ++ ']' :: r) = some ([v], r) := by
  have hstop : Stops (']' :: r) := stops_cons (by decide) r
  simp only [readItems, h.skipSpace_append, h.read _ hstop, skipSpace_bracket]

theorem readItems_next (h : Reads depth p v) (r : List Char) :
    readItems (readValue depth) (fuel + 1) (p ++ ',' :: r)
      = (readItems (readValue depth) fuel r).map fun q => (v :: q.1, q.2) := by
  have hstop : Stops (',' :: r) := stops_cons (by decide) r
  simp only [readItems, h.skipSpace_append, h.read _ hstop, skipSpace_comma]

theorem readItems_pieces (h : Reads depth p v) (hs : List.Forall₂ (Reads depth) ps vs)
    (hfuel : ps.length < fuel) (r : List Char) :
    readItems (readValue depth) fuel (p ++ (ps.flatMap (',' :: ·) ++ ']' :: r))
      = some (v :: vs, r) := by
  obtain ⟨fuel, rfl⟩ := Nat.exists_eq_add_one_of_ne_zero (Nat.ne_zero_of_lt hfuel)
  induction hs generalizing p v fuel with
  | nil =>
    rw [List.flatMap_nil, List.nil_append, readItems_last h]
  | @cons q w qs ws hq hqs ih =>
    have hlength : qs.length < fuel := by simpa using hfuel
    obtain ⟨fuel, rfl⟩ := Nat.exists_eq_add_one_of_ne_zero (Nat.ne_zero_of_lt hlength)
    have hrest : (q :: qs).flatMap (',' :: ·) ++ ']' :: r
        = ',' :: (q ++ (qs.flatMap (',' :: ·) ++ ']' :: r)) := by simp
    rw [hrest, readItems_next h, ih hq fuel hlength, Option.map_some]

theorem reads_listChars (hs : List.Forall₂ (Reads depth) ps vs) :
    Reads (depth + 1) (listChars ps) (.array vs) where
  front := ⟨'[', _, rfl, Node.isFront_of_mem (by decide)⟩
  read rest _ := by
    cases hs with
    | nil => rfl
    | @cons q w qs ws hq hqs =>
      have hchars : listChars (q :: qs) ++ rest
          = '[' :: (q ++ (qs.flatMap (',' :: ·) ++ ']' :: rest)) := by
        simp [listChars, flatten_intersperse]
      have hlength : qs.length < (q ++ (qs.flatMap (',' :: ·) ++ ']' :: rest)).length := by
        have hflat : qs.length ≤ (qs.flatMap (',' :: ·)).length := by
          simp [List.length_flatMap]
        simp only [List.length_append, List.length_cons]
        omega
      have hread := readItems_pieces hq hqs hlength rest
      obtain ⟨c, t, hq', hc⟩ := hq.front
      rw [hchars]
      rw [hq'] at hread ⊢
      simp only [List.cons_append, readValue, skipSpace_front hc] at hread ⊢
      have hbracket := hc.bracket
      split
      · rename_i h
        exact (hbracket (List.cons.inj h).1).elim
      · rw [hread]
        rfl

theorem insertField_of_forall_lt {key : String} {value : Json} {fields : Fields}
    (h : ∀ f ∈ fields, f.1 < key) : insertField key value fields = fields ++ [(key, value)] := by
  induction fields with
  | nil => rfl
  | cons f fields ih =>
    obtain ⟨k, w⟩ := f
    have hk : k < key := h (k, w) (by simp)
    have hne : key ≠ k := fun heq => String.lt_irrefl k (heq ▸ hk)
    have hnot : ¬key < k := String.lt_asymm hk
    simp [insertField, hne, hnot, ih fun f hf => h f (by simp [hf])]

theorem foldl_insertField {acc fields : Fields}
    (h : (acc ++ fields).Pairwise fun f g => f.1 < g.1) :
    fields.foldl (fun acc f => insertField f.1 f.2 acc) acc = acc ++ fields := by
  induction fields generalizing acc with
  | nil => simp
  | cons f fields ih =>
    have hlt : ∀ g ∈ acc, g.1 < f.1 := fun g hg =>
      (List.pairwise_append.mp h).2.2 g hg f (by simp)
    rw [List.foldl_cons, insertField_of_forall_lt hlt, ih (by simpa using h)]
    simp

theorem fieldsOf_of_sorted {fields : Fields} (h : fields.Pairwise fun f g => f.1 < g.1) :
    fieldsOf fields = fields := by
  exact @foldl_insertField [] fields h

theorem skipSpace_quotedChars (key : String) (r : List Char) :
    skipSpace (quotedChars key ++ r) = quotedChars key ++ r := rfl

theorem readFields_last (h : Reads depth p v) (key : String) (r : List Char) :
    readFields (readValue depth) (fuel + 1) (quotedChars key ++ ':' :: (p ++ '\x7d' :: r))
      = some ([(key, v)], r) := by
  have hstop : Stops ('\x7d' :: r) := stops_cons (by decide) r
  simp only [readFields, skipSpace_quotedChars, readString_quotedChars, skipSpace_colon,
    h.skipSpace_append, h.read _ hstop, skipSpace_brace]

theorem readFields_next (h : Reads depth p v) (key : String) (r : List Char) :
    readFields (readValue depth) (fuel + 1) (quotedChars key ++ ':' :: (p ++ ',' :: r))
      = (readFields (readValue depth) fuel r).map fun q => ((key, v) :: q.1, q.2) := by
  have hstop : Stops (',' :: r) := stops_cons (by decide) r
  simp only [readFields, skipSpace_quotedChars, readString_quotedChars, skipSpace_colon,
    h.skipSpace_append, h.read _ hstop, skipSpace_comma]

/-- Whether the text of a field's value is read as the value of another field with this key. -/
def ReadsField (depth : ℕ) (f g : String × Json) : Prop := f.1 = g.1 ∧ Reads depth f.2.chars g.2

theorem readFields_chars (key : String) {fields gs : Fields} (h : Reads depth p v)
    (hs : List.Forall₂ (ReadsField depth) fields gs) (hfuel : fields.length < fuel)
    (r : List Char) :
    readFields (readValue depth) fuel (quotedChars key ++ ':' :: (p ++ (fieldChars fields ++ r)))
      = some ((key, v) :: gs, r) := by
  obtain ⟨fuel, rfl⟩ := Nat.exists_eq_add_one_of_ne_zero (Nat.ne_zero_of_lt hfuel)
  induction hs generalizing key p v fuel with
  | nil =>
    have hrest : fieldChars [] ++ r = '\x7d' :: r := by simp [fieldChars]
    rw [hrest, readFields_last h key]
  | @cons f g fields gs hf hfs ih =>
    obtain ⟨k, w⟩ := f
    obtain ⟨_, u⟩ := g
    obtain ⟨rfl, hu⟩ := hf
    have hlength : fields.length < fuel := by simpa using hfuel
    obtain ⟨fuel, rfl⟩ := Nat.exists_eq_add_one_of_ne_zero (Nat.ne_zero_of_lt hlength)
    have hrest : fieldChars ((k, w) :: fields) ++ r
        = ',' :: (quotedChars k ++ ':' :: (w.chars ++ (fieldChars fields ++ r))) := by
      simp [fieldChars]
    rw [hrest, readFields_next h key, ih k hu fuel hlength, Option.map_some]

theorem reads_fieldsOf {fields gs : Fields} (hs : List.Forall₂ (ReadsField depth) fields gs) :
    Reads (depth + 1) (Json.object fields).chars (ofPairs gs) where
  front := ⟨'\x7b', _, by rw [chars_object], Node.isFront_of_mem (by decide)⟩
  read rest _ := by
    cases hs with
    | nil => rfl
    | @cons f g fields gs hf hfs =>
      obtain ⟨k, w⟩ := f
      obtain ⟨_, u⟩ := g
      obtain ⟨rfl, hu⟩ := hf
      have hchars : (Json.object ((k, w) :: fields)).chars ++ rest
          = '\x7b' :: (quotedChars k ++ ':' :: (w.chars ++ (fieldChars fields ++ rest))) := by
        simp [chars]
      have hlength : fields.length
          < (quotedChars k ++ ':' :: (w.chars ++ (fieldChars fields ++ rest))).length := by
        have hfields := Node.length_fieldChars fields
        simp only [List.length_append, List.length_cons]
        omega
      have hread := readFields_chars k hu hfs hlength rest
      rw [hchars, readValue, skipSpace_quotedChars]
      split
      · rename_i h
        cases h
      · rw [hread, Option.map_some]

theorem reads_object {fields : Fields} (hsorted : fields.Pairwise fun f g => f.1 < g.1)
    (hs : ∀ f ∈ fields, Reads depth f.2.chars f.2) :
    Reads (depth + 1) (Json.object fields).chars (.object fields) := by
  have hfields : List.Forall₂ (ReadsField depth) fields fields :=
    List.forall₂_same.mpr fun f hf => ⟨rfl, hs f hf⟩
  have hreads := reads_fieldsOf hfields
  rwa [ofPairs, fieldsOf_of_sorted hsorted] at hreads

end

mutual

theorem reads_chars (v : Json) {depth : ℕ} (hp : v.IsProper)
    (hl : ∀ x ∈ v.reals, x.isFinite = true → IsLegible x) (hd : v.nesting ≤ depth) :
    Reads depth v.chars v := by
  match v with
  | .null => exact reads_null depth
  | .bool b => exact reads_bool depth b
  | .integer n => exact reads_integerChars hp.1 hp.2 depth
  | .real x => exact reads_realChars (hl x (by simp [reals]) hp) depth
  | .string s => exact reads_quotedChars depth s
  | .array items =>
    rw [nesting] at hd
    obtain ⟨depth, rfl⟩ := Nat.exists_eq_add_of_le' (Nat.le_of_add_left_le hd)
    rw [chars_array_eq]
    apply reads_listChars
    rw [List.forall₂_map_left_iff, List.forall₂_same]
    exact reads_items items hp hl (by omega)
  | .object fields =>
    rw [nesting] at hd
    obtain ⟨depth, rfl⟩ := Nat.exists_eq_add_of_le' (Nat.le_of_add_left_le hd)
    exact reads_object hp.1 (reads_fields fields hp.2 hl (by omega))

theorem reads_items (items : List Json) {depth : ℕ} (hp : AreProper items)
    (hl : ∀ x ∈ realsOfItems items, x.isFinite = true → IsLegible x)
    (hd : nestingOfItems items ≤ depth) :
    ∀ v ∈ items, Reads depth v.chars v := by
  match items with
  | [] => simp
  | v :: vs =>
    simp only [realsOfItems, List.mem_append] at hl
    rw [nestingOfItems] at hd
    intro w hw
    rcases List.mem_cons.mp hw with hw | hw
    · rw [hw]
      exact reads_chars v hp.1 (fun x hx => hl x (.inl hx)) (by omega)
    · exact reads_items vs hp.2 (fun x hx => hl x (.inr hx)) (by omega) w hw

theorem reads_fields (fields : Fields) {depth : ℕ} (hp : AreProperFields fields)
    (hl : ∀ x ∈ realsOfFields fields, x.isFinite = true → IsLegible x)
    (hd : nestingOfFields fields ≤ depth) :
    ∀ f ∈ fields, Reads depth f.2.chars f.2 := by
  match fields with
  | [] => simp
  | (k, v) :: fs =>
    simp only [realsOfFields, List.mem_append] at hl
    rw [nestingOfFields] at hd
    intro g hg
    rcases List.mem_cons.mp hg with hg | hg
    · rw [hg]
      exact reads_chars v hp.1 (fun x hx => hl x (.inl hx)) (by omega)
    · exact reads_fields fs hp.2 (fun x hx => hl x (.inr hx)) (by omega) g hg

end

theorem read_text {v : Json} (hp : v.IsProper)
    (hl : ∀ x ∈ v.reals, x.isFinite = true → IsLegible x) (hd : v.nesting ≤ depthLimit) :
    read v.text = some v :=
  (reads_chars v hp hl hd).read_eq

end DocumentStore.Json
