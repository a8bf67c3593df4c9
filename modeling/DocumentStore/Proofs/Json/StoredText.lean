import DocumentStore.Proofs.Number.Layout

/-! Compact text in a stored column. Main statement: the text of a value is read as this value with
the spelling that it has there, unless the value is nested too deeply for a look-up. -/
namespace DocumentStore

namespace Json

mutual

/-- How many containers lie inside each other. -/
def nesting : Json → ℕ
  | .array items => nestingOfItems items + 1
  | .object fields => nestingOfFields fields + 1
  | _ => 0

def nestingOfItems : List Json → ℕ
  | [] => 0
  | v :: vs => max (nesting v) (nestingOfItems vs)

def nestingOfFields : Fields → ℕ
  | [] => 0
  | (_, v) :: fs => max (nesting v) (nestingOfFields fs)

end

def itemsChars : List Json → List Char
  | [] => [']']
  | v :: vs => v.chars ++ itemChars vs

def fieldsChars : Fields → List Char
  | [] => ['\x7d']
  | (k, v) :: fs => quotedChars k ++ ':' :: (v.chars ++ fieldChars fs)

theorem chars_array (items : List Json) : (Json.array items).chars = '[' :: itemsChars items := by
  cases items <;> simp [chars, itemsChars]

theorem chars_object (fields : Fields) :
    (Json.object fields).chars = '\x7b' :: fieldsChars fields := by
  cases fields <;> simp [chars, fieldsChars]

theorem itemChars_cons (v : Json) (vs : List Json) :
    itemChars (v :: vs) = ',' :: itemsChars (v :: vs) := by simp [itemChars, itemsChars]

theorem fieldChars_cons (f : String × Json) (fs : Fields) :
    fieldChars (f :: fs) = ',' :: fieldsChars (f :: fs) := by
  obtain ⟨k, v⟩ := f
  simp [fieldChars, fieldsChars]

def escapedChars (s : String) : List Char := s.toList.flatMap escapeChar

def isFinite (x : Float) : Bool := (Number.doubleText? x).isSome

end Json

namespace Node

mutual

def ofJson : Json → Node
  | .null => .null
  | .bool b => .bool b
  | .integer n => .number (Json.integerChars n)
  | .real x => if Json.isFinite x then .number (Json.realChars x) else .null
  | .string s => .string s.toList (Json.escapedChars s)
  | .array items => .array (ofItems items)
  | .object fields => .object (ofFields fields)

def ofItems : List Json → List Node
  | [] => []
  | v :: vs => ofJson v :: ofItems vs

def ofFields : Json.Fields → List ((List Char × List Char) × Node)
  | [] => []
  | (k, v) :: fs => ((k.toList, Json.escapedChars k), ofJson v) :: ofFields fs

end

open Number (Numeral Stops)

theorem isLooseSpace_of_visible {c : Char} (hlow : 0x21 ≤ c.toNat) (hhigh : c.toNat < 0x7f) :
    isLooseSpace c = false := by
  have hspace : Json.isSpace c = false := by
    simp only [Json.isSpace, Bool.or_eq_false_iff, decide_eq_false_iff_not]
    refine ⟨⟨⟨?_, ?_⟩, ?_⟩, ?_⟩ <;> rintro rfl <;> revert hlow <;> decide
  simp only [isLooseSpace, hspace, Bool.false_or, Bool.or_eq_false_iff, Bool.and_eq_false_iff,
    beq_eq_false_iff_ne, decide_eq_false_iff_not]
  omega

theorem skip_cons {c : Char} {r : List Char} (hspace : isLooseSpace c = false) (hslash : c ≠ '/') :
    skip (c :: r) = c :: r := by
  rw [skip, List.length_cons, skipAtMost.eq_def]
  simp only
  split
  · rename_i h
    exact (hslash (List.cons.inj h).1).elim
  · rename_i h
    exact (hslash (List.cons.inj h).1).elim
  · rename_i h
    cases h
    simp [hspace]
  · rename_i h
    cases h

theorem hexValue?_hexDigit : ∀ n < 16, Json.hexValue? (Json.hexDigit n) = some n := by decide

theorem codeUnit?_control {c : Char} (hc : c.toNat < 0x20) :
    Json.codeUnit? '0' '0' (Json.hexDigit (c.toNat / 16)) (Json.hexDigit (c.toNat % 16))
      = some c.toNat := by
  have hzero : Json.hexValue? '0' = some 0 := by decide
  have hhigh := hexValue?_hexDigit (c.toNat / 16) (by omega)
  have hlow := hexValue?_hexDigit (c.toNat % 16) (by omega)
  simp only [Json.codeUnit?, hzero, hhigh, hlow, Option.bind_eq_bind, Option.bind_some,
    Option.pure_def, Option.some.injEq]
  omega

/-- Where an escaped text goes on with an escaped code unit, that unit is well formed. -/
theorem codeUnit?_isSome {cs rest : List Char} {a b c d : Char} {r : List Char}
    (h : cs.flatMap Json.escapeChar ++ '"' :: rest = '\\' :: 'u' :: a :: b :: c :: d :: r) :
    ∃ n, Json.codeUnit? a b c d = some n := by
  cases cs with
  | nil => simp at h
  | cons x cs =>
    simp only [List.flatMap_cons, Json.escapeChar, List.append_assoc] at h
    repeat' split at h
    all_goals simp at h
    · rename_i hcontrol
      obtain ⟨rfl, rfl, rfl, rfl, -⟩ := h
      exact ⟨_, codeUnit?_control hcontrol⟩
    · rename_i hbackslash _ _ _ _ _ _
      exact absurd h.1 hbackslash

/-- A control character is written as a code unit, which nothing after it can complete to a pair. -/
theorem readQuoted_control {c : Char} (hc : c.toNat < 0x20) {r : List Char}
    (hunit : ∀ a b c d r', r = '\\' :: 'u' :: a :: b :: c :: d :: r' →
      ∃ n, Json.codeUnit? a b c d = some n) :
    readQuoted '"' (escapedUnit c.toNat ++ r)
      = piece [c] (escapedUnit c.toNat) (readQuoted '"' r) := by
  have hlow : ¬(0xd800 ≤ c.toNat ∧ c.toNat < 0xe000) := by omega
  have hpair (m : ℕ) : ¬((0xd800 ≤ c.toNat ∧ c.toNat < 0xdc00) ∧ (0xdc00 ≤ m ∧ m < 0xe000)) := by
    omega
  simp only [escapedUnit, List.cons_append, List.nil_append]
  rw [readQuoted, codeUnit?_control hc]
  simp only [hlow, if_false, Char.ofNat_toNat]
  split
  · rename_i e f g h r'
    obtain ⟨m, hm⟩ := hunit e f g h r' rfl
    simp only [hm, hpair, if_false]
  · rfl

theorem readQuoted_plain {c : Char} (hquote : c ≠ '"') (hbackslash : c ≠ '\\')
    (hcontrol : ¬c.toNat < 0x20) (r : List Char) :
    readQuoted '"' (c :: r) = piece [c] [c] (readQuoted '"' r) := by
  have hnull : c ≠ '\x00' := by
    rintro rfl
    exact hcontrol (by decide)
  simp [readQuoted, hquote, hbackslash, hcontrol, hnull]

theorem readQuoted_escapeChar (c : Char) (cs rest : List Char) :
    readQuoted '"' (Json.escapeChar c ++ (cs.flatMap Json.escapeChar ++ '"' :: rest))
      = piece [c] (Json.escapeChar c)
        (readQuoted '"' (cs.flatMap Json.escapeChar ++ '"' :: rest)) := by
  have hunit (a b c d : Char) (r' : List Char) := @codeUnit?_isSome cs rest a b c d r'
  generalize cs.flatMap Json.escapeChar ++ '"' :: rest = r at hunit
  by_cases hshort : c = '"' ∨ c = '\\' ∨ c = '\x08' ∨ c = '\x0c' ∨ c = '\n' ∨ c = '\r' ∨ c = '\t'
  · rcases hshort with rfl | rfl | rfl | rfl | rfl | rfl | rfl <;>
      simp [Json.escapeChar, readQuoted, Json.shortEscape?]
  · simp only [not_or] at hshort
    obtain ⟨hquote, hbackslash, hb, hf, hn, hr, ht⟩ := hshort
    by_cases hcontrol : c.toNat < 0x20
    · have hescape : Json.escapeChar c = escapedUnit c.toNat := by
        simp [Json.escapeChar, escapedUnit, *]
      rw [hescape, readQuoted_control hcontrol hunit]
    · have hescape : Json.escapeChar c = [c] := by simp [Json.escapeChar, *]
      rw [hescape, List.singleton_append, readQuoted_plain hquote hbackslash hcontrol]

theorem readQuoted_escaped (cs rest : List Char) :
    readQuoted '"' (cs.flatMap Json.escapeChar ++ '"' :: rest)
      = some ((cs, cs.flatMap Json.escapeChar), rest) := by
  induction cs with
  | nil => simp [readQuoted]
  | cons c cs ih =>
    rw [List.flatMap_cons, List.append_assoc, readQuoted_escapeChar, ih]
    simp [piece]

section

variable {n : Numeral} {rest : List Char}

theorem startsWithWord_eq_false {word : String} {w c : Char} {ws cs : List Char}
    (hword : word.toList = w :: ws) (hc : c.toLower ≠ w) : startsWithWord word (c :: cs) = false := by
  have hlength : word.length = ws.length + 1 := by rw [← String.length_toList, hword]; rfl
  simp [startsWithWord, hword, hlength, hc]

theorem toLower_of_isDigit {c : Char} (h : c.isDigit = true) : c.toLower = c := by
  have hrange := Text.toNat_of_isDigit h
  unfold Char.toLower
  split
  · rename_i hupper
    have hge := UInt32.le_iff_toNat_le.mp hupper.1
    change 65 ≤ c.toNat at hge
    omega
  · rfl

/-- Such a text has a number at its front or no value at all. -/
def IsNumeric (c : Char) : Prop := c = '-' ∨ c.isDigit = true

theorem IsNumeric.toLower {c : Char} (h : IsNumeric c) : c.toLower = c := by
  rcases h with rfl | hd
  · rfl
  · exact toLower_of_isDigit hd

theorem IsNumeric.toNat_lt {c : Char} (h : IsNumeric c) : 45 ≤ c.toNat ∧ c.toNat ≤ 57 := by
  rcases h with rfl | hd
  · decide
  · have := Text.toNat_of_isDigit hd
    omega

theorem IsNumeric.ne {c d : Char} (h : IsNumeric c) (hd : 57 < d.toNat ∨ d.toNat < 45) : c ≠ d := by
  rintro rfl
  have := h.toNat_lt
  omega

theorem IsNumeric.readScalar_eq {c : Char} (h : IsNumeric c) (r : List Char) :
    readScalar (c :: r) = readNumber (c :: r) := by
  have hword {word : String} {w : Char} {ws : List Char} (hw : word.toList = w :: ws)
      (hlarge : 57 < w.toNat ∨ w.toNat < 45) : startsWithWord word (c :: r) = false :=
    startsWithWord_eq_false hw (by rw [h.toLower]; exact h.ne hlarge)
  have hnan := @hword "nan" 'n' ['a', 'n'] rfl (by decide)
  have hqnan := @hword "qnan" 'q' ['n', 'a', 'n'] rfl (by decide)
  have hsnan := @hword "snan" 's' ['n', 'a', 'n'] rfl (by decide)
  have hn : c ≠ 'n' := h.ne (by decide)
  have ht : c ≠ 't' := h.ne (by decide)
  have hf : c ≠ 'f' := h.ne (by decide)
  have hdouble : c ≠ '"' := h.ne (by decide)
  have hsingle : c ≠ '\'' := h.ne (by decide)
  simp [readScalar, hn, ht, hf, hdouble, hsingle, hnan, hqnan, hsnan]

theorem chars_front (h : n.Strict) (rest : List Char) :
    ∃ d t, n.chars ++ rest = d :: t ∧ d.isDigit = true := by
  obtain ⟨d, ds, hwhole⟩ := List.exists_cons_of_ne_nil h.whole_ne_nil
  refine ⟨d, ds ++ (n.pointChars ++ n.exponentChars ++ rest), ?_, h.whole d (by simp [hwhole])⟩
  simp [h.chars_eq, hwhole]

theorem afterWhole_head (h : n.Strict) (hrest : Stops rest) :
    ∀ c ∈ (n.pointChars ++ (n.exponentChars ++ rest)).head?, ¬(c = 'x' ∨ c = 'X') := by
  intro c hc
  cases hp : n.places with
  | some ds =>
    simp only [Numeral.pointChars, hp, List.cons_append, List.head?_cons, Option.mem_some_iff] at hc
    subst hc
    decide
  | none =>
    cases he : n.exponent with
    | some e =>
      have hletter : c = e.letter := by
        simpa [Numeral.pointChars, Numeral.exponentChars, hp, he, Number.Exponent.chars, eq_comm]
          using hc
      rcases (h.exponent e he).letter with hl | hl <;> rw [hletter, hl] <;> decide
    | none =>
      have hrest' := (hrest c (by simpa [Numeral.pointChars, Numeral.exponentChars, hp, he]
        using hc)).2.1
      rintro (rfl | rfl) <;> revert hrest' <;> decide

theorem hexDigits?_chars (h : n.Strict) (hrest : Stops rest) :
    hexDigits? (n.chars ++ rest) = none := by
  obtain ⟨d, ds, hwhole⟩ := List.exists_cons_of_ne_nil h.whole_ne_nil
  have hhead := afterWhole_head h hrest
  rw [h.chars_eq, List.append_assoc, List.append_assoc, hwhole]
  generalize n.pointChars ++ (n.exponentChars ++ rest) = r at hhead
  by_cases hd : d = '0'
  · have hshort : ds = [] := by
      have hstart := h.start
      simpa [Numeral.hasLeadingZero, hwhole, hd] using hstart
    subst hd hshort
    cases r with
    | nil => rfl
    | cons c r => simp [hexDigits?, hhead c rfl]
  · simp [hexDigits?, hd]

theorem readNumber_signedChars (h : n.Strict) (negative : Bool) (hrest : Stops rest) :
    readNumber (n.signedChars negative ++ rest)
      = some (.number (n.signedChars negative), rest) := by
  obtain ⟨d, t, hfront, hd⟩ := chars_front h rest
  have hi : d.toLower ≠ 'i' := by
    rw [toLower_of_isDigit hd]
    exact IsNumeric.ne (.inr hd) (by decide)
  have hinfinity := @startsWithWord_eq_false "infinity" 'i' d _ t rfl hi
  have hinf := @startsWithWord_eq_false "inf" 'i' d _ t rfl hi
  have hmagnitude : readMagnitude (n.chars ++ rest) = some (n.chars, rest) := by
    simp [readMagnitude, hexDigits?_chars h hrest, h.read_chars hrest, h.start]
  rw [← hfront] at hinfinity hinf
  simp only [readNumber, h.readSign_signedChars, hinfinity, hinf, Bool.false_eq_true, if_false,
    hmagnitude, Option.map_some]
  rfl

theorem signedChars_front (h : n.Strict) (negative : Bool) (rest : List Char) :
    ∃ c t, n.signedChars negative ++ rest = c :: t ∧ IsNumeric c := by
  cases negative with
  | true => exact ⟨'-', n.chars ++ rest, rfl, .inl rfl⟩
  | false =>
    obtain ⟨d, t, hfront, hd⟩ := chars_front h rest
    exact ⟨d, t, hfront, .inr hd⟩

theorem readScalar_signedChars (h : n.Strict) (negative : Bool) (hrest : Stops rest) :
    readScalar (n.signedChars negative ++ rest)
      = some (.number (n.signedChars negative), rest) := by
  obtain ⟨c, t, hfront, hc⟩ := signedChars_front h negative rest
  rw [← readNumber_signedChars h negative hrest, hfront, hc.readScalar_eq]

end

/-- A character that begins a value, and neither a blank nor the end of a container. -/
structure IsFront (c : Char) : Prop where
  space : isLooseSpace c = false
  slash : c ≠ '/'
  bracket : c ≠ ']'
  brace : c ≠ '\x7d'

theorem isFront_of_mem {c : Char} (hc : c ∈ ['n', 't', 'f', '"', '[', '\x7b']) : IsFront c := by
  simp only [List.mem_cons, List.not_mem_nil, or_false] at hc
  rcases hc with rfl | rfl | rfl | rfl | rfl | rfl <;>
    exact ⟨by decide, by decide, by decide, by decide⟩

theorem IsNumeric.isFront {c : Char} (h : IsNumeric c) : IsFront c where
  space := isLooseSpace_of_visible (by have := h.toNat_lt; omega) (by have := h.toNat_lt; omega)
  slash := by
    rcases h with rfl | hd
    · decide
    · rintro rfl
      revert hd
      decide
  bracket := h.ne (by decide)
  brace := h.ne (by decide)

theorem IsFront.skip_eq {c : Char} (h : IsFront c) (r : List Char) : skip (c :: r) = c :: r :=
  skip_cons h.space h.slash

def IsScalar : Json → Prop
  | .array _ | .object _ => False
  | _ => True

theorem realChars_cases (x : Float) :
    (Json.isFinite x = true ∧ ∃ negative n, Numeral.Strict n
        ∧ Json.realChars x = n.signedChars negative ∧ Cell.ofNumeral negative n = .real x)
      ∨ Json.isFinite x = false ∧ Json.realChars x = ['n', 'u', 'l', 'l'] := by
  by_cases hx : ∃ negative m e, Number.doubleDatum x = .finite negative m e
  · obtain ⟨negative, m, e, hx⟩ := hx
    obtain ⟨n, hn, hchars, hcell⟩ := Number.realChars_spec hx
    refine .inl ⟨?_, negative, n, hn, hchars, hcell⟩
    rw [Json.isFinite, Number.doubleText?, hx]
    cases m <;> rfl
  · simp only [not_exists] at hx
    refine .inr ⟨?_, Number.realChars_eq_null hx⟩
    rw [Json.isFinite, Number.doubleText?]
    cases h : Number.doubleDatum x with
    | finite negative m e => exact absurd h (hx _ _ _)
    | infinite negative => rfl
    | nan => rfl

theorem readScalar_chars {v : Json} (hv : IsScalar v) {rest : List Char} (hrest : Stops rest) :
    ∃ c r, v.chars ++ rest = c :: r ∧ IsFront c ∧ c ≠ '[' ∧ c ≠ '\x7b'
      ∧ readScalar (c :: r) = some (ofJson v, rest) := by
  have hnumber {n : Numeral} (hn : n.Strict) (negative : Bool) :
      ∃ c r, n.signedChars negative ++ rest = c :: r ∧ IsFront c ∧ c ≠ '[' ∧ c ≠ '\x7b'
        ∧ readScalar (c :: r) = some (.number (n.signedChars negative), rest) := by
    obtain ⟨c, t, hfront, hc⟩ := signedChars_front hn negative rest
    exact ⟨c, t, hfront, hc.isFront, hc.ne (by decide), hc.ne (by decide),
      hfront ▸ readScalar_signedChars hn negative hrest⟩
  have hnull : ∃ c r, ['n', 'u', 'l', 'l'] ++ rest = c :: r ∧ IsFront c ∧ c ≠ '[' ∧ c ≠ '\x7b'
      ∧ readScalar (c :: r) = some (.null, rest) :=
    ⟨'n', _, rfl, isFront_of_mem (by decide), by decide, by decide, rfl⟩
  cases v with
  | null => exact hnull
  | bool b =>
    cases b
    · exact ⟨'f', _, rfl, isFront_of_mem (by decide), by decide, by decide, rfl⟩
    · exact ⟨'t', _, rfl, isFront_of_mem (by decide), by decide, by decide, rfl⟩
  | integer n =>
    have hn := hnumber (Number.wholeNumeral_strict n.natAbs) (decide (n < 0))
    rwa [← Number.integerChars_eq] at hn
  | real x =>
    rcases realChars_cases x with ⟨hfinite, negative, n, hn, hchars, -⟩ | ⟨hfinite, hchars⟩
    · simp only [Json.chars, ofJson, hfinite, if_true, hchars]
      exact hnumber hn negative
    · simp only [Json.chars, ofJson, hfinite, Bool.false_eq_true, if_false, hchars]
      exact hnull
  | string s =>
    refine ⟨'"', Json.escapedChars s ++ '"' :: rest, ?_, isFront_of_mem (by decide),
      by decide, by decide, ?_⟩
    · simp [Json.chars, Json.quotedChars, Json.escapedChars]
    · simp [readScalar, Json.escapedChars, readQuoted_escaped, ofJson]
  | array items => exact hv.elim
  | object fields => exact hv.elim

theorem chars_isFront (v : Json) {rest : List Char} (hrest : Stops rest) :
    ∃ c r, v.chars ++ rest = c :: r ∧ IsFront c := by
  have hscalar {w : Json} (hw : IsScalar w) : ∃ c r, w.chars ++ rest = c :: r ∧ IsFront c := by
    obtain ⟨c, r, hfront, hc, -⟩ := readScalar_chars hw hrest
    exact ⟨c, r, hfront, hc⟩
  cases v with
  | array items =>
    exact ⟨'[', _, by rw [Json.chars_array]; rfl, isFront_of_mem (by decide)⟩
  | object fields =>
    exact ⟨'\x7b', _, by rw [Json.chars_object]; rfl, isFront_of_mem (by decide)⟩
  | null | bool _ | integer _ | real _ | string _ => exact hscalar trivial

theorem readValue_of_scalar {c : Char} (hbracket : c ≠ '[') (hbrace : c ≠ '\x7b') (depth : ℕ)
    (r : List Char) : readValue depth (c :: r) = readScalar (c :: r) := by
  cases depth <;> simp [readValue, hbracket, hbrace]

theorem readValue_scalar {v : Json} (hv : IsScalar v) {rest : List Char} (hrest : Stops rest)
    (depth : ℕ) :
    readValue depth (v.chars ++ rest)
      = if v.nesting ≤ depth then some (ofJson v, rest) else none := by
  obtain ⟨c, r, hfront, -, hbracket, hbrace, hread⟩ := readScalar_chars hv hrest
  have hflat : v.nesting = 0 := by cases v <;> first | rfl | exact hv.elim
  rw [hfront, readValue_of_scalar hbracket hbrace, hread, hflat, if_pos (Nat.zero_le _)]

theorem itemChars_front (vs : List Json) (rest : List Char) :
    Stops (Json.itemChars vs ++ rest)
      ∧ skip (Json.itemChars vs ++ rest) = Json.itemChars vs ++ rest := by
  cases vs with
  | nil => exact ⟨by rintro _ ⟨⟩; decide, skip_cons (by decide) (by decide)⟩
  | cons v vs => exact ⟨by rintro _ ⟨⟩; decide, skip_cons (by decide) (by decide)⟩

theorem fieldChars_front (fs : Json.Fields) (rest : List Char) :
    Stops (Json.fieldChars fs ++ rest)
      ∧ skip (Json.fieldChars fs ++ rest) = Json.fieldChars fs ++ rest := by
  cases fs with
  | nil => exact ⟨by rintro _ ⟨⟩; decide, skip_cons (by decide) (by decide)⟩
  | cons f fs => exact ⟨by rintro _ ⟨⟩; decide, skip_cons (by decide) (by decide)⟩

theorem length_itemChars (vs : List Json) : vs.length < (Json.itemChars vs).length := by
  induction vs with
  | nil => simp [Json.itemChars]
  | cons v vs ih =>
    simp only [Json.itemChars, List.length_cons, List.length_append]
    omega

theorem length_fieldChars (fs : Json.Fields) : fs.length < (Json.fieldChars fs).length := by
  induction fs with
  | nil => simp [Json.fieldChars]
  | cons f fs ih =>
    simp only [Json.fieldChars, List.length_cons, List.length_append]
    omega

theorem length_itemsChars (vs : List Json) : vs.length ≤ (Json.itemsChars vs).length := by
  cases vs with
  | nil => simp
  | cons v vs =>
    have hlength := length_itemChars vs
    simp only [Json.itemsChars, List.length_cons, List.length_append]
    omega

theorem length_fieldsChars (fs : Json.Fields) : fs.length ≤ (Json.fieldsChars fs).length := by
  cases fs with
  | nil => simp
  | cons f fs =>
    have hlength := length_fieldChars fs
    simp only [Json.fieldsChars, List.length_cons, List.length_append]
    omega

section

variable {value : Json.Reader Node} {fuel : ℕ}

theorem readItems_nil (r : List Char) :
    readItems value (fuel + 1) (Json.itemsChars [] ++ r) = some ([], r) := by
  have hskip : skip (']' :: r) = ']' :: r := skip_cons (by decide) (by decide)
  simp [readItems, Json.itemsChars, hskip]

theorem readItems_front {c : Char} (hc : IsFront c) (t : List Char) :
    readItems value (fuel + 1) (c :: t) = (value (c :: t)).bind fun p =>
      match skip p.2 with
      | ',' :: r => (readItems value fuel r).map fun q => (p.1 :: q.1, q.2)
      | ']' :: r => some ([p.1], r)
      | _ => none := by
  have hbracket := hc.bracket
  simp only [readItems, hc.skip_eq]
  split
  · rename_i h
    exact (hbracket (List.cons.inj h).1).elim
  · cases value (c :: t) <;> rfl

theorem readItems_cons (v : Json) (vs : List Json) (r : List Char) :
    readItems value (fuel + 1) (Json.itemsChars (v :: vs) ++ r)
      = (value (v.chars ++ (Json.itemChars vs ++ r))).bind fun p =>
        match skip p.2 with
        | ',' :: r => (readItems value fuel r).map fun q => (p.1 :: q.1, q.2)
        | ']' :: r => some ([p.1], r)
        | _ => none := by
  obtain ⟨c, t, hfront, hc⟩ := chars_isFront v (itemChars_front vs r).1
  rw [Json.itemsChars, List.append_assoc, hfront, readItems_front hc]

theorem readFields_nil (r : List Char) :
    readFields value (fuel + 1) (Json.fieldsChars [] ++ r) = some ([], r) := by
  have hskip : skip ('\x7d' :: r) = '\x7d' :: r := skip_cons (by decide) (by decide)
  simp [readFields, Json.fieldsChars, hskip]

theorem readFields_cons (k : String) (v : Json) (fs : Json.Fields) (r : List Char) :
    readFields value (fuel + 1) (Json.fieldsChars ((k, v) :: fs) ++ r)
      = (value (v.chars ++ (Json.fieldChars fs ++ r))).bind fun p =>
        match skip p.2 with
        | ',' :: r => (readFields value fuel r).map fun q =>
          (((k.toList, Json.escapedChars k), p.1) :: q.1, q.2)
        | '\x7d' :: r => some ([((k.toList, Json.escapedChars k), p.1)], r)
        | _ => none := by
  obtain ⟨c, t, hfront, hc⟩ := chars_isFront v (fieldChars_front fs r).1
  have hchars : Json.fieldsChars ((k, v) :: fs) ++ r
      = '"' :: (k.toList.flatMap Json.escapeChar ++ '"' :: ':' :: c :: t) := by
    simp [Json.fieldsChars, Json.quotedChars, ← hfront]
  have hquote (s : List Char) : skip ('"' :: s) = '"' :: s := skip_cons (by decide) (by decide)
  have hcolon (s : List Char) : skip (':' :: s) = ':' :: s := skip_cons (by decide) (by decide)
  have hkey : readKey ('"' :: (k.toList.flatMap Json.escapeChar ++ '"' :: ':' :: c :: t))
      = some ((k.toList, Json.escapedChars k), ':' :: c :: t) := readQuoted_escaped _ _
  rw [hchars, hfront, readFields, hquote]
  split
  · rename_i h
    simp at h
  · simp only [hkey, hcolon, hc.skip_eq]
    cases value (c :: t) <;> rfl

end

mutual

/-- Text is read as the value that it was written for, unless that is nested too deeply. -/
theorem readValue_chars (v : Json) (depth : ℕ) {rest : List Char} (hrest : Stops rest) :
    readValue depth (v.chars ++ rest)
      = if v.nesting ≤ depth then some (ofJson v, rest) else none := by
  match v with
  | .array items =>
    rw [Json.chars_array, Json.nesting]
    cases depth with
    | zero => simp [readValue]
    | succ depth =>
      have hlength := length_itemsChars items
      have hread := @readItems_chars items depth ((Json.itemsChars items ++ rest).length + 1) rest
        (by simp only [List.length_append]; omega)
      simp only [List.cons_append, readValue, hread, Nat.add_le_add_iff_right]
      split <;> simp [ofJson]
  | .object fields =>
    rw [Json.chars_object, Json.nesting]
    cases depth with
    | zero => simp [readValue]
    | succ depth =>
      have hlength := length_fieldsChars fields
      have hread := @readFields_chars fields depth
        ((Json.fieldsChars fields ++ rest).length + 1) rest
        (by simp only [List.length_append]; omega)
      simp only [List.cons_append, readValue, hread, Nat.add_le_add_iff_right]
      split <;> simp [ofJson]
  | .null | .bool _ | .integer _ | .real _ | .string _ =>
    refine readValue_scalar ?_ hrest depth
    trivial

theorem readItems_chars (items : List Json) (depth : ℕ) {fuel : ℕ} {r : List Char}
    (hfuel : items.length < fuel) :
    readItems (readValue depth) fuel (Json.itemsChars items ++ r)
      = if Json.nestingOfItems items ≤ depth then some (ofItems items, r) else none := by
  match items, fuel with
  | [], fuel + 1 => simp [readItems_nil, Json.nestingOfItems, ofItems]
  | v :: vs, fuel + 1 =>
    have hv := readValue_chars v depth (itemChars_front vs r).1
    have hvs := @readItems_chars vs depth fuel r (by simpa using hfuel)
    have hskip := (itemChars_front vs r).2
    rw [readItems_cons, hv, Json.nestingOfItems, ofItems]
    by_cases hdepth : v.nesting ≤ depth
    · rw [if_pos hdepth, Option.bind_some, hskip]
      cases vs with
      | nil => simp [Json.itemChars, hdepth, Json.nestingOfItems, ofItems]
      | cons w ws =>
        by_cases hrest : Json.nestingOfItems (w :: ws) ≤ depth <;>
          simp [Json.itemChars_cons, hvs, hdepth, hrest]
    · simp [hdepth]

theorem readFields_chars (fields : Json.Fields) (depth : ℕ) {fuel : ℕ} {r : List Char}
    (hfuel : fields.length < fuel) :
    readFields (readValue depth) fuel (Json.fieldsChars fields ++ r)
      = if Json.nestingOfFields fields ≤ depth then some (ofFields fields, r) else none := by
  match fields, fuel with
  | [], fuel + 1 => simp [readFields_nil, Json.nestingOfFields, ofFields]
  | (k, v) :: fs, fuel + 1 =>
    have hv := readValue_chars v depth (fieldChars_front fs r).1
    have hfs := @readFields_chars fs depth fuel r (by simpa using hfuel)
    have hskip := (fieldChars_front fs r).2
    rw [readFields_cons, hv, Json.nestingOfFields, ofFields]
    by_cases hdepth : v.nesting ≤ depth
    · rw [if_pos hdepth, Option.bind_some, hskip]
      cases fs with
      | nil => simp [Json.fieldChars, hdepth, Json.nestingOfFields, ofFields]
      | cons g gs =>
        by_cases hrest : Json.nestingOfFields (g :: gs) ≤ depth <;>
          simp [Json.fieldChars_cons, hfs, hdepth, hrest]
    · simp [hdepth]

end

/-- The text of a value is read just if the value is not nested too deeply. -/
theorem read_text (v : Json) :
    read v.text = if v.nesting ≤ depthLimit then some (ofJson v) else none := by
  obtain ⟨c, r, hfront, hc⟩ := chars_isFront v Number.stops_nil
  have hread := readValue_chars v depthLimit Number.stops_nil
  rw [hfront] at hread
  rw [List.append_nil] at hfront
  have hend : (skip []).isEmpty = true := rfl
  rw [read, Json.text, String.toList_ofList, hfront, hc.skip_eq, hread]
  by_cases hv : v.nesting ≤ depthLimit
  · simp only [if_pos hv, hend, if_true]
  · simp only [if_neg hv]

end Node

end DocumentStore
