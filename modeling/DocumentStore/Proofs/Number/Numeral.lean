import DocumentStore.Cell
import DocumentStore.Proofs.Number.Shortest
import DocumentStore.Proofs.Text.Characters

/-! Numerals in the strict spelling. Every reader takes such a numeral off the front of a text as it
stands, as long as the text after it cannot belong to a number. -/
namespace DocumentStore.Number

def Digits (cs : List Char) : Prop := ∀ c ∈ cs, c.isDigit = true

/-- Whether a text cannot go on with a number that stands before it. -/
def Stops (rest : List Char) : Prop :=
  ∀ c ∈ rest.head?, c.isDigit = false ∧ c.isAlpha = false ∧ c ≠ '.'

@[simp] theorem stops_nil : Stops [] := by simp [Stops]

theorem takeWhile_digits {ds rest : List Char} (hds : Digits ds)
    (hrest : ∀ c ∈ rest.head?, c.isDigit = false) :
    (ds ++ rest).takeWhile Char.isDigit = ds ∧ (ds ++ rest).dropWhile Char.isDigit = rest :=
  Text.takeWhile_append hds hrest

theorem digit_ne_sign {c : Char} (h : c.isDigit = true) : c ≠ '-' ∧ c ≠ '+' := by
  constructor <;> rintro rfl <;> simp at h

theorem readSign_of_digits {ds rest : List Char} (hne : ds ≠ []) (hds : Digits ds) :
    readSign (ds ++ rest) = (false, ds ++ rest) := by
  obtain ⟨d, ds, rfl⟩ := List.exists_cons_of_ne_nil hne
  obtain ⟨hminus, hplus⟩ := digit_ne_sign (hds d (by simp))
  simp [readSign, hminus, hplus]

namespace Exponent

/-- An exponent with digits after a letter that announces it. -/
structure Strict (e : Exponent) : Prop where
  letter : e.letter = 'e' ∨ e.letter = 'E'
  sign : ∀ c ∈ e.sign, c = '+' ∨ c = '-'
  digits : Digits e.digits
  ne_nil : e.digits ≠ []

theorem readSign_append {e : Exponent} (h : e.Strict) (rest : List Char) :
    readSign (e.sign.toList ++ (e.digits ++ rest)) = (e.sign, e.digits ++ rest) := by
  obtain ⟨d, ds, hdigits⟩ := List.exists_cons_of_ne_nil h.ne_nil
  obtain ⟨hminus, hplus⟩ := digit_ne_sign (h.digits d (by simp [hdigits]))
  cases hsign : e.sign with
  | none => simp [readSign, hdigits, hminus, hplus]
  | some c => rcases h.sign c hsign with rfl | rfl <;> rfl

theorem read_chars {e : Exponent} (h : e.Strict) {rest : List Char}
    (hrest : ∀ c ∈ rest.head?, c.isDigit = false) :
    read (e.chars ++ rest) = some (some e, rest) := by
  obtain ⟨htake, hdrop⟩ := takeWhile_digits h.digits hrest
  have hletter := h.letter
  have hne : e.digits.isEmpty = false := by simpa using h.ne_nil
  simp only [chars, List.cons_append, List.append_assoc, read, hletter, if_true,
    readSign_append h, htake, hdrop, hne, Bool.false_eq_true, if_false]

theorem read_of_stops {rest : List Char} (hrest : Stops rest) : read rest = some (none, rest) := by
  cases rest with
  | nil => rfl
  | cons c rest =>
    have hletter : ¬(c = 'e' ∨ c = 'E') := by
      rintro (rfl | rfl) <;> exact absurd (hrest _ rfl).2.1 (by decide)
    simp [read, hletter]

end Exponent

namespace Numeral

/-- A numeral with digits on each side of its point and no zero at its front that it does not
need. -/
structure Strict (n : Numeral) : Prop where
  whole : Digits n.whole
  whole_ne_nil : n.whole ≠ []
  start : n.hasLeadingZero = false
  places : ∀ ds ∈ n.places, ds ≠ [] ∧ Digits ds
  exponent : ∀ e ∈ n.exponent, e.Strict

def pointChars (n : Numeral) : List Char :=
  match n.places with
  | none => []
  | some ds => '.' :: ds

def exponentChars (n : Numeral) : List Char := (n.exponent.map Exponent.chars).getD []

variable {n : Numeral} {rest : List Char}

theorem Strict.chars_eq (h : n.Strict) : n.chars = n.whole ++ (n.pointChars ++ n.exponentChars) := by
  have hwhole : n.whole.isEmpty = false := by simpa using h.whole_ne_nil
  cases hp : n.places with
  | none => simp [chars, pointChars, exponentChars, hwhole, hp]
  | some ds =>
    have hds : ds ≠ [] := (h.places ds hp).1
    simp [chars, pointChars, exponentChars, hwhole, hp, hds]

theorem Strict.read_exponentChars (h : n.Strict) (hrest : Stops rest) :
    Exponent.read (n.exponentChars ++ rest) = some (n.exponent, rest) := by
  cases he : n.exponent with
  | none => simpa [exponentChars, he] using Exponent.read_of_stops hrest
  | some e =>
    have hread := Exponent.read_chars (h.exponent e he) fun c hc => (hrest c hc).1
    simpa [exponentChars, he] using hread

theorem Strict.exponentChars_head (h : n.Strict) (hrest : Stops rest) :
    ∀ c ∈ (n.exponentChars ++ rest).head?, c.isDigit = false ∧ c ≠ '.' := by
  intro c hc
  cases he : n.exponent with
  | none =>
    simp only [exponentChars, he, Option.map_none, Option.getD_none, List.nil_append] at hc
    exact ⟨(hrest c hc).1, (hrest c hc).2.2⟩
  | some e =>
    have hletter : c = e.letter := by
      simpa [exponentChars, he, Exponent.chars, eq_comm] using hc
    rcases (h.exponent e he).letter with hl | hl <;> rw [hletter, hl] <;> decide

theorem Strict.readPlaces_pointChars (h : n.Strict) (hrest : Stops rest) :
    readPlaces (n.pointChars ++ (n.exponentChars ++ rest))
      = (n.places, n.exponentChars ++ rest) := by
  have hhead := h.exponentChars_head hrest
  cases hp : n.places with
  | none =>
    simp only [pointChars, hp, List.nil_append]
    generalize n.exponentChars ++ rest = r at hhead
    cases r with
    | nil => rfl
    | cons c r => simp [readPlaces, (hhead c rfl).2]
  | some ds =>
    obtain ⟨htake, hdrop⟩ := takeWhile_digits (h.places ds hp).2 fun c hc => (hhead c hc).1
    simp [pointChars, hp, readPlaces, htake, hdrop]

theorem Strict.pointChars_head (h : n.Strict) (hrest : Stops rest) :
    ∀ c ∈ (n.pointChars ++ (n.exponentChars ++ rest)).head?, c.isDigit = false := by
  intro c hc
  cases hp : n.places with
  | none =>
    simp only [pointChars, hp, List.nil_append] at hc
    exact (h.exponentChars_head hrest c hc).1
  | some ds =>
    simp only [pointChars, hp, List.cons_append, List.head?_cons, Option.mem_some_iff] at hc
    subst hc
    decide

theorem Strict.read_chars (h : n.Strict) (hrest : Stops rest) :
    read (n.chars ++ rest) = some (n, rest) := by
  obtain ⟨htake, hdrop⟩ := takeWhile_digits h.whole (h.pointChars_head hrest)
  have hwhole : n.whole.isEmpty = false := by simpa using h.whole_ne_nil
  rw [h.chars_eq]
  simp only [List.append_assoc, read, htake, hdrop, h.readPlaces_pointChars hrest, hwhole,
    Bool.false_and, Bool.false_eq_true, if_false, h.read_exponentChars hrest, Option.map_some]

def signedChars (negative : Bool) (n : Numeral) : List Char :=
  (if negative then ['-'] else []) ++ n.chars

theorem Strict.readSign_signedChars (h : n.Strict) (negative : Bool) :
    readSign (n.signedChars negative ++ rest) = (negative, n.chars ++ rest) := by
  cases negative with
  | true => rfl
  | false =>
    have hsign := @readSign_of_digits _ (n.pointChars ++ n.exponentChars ++ rest)
      h.whole_ne_nil h.whole
    simpa [signedChars, h.chars_eq] using hsign

theorem Strict.readNumber_signedChars (h : n.Strict) (negative : Bool) (hrest : Stops rest) :
    Cell.readNumber (n.signedChars negative ++ rest) = some (Cell.ofNumeral negative n, rest) := by
  simp only [Cell.readNumber, h.readSign_signedChars, h.read_chars hrest, Option.map_some]

end Numeral

end DocumentStore.Number
