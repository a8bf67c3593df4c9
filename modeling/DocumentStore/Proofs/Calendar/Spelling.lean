import DocumentStore.Calendar.Iso
import DocumentStore.Proofs.Number.Magnitude

/-! How bare dates are spelled. Main statement: a text that is a bare date is made of three figures
with hyphens between them and white space after them, and its date is what the figures stand for. -/
namespace DocumentStore.Calendar

open Number (Digits)

/-- A number as it stands in a date: white space, for a year perhaps a sign, and digits. -/
structure Figure where
  blanks : List Char
  sign : List Char
  digits : List Char
  isBlank : ∀ c ∈ blanks, Text.isBlank c = true
  isSign : sign = [] ∨ sign = ['+'] ∨ sign = ['-']
  isDigit : Digits digits
  digits_ne : digits ≠ []

namespace Figure

def chars (f : Figure) : List Char := f.blanks ++ (f.sign ++ f.digits)

def number (f : Figure) : ℕ := numberOfDigits f.digits

def value (f : Figure) : ℤ := if f.sign = ['-'] then -f.number else f.number

theorem value_of_no_sign {f : Figure} (h : f.sign = []) : f.value = f.number := by
  simp [value, h]

def afterBlanks (f : Figure) (bs : List Char) (hbs : ∀ c ∈ bs, Text.isBlank c = true) : Figure :=
  { f with
    blanks := bs ++ f.blanks
    isBlank := fun c hc => (List.mem_append.mp hc).elim (hbs c) (f.isBlank c) }

end Figure

theorem readAllDigits_eq_some {cs r : List Char} {n : ℕ} (h : readAllDigits cs = some (n, r)) :
    ∃ ds, ds ++ r = cs ∧ Digits ds ∧ ds ≠ [] ∧ numberOfDigits ds = n := by
  simp only [readAllDigits] at h
  split at h
  · cases h
  · rename_i hne
    obtain ⟨rfl, rfl⟩ := Prod.mk.inj (Option.some.inj h)
    exact ⟨_, List.takeWhile_append_dropWhile, fun c hc => List.mem_takeWhile_imp hc,
      by simpa using hne, rfl⟩

theorem readDigits_eq_some {width : ℕ} {cs r : List Char} {n : ℕ}
    (h : readDigits width cs = some (n, r)) :
    ∃ ds, ds ++ r = cs ∧ Digits ds ∧ ds ≠ [] ∧ numberOfDigits ds = n := by
  simp only [readDigits] at h
  split at h
  · cases h
  · rename_i hne
    obtain ⟨rfl, rfl⟩ := Prod.mk.inj (Option.some.inj h)
    have hprefix := (List.takeWhile_prefix Char.isDigit).trans (List.take_prefix width cs)
    exact ⟨_, List.prefix_iff_eq_append.mp hprefix, fun c hc => List.mem_takeWhile_imp hc,
      by simpa using hne, rfl⟩

theorem readLoose_eq_some {part : Part} {cs r : List Char} {n : ℤ}
    (h : readLoose part cs = some (n, r)) :
    ∃ f : Figure, f.chars ++ r = cs ∧ f.value = n ∧ (part ≠ .year → f.sign = []) := by
  have hcs : cs.takeWhile Text.isBlank ++ skipBlanks cs = cs := List.takeWhile_append_dropWhile
  have hfigure {sign ds : List Char} (hsign : sign = [] ∨ sign = ['+'] ∨ sign = ['-'])
      (hpart : part ≠ .year → sign = []) (hds : Digits ds) (hne : ds ≠ [])
      (hskip : skipBlanks cs = sign ++ (ds ++ r))
      (hvalue : (if sign = ['-'] then -(numberOfDigits ds : ℤ) else numberOfDigits ds) = n) :
      ∃ f : Figure, f.chars ++ r = cs ∧ f.value = n ∧ (part ≠ .year → f.sign = []) := by
    refine ⟨⟨cs.takeWhile Text.isBlank, sign, ds, fun c hc => List.mem_takeWhile_imp hc, hsign, hds,
      hne⟩, ?_, hvalue, hpart⟩
    simp only [Figure.chars, List.append_assoc, ← hskip, hcs]
  -- The branches of the reader differ in the sign, and in how many digits they take.
  unfold readLoose at h
  split at h
  · rename_i t hskip
    obtain ⟨⟨k, r⟩, hread, hpair⟩ := Option.map_eq_some_iff.mp h
    obtain ⟨rfl, rfl⟩ := Prod.mk.inj hpair
    obtain ⟨ds, rfl, hds, hne, rfl⟩ := readAllDigits_eq_some hread
    exact hfigure (.inr (.inr rfl)) (by simp) hds hne hskip (by simp)
  · rename_i t hskip
    obtain ⟨⟨k, r⟩, hread, hpair⟩ := Option.map_eq_some_iff.mp h
    obtain ⟨rfl, rfl⟩ := Prod.mk.inj hpair
    obtain ⟨ds, rfl, hds, hne, rfl⟩ := readAllDigits_eq_some hread
    exact hfigure (.inr (.inl rfl)) (by simp) hds hne hskip (by simp)
  · obtain ⟨⟨k, r⟩, hread, hpair⟩ := Option.map_eq_some_iff.mp h
    obtain ⟨rfl, rfl⟩ := Prod.mk.inj hpair
    obtain ⟨ds, hskip, hds, hne, rfl⟩ := readDigits_eq_some hread
    exact hfigure (.inl rfl) (by simp) hds hne hskip.symm (by simp)

section

variable {m : Moment} {is : List Item} {cs : List Char} {p : Moment × List Char}

theorem readItems_loose {part : Part} (h : readItems m (.loose part :: is) cs = some p) :
    ∃ (f : Figure) (r : List Char), f.chars ++ r = cs ∧ (part ≠ .year → f.sign = [])
      ∧ readItems (m.set part f.value) is r = some p := by
  simp only [readItems, Item.read] at h
  cases hread : readLoose part cs with
  | none => simp [hread, assign] at h
  | some q =>
    obtain ⟨n, r⟩ := q
    obtain ⟨f, hchars, rfl, hsign⟩ := readLoose_eq_some hread
    by_cases hadmits : part.admits f.value = true
    · exact ⟨f, r, hchars, hsign, by simpa [hread, assign, hadmits] using h⟩
    · simp [hread, assign, hadmits] at h

theorem readItems_literal {c : Char} (h : readItems m (.literal c :: is) cs = some p) :
    ∃ r, c :: r = cs ∧ readItems m is r = some p := by
  cases cs with
  | nil => cases h
  | cons d r =>
    simp only [readItems, Item.read] at h
    by_cases hd : c = d
    · exact ⟨r, by rw [hd], by simpa [hd] using h⟩
    · simp [hd] at h

end

/-- How a date is spelled. -/
structure Spelling where
  year : Figure
  month : Figure
  day : Figure
  after : List Char
  month_sign : month.sign = []
  day_sign : day.sign = []
  isBlank_after : ∀ c ∈ after, Text.isBlank c = true

namespace Spelling

def chars (w : Spelling) : List Char :=
  w.year.chars ++ '-' :: (w.month.chars ++ '-' :: (w.day.chars ++ w.after))

def date (w : Spelling) : Date := ⟨w.year.value, w.month.number, w.day.number⟩

end Spelling

theorem readMoment_looseDate {cs : List Char} {m : Moment} (h : readMoment looseDate cs = some m) :
    ∃ w : Spelling, w.chars = cs ∧ w.date = m.date ∧ w.after = [] := by
  rw [readMoment] at h
  split at h
  · rename_i m' hread
    obtain ⟨year, r, rfl, -, hread⟩ := readItems_loose hread
    obtain ⟨r, rfl, hread⟩ := readItems_literal hread
    obtain ⟨month, r, rfl, hmonth, hread⟩ := readItems_loose hread
    obtain ⟨r, rfl, hread⟩ := readItems_literal hread
    obtain ⟨day, r, rfl, hday, hread⟩ := readItems_loose hread
    obtain ⟨rfl, rfl⟩ := Prod.mk.inj (Option.some.inj hread)
    have hmonth := hmonth (by decide)
    have hday := hday (by decide)
    refine ⟨⟨year, month, day, [], hmonth, hday, by simp⟩, rfl, ?_, rfl⟩
    split at h
    · rw [← Option.some.inj h]
      simp [Spelling.date, Moment.set, Figure.value_of_no_sign hmonth, Figure.value_of_no_sign hday]
    · cases h
  · cases h

theorem exists_spelling {s : String} {d : Date} (h : dateOf? s = some d) :
    ∃ w : Spelling, w.chars = s.toList ∧ w.date = d := by
  obtain ⟨m, hread, rfl⟩ := Option.map_eq_some_iff.mp h
  obtain ⟨w, hchars, hdate, hafter⟩ := readMoment_looseDate hread
  obtain ⟨bs, after, hs, hbs, hblank⟩ := Text.exists_trim s
  refine ⟨⟨w.year.afterBlanks bs hbs, w.month, w.day, after, w.month_sign, w.day_sign, hblank⟩, ?_,
    hdate⟩
  rw [hs, Text.trim, String.toList_ofList, ← hchars]
  simp [Spelling.chars, Figure.chars, Figure.afterBlanks, hafter]

end DocumentStore.Calendar
