import DocumentStore.Proofs.Calendar.Spelling

/-! When the order of texts is the order of dates. Main statement: bare dates that are laid out
alike are the same text just if they are the same date, and they stand in the order of their dates
unless a year is below zero; then they stand in the reverse order of their years. -/
namespace DocumentStore

namespace Text

/-- A text with a zero for every digit. Two texts are laid out alike if they differ in digits
only. -/
def layout (cs : List Char) : List Char := cs.map fun c => if c.isDigit then '0' else c

theorem layout_append (cs ds : List Char) : layout (cs ++ ds) = layout cs ++ layout ds :=
  List.map_append

theorem layout_eq_self {cs : List Char} (h : ∀ c ∈ cs, c.isDigit = false) : layout cs = cs := by
  induction cs with
  | nil => rfl
  | cons c cs ih =>
    have hc : c.isDigit = false := h c (by simp)
    have ih := ih fun d hd => h d (by simp [hd])
    simpa [layout, hc] using ih

theorem length_eq_of_layout {cs ds : List Char} (h : layout cs = layout ds) :
    cs.length = ds.length := by
  simpa [layout] using congrArg List.length h

/-- Texts that are laid out alike are alike up to the end of a class of characters that holds all
digits or none, and after it. -/
theorem layout_split {p : Char → Bool} (hp : ∀ c, c.isDigit = true → p c = p '0')
    {cs ds r r' : List Char} (hcs : ∀ c ∈ cs, p c = true) (hds : ∀ c ∈ ds, p c = true)
    (hr : ∀ c ∈ r.head?, p c = false) (hr' : ∀ c ∈ r'.head?, p c = false)
    (h : layout (cs ++ r) = layout (ds ++ r')) : layout cs = layout ds ∧ layout r = layout r' := by
  have hform (c : Char) : p (if c.isDigit then '0' else c) = p c := by
    by_cases hc : c.isDigit = true
    · rw [if_pos hc, hp c hc]
    · rw [if_neg hc]
  have hends {cs r : List Char} (hcs : ∀ c ∈ cs, p c = true) (hr : ∀ c ∈ r.head?, p c = false) :
      (layout (cs ++ r)).takeWhile p = layout cs ∧ (layout (cs ++ r)).dropWhile p = layout r := by
    rw [layout_append]
    refine takeWhile_append ?_ ?_
    · simpa [layout, hform] using hcs
    · simpa [layout, hform] using hr
  constructor
  · rw [← (hends hcs hr).1, h, (hends hds hr').1]
  · rw [← (hends hcs hr).2, h, (hends hds hr').2]

/-- Texts whose beginnings are equally long stand as their beginnings do, or else as their ends. -/
theorem append_lt_append_iff {cs ds r r' : List Char} (h : cs.length = ds.length) :
    cs ++ r < ds ++ r' ↔ cs < ds ∨ cs = ds ∧ r < r' := by
  induction cs generalizing ds with
  | nil =>
    obtain rfl := List.length_eq_zero_iff.mp h.symm
    simp
  | cons c cs ih =>
    cases ds with
    | nil => cases h
    | cons d ds =>
      have ih := ih (Nat.succ.inj h)
      rw [List.cons_append, List.cons_append, List.cons_lt_cons_iff, List.cons_lt_cons_iff, ih,
        List.cons.injEq]
      tauto

end Text

namespace Calendar

open Number (Digits digitValue)
open Text (layout layout_split append_lt_append_iff)

/-- Equally many digits stand as the numbers do that they make behind the same digits. -/
theorem foldl_lt_of_lt {cs ds : List Char} (hcs : Digits cs) (hds : Digits ds)
    (hlength : cs.length = ds.length) (h : cs < ds) (n : ℕ) :
    cs.foldl (fun n d => n * 10 + digitValue d) n < ds.foldl (fun n d => n * 10 + digitValue d) n := by
  induction cs generalizing ds n with
  | nil =>
    obtain rfl := List.length_eq_zero_iff.mp hlength.symm
    exact absurd h (lt_irrefl _)
  | cons c cs ih =>
    cases ds with
    | nil => cases hlength
    | cons d ds =>
      have hcs' : Digits cs := fun a ha => hcs a (by simp [ha])
      have hds' : Digits ds := fun a ha => hds a (by simp [ha])
      simp only [List.length_cons, add_left_inj] at hlength
      rcases List.cons_lt_cons_iff.mp h with hlt | ⟨rfl, hrest⟩
      · -- The first digit that differs decides: what follows adds less than one in its place.
        have hc := Text.toNat_of_isDigit (hcs c (by simp))
        have hvalue : digitValue c + 1 ≤ digitValue d := by
          have hcode : c.toNat < d.toNat := hlt
          unfold digitValue
          omega
        calc cs.foldl (fun n d => n * 10 + digitValue d) (n * 10 + digitValue c)
            < (n * 10 + digitValue c + 1) * 10 ^ cs.length := (Number.foldl_digits_bounds hcs' _).2
          _ ≤ (n * 10 + digitValue d) * 10 ^ ds.length := by
            rw [hlength]
            exact Nat.mul_le_mul_right _ (by omega)
          _ ≤ _ := (Number.foldl_digits_bounds hds' _).1
      · exact ih hcs' hds' hlength hrest _

section

variable {cs ds : List Char} (hcs : Digits cs) (hds : Digits ds) (hlength : cs.length = ds.length)

include hcs hds hlength

theorem numberOfDigits_lt_iff : numberOfDigits cs < numberOfDigits ds ↔ cs < ds := by
  constructor
  · intro h
    rcases lt_trichotomy cs ds with hlt | rfl | hgt
    · exact hlt
    · exact absurd h (lt_irrefl _)
    · exact absurd h (foldl_lt_of_lt hds hcs hlength.symm hgt 0).asymm
  · exact fun h => foldl_lt_of_lt hcs hds hlength h 0

theorem numberOfDigits_eq_iff : numberOfDigits cs = numberOfDigits ds ↔ cs = ds := by
  constructor
  · intro h
    rcases lt_trichotomy cs ds with hlt | heq | hgt
    · exact absurd h ((numberOfDigits_lt_iff hcs hds hlength).mpr hlt).ne
    · exact heq
    · exact absurd h.symm ((numberOfDigits_lt_iff hds hcs hlength.symm).mpr hgt).ne
  · rintro rfl
    rfl

end

namespace Figure

/-- Whether two figures may differ in digits only. -/
structure Alike (f g : Figure) : Prop where
  blanks : f.blanks = g.blanks
  sign : f.sign = g.sign
  length : f.digits.length = g.digits.length

theorem isDigit_eq_false_of_isBlank {c : Char} (h : Text.isBlank c = true) : c.isDigit = false := by
  by_contra hdigit
  rw [Text.isBlank_of_isDigit (by simpa using hdigit)] at h
  cases h

section

variable (f : Figure) (r : List Char)

theorem head_digits : ∃ d ds, f.digits ++ r = d :: ds ∧ d.isDigit = true := by
  obtain ⟨d, ds, hdigits⟩ := List.exists_cons_of_ne_nil f.digits_ne
  exact ⟨d, ds ++ r, by rw [hdigits]; rfl, f.isDigit d (by simp [hdigits])⟩

theorem isBlank_head : ∀ c ∈ (f.sign ++ (f.digits ++ r)).head?, Text.isBlank c = false := by
  obtain ⟨d, ds, hdigits, hd⟩ := f.head_digits r
  rcases f.isSign with hsign | hsign | hsign
  · simpa [hsign, hdigits] using Text.isBlank_of_isDigit hd
  · simp [hsign, Text.isBlank]
  · simp [hsign, Text.isBlank]

end

variable {f g : Figure} {r r' : List Char}

/-- Where two texts are laid out alike, the figures at their front are alike, and so is what
follows. -/
theorem alike_of_layout (hr : ∀ c ∈ r.head?, c.isDigit = false)
    (hr' : ∀ c ∈ r'.head?, c.isDigit = false)
    (h : layout (f.chars ++ r) = layout (g.chars ++ r')) : f.Alike g ∧ layout r = layout r' := by
  simp only [chars, List.append_assoc] at h
  -- White space, sign and digits each end where a character of another class stands.
  obtain ⟨hblanks, h⟩ := layout_split (p := Text.isBlank)
    (fun c hc => by rw [Text.isBlank_of_isDigit hc]; rfl) f.isBlank g.isBlank (f.isBlank_head r)
    (g.isBlank_head r') h
  have hsigns (f : Figure) : ∀ c ∈ f.sign, (c == '+' || c == '-') = true := by
    rcases f.isSign with hsign | hsign | hsign <;> simp [hsign]
  have hdigits (f : Figure) (r : List Char) :
      ∀ c ∈ (f.digits ++ r).head?, (c == '+' || c == '-') = false := by
    obtain ⟨d, ds, hdigits, hd⟩ := f.head_digits r
    simpa [hdigits] using (Number.digit_ne_sign hd).symm
  obtain ⟨hsign, h⟩ := layout_split (p := fun c => c == '+' || c == '-')
    (fun c hc => by simpa using (Number.digit_ne_sign hc).symm) (hsigns f) (hsigns g) (hdigits f r)
    (hdigits g r') h
  obtain ⟨hdigits, h⟩ := layout_split (p := Char.isDigit) (fun c hc => hc) f.isDigit g.isDigit hr hr' h
  have hblank (f : Figure) : layout f.blanks = f.blanks :=
    Text.layout_eq_self fun c hc => isDigit_eq_false_of_isBlank (f.isBlank c hc)
  have hsignless (f : Figure) : layout f.sign = f.sign := by
    rcases f.isSign with hsign | hsign | hsign <;> rw [hsign] <;> rfl
  rw [hblank, hblank] at hblanks
  rw [hsignless, hsignless] at hsign
  exact ⟨⟨hblanks, hsign, Text.length_eq_of_layout hdigits⟩, h⟩

theorem append_lt_iff (h : f.Alike g) :
    f.chars ++ r < g.chars ++ r' ↔ f.number < g.number ∨ f.number = g.number ∧ r < r' := by
  have hhead : f.blanks ++ f.sign = g.blanks ++ g.sign := by rw [h.blanks, h.sign]
  have hchars (f : Figure) (r : List Char) :
      f.chars ++ r = (f.blanks ++ f.sign) ++ (f.digits ++ r) := by simp [chars]
  rw [number, number, numberOfDigits_lt_iff f.isDigit g.isDigit h.length,
    numberOfDigits_eq_iff f.isDigit g.isDigit h.length, ← append_lt_append_iff h.length, hchars f r,
    hchars g r', hhead, append_lt_append_iff rfl]
  simp

theorem append_eq_iff (h : f.Alike g) :
    f.chars ++ r = g.chars ++ r' ↔ f.number = g.number ∧ r = r' := by
  rw [number, number, numberOfDigits_eq_iff f.isDigit g.isDigit h.length, chars, chars, h.blanks,
    h.sign]
  simp only [List.append_assoc, List.append_cancel_left_eq]
  constructor
  · exact fun heq => List.append_inj heq h.length
  · rintro ⟨hdigits, rfl⟩
    rw [hdigits]

theorem Alike.value_cases (h : f.Alike g) : (f.value = f.number ∧ g.value = g.number)
    ∨ f.value = -f.number ∧ g.value = -g.number := by
  by_cases hsign : g.sign = ['-']
  · simp [value, h.sign, hsign]
  · simp [value, h.sign, hsign]

end Figure

namespace Spelling

variable {w v : Spelling}

/-- Whether two spellings may differ in digits only. -/
structure Alike (w v : Spelling) : Prop where
  year : w.year.Alike v.year
  month : w.month.Alike v.month
  day : w.day.Alike v.day
  after : w.after = v.after

theorem alike_of_layout (h : layout w.chars = layout v.chars) : w.Alike v := by
  have hhyphen (r : List Char) : ∀ c ∈ ('-' :: r).head?, c.isDigit = false := by simp
  have hafter (w : Spelling) : ∀ c ∈ w.after, c.isDigit = false := fun c hc =>
    Figure.isDigit_eq_false_of_isBlank (w.isBlank_after c hc)
  have htail {r r' : List Char} (h : layout ('-' :: r) = layout ('-' :: r')) : layout r = layout r' :=
    (List.cons.inj h).2
  obtain ⟨hyear, h⟩ := Figure.alike_of_layout (hhyphen _) (hhyphen _) h
  obtain ⟨hmonth, h⟩ := Figure.alike_of_layout (hhyphen _) (hhyphen _) (htail h)
  obtain ⟨hday, h⟩ := Figure.alike_of_layout (fun c hc => hafter w c (List.mem_of_mem_head? hc))
    (fun c hc => hafter v c (List.mem_of_mem_head? hc)) (htail h)
  rw [Text.layout_eq_self (hafter w), Text.layout_eq_self (hafter v)] at h
  exact ⟨hyear, hmonth, hday, h⟩

theorem chars_lt_iff (h : w.Alike v) : w.chars < v.chars ↔ w.year.number < v.year.number
    ∨ w.year.number = v.year.number ∧ (w.month.number < v.month.number
      ∨ w.month.number = v.month.number ∧ w.day.number < v.day.number) := by
  simp only [chars, Figure.append_lt_iff h.year, Figure.append_lt_iff h.month,
    Figure.append_lt_iff h.day, List.cons_lt_cons_iff, lt_irrefl, true_and, false_or, h.after, and_false,
    or_false]

theorem chars_eq_iff (h : w.Alike v) : w.chars = v.chars ↔ w.year.number = v.year.number
    ∧ w.month.number = v.month.number ∧ w.day.number = v.day.number := by
  simp only [chars, Figure.append_eq_iff h.year, Figure.append_eq_iff h.month,
    Figure.append_eq_iff h.day, List.cons.injEq, true_and, h.after, and_true]

end Spelling

theorem Date.before_iff (d e : Date) : d.before e = true ↔ d.year < e.year
    ∨ d.year = e.year ∧ (d.month < e.month ∨ d.month = e.month ∧ d.day < e.day) := by
  simp [Date.before]

theorem exists_alike {a b : String} {d e : Date} (ha : dateOf? a = some d) (hb : dateOf? b = some e)
    (h : layout a.toList = layout b.toList) : ∃ w v : Spelling, w.Alike v ∧ w.date = d ∧ v.date = e
      ∧ (a = b ↔ w.chars = v.chars) ∧ (a < b ↔ w.chars < v.chars) := by
  obtain ⟨w, hw, rfl⟩ := exists_spelling ha
  obtain ⟨v, hv, rfl⟩ := exists_spelling hb
  refine ⟨w, v, Spelling.alike_of_layout (by rw [hw, hv, h]), rfl, rfl, ?_, ?_⟩
  · rw [hw, hv, String.toList_inj]
  · rw [hw, hv, String.lt_iff_toList_lt]

section

variable {a b : String} {d e : Date} (ha : dateOf? a = some d) (hb : dateOf? b = some e)
  (h : layout a.toList = layout b.toList)

include ha hb h

theorem eq_iff_of_layout : a = b ↔ d = e := by
  obtain ⟨w, v, halike, rfl, rfl, heq, -⟩ := exists_alike ha hb h
  rw [heq, Spelling.chars_eq_iff halike, Spelling.date, Spelling.date, Date.mk.injEq]
  have hvalues := halike.year.value_cases
  have hyear : w.year.value = v.year.value ↔ w.year.number = v.year.number := by omega
  rw [hyear]

/-- Dates that are laid out alike stand in their order as texts if no year is below zero. -/
theorem lt_iff_before_of_layout (hyears : d.year = e.year ∨ 0 ≤ d.year ∧ 0 ≤ e.year) :
    a < b ↔ d.before e = true := by
  obtain ⟨w, v, halike, rfl, rfl, -, hlt⟩ := exists_alike ha hb h
  rw [hlt, Spelling.chars_lt_iff halike, Date.before_iff]
  -- Behind a minus, years that are equal or not below zero can only be equal.
  have hvalues := halike.year.value_cases
  simp only [Spelling.date] at hyears ⊢
  omega

theorem lt_iff_after_of_layout (hbelow : d.year < 0 ∨ e.year < 0) (hne : d.year ≠ e.year) :
    a < b ↔ e.before d = true := by
  obtain ⟨w, v, halike, rfl, rfl, -, hlt⟩ := exists_alike ha hb h
  rw [hlt, Spelling.chars_lt_iff halike, Date.before_iff]
  have hvalues := halike.year.value_cases
  simp only [Spelling.date] at hbelow hne ⊢
  omega

end

end Calendar

end DocumentStore
