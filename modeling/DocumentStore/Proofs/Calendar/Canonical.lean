import DocumentStore.Proofs.Calendar.Spelling
import Mathlib

/-! Dates and times with all their digits in place. Main statement: such a text without an offset
is accepted just if the proleptic Gregorian calendar has the date and a day has the time, and white
space around a text does not matter. -/
namespace DocumentStore.Calendar

open Number (Digits)

/-- A number with just the digits that its part has. -/
structure Written (part : Part) where
  digits : List Char
  isDigit : Digits digits
  length_digits : digits.length = part.width

def Written.number {part : Part} (n : Written part) : ℕ := numberOfDigits n.digits

/-- Seconds, with a point and digits if there are digits after the point. -/
structure Seconds where
  second : Written .second
  places : List Char
  isDigit_places : Digits places

/-- A time of day after its separator. -/
structure Clock where
  separator : Char
  hour : Written .hour
  minute : Written .minute
  seconds : Option Seconds
  isSeparator : separator = 'T' ∨ separator = ' '

/-- A date, perhaps with a time of day. -/
structure Stamp where
  year : Written .year
  month : Written .month
  day : Written .day
  clock : Option Clock

def Seconds.placesChars (s : Seconds) : List Char :=
  if s.places = [] then [] else '.' :: s.places

def Seconds.chars (s : Seconds) : List Char := ':' :: (s.second.digits ++ s.placesChars)

namespace Clock

def minuteChars (c : Clock) : List Char := c.hour.digits ++ ':' :: c.minute.digits

def secondsChars (c : Clock) : List Char :=
  match c.seconds with
  | some s => s.chars
  | none => []

def chars (c : Clock) : List Char := c.separator :: (c.minuteChars ++ c.secondsChars)

/-- Whether a day has the time; any minute of a day may have a leap second. -/
structure IsReal (c : Clock) : Prop where
  hour : c.hour.number ≤ 23
  minute : c.minute.number ≤ 59
  second : ∀ s ∈ c.seconds, s.second.number ≤ 60

end Clock

namespace Stamp

def dateChars (w : Stamp) : List Char :=
  w.year.digits ++ '-' :: (w.month.digits ++ '-' :: w.day.digits)

def clockChars (w : Stamp) : List Char :=
  match w.clock with
  | some c => c.chars
  | none => []

def chars (w : Stamp) : List Char := w.dateChars ++ w.clockChars

def date (w : Stamp) : Date := ⟨w.year.number, w.month.number, w.day.number⟩

/-- Whether the proleptic Gregorian calendar has the date, and a day has the time, if any. -/
structure IsReal (w : Stamp) : Prop where
  date : ∃ d : Std.Time.PlainDate, d.year.toInt = w.year.number ∧ d.month.val = w.month.number
    ∧ d.day.val = w.day.number
  clock : ∀ c ∈ w.clock, c.IsReal

end Stamp

theorem isLeap_eq (y : Std.Time.Year.Offset) : y.isLeap = isLeap y.toInt := by
  have htmod (n : ℤ) : y.toInt.tmod n = 0 ↔ y.toInt % n = 0 := by
    rw [← Int.dvd_iff_tmod_eq_zero, Int.dvd_iff_emod_eq_zero]
  rw [Bool.eq_iff_iff]
  simp [Std.Time.Year.Offset.isLeap, isLeap, htmod]

theorem days_eq (y : Std.Time.Year.Offset) (month : Std.Time.Month.Ordinal) :
    (month.days y.isLeap).val = daysInMonth y.toInt month.val.toNat := by
  rw [isLeap_eq, daysInMonth]
  match month with
  | ⟨1, _⟩ | ⟨2, _⟩ | ⟨3, _⟩ | ⟨4, _⟩ | ⟨5, _⟩ | ⟨6, _⟩ | ⟨7, _⟩ | ⟨8, _⟩ | ⟨9, _⟩ | ⟨10, _⟩
  | ⟨11, _⟩ | ⟨12, _⟩ => cases isLeap y.toInt <;> rfl

theorem daysInMonth_le (y : ℤ) (month : ℕ) : daysInMonth y month ≤ 31 := by
  unfold daysInMonth
  split_ifs <;> decide

/-- A date in reach is valid just if the proleptic Gregorian calendar has it. -/
theorem valid_iff {y : ℤ} {month day : ℕ} (hfirst : firstYear ≤ y) (hlast : y ≤ lastYear) :
    Date.valid ⟨y, month, day⟩ = true ↔ ∃ d : Std.Time.PlainDate,
      d.year.toInt = y ∧ d.month.val = month ∧ d.day.val = day := by
  simp only [Date.valid, Bool.and_eq_true, decide_eq_true_eq, hfirst, hlast, true_and]
  constructor
  · rintro ⟨⟨⟨hm, hm'⟩, hd⟩, hd'⟩
    have hle := daysInMonth_le y month
    let m : Std.Time.Month.Ordinal := ⟨month, by omega, by omega⟩
    let d : Std.Time.Day.Ordinal := ⟨day, by omega, by omega⟩
    refine ⟨⟨.ofInt y, m, d, ?_⟩, rfl, rfl, rfl⟩
    show (day : ℤ) ≤ (m.days _).val
    rw [days_eq]
    exact Int.ofNat_le.mpr hd'
  · rintro ⟨⟨y, m, d, hvalid⟩, rfl, hm, hd⟩
    have hmonth := m.property
    have hday := d.property
    have hle : d.val ≤ (m.days y.isLeap).val := hvalid
    rw [days_eq] at hle
    simp only at hm hd ⊢
    rw [hm] at hmonth hle
    rw [hd] at hday hle
    rw [Int.toNat_natCast] at hle
    omega

variable {part : Part}

namespace Written

theorem number_lt (n : Written part) : n.number < 10 ^ part.width := by
  have h := Number.digitsValue_lt n.isDigit
  rwa [n.length_digits] at h

theorem digits_ne (n : Written part) : n.digits ≠ [] := by
  intro h
  have hlength := n.length_digits
  rw [h] at hlength
  cases part <;> cases hlength

theorem exists_digits (n : Written part) : ∃ d ds, n.digits = d :: ds ∧ d.isDigit = true := by
  obtain ⟨d, ds, hdigits⟩ := List.exists_cons_of_ne_nil n.digits_ne
  exact ⟨d, ds, hdigits, n.isDigit d (by simp [hdigits])⟩

theorem take_digits (n : Written part) (r : List Char) :
    (n.digits ++ r).take part.width = n.digits ∧ (n.digits ++ r).drop part.width = r := by
  rw [← n.length_digits]
  exact ⟨List.take_left, List.drop_left⟩

end Written

theorem skipBlanks_digits (n : Written part) (r : List Char) :
    skipBlanks (n.digits ++ r) = n.digits ++ r := by
  obtain ⟨d, ds, hdigits, hd⟩ := n.exists_digits
  simp [skipBlanks, hdigits, Text.isBlank_of_isDigit hd]

theorem readDigits_written (n : Written part) (r : List Char) :
    readDigits part.width (n.digits ++ r) = some (n.number, r) := by
  have hwhile : n.digits.takeWhile Char.isDigit = n.digits :=
    List.takeWhile_eq_self_iff.mpr n.isDigit
  simp only [readDigits, (n.take_digits r).1, hwhile]
  rw [if_neg (by simpa using n.digits_ne), n.length_digits, (n.take_digits r).2]
  rfl

theorem readLoose_written (n : Written part) (r : List Char) :
    readLoose part (n.digits ++ r) = some ((n.number : ℤ), r) := by
  obtain ⟨d, ds, hdigits, hd⟩ := n.exists_digits
  have hsign := Number.digit_ne_sign hd
  have hskip := skipBlanks_digits n r
  unfold readLoose
  split
  · rename_i h
    simp_all
  · rename_i h
    simp_all
  · rw [hskip, readDigits_written]
    rfl

theorem readExact_written (n : Written part) (r : List Char) :
    readExact part (n.digits ++ r) = some ((n.number : ℤ), r) := by
  have htake := n.take_digits r
  rw [readExact, htake.1, htake.2, if_pos ⟨n.length_digits, List.all_eq_true.mpr n.isDigit⟩]
  rfl

/-- Whether the rest of a pattern reads the rest of a text to its end, as a moment that exists. -/
def Accepts (m : Moment) (is : List Item) (cs : List Char) : Prop :=
  ∃ m', readItems m is cs = some (m', []) ∧ m'.valid = true

theorem isSome_readMoment {is : List Item} {cs : List Char} :
    (readMoment is cs).isSome = true ↔ Accepts {} is cs := by
  unfold readMoment Accepts
  split
  · rename_i m hm
    by_cases hvalid : m.valid = true <;> simp [hm, hvalid]
  · rename_i hnot
    simp only [Option.isSome_none, Bool.false_eq_true, false_iff]
    rintro ⟨m, hm, -⟩
    exact hnot m hm

section

variable {m m' : Moment} {i : Item} {is : List Item} {cs r : List Char} {c : Char}

theorem accepts_nil : Accepts m [] cs ↔ cs = [] ∧ m.valid = true := by
  simp only [Accepts, readItems, Option.some.injEq, Prod.mk.injEq]
  constructor
  · rintro ⟨m', ⟨rfl, hcs⟩, hvalid⟩
    exact ⟨hcs, hvalid⟩
  · rintro ⟨hcs, hvalid⟩
    exact ⟨m, ⟨rfl, hcs⟩, hvalid⟩

theorem accepts_of_read (h : i.read m cs = some (m', r)) :
    Accepts m (i :: is) cs ↔ Accepts m' is r := by
  rw [Accepts, readItems, h]
  rfl

theorem not_accepts_of_read (h : i.read m cs = none) : ¬Accepts m (i :: is) cs := by
  rw [Accepts, readItems, h]
  simp

theorem accepts_literal : Accepts m (.literal c :: is) (c :: r) ↔ Accepts m is r :=
  accepts_of_read (by simp [Item.read])

theorem accepts_written (hi : i = .loose part ∨ i = .exact part) (n : Written part) :
    Accepts m (i :: is) (n.digits ++ r)
      ↔ part.admits n.number = true ∧ Accepts (m.set part n.number) is r := by
  have hread : i.read m (n.digits ++ r) = assign m part (some ((n.number : ℤ), r)) := by
    rcases hi with rfl | rfl
    · rw [Item.read, readLoose_written]
    · rw [Item.read, readExact_written]
  by_cases hadmits : part.admits n.number = true
  · rw [accepts_of_read (by rw [hread, assign, if_pos hadmits])]
    simp [hadmits]
  · have hnot : ¬Accepts m (i :: is) (n.digits ++ r) :=
      not_accepts_of_read (by rw [hread, assign, if_neg hadmits])
    simp [hnot, hadmits]

theorem accepts_fraction (s : Seconds) :
    Accepts m (.fraction :: is) s.placesChars ↔ Accepts m is [] := by
  apply accepts_of_read
  unfold Seconds.placesChars
  split
  · rfl
  · rename_i hne
    have hnil : ∀ c ∈ ([] : List Char).head?, c.isDigit = false := by simp
    have hends := Text.takeWhile_append s.isDigit_places hnil
    rw [List.append_nil] at hends
    simp [Item.read, readAllDigits, hends.1, hends.2, hne]

end

def IsNumber (number : Part → Item) : Prop :=
  ∀ part, number part = .loose part ∨ number part = .exact part

theorem isNumber_loose : IsNumber .loose := fun _ => .inl rfl

theorem isNumber_exact : IsNumber .exact := fun _ => .inr rfl

def dateItems (number : Part → Item) : List Item :=
  [number .year, .literal '-', number .month, .literal '-', number .day]

def minuteItems (number : Part → Item) : List Item := [number .hour, .literal ':', number .minute]

def secondItems (number : Part → Item) : List Item := [.literal ':', number .second, .fraction]

def looseTails : List (List Item) :=
  [.literal 'T' :: (minuteItems .loose ++ (secondItems .loose ++ [.offset])),
    .blanks :: (minuteItems .loose ++ (secondItems .loose ++ [.offset])),
    .literal 'T' :: (minuteItems .loose ++ [.offset]),
    .literal 'T' :: (minuteItems .loose ++ (secondItems .loose ++ [])),
    .blanks :: (minuteItems .loose ++ (secondItems .loose ++ [])),
    .literal 'T' :: (minuteItems .loose ++ []),
    .blanks :: (minuteItems .loose ++ []),
    []]

def strictTail : List Item :=
  .oneOf ['t', 'T', ' '] :: (minuteItems .exact ++ (secondItems .exact ++ [.zone]))

theorem isoPatterns_eq : isoPatterns
    = (dateItems .exact ++ strictTail) :: looseTails.map (dateItems .loose ++ ·) := rfl

section

variable {number : Part → Item} (hnumber : IsNumber number) {m : Moment} {is : List Item}
  {r : List Char}

include hnumber

theorem accepts_date (w : Stamp) : Accepts {} (dateItems number ++ is) (w.dateChars ++ r)
    ↔ (1 ≤ w.month.number ∧ w.month.number ≤ 12) ∧ (1 ≤ w.day.number ∧ w.day.number ≤ 31)
      ∧ Accepts { date := w.date } is r := by
  have hyear : w.year.number < 10000 := w.year.number_lt
  have hadmits : Part.year.admits w.year.number = true := by
    simp only [Part.admits, Bool.and_eq_true, decide_eq_true_eq]
    omega
  simp only [dateItems, Stamp.dateChars, List.cons_append, List.nil_append, List.append_assoc,
    accepts_written (hnumber _), accepts_literal, hadmits, true_and]
  simp [Part.admits, Moment.set, Stamp.date, and_assoc]

theorem accepts_minutes (c : Clock) : Accepts m (minuteItems number ++ is) (c.minuteChars ++ r)
    ↔ c.hour.number ≤ 23 ∧ c.minute.number ≤ 59
      ∧ Accepts { m with hour := c.hour.number, minute := c.minute.number } is r := by
  simp only [minuteItems, Clock.minuteChars, List.cons_append, List.nil_append, List.append_assoc,
    accepts_written (hnumber _), accepts_literal]
  simp [Part.admits, Moment.set]

theorem accepts_seconds (s : Seconds) : Accepts m (secondItems number ++ is) s.chars
    ↔ s.second.number ≤ 60 ∧ Accepts { m with second := s.second.number } is [] := by
  simp only [secondItems, Seconds.chars, List.cons_append, List.nil_append, accepts_literal,
    accepts_written (hnumber _), accepts_fraction]
  simp [Part.admits, Moment.set]

theorem not_accepts_zoned {z : Item} (hz : z = .offset ∨ z = .zone) (c : Clock) :
    ¬Accepts m (secondItems number ++ [z]) c.secondsChars := by
  have hnil {m : Moment} : ¬Accepts m [z] [] := by
    rcases hz with rfl | rfl <;> exact not_accepts_of_read rfl
  unfold Clock.secondsChars
  split
  · rw [accepts_seconds hnumber]
    exact fun h => hnil h.2
  · exact not_accepts_of_read rfl

end

section

variable {m : Moment} {is : List Item}

theorem not_accepts_offset (c : Clock) : ¬Accepts m [.offset] c.secondsChars := by
  apply not_accepts_of_read
  unfold Clock.secondsChars
  split <;> rfl

theorem valid_of_offset (hm : m.offset = none) : m.valid = m.date.valid := by
  simp [Moment.valid, hm]

/-- The patterns with seconds and those without them have all endings between them. -/
theorem accepts_ending (hm : m.offset = none) (c : Clock) :
    (Accepts m (secondItems .loose ++ []) c.secondsChars ∨ Accepts m [] c.secondsChars)
      ↔ (∀ s ∈ c.seconds, s.second.number ≤ 60) ∧ m.date.valid = true := by
  unfold Clock.secondsChars
  cases c.seconds with
  | none =>
    have hnot : ¬Accepts m (secondItems .loose ++ []) [] := not_accepts_of_read rfl
    rw [or_iff_right hnot, accepts_nil, valid_of_offset hm]
    simp
  | some s =>
    have hnot : ¬Accepts m [] s.chars := by
      rw [accepts_nil]
      exact fun h => List.cons_ne_nil _ _ h.1
    rw [or_iff_left hnot, accepts_seconds isNumber_loose, accepts_nil]
    simp [valid_of_offset, hm]

theorem accepts_separator (c : Clock) : Accepts m (.oneOf ['t', 'T', ' '] :: is) c.chars
    ↔ Accepts m is (c.minuteChars ++ c.secondsChars) := by
  apply accepts_of_read
  rcases c.isSeparator with hT | hspace <;> simp [Clock.chars, Item.read, *]

theorem accepts_letter {c : Clock} (hT : c.separator = 'T') :
    Accepts m (.literal 'T' :: is) c.chars ↔ Accepts m is (c.minuteChars ++ c.secondsChars) := by
  apply accepts_of_read
  rw [Clock.chars, hT]
  rfl

theorem not_accepts_letter {c : Clock} (hspace : c.separator = ' ') :
    ¬Accepts m (.literal 'T' :: is) c.chars := by
  apply not_accepts_of_read
  rw [Clock.chars, hspace]
  rfl

theorem accepts_blanks {c : Clock} (hspace : c.separator = ' ') :
    Accepts m (.blanks :: is) c.chars ↔ Accepts m is (c.minuteChars ++ c.secondsChars) := by
  have hskip : skipBlanks c.chars = c.minuteChars ++ c.secondsChars := by
    rw [Clock.chars, hspace, Clock.minuteChars, List.append_assoc]
    exact skipBlanks_digits c.hour _
  exact accepts_of_read (by rw [Item.read, hskip])

theorem not_accepts_blanks {c : Clock} (hT : c.separator = 'T') :
    ¬Accepts m (.blanks :: (minuteItems .loose ++ is)) c.chars := by
  have hread : Item.blanks.read m c.chars = some (m, 'T' :: (c.minuteChars ++ c.secondsChars)) := by
    rw [Clock.chars, hT]
    rfl
  rw [accepts_of_read hread]
  exact not_accepts_of_read rfl

/-- With a time of day, a text is read by the patterns that have the separator of the time, and
seconds just if the time has them. -/
theorem accepts_clock (hm : m.offset = none) (c : Clock) :
    (∃ is ∈ strictTail :: looseTails, Accepts m is c.chars) ↔ c.IsReal ∧ m.date.valid = true := by
  have hending (hour minute : ℕ) := @accepts_ending { m with hour := hour, minute := minute } hm c
  have hreal : (c.hour.number ≤ 23 ∧ c.minute.number ≤ 59
      ∧ (∀ s ∈ c.seconds, s.second.number ≤ 60) ∧ m.date.valid = true)
      ↔ c.IsReal ∧ m.date.valid = true :=
    ⟨fun ⟨hhour, hminute, hsecond, hdate⟩ => ⟨⟨hhour, hminute, hsecond⟩, hdate⟩,
      fun ⟨h, hdate⟩ => ⟨h.hour, h.minute, h.second, hdate⟩⟩
  rw [← hreal, ← hending c.hour.number c.minute.number]
  have hstrict {m : Moment} : ¬Accepts m (secondItems .exact ++ [.zone]) c.secondsChars :=
    not_accepts_zoned isNumber_exact (.inr rfl) c
  have hzoned {m : Moment} : ¬Accepts m (secondItems .loose ++ [.offset]) c.secondsChars :=
    not_accepts_zoned isNumber_loose (.inl rfl) c
  have hnil : ¬Accepts m [] c.chars := fun h => List.cons_ne_nil _ _ (accepts_nil.mp h).1
  simp only [strictTail, looseTails, List.mem_cons, List.not_mem_nil, or_false, exists_eq_or_imp,
    exists_eq_left, accepts_separator, hnil, accepts_minutes isNumber_exact, hstrict, and_false,
    false_or]
  rcases c.isSeparator with hT | hspace
  · simp only [accepts_letter hT, not_accepts_blanks hT, accepts_minutes isNumber_loose, hzoned,
      not_accepts_offset c, and_false, false_or, or_false, and_or_left]
  · simp only [not_accepts_letter hspace, accepts_blanks hspace, accepts_minutes isNumber_loose,
      hzoned, and_false, false_or, and_or_left]

theorem accepts_bare (hm : m.offset = none) :
    (∃ is ∈ strictTail :: looseTails, Accepts m is []) ↔ m.date.valid = true := by
  have hone (is : List Item) : ¬Accepts m (.oneOf ['t', 'T', ' '] :: is) [] :=
    not_accepts_of_read rfl
  have hliteral (is : List Item) : ¬Accepts m (.literal 'T' :: is) [] := not_accepts_of_read rfl
  have hblanks (is : List Item) : ¬Accepts m (.blanks :: (minuteItems .loose ++ is)) [] := by
    have hread : Item.blanks.read m [] = some (m, []) := rfl
    rw [accepts_of_read hread]
    exact not_accepts_of_read rfl
  simp only [strictTail, looseTails, List.mem_cons, List.not_mem_nil, or_false, exists_eq_or_imp,
    exists_eq_left, hone, hliteral, hblanks, false_or]
  rw [accepts_nil, valid_of_offset hm]
  simp

end

theorem isIso_iff {s : String} : isIso s = true ↔ Text.trimChars s.toList ≠ []
    ∧ ∃ is ∈ isoPatterns, Accepts {} is (Text.trimChars s.toList) := by
  simp [isIso, isSome_readMoment]

def EndsInDigit (cs : List Char) : Prop := ∃ front d, cs = front ++ [d] ∧ d.isDigit = true

theorem EndsInDigit.append {cs : List Char} (h : EndsInDigit cs) (front : List Char) :
    EndsInDigit (front ++ cs) := by
  obtain ⟨cs, d, rfl, hd⟩ := h
  exact ⟨front ++ cs, d, (List.append_assoc _ _ _).symm, hd⟩

theorem EndsInDigit.cons {cs : List Char} (h : EndsInDigit cs) (c : Char) : EndsInDigit (c :: cs) :=
  h.append [c]

theorem endsInDigit_digits {ds : List Char} (hds : Digits ds) (hne : ds ≠ []) : EndsInDigit ds :=
  ⟨ds.dropLast, ds.getLast hne, (List.dropLast_append_getLast hne).symm,
    hds _ (List.getLast_mem hne)⟩

theorem Written.endsInDigit (n : Written part) : EndsInDigit n.digits :=
  endsInDigit_digits n.isDigit n.digits_ne

theorem Seconds.endsInDigit (s : Seconds) : EndsInDigit s.chars := by
  unfold Seconds.chars Seconds.placesChars
  split
  · rw [List.append_nil]
    exact s.second.endsInDigit.cons _
  · rename_i hne
    exact (((endsInDigit_digits s.isDigit_places hne).cons _).append _).cons _

theorem Clock.endsInDigit (c : Clock) : EndsInDigit c.chars := by
  unfold Clock.chars Clock.minuteChars Clock.secondsChars
  apply EndsInDigit.cons
  split
  · rename_i s _
    exact s.endsInDigit.append _
  · rw [List.append_nil]
    exact (c.minute.endsInDigit.cons _).append _

namespace Stamp

variable (w : Stamp)

theorem endsInDigit : EndsInDigit w.chars := by
  unfold Stamp.chars Stamp.dateChars Stamp.clockChars
  split
  · rename_i c _
    exact c.endsInDigit.append _
  · rw [List.append_nil]
    exact (((w.day.endsInDigit.cons _).append _).cons _).append _

theorem chars_ne : w.chars ≠ [] := by
  obtain ⟨front, d, hchars, -⟩ := w.endsInDigit
  rw [hchars]
  simp

theorem trimChars_chars : Text.trimChars w.chars = w.chars := by
  apply Text.trimChars_eq
  · obtain ⟨d, ds, hdigits, hd⟩ := w.year.exists_digits
    simp [chars, dateChars, hdigits, Text.isBlank_of_isDigit hd]
  · obtain ⟨front, d, hchars, hd⟩ := w.endsInDigit
    simp [hchars, Text.isBlank_of_isDigit hd]

theorem accepts_iso_iff : (∃ is ∈ isoPatterns, Accepts {} is w.chars)
    ↔ (1 ≤ w.month.number ∧ w.month.number ≤ 12) ∧ (1 ≤ w.day.number ∧ w.day.number ≤ 31)
      ∧ ∃ is ∈ strictTail :: looseTails, Accepts { date := w.date } is w.clockChars := by
  rw [isoPatterns_eq, Stamp.chars]
  simp only [List.mem_cons, exists_eq_or_imp, List.mem_map, exists_exists_and_eq_and,
    accepts_date isNumber_exact, accepts_date isNumber_loose]
  constructor
  · rintro (⟨hmonth, hday, h⟩ | ⟨is, his, hmonth, hday, h⟩)
    · exact ⟨hmonth, hday, .inl h⟩
    · exact ⟨hmonth, hday, .inr ⟨is, his, h⟩⟩
  · rintro ⟨hmonth, hday, h | ⟨is, his, h⟩⟩
    · exact .inl ⟨hmonth, hday, h⟩
    · exact .inr ⟨is, his, hmonth, hday, h⟩

/-- The patterns accept a text just if it has a day of the calendar and a time of a day. -/
theorem accepts_tails_iff :
    (∃ is ∈ strictTail :: looseTails, Accepts { date := w.date } is w.clockChars)
      ↔ (∀ c ∈ w.clock, c.IsReal) ∧ w.date.valid = true := by
  unfold clockChars
  cases w.clock with
  | some c =>
    rw [accepts_clock rfl]
    simp
  | none =>
    rw [accepts_bare rfl]
    simp

theorem valid_date_iff : w.date.valid = true ↔ ∃ d : Std.Time.PlainDate,
    d.year.toInt = w.year.number ∧ d.month.val = w.month.number ∧ d.day.val = w.day.number := by
  have hyear : w.year.number < 10000 := w.year.number_lt
  have hfirst : firstYear ≤ w.year.number := by
    rw [firstYear]
    omega
  have hlast : (w.year.number : ℤ) ≤ lastYear := by
    rw [lastYear]
    omega
  exact valid_iff hfirst hlast

/-- A date and time with all its digits in place is accepted just if it is real. -/
theorem isIso_chars : isIso (String.ofList w.chars) = true ↔ w.IsReal := by
  rw [isIso_iff, String.toList_ofList, trimChars_chars, accepts_iso_iff, accepts_tails_iff]
  constructor
  · rintro ⟨-, -, -, hclock, hdate⟩
    exact ⟨w.valid_date_iff.mp hdate, hclock⟩
  · intro h
    obtain ⟨d, -, hmonth, hday⟩ := h.date
    have hmonths := d.month.property
    have hdays := d.day.property
    rw [hmonth] at hmonths
    rw [hday] at hdays
    exact ⟨w.chars_ne, by omega, by omega, h.clock, w.valid_date_iff.mpr h.date⟩

end Stamp

/-- Texts with all their digits in place, and without an offset, are accepted just if the calendar
has their date and a day has their time; and white space around any text does not matter. -/
theorem isIso_stamp :
    (∀ w : Stamp, isIso (String.ofList w.chars) = true ↔ w.IsReal)
      ∧ ∀ before s after : String, (∀ c ∈ before.toList, Text.isBlank c = true) →
        (∀ c ∈ after.toList, Text.isBlank c = true) → isIso (before ++ s ++ after) = isIso s := by
  refine ⟨fun w => w.isIso_chars, fun before s after hbefore hafter => ?_⟩
  rw [Bool.eq_iff_iff, isIso_iff, isIso_iff, String.toList_append, String.toList_append,
    List.append_assoc, Text.trimChars_surrounded _ hbefore hafter]

/-- The 29th of February of a year, with a leap second that has places after its point. -/
def leapStamp (year : Written .year) : Stamp where
  year := year
  month := ⟨['0', '2'], List.all_eq_true.mp rfl, rfl⟩
  day := ⟨['2', '9'], List.all_eq_true.mp rfl, rfl⟩
  clock := some {
    separator := 'T'
    hour := ⟨['2', '3'], List.all_eq_true.mp rfl, rfl⟩
    minute := ⟨['5', '9'], List.all_eq_true.mp rfl, rfl⟩
    seconds := some {
      second := ⟨['6', '0'], List.all_eq_true.mp rfl, rfl⟩
      places := ['1', '2', '5']
      isDigit_places := List.all_eq_true.mp rfl }
    isSeparator := .inl rfl }

def yearZero : Written .year := ⟨['0', '0', '0', '0'], List.all_eq_true.mp rfl, rfl⟩

def yearNineteenHundred : Written .year := ⟨['1', '9', '0', '0'], List.all_eq_true.mp rfl, rfl⟩

/-- The year 0000 has a leap day, and the year 1900 has none. -/
theorem isIso_leap_day :
    isIso "0000-02-29T23:59:60.125" = true ∧ isIso "1900-02-29T23:59:60.125" = false
      ∧ isIso " \u20031900-02-29T23:59:60.125\n" = false := by
  have hzero : String.ofList (leapStamp yearZero).chars = "0000-02-29T23:59:60.125" := by decide
  have hnineteen :
      String.ofList (leapStamp yearNineteenHundred).chars = "1900-02-29T23:59:60.125" := by decide
  have hreal : (leapStamp yearZero).IsReal := by
    constructor
    · exact ⟨⟨.ofInt 0, 2, 29, by decide⟩, rfl, rfl, rfl⟩
    · rintro c ⟨⟩
      refine ⟨by decide, by decide, ?_⟩
      rintro s ⟨⟩
      decide
  have hnot : ¬(leapStamp yearNineteenHundred).IsReal := by
    intro h
    exact absurd ((Stamp.valid_date_iff _).mpr h.date) (by decide)
  rw [← hzero, ← hnineteen]
  have hrejected : isIso (String.ofList (leapStamp yearNineteenHundred).chars) = false :=
    Bool.eq_false_iff.mpr fun h => hnot ((isIso_stamp.1 _).mp h)
  refine ⟨(isIso_stamp.1 _).mpr hreal, hrejected, ?_⟩
  have hblanks := isIso_stamp.2 " \u2003" "1900-02-29T23:59:60.125" "\n"
    (List.all_eq_true.mp (by decide)) (List.all_eq_true.mp (by decide))
  rw [← hnineteen, hrejected] at hblanks
  exact hblanks

end DocumentStore.Calendar
