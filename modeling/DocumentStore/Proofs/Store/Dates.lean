import DocumentStore.Proofs.Calendar.Chronology
import DocumentStore.Proofs.Store.Kinds

/-! Filters by dates. A date in a filter is compared with stored texts as the text that it is,
whatever day it denotes. Main statement: by a bare date, a filter finds the texts that stand before
it as texts; these are the earlier dates if they are laid out like it and no year is below zero. -/
namespace DocumentStore

open Calendar (dateOf?)

theorem Filter.checkOrderable_of_dateOf? {b : String} {e : Calendar.Date} (h : dateOf? b = some e) :
    checkOrderable (.string b) = .ok () := by
  obtain ⟨m, hread, -⟩ := Option.map_eq_some_iff.mp h
  have hne : Text.trimChars b.toList ≠ [] := by
    intro hempty
    rw [hempty] at hread
    cases hread
  have hiso : Calendar.isIso b = true := by
    simp [Calendar.isIso, Calendar.isoPatterns, hne, hread]
  exact if_pos hiso

theorem Document.standing_string {d : Document} {keys : List String} {a : String}
    (ha : d.at? keys = some (.string a)) (b : String) :
    d.standing (.path keys) (.string b) = some (Ord.compare a b) :=
  standing_of_at? ha two_ne_zero _

/-- By a bare date, a filter finds texts by their order as texts. Among dates that are laid out
alike, equal texts are equal dates, and smaller texts are earlier dates unless a year is below zero;
then they are later ones if the years differ. -/
theorem History.selects_dates {cs : List Config} {docs : List Document} {s : Store}
    (h : History cs docs s) {p : String} {keys : List String}
    (hp : Field.ofText p = .ok (.path keys)) {b : String} {e : Calendar.Date}
    (hb : dateOf? b = some e) :
    (s.Selects docs (.comparison ⟨p, .less, .string b⟩) fun d =>
        d.standing (.path keys) (.string b) == some .lt)
      ∧ (s.Selects docs (.comparison ⟨p, .equal, .string b⟩) fun d =>
        d.standing (.path keys) (.string b) == some .eq)
      ∧ ∀ (d : Document) a, d.at? keys = some (.string a) →
        (d.standing (.path keys) (.string b) = some .lt ↔ a < b)
        ∧ (d.standing (.path keys) (.string b) = some .eq ↔ a = b)
        ∧ ∀ date, dateOf? a = some date → Text.layout a.toList = Text.layout b.toList →
          (a = b ↔ date = e)
          ∧ (date.year = e.year ∨ 0 ≤ date.year ∧ 0 ≤ e.year → (a < b ↔ date.before e = true))
          ∧ (date.year < 0 ∨ e.year < 0 → date.year ≠ e.year →
            (a < b ↔ e.before date = true)) := by
  refine ⟨h.selects_less hp nofun (Filter.checkOrderable_of_dateOf? hb), h.selects_same hp nofun, ?_⟩
  intro d a ha
  refine ⟨?_, ?_, ?_⟩
  · rw [Document.standing_string ha, Option.some_inj, compare_lt_iff_lt]
  · rw [Document.standing_string ha, Option.some_inj, compare_eq_iff_eq]
  · intro date hdate hlayout
    exact ⟨Calendar.eq_iff_of_layout hdate hb hlayout,
      Calendar.lt_iff_before_of_layout hdate hb hlayout,
      Calendar.lt_iff_after_of_layout hdate hb hlayout⟩

/-- Before January 6 is January 5 in the same layout, but not January 5 without its zeros. -/
theorem History.selects_dates_padded :
    ∃ s docs, History [{}] docs s
      ∧ docs = [{ id := "a", metadata := [("d", .string "2020-01-05")] },
        { id := "b", metadata := [("d", .string "2020-1-5")] }]
      ∧ Field.ofText "meta.d" = .ok (.path ["d"])
      ∧ dateOf? "2020-01-06" = some ⟨2020, 1, 6⟩ ∧ dateOf? "2020-01-05" = some ⟨2020, 1, 5⟩
      ∧ s.filter (some (.comparison ⟨"meta.d", .less, .string "2020-01-06"⟩))
        = .ok [{ id := "a", metadata := [("d", .string "2020-01-05")] }]
      ∧ ("2020-01-05" < "2020-01-06" ↔ Calendar.Date.before ⟨2020, 1, 5⟩ ⟨2020, 1, 6⟩ = true) := by
  have h₀ := @History.created {} {} _ rfl rfl
  have h := @History.written _ _ [{ id := "a", metadata := [("d", .string "2020-01-05")] },
    { id := "b", metadata := [("d", .string "2020-1-5")] }] _ _ .fail _ h₀ rfl
  have hp : Field.ofText "meta.d" = .ok (.path ["d"]) := rfl
  have hgiven : dateOf? "2020-01-06" = some ⟨2020, 1, 6⟩ := by decide +kernel
  have hstored : dateOf? "2020-01-05" = some ⟨2020, 1, 5⟩ := by decide +kernel
  obtain ⟨hbelow, -, hmeaning⟩ := h.selects_dates hp hgiven
  obtain ⟨-, -, halike⟩ := hmeaning { id := "a", metadata := [("d", .string "2020-01-05")] } _ rfl
  refine ⟨_, _, h, rfl, hp, hgiven, hstored, hbelow.filter_eq (by decide) (by decide), ?_⟩
  exact (halike _ hstored (by decide)).2.1 (by decide)

/-- One spelling of a date is not found by another spelling, and not by a later date. -/
theorem History.dates_not_selected :
    ∃ s d, History [{}] [d] s ∧ d.at? ["d"] = some (.string "2020-1-5")
      ∧ dateOf? "2020-1-5" = some ⟨2020, 1, 5⟩ ∧ dateOf? "2020-01-05" = some ⟨2020, 1, 5⟩
      ∧ dateOf? "2020-01-06" = some ⟨2020, 1, 6⟩
      ∧ Field.ofText "meta.d" = .ok (.path ["d"])
      ∧ s.filter (some (.comparison ⟨"meta.d", .equal, .string "2020-01-05"⟩)) = .ok []
      ∧ s.filter (some (.comparison ⟨"meta.d", .less, .string "2020-01-06"⟩)) = .ok [] := by
  have h₀ := @History.created {} {} _ rfl rfl
  have h := @History.written _ _ [{ id := "a", metadata := [("d", .string "2020-1-5")] }] _ _
    .fail _ h₀ rfl
  have hp : Field.ofText "meta.d" = .ok (.path ["d"]) := rfl
  have hgiven : dateOf? "2020-01-06" = some ⟨2020, 1, 6⟩ := by decide +kernel
  have hbelow := h.selects_less hp (v := .string "2020-01-06") nofun
    (Filter.checkOrderable_of_dateOf? hgiven)
  refine ⟨_, _, h, rfl, by decide +kernel, by decide +kernel, hgiven, hp, ?_, ?_⟩
  · exact (h.selects_same hp (v := .string "2020-01-05") nofun).filter_eq (by decide) (by decide)
  · exact hbelow.filter_eq (by decide) (by decide)

end DocumentStore
