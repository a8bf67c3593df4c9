import DocumentStore.Proofs.Store.Comparing

/-! Order across kinds of values. A filter looks at the kind of the value that it is given, never at
the kinds of the values that are stored. Main statement: what stands below a number is a number, but
whatever has a text stands above every number; what stands above a date has a text, but every number
stands below every date. -/
namespace DocumentStore

/-- The text as which a value is ordered: a list or a mapping is ordered as its compact text. -/
def Json.orderedText? : Json → Option String
  | .string t => some t
  | .array items => some (Json.array items).text
  | .object fields => some (Json.object fields).text
  | _ => none

theorem Json.isNumeric_of_text {v : Json} {t : String} (h : v.orderedText? = some t) :
    v.isNumeric = false := by
  cases v with
  | null | bool | integer | real => cases h
  | string | array | object => rfl

namespace Cell

theorem rank_of_isNumeric {v : Json} (h : v.isNumeric = true) : (ofJson v).rank = 1 := by
  cases v with
  | bool b => rfl
  | integer n =>
    rw [ofJson, ofInt]
    split <;> rfl
  | real x => rfl
  | _ => cases h

theorem ofStored_of_isNumeric {v : Json} (h : v.isNumeric = true) : ofStored v = ofJson v := by
  cases v with
  | real x => exact if_pos h
  | _ => rfl

theorem ofStored_of_text {v : Json} {t : String} (h : v.orderedText? = some t) :
    ofStored v = .text t := by
  cases v with
  | string | array | object => exact congrArg _ (Option.some.inj h)
  | _ => cases h

theorem ofStored_of_neither {v : Json} (hnumber : v.isNumeric = false)
    (htext : v.orderedText? = none) : ofStored v = .null := by
  cases v with
  | null => rfl
  | real x => exact if_neg (Bool.eq_false_iff.mp hnumber)
  | bool | integer => cases hnumber
  | string | array | object => cases htext

end Cell

namespace Document

def at? (d : Document) (keys : List String) : Option Json := (Json.object d.metadata).follow keys

theorem standing_of_at? {d : Document} {keys : List String} {x : Json} (hx : d.at? keys = some x)
    (hrank : (Cell.ofStored x).rank ≠ 0) (v : Json) :
    d.standing (.path keys) v = some ((Cell.ofStored x).compare (.ofJson v)) := by
  have hvalue : d.value (.path keys) = Cell.ofStored x := by
    rw [at?] at hx
    rw [value, hx]
    rfl
  have hnull : (Cell.ofStored x).isNull = false :=
    Bool.eq_false_iff.mpr (mt Cell.isNull_iff_rank.mp hrank)
  rw [standing, hvalue, hnull]
  rfl

theorem standing_eq_none_of_at? {d : Document} {keys : List String}
    (h : ∀ x, d.at? keys = some x → Cell.ofStored x = .null) (v : Json) :
    d.standing (.path keys) v = none := by
  rw [standing_eq_none, value]
  cases hx : (Json.object d.metadata).follow keys with
  | none => rfl
  | some x => rw [Option.map_some, Option.getD_some, h x hx]; rfl

variable (d : Document) (keys : List String) (v : Json) (admits : Ordering → Bool)

theorem any_standing : (d.standing (.path keys) v).any admits = (d.at? keys).any fun x =>
    x.isNumeric && admits ((Cell.ofJson x).compare (.ofJson v))
      || x.orderedText?.any fun t => admits ((Cell.text t).compare (.ofJson v)) := by
  cases hx : d.at? keys with
  | none =>
    rw [standing_eq_none_of_at? (by simp [hx])]
    rfl
  | some x =>
    rw [Option.any_some]
    -- What has neither a text nor a number, a null, has no standing.
    cases htext : x.orderedText? with
    | some t =>
      have hcell := Cell.ofStored_of_text htext
      rw [standing_of_at? hx (by simp [hcell, Cell.rank]), hcell, Json.isNumeric_of_text htext]
      simp
    | none =>
      cases hnumber : x.isNumeric with
      | true =>
        have hcell := Cell.ofStored_of_isNumeric hnumber
        rw [standing_of_at? hx (by simp [hcell, Cell.rank_of_isNumeric hnumber]), hcell]
        simp
      | false =>
        rw [standing_eq_none_of_at? (by simpa [hx] using Cell.ofStored_of_neither hnumber htext)]
        simp

theorem any_standing_number (hv : v.isNumeric = true) :
    (d.standing (.path keys) v).any admits = (d.at? keys).any fun x =>
      x.isNumeric && admits ((Cell.ofJson x).compare (.ofJson v))
        || x.orderedText?.isSome && admits .gt := by
  have hgt (t : String) : (Cell.text t).compare (.ofJson v) = .gt :=
    Cell.compare_of_rank_gt (by rw [Cell.rank_of_isNumeric hv]; exact one_lt_two)
  rw [any_standing]
  congr 1
  funext x
  simp only [hgt]
  cases x.orderedText? <;> rfl

theorem any_standing_string (w : String) :
    (d.standing (.path keys) (.string w)).any admits = (d.at? keys).any fun x =>
      x.isNumeric && admits .lt || x.orderedText?.any fun t => admits (Ord.compare t w) := by
  rw [any_standing]
  congr 1
  funext x
  cases hnumber : x.isNumeric with
  | true =>
    have hlt : (Cell.ofJson x).compare (.ofJson (.string w)) = .lt :=
      Cell.compare_of_rank_lt (by rw [Cell.rank_of_isNumeric hnumber]; exact one_lt_two)
    rw [hlt]
    rfl
  | false => rfl

end Document

namespace ComparisonOperator

variable {o : ComparisonOperator} (ho : o.isOrdering = true)

include ho

theorem admits_gt : o.admits .gt = decide (o = .greater ∨ o = .greaterOrEqual) := by
  cases o with
  | greater | greaterOrEqual | less | lessOrEqual => rfl
  | _ => cases ho

theorem admits_lt : o.admits .lt = decide (o = .less ∨ o = .lessOrEqual) := by
  cases o with
  | greater | greaterOrEqual | less | lessOrEqual => rfl
  | _ => cases ho

end ComparisonOperator

/-- By a number, a filter for what is smaller or at most equal finds numbers only, and one for what
is greater or at least equal finds every text, list and mapping too. By a date, a filter finds what
has a text, and besides every number if it is for what is smaller or at most equal. Neither finds a
document without a value. -/
theorem History.selects_across_kinds {cs : List Config} {docs : List Document} {s : Store}
    (h : History cs docs s) {p : String} {keys : List String}
    (hp : Field.ofText p = .ok (.path keys)) {o : ComparisonOperator} (ho : o.isOrdering = true) :
    (∀ v, v.isNumeric = true →
      s.Selects docs (.comparison ⟨p, o, v⟩) fun d => (d.at? keys).any fun x =>
        x.isNumeric && o.admits ((Cell.ofJson x).compare (.ofJson v))
          || x.orderedText?.isSome && decide (o = .greater ∨ o = .greaterOrEqual))
    ∧ ∀ w, Calendar.isIso w = true →
      s.Selects docs (.comparison ⟨p, o, .string w⟩) fun d => (d.at? keys).any fun x =>
        x.isNumeric && decide (o = .less ∨ o = .lessOrEqual)
          || x.orderedText?.any fun t => o.admits (Ord.compare t w) := by
  constructor
  · intro v hv
    obtain ⟨hnull, hcheck⟩ := Filter.orderable_of_isNumeric hv
    have hselects := h.selects_ordering hp ho hnull hcheck
    simpa only [Document.any_standing_number _ _ _ _ hv, ComparisonOperator.admits_gt ho] using hselects
  · intro w hw
    have hselects := h.selects_ordering hp ho (v := .string w) nofun (if_pos hw)
    simpa only [Document.any_standing_string, ComparisonOperator.admits_lt ho] using hselects

/-- Above 5 are the text and the list, though not the number 2, the null and the missing value;
below a date are the number and a date that comes before. -/
theorem History.selects_across_kinds_mixed :
    ∃ s docs, History [{}] docs s
      ∧ docs = [{ id := "a", metadata := [("n", .integer 2)] },
        { id := "b", metadata := [("n", .string "1999-12-31")] },
        { id := "c", metadata := [("n", .array [.integer 1])] },
        { id := "d", metadata := [("n", .null)] }, { id := "e" }]
      ∧ Field.ofText "meta.n" = .ok (.path ["n"])
      ∧ s.filter (some (.comparison ⟨"meta.n", .greater, .integer 5⟩))
        = .ok [{ id := "b", metadata := [("n", .string "1999-12-31")] },
          { id := "c", metadata := [("n", .array [.integer 1])] }]
      ∧ s.filter (some (.comparison ⟨"meta.n", .less, .integer 5⟩))
        = .ok [{ id := "a", metadata := [("n", .integer 2)] }]
      ∧ s.filter (some (.comparison ⟨"meta.n", .less, .string "2000-01-01"⟩))
        = .ok [{ id := "a", metadata := [("n", .integer 2)] },
          { id := "b", metadata := [("n", .string "1999-12-31")] }] := by
  have h₀ := @History.created {} {} _ rfl rfl
  have h := @History.written _ _ [{ id := "a", metadata := [("n", .integer 2)] },
    { id := "b", metadata := [("n", .string "1999-12-31")] },
    { id := "c", metadata := [("n", .array [.integer 1])] },
    { id := "d", metadata := [("n", .null)] }, { id := "e" }] _ _ .fail _ h₀ rfl
  have hp : Field.ofText "meta.n" = .ok (.path ["n"]) := rfl
  have hdate : Calendar.isIso "2000-01-01" = true := by decide +kernel
  refine ⟨_, _, h, rfl, hp, ?_, ?_, ?_⟩
  · exact ((h.selects_across_kinds hp (o := .greater) rfl).1 (.integer 5) rfl).filter_eq
      (by decide) (by decide)
  · exact ((h.selects_across_kinds hp (o := .less) rfl).1 (.integer 5) rfl).filter_eq
      (by decide) (by decide)
  · exact ((h.selects_across_kinds hp (o := .less) rfl).2 _ hdate).filter_eq (by decide) (by decide)

/-- A text is found above a number, a number below a date and a list above a date. -/
theorem History.other_kinds_selected :
    ∃ s a b c, History [{}] [a, b, c] s
      ∧ a.at? ["n"] = some (.string "x") ∧ b.at? ["n"] = some (.integer 7)
      ∧ c.at? ["n"] = some (.array [.integer 7])
      ∧ Field.ofText "meta.n" = .ok (.path ["n"])
      ∧ s.filter (some (.comparison ⟨"meta.n", .greater, .integer 9⟩)) = .ok [a, c]
      ∧ s.filter (some (.comparison ⟨"meta.n", .less, .string "2020-01-01"⟩)) = .ok [b]
      ∧ s.filter (some (.comparison ⟨"meta.n", .greater, .string "2020-01-01"⟩)) = .ok [a, c] := by
  have h₀ := @History.created {} {} _ rfl rfl
  have h := @History.written _ _ [{ id := "a", metadata := [("n", .string "x")] },
    { id := "b", metadata := [("n", .integer 7)] },
    { id := "c", metadata := [("n", .array [.integer 7])] }] _ _ .fail _ h₀ rfl
  have hp : Field.ofText "meta.n" = .ok (.path ["n"]) := rfl
  have hdate : Filter.checkOrderable (.string "2020-01-01") = .ok () := by decide +kernel
  refine ⟨_, _, _, _, h, rfl, rfl, rfl, hp, ?_, ?_, ?_⟩
  · exact (h.selects_ordering hp (o := .greater) rfl (by decide) rfl).filter_eq (by decide) (by decide)
  · exact (h.selects_ordering hp (o := .less) rfl (by decide) hdate).filter_eq (by decide) (by decide)
  · exact (h.selects_ordering hp (o := .greater) rfl (by decide) hdate).filter_eq
      (by decide) (by decide)

end DocumentStore
