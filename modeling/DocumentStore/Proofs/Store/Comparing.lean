import DocumentStore.Proofs.Filter.CellOrder
import DocumentStore.Proofs.Json.StrictText
import DocumentStore.Proofs.Store.Membership

/-! Comparisons of one field with one value. Main statements: the operators agree on how a
document's value stands to the value that it is compared with, so that exactly one of below, equal
and above is true of a value that is not null; and a member of a list is what equals one of its
items. -/
namespace DocumentStore

/-- How the value of a field stands to a value that it is compared with, unless it is null. -/
def Document.standing (d : Document) (field : Field) (v : Json) : Option Ordering :=
  if (d.value field).isNull then none
  else some ((d.value field).compare (field.affinity.convert (.ofJson v)))

namespace Cell

theorem isNull_ofInt (n : ℤ) : (ofInt n).isNull = false := by
  unfold ofInt
  split <;> rfl

theorem isNull_ofNumeral (negative : Bool) (n : Number.Numeral) :
    (ofNumeral negative n).isNull = false := by
  unfold ofNumeral
  split
  · exact isNull_ofInt _
  · rfl

theorem isNull_ofJson (v : Json) : (ofJson v).isNull = decide (v = .null) := by
  cases v with
  | integer n => simp [ofJson, isNull_ofInt]
  | null => rfl
  | _ => simp [ofJson, isNull]

theorem isNull_toText (x : Cell) : x.toText.isNull = x.isNull := by cases x <;> rfl

theorem isNull_toNumber (x : Cell) : x.toNumber.isNull = x.isNull := by
  cases x with
  | text s =>
    simp only [toNumber, readNumber]
    cases Number.Numeral.read (Number.readSign (s.toList.dropWhile isNumeralSpace)).2 with
    | none => rfl
    | some p =>
      simp only [Option.map_some]
      split
      · exact isNull_ofNumeral _ _
      · rfl
  | _ => rfl

end Cell

theorem Affinity.isNull_convert (a : Affinity) (x : Cell) : (a.convert x).isNull = x.isNull := by
  cases a with
  | text => exact x.isNull_toText
  | real => exact x.isNull_toNumber
  | none => rfl

def ComparisonOperator.admits : ComparisonOperator → Ordering → Bool
  | .equal => (·.isEq)
  | .greater => (·.isGT)
  | .greaterOrEqual => (·.isGE)
  | .less => (·.isLT)
  | .lessOrEqual => (·.isLE)
  | _ => fun _ => false

/-- A value stands as asked if it stands in one of three ways and that one is admitted. -/
theorem Option.any_ordering (x : Option Ordering) (admits : Ordering → Bool) :
    x.any admits = (admits .lt && x == some .lt || admits .eq && x == some .eq
      || admits .gt && x == some .gt) := by
  cases x with
  | none => simp
  | some o => cases o <;> simp

/-- Whether a document is found by a value. A value that is null finds the documents without one. -/
def Document.equals (d : Document) (field : Field) (v : Json) : Bool :=
  if v = .null then (d.value field).isNull else d.standing field v == some .eq

section

variable {p : String} {field : Field} (d : Document) {v : Json}

theorem Document.standing_eq_none : d.standing field v = none ↔ (d.value field).isNull = true := by
  simp [standing]

/-- Of a value that is not null it is certain that it stands as asked, or that it does not. -/
theorem Document.ordered_eq_yes (hv : v ≠ .null) (admits : Ordering → Bool) :
    (Truth.ordered admits (d.value field) (field.affinity.convert (.ofJson v)) == .yes)
      = (d.standing field v).any admits := by
  have hnull : (field.affinity.convert (.ofJson v)).isNull = false := by
    rw [Affinity.isNull_convert, Cell.isNull_ofJson, decide_eq_false hv]
  rw [Truth.ordered, standing, hnull, Bool.or_false]
  cases (d.value field).isNull with
  | true => rfl
  | false =>
    simp only [Bool.false_eq_true, if_false, Option.any_some]
    cases admits _ <;> rfl

theorem Comparison.truth_eq_yes (hp : Field.ofText p = .ok field) (hv : v ≠ .null)
    {o : ComparisonOperator} (ho : o = .equal ∨ o.isOrdering = true) :
    (Comparison.truth d ⟨p, o, v⟩ == .yes) = (d.standing field v).any o.admits := by
  cases o with
  | equal =>
    simp only [Comparison.truth, hp, ComparisonOperator.truth, hv, if_false]
    exact d.ordered_eq_yes hv _
  | greater | greaterOrEqual | less | lessOrEqual =>
    simp only [Comparison.truth, hp, ComparisonOperator.truth]
    exact d.ordered_eq_yes hv _
  | notEqual | member | notMember =>
    simp [ComparisonOperator.isOrdering] at ho

theorem Comparison.truth_equal (hp : Field.ofText p = .ok field) :
    (Comparison.truth d ⟨p, .equal, v⟩ == .yes) = d.equals field v := by
  by_cases hv : v = .null
  · simp only [Comparison.truth, hp, ComparisonOperator.truth, hv, if_true, Document.equals]
    cases (d.value field).isNull <;> rfl
  · rw [Comparison.truth_eq_yes d hp hv (.inl rfl), Document.equals, if_neg hv]
    cases d.standing field v with
    | none => rfl
    | some o => cases o <;> rfl

theorem Comparison.truth_notEqual (hp : Field.ofText p = .ok field) :
    (Comparison.truth d ⟨p, .notEqual, v⟩ == .yes) = !d.equals field v := by
  have hnull : (field.affinity.convert (.ofJson v)).isNull = decide (v = .null) := by
    rw [Affinity.isNull_convert, Cell.isNull_ofJson]
  have htruth : (Comparison.truth d ⟨p, .notEqual, v⟩ == .yes)
      = ComparisonOperator.distinct (d.value field) (field.affinity.convert (.ofJson v)) := by
    simp only [Comparison.truth, hp, ComparisonOperator.truth]
    cases ComparisonOperator.distinct _ _ <;> rfl
  rw [htruth, ComparisonOperator.distinct, hnull, Document.equals]
  by_cases hv : v = .null
  · -- Null stands to null as an equal.
    subst hv
    have hnull' : field.affinity.convert (.ofJson .null) = .null := by
      cases field.affinity <;> rfl
    rw [hnull']
    cases d.value field <;> rfl
  · rw [if_neg hv, decide_eq_false hv, Document.standing]
    cases (d.value field).isNull with
    | true => rfl
    | false => cases (d.value field).compare _ <;> rfl

end

/-- A comparison compiles if its field is found and its operator takes its value. -/
theorem Filter.exists_compileComparison {p : String} {field : Field}
    (hp : Field.ofText p = .ok field) {o : ComparisonOperator} {v : Json}
    (hv : o.isOrdering = true → checkOrderable v = .ok ())
    (hlist : o = .member ∨ o = .notMember → ∃ items, v = .array items) :
    ∃ k, compileComparison ⟨p, o, v⟩ = .ok k := by
  cases o with
  | equal | notEqual => exact ⟨_, by rw [compileComparison, hp]; rfl⟩
  | greater | greaterOrEqual | less | lessOrEqual =>
    have hcheck := hv rfl
    exact ⟨_, by rw [compileComparison, hp]; simp only [compileTest, hcheck]; rfl⟩
  | member | notMember =>
    obtain ⟨items, rfl⟩ := hlist (by decide)
    exact ⟨_, by rw [compileComparison, hp]; rfl⟩

def Json.isNumeric : Json → Bool
  | .bool _ | .integer _ => true
  | .real x => isFinite x
  | _ => false

theorem Json.isNumeric_of_number? {v : Json} {m : ℚ} (h : v.number? = some m) :
    v.isNumeric = true := by
  cases v with
  | integer n => rfl
  | real x =>
    by_cases hx : isFinite x = true
    · exact hx
    · simp [number?, hx] at h
  | _ => cases h

theorem Filter.orderable_of_isNumeric {v : Json} (h : v.isNumeric = true) :
    v ≠ .null ∧ checkOrderable v = .ok () := by
  cases v with
  | bool | integer | real => exact ⟨nofun, rfl⟩
  | _ => cases h

theorem Document.any_isLE_of_le (d : Document) (keys : List String) {a b : Json} {m n : ℚ}
    (ha : a.number? = some m) (hb : b.number? = some n) (hmn : m ≤ n)
    (h : (d.standing (.path keys) a).any (·.isLE) = true) :
    (d.standing (.path keys) b).any (·.isLE) = true := by
  obtain ⟨_, hcell, -⟩ := Cell.ofJson_number ha
  obtain ⟨_, hcell', -⟩ := Cell.ofJson_number hb
  have hle := Cell.isLE_compare_ofJson ha hb hmn
  rw [standing] at h ⊢
  cases hnull : (d.value (.path keys)).isNull with
  | true => simp [hnull] at h
  | false =>
    simp only [hnull, Bool.false_eq_true, if_false, Option.any_some] at h ⊢
    exact Cell.isLE_trans hcell hcell' h hle

namespace History

variable {cs : List Config} {docs : List Document} {s : Store}

section

variable (h : History cs docs s) {p : String} {field : Field} (hp : Field.ofText p = .ok field)

include h hp

theorem selects_equal (v : Json) :
    s.Selects docs (.comparison ⟨p, .equal, v⟩) fun d => d.equals field v := by
  obtain ⟨k, hk⟩ := Filter.exists_compileComparison (v := v) (o := .equal) hp nofun (by simp)
  simpa only [Comparison.truth_equal _ hp] using h.selects hk

theorem selects_notEqual (v : Json) :
    s.Selects docs (.comparison ⟨p, .notEqual, v⟩) fun d => !d.equals field v := by
  obtain ⟨k, hk⟩ := Filter.exists_compileComparison (v := v) (o := .notEqual) hp nofun (by simp)
  simpa only [Comparison.truth_notEqual _ hp] using h.selects hk

theorem selects_ordering {o : ComparisonOperator} (ho : o.isOrdering = true) {v : Json}
    (hnull : v ≠ .null) (hv : Filter.checkOrderable v = .ok ()) :
    s.Selects docs (.comparison ⟨p, o, v⟩) fun d => (d.standing field v).any o.admits := by
  have hlist : o = .member ∨ o = .notMember → ∃ items, v = .array items := by
    rintro (rfl | rfl) <;> cases ho
  obtain ⟨k, hk⟩ := Filter.exists_compileComparison hp (fun _ => hv) hlist
  simpa only [Comparison.truth_eq_yes _ hp hnull (.inr ho)] using h.selects hk

theorem selects_less {v : Json} (hnull : v ≠ .null) (hv : Filter.checkOrderable v = .ok ()) :
    s.Selects docs (.comparison ⟨p, .less, v⟩) fun d => d.standing field v == some .lt := by
  simpa [Option.any_ordering, ComparisonOperator.admits]
    using h.selects_ordering hp (o := .less) rfl hnull hv

theorem selects_same {v : Json} (hnull : v ≠ .null) :
    s.Selects docs (.comparison ⟨p, .equal, v⟩) fun d => d.standing field v == some .eq := by
  simpa only [Document.equals, if_neg hnull] using h.selects_equal hp v

end

/-- The operators agree. What differs from a value is all that does not equal it. A document whose
value is null has no standing and is found by none of the five other operators; of every other
document just one of below, equal and above is true, and each operator finds what its name says.
What is at most a number is at most every number that is not smaller. -/
theorem operators_agree (h : History cs docs s) {p : String} {field : Field}
    (hp : Field.ofText p = .ok field) :
    (∀ v, (s.Selects docs (.comparison ⟨p, .equal, v⟩) fun d => d.equals field v)
        ∧ s.Selects docs (.comparison ⟨p, .notEqual, v⟩) fun d => !d.equals field v)
      ∧ (∀ v, v ≠ .null → Filter.checkOrderable v = .ok () →
        (s.Selects docs (.comparison ⟨p, .less, v⟩) fun d => d.standing field v == some .lt)
        ∧ (s.Selects docs (.comparison ⟨p, .equal, v⟩) fun d => d.standing field v == some .eq)
        ∧ (s.Selects docs (.comparison ⟨p, .greater, v⟩) fun d => d.standing field v == some .gt)
        ∧ (s.Selects docs (.comparison ⟨p, .lessOrEqual, v⟩) fun d =>
          d.standing field v == some .lt || d.standing field v == some .eq)
        ∧ (s.Selects docs (.comparison ⟨p, .greaterOrEqual, v⟩) fun d =>
          d.standing field v == some .eq || d.standing field v == some .gt)
        ∧ ∀ d : Document, d.standing field v = none ↔ (d.value field).isNull = true)
      ∧ ∀ keys a b m n, field = .path keys → a.number? = some m → b.number? = some n → m ≤ n →
        (s.Selects docs (.comparison ⟨p, .lessOrEqual, a⟩) fun d =>
          (d.standing field a).any (·.isLE))
        ∧ (s.Selects docs (.comparison ⟨p, .lessOrEqual, b⟩) fun d =>
          (d.standing field b).any (·.isLE))
        ∧ ∀ d : Document, (d.standing field a).any (·.isLE) = true →
          (d.standing field b).any (·.isLE) = true := by
  refine ⟨fun v => ⟨h.selects_equal hp v, h.selects_notEqual hp v⟩, ?_, ?_⟩
  · intro v hnull hv
    have hselects {o : ComparisonOperator} (ho : o.isOrdering = true) :=
      h.selects_ordering hp ho hnull hv
    simp only [Option.any_ordering] at hselects
    refine ⟨h.selects_less hp hnull hv, h.selects_same hp hnull, ?_, ?_, ?_,
      fun d => d.standing_eq_none⟩
    · simpa [ComparisonOperator.admits] using hselects (o := .greater) rfl
    · simpa [ComparisonOperator.admits] using hselects (o := .lessOrEqual) rfl
    · simpa [ComparisonOperator.admits] using hselects (o := .greaterOrEqual) rfl
  · rintro keys a b m n rfl ha hb hmn
    have hselects {v : Json} {k : ℚ} (hk : v.number? = some k) :=
      have hv := Filter.orderable_of_isNumeric (Json.isNumeric_of_number? hk)
      h.selects_ordering hp (o := .lessOrEqual) rfl hv.1 hv.2
    exact ⟨hselects ha, hselects hb, fun d => d.any_isLE_of_le keys ha hb hmn⟩

/-- Of a number, a text and a document without a value, the first equals 2 and the second is above
it. -/
theorem operators_agree_mixed :
    ∃ s docs, History [{}] docs s
      ∧ docs = [{ id := "a", metadata := [("n", .integer 2)] },
        { id := "b", metadata := [("n", .string "x")] }, { id := "c" }]
      ∧ Field.ofText "meta.n" = .ok (.path ["n"])
      ∧ s.filter (some (.comparison ⟨"meta.n", .equal, .integer 2⟩))
        = .ok [{ id := "a", metadata := [("n", .integer 2)] }]
      ∧ s.filter (some (.comparison ⟨"meta.n", .notEqual, .integer 2⟩))
        = .ok [{ id := "b", metadata := [("n", .string "x")] }, { id := "c" }]
      ∧ s.filter (some (.comparison ⟨"meta.n", .greater, .integer 2⟩))
        = .ok [{ id := "b", metadata := [("n", .string "x")] }]
      ∧ s.filter (some (.comparison ⟨"meta.n", .lessOrEqual, .integer 2⟩))
        = .ok [{ id := "a", metadata := [("n", .integer 2)] }]
      ∧ s.filter (some (.comparison ⟨"meta.n", .lessOrEqual, .integer 3⟩))
        = .ok [{ id := "a", metadata := [("n", .integer 2)] }] := by
  have h₀ := @History.created {} {} _ rfl rfl
  have h := @History.written _ _ [{ id := "a", metadata := [("n", .integer 2)] },
    { id := "b", metadata := [("n", .string "x")] }, { id := "c" }] _ _ .fail _ h₀ rfl
  have hp : Field.ofText "meta.n" = .ok (.path ["n"]) := rfl
  obtain ⟨hequality, horder, hnumbers⟩ := h.operators_agree hp
  obtain ⟨-, -, hgreater, -⟩ := horder (.integer 2) (by decide) rfl
  obtain ⟨htwo, hthree, -⟩ := hnumbers _ (.integer 2) (.integer 3) 2 3 rfl rfl rfl (by norm_num)
  refine ⟨_, _, h, rfl, hp, ?_, ?_, ?_, ?_, ?_⟩
  · exact (hequality (.integer 2)).1.filter_eq (by decide) (by decide)
  · exact (hequality (.integer 2)).2.filter_eq (by decide) (by decide)
  · exact hgreater.filter_eq (by decide) (by decide)
  · exact htwo.filter_eq (by decide) (by decide)
  · exact hthree.filter_eq (by decide) (by decide)

end History

theorem Cell.ofStored_eq_ofJson {v : Json} (hv : v.IsProper) : ofStored v = ofJson v := by
  cases v with
  | real x =>
    have hx : x.isFinite = true := hv
    have hfinite : Json.isFinite x = true := by
      rw [Json.isFinite, Number.doubleText?, Number.doubleDatum_of_isFinite hx]
      cases (Number.binary64.unpack (Number.magnitudeOf x)).1 <;> rfl
    rw [ofStored, if_pos hfinite]
    rfl
  | _ => rfl

theorem Document.equals_ofStored (d : Document) (keys : List String) {v : Json} (hv : v.IsProper) :
    (d.value (.path keys)).equals (Cell.ofStored v)
      = (decide (v ≠ .null) && d.equals (.path keys) v) := by
  rw [Cell.ofStored_eq_ofJson hv]
  by_cases hnull : v = .null
  · subst hnull
    simp [Cell.equals, Cell.ofJson, Cell.isNull]
  · calc (d.value (.path keys)).equals (Cell.ofJson v)
        = (d.standing (.path keys) v).any (·.isEq) := by
          rw [← Truth.ordered_eq_yes]
          exact @Document.ordered_eq_yes (.path keys) d v hnull _
      _ = (decide (v ≠ .null) && d.equals (.path keys) v) := by
          simp [Option.any_ordering, equals, hnull]

theorem Document.isAmong_value (d : Document) (keys : List String) {items : List Json}
    (h : Json.AreProper items) : (d.value (.path keys)).isAmong items
      = items.any fun v => decide (v ≠ .null) && d.equals (.path keys) v := by
  induction items with
  | nil => rfl
  | cons v vs ih =>
    rw [List.any_cons, ← ih h.2, ← d.equals_ofStored keys h.1]
    rfl

/-- Members of a list are found just if they are found by an item that is not null. -/
theorem History.members_equal {cs : List Config} {docs : List Document} {s : Store}
    (h : History cs docs s) {p : String} {keys : List String}
    (hp : Field.ofText p = .ok (.path keys)) {items : List Json} (hitems : (Json.array items).IsProper) :
    (∀ v, s.Selects docs (.comparison ⟨p, .equal, v⟩) fun d => d.equals (.path keys) v)
      ∧ s.Selects docs (.comparison ⟨p, .member, .array items⟩) fun d =>
        items.any fun v => decide (v ≠ .null) && d.equals (.path keys) v := by
  refine ⟨h.selects_equal hp, ?_⟩
  obtain ⟨k, hk⟩ := Filter.exists_compileComparison hp (o := .member) nofun fun _ => ⟨items, rfl⟩
  have hyes (d : Document) : (Comparison.truth d ⟨p, .member, .array items⟩ == .yes)
      = items.any fun v => decide (v ≠ .null) && d.equals (.path keys) v := by
    rw [Comparison.truth_member hp, d.isAmong_value keys hitems]
  simpa only [hyes] using h.selects hk

/-- In a list with repeats, a null, a boolean, a nested list and an integer of more than 64 bits,
the values 1, `[2]` and 18446744073709551615 are members, and a missing value is none. -/
theorem History.members_equal_mixed :
    ∃ s docs, History [{}] docs s
      ∧ docs = [{ id := "a", metadata := [("n", .integer 1)] },
        { id := "b", metadata := [("n", .array [.integer 2])] }, { id := "c" },
        { id := "d", metadata := [("n", .integer 18446744073709551615)] },
        { id := "e", metadata := [("n", .integer 3)] }]
      ∧ Field.ofText "meta.n" = .ok (.path ["n"])
      ∧ s.filter (some (.comparison ⟨"meta.n", .equal, .bool true⟩))
        = .ok [{ id := "a", metadata := [("n", .integer 1)] }]
      ∧ s.filter (some (.comparison ⟨"meta.n", .member, .array [.integer 1, .integer 1, .null,
          .bool true, .array [.integer 2], .integer 18446744073709551615]⟩))
        = .ok [{ id := "a", metadata := [("n", .integer 1)] },
          { id := "b", metadata := [("n", .array [.integer 2])] },
          { id := "d", metadata := [("n", .integer 18446744073709551615)] }] := by
  have h₀ := @History.created {} {} _ rfl rfl
  have h := @History.written _ _ [{ id := "a", metadata := [("n", .integer 1)] },
    { id := "b", metadata := [("n", .array [.integer 2])] }, { id := "c" },
    { id := "d", metadata := [("n", .integer 18446744073709551615)] },
    { id := "e", metadata := [("n", .integer 3)] }] _ _ .fail _ h₀ rfl
  have hp : Field.ofText "meta.n" = .ok (.path ["n"]) := rfl
  have hitems : (Json.array [.integer 1, .integer 1, .null, .bool true, .array [.integer 2],
      .integer 18446744073709551615]).IsProper := by
    simp [Json.IsProper, Json.AreProper]
  obtain ⟨hequal, hmember⟩ := h.members_equal hp hitems
  refine ⟨_, _, h, rfl, hp, ?_, ?_⟩
  · exact (hequal (.bool true)).filter_eq (by decide) (by decide)
  · exact hmember.filter_eq (by decide) (by decide)

end DocumentStore
