import DocumentStore.Proofs.Store.Selection

/-! Members of a list and values that are no members. Main statement: a document is selected as a
member just if its value equals a member, and as no member if its value is null, or if it equals
none and none is null: among members with a null, what is not found may still be the null. -/
namespace DocumentStore

/-- Whether two cells are equal for a filter, for which null equals nothing, not even itself. -/
def Cell.equals (x y : Cell) : Bool := !x.isNull && !y.isNull && (x.compare y).isEq

def Cell.isAmong (x : Cell) (items : List Json) : Bool :=
  items.any fun v => x.equals (Cell.ofStored v)

def Json.holdNull (items : List Json) : Bool := items.any fun v => (Cell.ofStored v).isNull

namespace Truth

theorem ordered_eq_yes (x y : Cell) : (ordered (·.isEq) x y == .yes) = x.equals y := by
  rw [ordered, Cell.equals]
  cases x.isNull <;> cases y.isNull <;> cases (x.compare y).isEq <;> rfl

theorem ordered_eq_no (x y : Cell) :
    (ordered (·.isEq) x y == .no) = (!x.isNull && !y.isNull && !x.equals y) := by
  rw [ordered, Cell.equals]
  cases x.isNull <;> cases y.isNull <;> cases (x.compare y).isEq <;> rfl

theorem among_eq_yes (x : Cell) (ms : List Cell) : (among x ms == .yes) = ms.any x.equals := by
  induction ms with
  | nil => rfl
  | cons m ms ih => rw [among, or_eq_yes, ordered_eq_yes, ih, List.any_cons]

/-- A value that is not null is no member for certain just if it equals no member and none is
null. -/
theorem among_eq_no {x : Cell} (hx : x.isNull = false) (ms : List Cell) :
    (among x ms == .no) = (!ms.any x.equals && !ms.any Cell.isNull) := by
  induction ms with
  | nil => rfl
  | cons m ms ih =>
    rw [among, or_eq_no, ordered_eq_no, ih, List.any_cons, List.any_cons, hx]
    cases m.isNull <;> cases x.equals m <;> simp

end Truth

section

variable {p : String} {keys : List String} (hp : Field.ofText p = .ok (.path keys))
  (d : Document) (items : List Json)

theorem Json.members_path : (Json.array items).members.map (Field.path keys).affinity.convertMember
    = items.map Cell.ofStored := by
  simp [Json.members, Field.affinity, Affinity.convertMember]

include hp

theorem Comparison.truth_member : (Comparison.truth d ⟨p, .member, .array items⟩ == .yes)
    = (d.value (.path keys)).isAmong items := by
  simp only [Comparison.truth, hp, ComparisonOperator.truth, Json.members_path,
    Truth.among_eq_yes, List.any_map, Cell.isAmong]
  rfl

theorem Comparison.truth_notMember : (Comparison.truth d ⟨p, .notMember, .array items⟩ == .yes)
    = ((d.value (.path keys)).isNull
      || !(d.value (.path keys)).isAmong items && !Json.holdNull items) := by
  simp only [Comparison.truth, hp, ComparisonOperator.truth, Json.members_path]
  cases hx : (d.value (.path keys)).isNull with
  | true => rfl
  | false =>
    simp only [Bool.false_eq_true, if_false, Truth.not_eq_yes, Truth.among_eq_no hx, List.any_map,
      Bool.false_or]
    rfl

end

/-- A filter selects the documents with a property, unless it looks too deep into one. -/
def Store.Selects (s : Store) (docs : List Document) (f : Filter) (p : Document → Bool) : Prop :=
  s.filter (some f) = (docs.filter p).mapM Document.reread
    ∨ s.filter (some f) = .error .engine ∧ ∃ d ∈ docs, f.IsTooDeep d

theorem Store.Selects.filter_eq {s : Store} {docs : List Document} {c : Comparison}
    {p : Document → Bool} (h : s.Selects docs (.comparison c) p)
    (hdocs : ∀ d ∈ docs, (Json.object d.metadata).nesting ≤ Node.depthLimit)
    (hvalue : c.value.nesting ≤ Node.depthLimit) :
    s.filter (some (.comparison c)) = (docs.filter p).mapM Document.reread := by
  rcases h with h | ⟨-, d, hd, l, hl, hdeep⟩
  · exact h
  · obtain rfl : l = c := List.mem_singleton.mp hl
    rcases hdeep with ⟨-, hdeep⟩ | ⟨-, hdeep⟩
    · exact absurd hdeep (Nat.not_lt_of_le (hdocs d hd))
    · exact absurd hdeep (Nat.not_lt_of_le hvalue)

theorem History.selects {cs : List Config} {docs : List Document} {s : Store}
    (h : History cs docs s) {c : Comparison} {k : Condition}
    (hk : Filter.compileComparison c = .ok k) :
    s.Selects docs (.comparison c) fun d => c.truth d == .yes := by
  have hkeeps := h.keeps
  have hcompile : Filter.compile (.comparison c) = .ok k := by rw [Filter.compile, hk]
  obtain ⟨ds, hds, rfl⟩ := hkeeps.holds
  have hselect := hds.filter_some hcompile
  rw [← Store.filter_some hkeeps.lock hcompile] at hselect
  rcases hselect with hselect | ⟨hfailed, hstrains⟩
  · exact .inl (by simpa only [Filter.truth] using hselect)
  · exact .inr ⟨hfailed, hstrains.too_deep (by decide)⟩

/-- Members are selected just if their values equal an item; the others just if their values are
null, or if these equal no item and no item is null. That is what a value is null or no member says
of all documents just if no item is null or each value is null or found. -/
theorem History.selects_nonmembers {cs : List Config} {docs : List Document} {s : Store}
    (h : History cs docs s) {p : String} {keys : List String}
    (hp : Field.ofText p = .ok (.path keys)) (items : List Json) :
    (s.Selects docs (.comparison ⟨p, .member, .array items⟩) fun d =>
        (d.value (.path keys)).isAmong items)
      ∧ (s.Selects docs (.comparison ⟨p, .notMember, .array items⟩) fun d =>
        (d.value (.path keys)).isNull
          || !(d.value (.path keys)).isAmong items && !Json.holdNull items)
      ∧ ((∀ d ∈ docs, ((d.value (.path keys)).isNull
            || !(d.value (.path keys)).isAmong items && !Json.holdNull items)
          = ((d.value (.path keys)).isNull || !(d.value (.path keys)).isAmong items))
        ↔ Json.holdNull items = false ∨ ∀ d ∈ docs, (d.value (.path keys)).isNull = true
          ∨ (d.value (.path keys)).isAmong items = true) := by
  refine ⟨?_, ?_, ?_⟩
  · have hcompile : Filter.compileComparison ⟨p, .member, .array items⟩
        = .ok (.test (.path keys) (.among (Json.array items).text)) := by
      rw [Filter.compileComparison, hp]
      rfl
    simpa only [Comparison.truth_member hp] using h.selects hcompile
  · have hcompile : Filter.compileComparison ⟨p, .notMember, .array items⟩
        = .ok (.test (.path keys) (.notAmong (Json.array items).text)) := by
      rw [Filter.compileComparison, hp]
      rfl
    simpa only [Comparison.truth_notMember hp] using h.selects hcompile
  · cases Json.holdNull items with
    | false => simp
    | true =>
      have hrule : ∀ x : Cell, (x.isNull || !x.isAmong items && !true)
          = (x.isNull || !x.isAmong items) ↔ x.isNull = true ∨ x.isAmong items = true := by
        intro x
        cases x.isNull <;> cases x.isAmong items <;> simp
      simp only [hrule, Bool.true_eq_false, false_or]

/-- Among 1 and null, of which 2 is neither, a document whose value is 2 is not selected as no
member, while one without a value is. -/
theorem History.selects_nonmembers_null :
    ∃ s docs, History [{}] docs s
      ∧ docs = [{ id := "a", metadata := [("n", .integer 2)] }, { id := "b" }]
      ∧ Field.ofText "meta.n" = .ok (.path ["n"])
      ∧ s.filter (some (.comparison ⟨"meta.n", .notMember, .array [.integer 1, .null]⟩))
        = .ok [{ id := "b" }] := by
  have h₀ := @History.created {} {} _ rfl rfl
  have h := @History.written _ _ [{ id := "a", metadata := [("n", .integer 2)] }, { id := "b" }] _ _
    .fail _ h₀ rfl
  have hp : Field.ofText "meta.n" = .ok (.path ["n"]) := rfl
  refine ⟨_, _, h, rfl, hp, ?_⟩
  exact (h.selects_nonmembers hp [.integer 1, .null]).2.1.filter_eq (by decide) (by decide)

/-- The value 2 is neither null nor 1 nor null, and yet it is not selected as no member of the
two. -/
theorem History.nonmember_not_selected :
    ∃ s d, History [{}] [d] s ∧ (d.value (.path ["n"])).isNull = false
      ∧ (d.value (.path ["n"])).isAmong [.integer 1, .null] = false
      ∧ Field.ofText "meta.n" = .ok (.path ["n"])
      ∧ s.filter (some (.comparison ⟨"meta.n", .notMember, .array [.integer 1, .null]⟩)) = .ok []
      ∧ s.filter (some (.comparison ⟨"meta.n", .member, .array [.integer 1, .null]⟩)) = .ok [] := by
  have h₀ := @History.created {} {} _ rfl rfl
  have h := @History.written _ _ [{ id := "a", metadata := [("n", .integer 2)] }] _ _ .fail _ h₀ rfl
  have hp : Field.ofText "meta.n" = .ok (.path ["n"]) := rfl
  have hselects (o : ComparisonOperator) {k : Condition}
      (hk : Filter.compileComparison ⟨"meta.n", o, .array [.integer 1, .null]⟩ = .ok k) :=
    have hflat : (Json.array [.integer 1, .null]).nesting ≤ Node.depthLimit := by decide
    (h.selects hk).filter_eq (by decide) hflat
  exact ⟨_, _, h, rfl, rfl, hp, hselects .notMember rfl, hselects .member rfl⟩

end DocumentStore
