import DocumentStore.Proofs.Filter.Value
import DocumentStore.Proofs.Outcome

/-! What a filter means: its truth in a document by three-valued logic, told by the values of the
document's fields and without a word of conditions or of rows. Main statement: the condition into
which a filter is compiled settles this truth in the row of the document, unless a value is nested
too deeply for a look-up. -/
namespace DocumentStore

namespace Truth

/-- Whether two cells stand in some order, which is unknown of null. -/
def ordered (admits : Ordering → Bool) (x y : Cell) : Truth :=
  if x.isNull || y.isNull then .unknown else .ofBool (admits (x.compare y))

/-- Whether a value is one of some values: whether it equals the first, or the next, and so on. -/
def among (x : Cell) : List Cell → Truth
  | [] => .no
  | m :: ms => (ordered (·.isEq) x m).or (among x ms)

end Truth

def Json.members : Json → List Cell
  | .array items => items.map Cell.ofStored
  | _ => []

namespace ComparisonOperator

/-- Whether two cells are distinct, of which null is one like every other. -/
def distinct (x y : Cell) : Bool := x.isNull != y.isNull || !(x.compare y).isEq

/-- The truth of a comparison of a field's value. The column converts what it is compared with. -/
def truth (a : Affinity) (x : Cell) (v : Json) : ComparisonOperator → Truth
  | .equal => if v = .null then .ofBool x.isNull else .ordered (·.isEq) x (a.convert (.ofJson v))
  | .notEqual => .ofBool (distinct x (a.convert (.ofJson v)))
  | .greater => .ordered (·.isGT) x (a.convert (.ofJson v))
  | .greaterOrEqual => .ordered (·.isGE) x (a.convert (.ofJson v))
  | .less => .ordered (·.isLT) x (a.convert (.ofJson v))
  | .lessOrEqual => .ordered (·.isLE) x (a.convert (.ofJson v))
  | .member => .among x (v.members.map a.convertMember)
  | .notMember =>
    if x.isNull then .yes else (Truth.among x (v.members.map a.convertMember)).not

end ComparisonOperator

/-- The truth of a comparison in a document. Of a field that there is not, nothing is known. -/
def Comparison.truth (d : Document) (c : Comparison) : Truth :=
  match Field.ofText c.field with
  | .ok field => c.operator.truth field.affinity (d.value field) c.value
  | .error _ => .unknown

namespace Filter

mutual

/-- The truth of a filter in a document. -/
def truth (d : Document) : Filter → Truth
  | .comparison c => c.truth d
  | .logical .and f fs => (truth d f).and (truthOfAll d fs)
  | .logical .or f fs => (truth d f).or (truthOfAny d fs)
  | .logical .not f fs => ((truth d f).and (truthOfAll d fs)).not

def truthOfAll (d : Document) : List Filter → Truth
  | [] => .yes
  | f :: fs => (truth d f).and (truthOfAll d fs)

def truthOfAny (d : Document) : List Filter → Truth
  | [] => .no
  | f :: fs => (truth d f).or (truthOfAny d fs)

end

end Filter

/-- Whether a comparison looks into metadata or into a list that is nested too deeply for it. -/
def Comparison.IsTooDeep (d : Document) (c : Comparison) : Prop :=
  (∃ keys, Field.ofText c.field = .ok (.path keys))
      ∧ Node.depthLimit < (Json.object d.metadata).nesting
    ∨ (c.operator = .member ∨ c.operator = .notMember) ∧ Node.depthLimit < c.value.nesting

/-- Whether a comparison of the filter goes too deep in a document. -/
def Filter.IsTooDeep (d : Document) (f : Filter) : Prop := ∃ c ∈ f.leaves, c.IsTooDeep d

theorem Truth.among_of_isNull {x : Cell} (hx : x.isNull = true) (m : Cell) (ms : List Cell) :
    among x (m :: ms) = .unknown := by
  induction ms generalizing m with
  | nil => simp [among, ordered, hx, or]
  | cons m' ms ih => rw [among, ih m', ordered, hx]; rfl

/-- Whether a value that is not null is found, may be one of the nulls, or is not in the list. -/
theorem Truth.among_of_not_isNull {x : Cell} (hx : x.isNull = false) (ms : List Cell) :
    among x ms
      = if ms.any fun m => !m.isNull && (x.compare m).isEq then .yes
        else if ms.any Cell.isNull then .unknown else .no := by
  induction ms with
  | nil => rfl
  | cons m ms ih =>
    rw [among, ih, ordered, hx, List.any_cons, List.any_cons]
    generalize ms.any (fun m => !m.isNull && (x.compare m).isEq) = found
    generalize ms.any Cell.isNull = null
    cases m.isNull <;> cases (x.compare m).isEq <;> cases found <;> cases null <;> rfl

/-- The cases of membership: nothing is in the empty list, null is in no other list for certain, and
a null in the list leaves open what is not found. -/
theorem Truth.among_eq_memberOf (x : Cell) (ms : List Cell) : among x ms = memberOf x ms := by
  cases ms with
  | nil => rfl
  | cons m ms =>
    cases hx : x.isNull with
    | true =>
      rw [among_of_isNull hx]
      simp [memberOf, hx]
    | false =>
      rw [among_of_not_isNull hx]
      simp [memberOf, hx]

theorem listMembers_text (items : List Json) :
    listMembers (Json.array items).text
      = if (Json.array items).nesting ≤ Node.depthLimit then some (Json.array items).members
        else none := by
  have hitems (vs : List Json) : (Node.ofItems vs).map Cell.ofNode = vs.map Cell.ofStored := by
    induction vs with
    | nil => rfl
    | cons v vs ih => simp [Node.ofItems, Node.ofNode_ofJson, ih]
  rw [listMembers, Node.read_text]
  split
  · rename_i h
    split at h
    · cases h
      rename_i hdepth
      simp [hdepth, Json.members, hitems]
    · cases h
  · rename_i h
    split
    · rename_i hdepth
      simp [hdepth, Node.ofJson] at h
    · rfl

section

variable {deep : Prop}

theorem Settles.thenAlso {o o' : Option Bool} {b b' : Bool} (h : Settles deep o b)
    (h' : Settles deep o' b') : Settles deep (Condition.thenAlso o o') (b && b') := by
  rcases h with rfl | ⟨rfl, hdeep⟩
  · cases b with
    | true => simpa [Condition.thenAlso] using h'
    | false => exact .inl rfl
  · exact .inr ⟨rfl, hdeep⟩

theorem Settles.elseAlso {o o' : Option Bool} {b b' : Bool} (h : Settles deep o b)
    (h' : Settles deep o' b') : Settles deep (Condition.elseAlso o o') (b || b') := by
  rcases h with rfl | ⟨rfl, hdeep⟩
  · cases b with
    | true => exact .inl rfl
    | false => simpa [Condition.elseAlso] using h'
  · exact .inr ⟨rfl, hdeep⟩

theorem settles_listMembers {items : List Json}
    (hdeep : Node.depthLimit < (Json.array items).nesting → deep) :
    Settles deep (listMembers (Json.array items).text) (Json.array items).members := by
  rw [listMembers_text]
  split
  · exact .inl rfl
  · rename_i hdepth
    exact .inr ⟨rfl, hdeep (Nat.lt_of_not_le hdepth)⟩

theorem Filter.listText_eq_ok {c : Comparison} {text : String} (h : listText c = .ok text) :
    ∃ items, c.value = .array items ∧ text = (Json.array items).text := by
  unfold listText at h
  split at h
  · rename_i items hvalue
    exact ⟨items, hvalue, (Except.ok.inj h).symm⟩
  · cases h

/-- A compiled test settles the truth of its comparison, whatever the value of the field. -/
theorem Filter.settles_compileTest {c : Comparison} {t : Test} (h : compileTest c = .ok t)
    (hdeep : (c.operator = .member ∨ c.operator = .notMember) →
      Node.depthLimit < c.value.nesting → deep) (a : Affinity) (x : Cell) :
    Settles deep (t.truth a x) (c.operator.truth a x c.value) := by
  unfold compileTest at h
  cases ho : c.operator with
  | equal =>
    simp only [ho, Except.ok.injEq] at h
    subst h
    simp only [ComparisonOperator.truth]
    split <;> exact .inl rfl
  | notEqual =>
    simp only [ho, Except.ok.injEq] at h
    subst h
    exact .inl rfl
  | greater | greaterOrEqual | less | lessOrEqual =>
    simp only [ho] at h
    obtain ⟨-, -, rfl⟩ := map_eq_ok h
    exact .inl rfl
  | member =>
    simp only [ho] at h
    obtain ⟨text, hl, rfl⟩ := map_eq_ok h
    obtain ⟨items, hvalue, rfl⟩ := listText_eq_ok hl
    rw [hvalue] at hdeep ⊢
    simp only [Test.truth, ComparisonOperator.truth, Truth.among_eq_memberOf]
    exact (settles_listMembers (hdeep (.inl ho))).map fun ms => memberOf x (ms.map a.convertMember)
  | notMember =>
    simp only [ho] at h
    obtain ⟨text, hl, rfl⟩ := map_eq_ok h
    obtain ⟨items, hvalue, rfl⟩ := listText_eq_ok hl
    rw [hvalue] at hdeep ⊢
    simp only [Test.truth, ComparisonOperator.truth, Truth.among_eq_memberOf]
    split
    · exact .inl rfl
    · exact (settles_listMembers (hdeep (.inr ho))).map fun ms =>
        (memberOf x (ms.map a.convertMember)).not

/-- Whether a test asks for a list that is not read. -/
def Test.IsUnread (t : Test) : Prop :=
  ∃ list, (t = .among list ∨ t = .notAmong list) ∧ listMembers list = none

theorem Filter.too_deep_of_isUnread {c : Comparison} {t : Test} (h : compileTest c = .ok t)
    (hunread : t.IsUnread) :
    (c.operator = .member ∨ c.operator = .notMember) ∧ Node.depthLimit < c.value.nesting := by
  have hlist {text : String} (hl : listText c = .ok text) (hnone : listMembers text = none) :
      Node.depthLimit < c.value.nesting := by
    obtain ⟨items, hvalue, rfl⟩ := listText_eq_ok hl
    rw [listMembers_text] at hnone
    split at hnone
    · cases hnone
    · rename_i hdepth
      rw [hvalue]
      exact Nat.lt_of_not_le hdepth
  obtain ⟨list, ht, hnone⟩ := hunread
  unfold compileTest at h
  cases ho : c.operator with
  | equal =>
    simp only [ho, Except.ok.injEq] at h
    split at h <;> rcases ht with rfl | rfl <;> cases h
  | notEqual =>
    simp only [ho, Except.ok.injEq] at h
    rcases ht with rfl | rfl <;> cases h
  | greater | greaterOrEqual | less | lessOrEqual =>
    simp only [ho] at h
    obtain ⟨-, -, rfl⟩ := map_eq_ok h
    rcases ht with ht | ht <;> cases ht
  | member =>
    simp only [ho] at h
    obtain ⟨text, hl, rfl⟩ := map_eq_ok h
    rcases ht with ht | ht <;> cases ht
    exact ⟨.inl rfl, hlist hl hnone⟩
  | notMember =>
    simp only [ho] at h
    obtain ⟨text, hl, rfl⟩ := map_eq_ok h
    rcases ht with ht | ht <;> cases ht
    exact ⟨.inr rfl, hlist hl hnone⟩

theorem Filter.compileComparison_eq_ok {c : Comparison} {k : Condition}
    (h : compileComparison c = .ok k) :
    ∃ field t, Field.ofText c.field = .ok field ∧ compileTest c = .ok t ∧ k = .test field t := by
  obtain ⟨field, hfield, h⟩ := bind_eq_ok h
  obtain ⟨t, ht, h⟩ := bind_eq_ok h
  exact ⟨field, t, hfield, ht, (Except.ok.inj h).symm⟩

theorem Filter.compile_comparison_eq_ok {l : Comparison} {c : Condition}
    (h : (Filter.comparison l).compile = .ok c) :
    ∃ field t, Field.ofText l.field = .ok field ∧ compileTest l = .ok t ∧ c = .test field t :=
  compileComparison_eq_ok (by simpa [compile] using h)

theorem Filter.compile_logical_eq_ok {operator : LogicalOperator} {f : Filter} {fs : List Filter}
    {c : Condition} (h : (Filter.logical operator f fs).compile = .ok c) :
    ∃ first rest, f.compile = .ok first ∧ compileItems fs = .ok rest
      ∧ c = connect operator first rest := by
  rw [compile] at h
  obtain ⟨first, hfirst, h⟩ := bind_eq_ok h
  obtain ⟨rest, hrest, h⟩ := bind_eq_ok h
  exact ⟨first, rest, hfirst, hrest, (Except.ok.inj h).symm⟩

theorem Filter.compileItems_cons_eq_ok {f : Filter} {fs : List Filter} {cs : List Condition}
    (h : compileItems (f :: fs) = .ok cs) :
    ∃ first rest, f.compile = .ok first ∧ compileItems fs = .ok rest ∧ cs = first :: rest := by
  rw [compileItems] at h
  obtain ⟨first, hfirst, h⟩ := bind_eq_ok h
  obtain ⟨rest, hrest, h⟩ := bind_eq_ok h
  exact ⟨first, rest, hfirst, hrest, (Except.ok.inj h).symm⟩

theorem Field.settles_value (field : Field) (key : ℤ) {d : Document}
    (hdeep : (∃ keys, field = .path keys) →
      Node.depthLimit < (Json.object d.metadata).nesting → deep) :
    Settles deep (field.value (Row.ofDocument key d).cell) (d.value field) := by
  cases field with
  | column c => exact .inl (Field.value_column key d c)
  | path keys =>
    rw [Field.value_path]
    split
    · exact .inl rfl
    · rename_i hdepth
      exact .inr ⟨rfl, hdeep ⟨keys, rfl⟩ (Nat.lt_of_not_le hdepth)⟩

/-- A compiled test settles the truth of its comparison in the row of a document. -/
theorem Filter.settles_testTruth {l : Comparison} {field : Field} {t : Test}
    (hfield : Field.ofText l.field = .ok field) (ht : compileTest l = .ok t) {d : Document}
    (hdeep : l.IsTooDeep d → deep) (key : ℤ) :
    Settles deep (Condition.testTruth (Row.ofDocument key d).cell field t) (l.truth d) := by
  have hmeta : (∃ keys, field = .path keys) →
      Node.depthLimit < (Json.object d.metadata).nesting → deep := by
    rintro ⟨keys, rfl⟩ hdepth
    exact hdeep (.inl ⟨⟨keys, hfield⟩, hdepth⟩)
  rw [Condition.testTruth, Comparison.truth, hfield]
  rcases field.settles_value key hmeta with hvalue | ⟨hvalue, hreason⟩
  · rw [hvalue]
    exact settles_compileTest ht (fun ho hdepth => hdeep (.inr ⟨ho, hdepth⟩)) _ _
  · rw [hvalue]
    exact .inr ⟨rfl, hreason⟩

mutual

/-- What it is for a condition to have a truth in a row: its tests have truths there, connected as
the condition connects the tests. -/
inductive Condition.Means (deep : Prop) (cells : Column → Cell) : Condition → Truth → Prop where
  | test {field : Field} {test : Test} {s : Truth} :
      Settles deep (testTruth cells field test) s → Means deep cells (.test field test) s
  | all {c : Condition} {cs : List Condition} {s t u : Truth} :
      Means deep cells c s → MeansOf deep cells cs t u → Means deep cells (.all c cs) (s.and t)
  | any {c : Condition} {cs : List Condition} {s t u : Truth} :
      Means deep cells c s → MeansOf deep cells cs t u → Means deep cells (.any c cs) (s.or u)
  | notAll {c : Condition} {cs : List Condition} {s t u : Truth} :
      Means deep cells c s → MeansOf deep cells cs t u →
        Means deep cells (.notAll c cs) (s.and t).not

/-- The same for the conjunction and for the disjunction of some conditions. -/
inductive Condition.MeansOf (deep : Prop) (cells : Column → Cell) :
    List Condition → Truth → Truth → Prop where
  | nil : MeansOf deep cells [] .yes .no
  | cons {c : Condition} {cs : List Condition} {s t u : Truth} :
      Means deep cells c s → MeansOf deep cells cs t u →
        MeansOf deep cells (c :: cs) (s.and t) (s.or u)

end

namespace Truth

theorem and_eq_yes (s t : Truth) : (s.and t == .yes) = (s == .yes && t == .yes) := by
  cases s <;> cases t <;> rfl

theorem and_eq_no (s t : Truth) : (s.and t == .no) = (s == .no || t == .no) := by
  cases s <;> cases t <;> rfl

theorem or_eq_yes (s t : Truth) : (s.or t == .yes) = (s == .yes || t == .yes) := by
  cases s <;> cases t <;> rfl

theorem or_eq_no (s t : Truth) : (s.or t == .no) = (s == .no && t == .no) := by
  cases s <;> cases t <;> rfl

theorem not_eq_yes (t : Truth) : (t.not == .yes) = (t == .no) := by cases t <;> rfl

theorem not_eq_no (t : Truth) : (t.not == .no) = (t == .yes) := by cases t <;> rfl

theorem of_and_eq_yes {s t : Truth} (h : s.and t = .yes) : s = .yes ∧ t = .yes := by
  cases s <;> cases t <;> first | exact ⟨rfl, rfl⟩ | cases h

end Truth

namespace Condition

variable {cells : Column → Cell}

-- Each connective asks both questions of its parts: a negation exchanges them.
mutual

theorem Means.isTrue {c : Condition} {t : Truth} (h : Means deep cells c t) :
    Settles deep (c.isTrue cells) (t == .yes) := by
  cases h with
  | test h =>
    rw [Condition.isTrue]
    exact h.map (· == .yes)
  | all h hs =>
    rw [Truth.and_eq_yes, Condition.isTrue]
    exact h.isTrue.thenAlso hs.allTrue
  | any h hs =>
    rw [Truth.or_eq_yes, Condition.isTrue]
    exact h.isTrue.elseAlso hs.anyTrue
  | notAll h hs =>
    rw [Truth.not_eq_yes, Truth.and_eq_no, Condition.isTrue]
    exact h.isFalse.elseAlso hs.anyFalse

theorem Means.isFalse {c : Condition} {t : Truth} (h : Means deep cells c t) :
    Settles deep (c.isFalse cells) (t == .no) := by
  cases h with
  | test h =>
    rw [Condition.isFalse]
    exact h.map (· == .no)
  | all h hs =>
    rw [Truth.and_eq_no, Condition.isFalse]
    exact h.isFalse.elseAlso hs.anyFalse
  | any h hs =>
    rw [Truth.or_eq_no, Condition.isFalse]
    exact h.isFalse.thenAlso hs.allFalse
  | notAll h hs =>
    rw [Truth.not_eq_no, Truth.and_eq_yes, Condition.isFalse]
    exact h.isTrue.thenAlso hs.allTrue

theorem MeansOf.allTrue {cs : List Condition} {t u : Truth} (h : MeansOf deep cells cs t u) :
    Settles deep (allTrue cells cs) (t == .yes) := by
  cases h with
  | nil => exact .inl rfl
  | cons h hs =>
    rw [Truth.and_eq_yes, Condition.allTrue]
    exact h.isTrue.thenAlso hs.allTrue

theorem MeansOf.anyFalse {cs : List Condition} {t u : Truth} (h : MeansOf deep cells cs t u) :
    Settles deep (anyFalse cells cs) (t == .no) := by
  cases h with
  | nil => exact .inl rfl
  | cons h hs =>
    rw [Truth.and_eq_no, Condition.anyFalse]
    exact h.isFalse.elseAlso hs.anyFalse

theorem MeansOf.anyTrue {cs : List Condition} {t u : Truth} (h : MeansOf deep cells cs t u) :
    Settles deep (anyTrue cells cs) (u == .yes) := by
  cases h with
  | nil => exact .inl rfl
  | cons h hs =>
    rw [Truth.or_eq_yes, Condition.anyTrue]
    exact h.isTrue.elseAlso hs.anyTrue

theorem MeansOf.allFalse {cs : List Condition} {t u : Truth} (h : MeansOf deep cells cs t u) :
    Settles deep (allFalse cells cs) (u == .no) := by
  cases h with
  | nil => exact .inl rfl
  | cons h hs =>
    rw [Truth.or_eq_no, Condition.allFalse]
    exact h.isFalse.thenAlso hs.allFalse

end

end Condition

namespace Filter

variable {d : Document}

mutual

theorem means_compile (f : Filter) (key : ℤ) {c : Condition} (h : f.compile = .ok c)
    (hdeep : ∀ l ∈ f.leaves, l.IsTooDeep d → deep) :
    Condition.Means deep (Row.ofDocument key d).cell c (f.truth d) := by
  match f with
  | .comparison l =>
    obtain ⟨field, t, hfield, ht, rfl⟩ := compile_comparison_eq_ok h
    rw [truth]
    exact .test (settles_testTruth hfield ht (hdeep l (by simp [leaves])) key)
  | .logical operator f fs =>
    obtain ⟨c', cs, hc, hcs, rfl⟩ := compile_logical_eq_ok h
    simp only [leaves, List.mem_append] at hdeep
    have hf := means_compile f key hc fun l hl => hdeep l (.inl hl)
    have hfs := means_compileItems fs key hcs fun l hl => hdeep l (.inr hl)
    cases operator with
    | and => exact hf.all hfs
    | or => exact hf.any hfs
    | not => exact hf.notAll hfs

theorem means_compileItems (fs : List Filter) (key : ℤ) {cs : List Condition}
    (h : compileItems fs = .ok cs)
    (hdeep : ∀ l ∈ leavesOf fs, l.IsTooDeep d → deep) :
    Condition.MeansOf deep (Row.ofDocument key d).cell cs (truthOfAll d fs) (truthOfAny d fs) := by
  match fs with
  | [] =>
    obtain rfl : [] = cs := by simpa [compileItems] using h
    exact .nil
  | f :: fs =>
    obtain ⟨c, cs', hc, hcs, rfl⟩ := compileItems_cons_eq_ok h
    simp only [leavesOf, List.mem_append] at hdeep
    have hf := means_compile f key hc fun l hl => hdeep l (.inl hl)
    have hfs := means_compileItems fs key hcs fun l hl => hdeep l (.inr hl)
    exact .cons hf hfs

end

end Filter

end

end DocumentStore
