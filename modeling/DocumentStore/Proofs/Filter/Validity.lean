import DocumentStore.Filter.Condition
import DocumentStore.Proofs.Filter.Segments
import DocumentStore.Proofs.Filter.WireFormat

/-! Which filters compile. A comparison has faults in its field, in a value that is to be ordered
and in a list that is to be searched, and a filter has those of its comparisons from left to right.
Main statement: a filter without faults compiles, and the error of any other filter is its first
fault. -/
namespace DocumentStore

namespace Field

def IsKey (segment : List Char) : Prop := segment ≠ [] ∧ ∀ c ∈ segment, isKeyChar c = true

/-- The fields that there are: the columns, and the paths of which every segment can be a key. -/
def Resolves (s : String) : Prop :=
  (∃ c : Column, s = c.name) ∨ ∃ segments, segments? s = some segments ∧ ∀ t ∈ segments, IsKey t

/-- The faults of a segment: that it is empty, or its bad characters. -/
def segmentFaults (segment : List Char) : List KeyFault :=
  if segment = [] then [.empty] else (segment.filter fun c => !isKeyChar c).map .unsupported

/-- The faults of a field: those of the segments of a path, or that it is no column. -/
def faults (s : String) : List FilterError :=
  match segments? s with
  | some segments => (segments.flatMap segmentFaults).map (.invalidMetaKey s)
  | none => if (Column.ofName? s).isSome then [] else [.unknownField s]

theorem segmentFaults_eq_nil {segment : List Char} : segmentFaults segment = [] ↔ IsKey segment := by
  rw [segmentFaults, IsKey]
  split <;> simp_all

theorem keyFault?_eq (segment : List Char) : keyFault? segment = (segmentFaults segment).head? := by
  rw [keyFault?, segmentFaults]
  cases segment with
  | nil => rfl
  | cons c cs => simp [List.head?_filter]

theorem findsFirst_checkKeys (segments : List (List Char)) :
    FindsFirst (checkKeys segments) (segments.flatMap segmentFaults) := by
  induction segments with
  | nil => rfl
  | cons t ts ih =>
    rw [checkKeys, List.flatMap_cons, keyFault?_eq]
    cases hfaults : segmentFaults t with
    | cons fault faults => rfl
    | nil => cases hkeys : checkKeys ts <;> simpa [FindsFirst, hkeys, Except.map] using ih

theorem findsFirst_ofText (s : String) : FindsFirst (ofText s) (faults s) := by
  rw [ofText_eq, faults]
  cases segments? s with
  | some segments =>
    have h := findsFirst_checkKeys segments
    dsimp only
    cases hkeys : checkKeys segments with
    | ok keys => simpa [FindsFirst, hkeys] using h
    | error fault => simp_all [FindsFirst]
  | none => cases Column.ofName? s <;> simp [FindsFirst]

theorem faults_eq_nil {s : String} : faults s = [] ↔ Resolves s := by
  rw [faults, Resolves, ← ofName?_isSome]
  cases hsegments : segments? s with
  | some segments =>
    have hname : ¬(Column.ofName? s).isSome := by
      rw [ofName?_isSome]
      rintro ⟨c, rfl⟩
      rw [segments?_name] at hsegments
      cases hsegments
    simp [hname, segmentFaults_eq_nil]
  | none => simp [Option.isSome_iff_ne_none]

end Field

def Json.IsOrderable : Json → Prop
  | .array _ | .object _ => False
  | .string s => Calendar.isIso s = true
  | _ => True

namespace Comparison

/-- What it is for a comparison to be valid. -/
structure IsValid (c : Comparison) : Prop where
  field : Field.Resolves c.field
  value : c.operator.isOrdering = true → c.value.IsOrderable
  list : c.operator = .member ∨ c.operator = .notMember → ∃ items, c.value = .array items

def orderFaults (c : Comparison) : List FilterError :=
  if c.operator.isOrdering then
    match c.value with
    | .array _ | .object _ => [.unorderableValue c.value.kind]
    | .string s => if Calendar.isIso s then [] else [.notIsoDate s]
    | _ => []
  else []

def listFaults (c : Comparison) : List FilterError :=
  if c.operator = .member ∨ c.operator = .notMember then
    match c.value with
    | .array _ => []
    | _ => [.expectedList c.field c.operator]
  else []

/-- The faults of a comparison, of which those of the field come first. -/
def faults (c : Comparison) : List FilterError :=
  Field.faults c.field ++ (c.orderFaults ++ c.listFaults)

theorem orderFaults_eq_nil {c : Comparison} :
    c.orderFaults = [] ↔ (c.operator.isOrdering = true → c.value.IsOrderable) := by
  rw [orderFaults]
  cases c.operator.isOrdering <;> cases c.value <;> simp [Json.IsOrderable]

theorem listFaults_eq_nil {c : Comparison} :
    c.listFaults = []
      ↔ (c.operator = .member ∨ c.operator = .notMember → ∃ items, c.value = .array items) := by
  rw [listFaults]
  split <;> cases c.value <;> simp_all

theorem faults_eq_nil {c : Comparison} : c.faults = [] ↔ c.IsValid := by
  rw [faults, List.append_eq_nil_iff, List.append_eq_nil_iff, Field.faults_eq_nil,
    orderFaults_eq_nil, listFaults_eq_nil]
  exact ⟨fun ⟨hfield, hvalue, hlist⟩ => ⟨hfield, hvalue, hlist⟩,
    fun h => ⟨h.field, h.value, h.list⟩⟩

example : faults ⟨"meta.a..b!", .greater, .string "x"⟩
    = [.invalidMetaKey "meta.a..b!" .empty, .invalidMetaKey "meta.a..b!" (.unsupported '!'),
        .notIsoDate "x"] := by
  decide

end Comparison

namespace Filter

theorem findsFirst_checkOrderable {c : Comparison} (h : c.operator.isOrdering = true) :
    FindsFirst (checkOrderable c.value) c.orderFaults := by
  rw [Comparison.orderFaults, if_pos h]
  cases c.value with
  | string s => cases hiso : Calendar.isIso s <;> simp [FindsFirst, checkOrderable, hiso]
  | _ => rfl

theorem findsFirst_listText {c : Comparison} (h : c.operator = .member ∨ c.operator = .notMember) :
    FindsFirst (listText c) c.listFaults := by
  rw [Comparison.listFaults, if_pos h, listText]
  cases c.value <;> rfl

theorem findsFirst_compileTest (c : Comparison) :
    FindsFirst (compileTest c) (c.orderFaults ++ c.listFaults) := by
  have hordering (hop : c.operator.isOrdering = true) (r : Relation) :
      FindsFirst ((checkOrderable c.value).map fun _ => Test.compare r (.ofJson c.value))
        (c.orderFaults ++ c.listFaults) := by
    have hlist : c.listFaults = [] := by
      rw [Comparison.listFaults, if_neg]
      rintro (ho | ho) <;> simp [ho, ComparisonOperator.isOrdering] at hop
    rw [hlist, List.append_nil]
    exact (findsFirst_checkOrderable hop).map _
  have hmember (hop : c.operator = .member ∨ c.operator = .notMember) (t : String → Test) :
      FindsFirst ((listText c).map t) (c.orderFaults ++ c.listFaults) := by
    have horder : c.orderFaults = [] := by
      rw [Comparison.orderFaults, if_neg]
      rcases hop with ho | ho <;> simp [ho, ComparisonOperator.isOrdering]
    rw [horder, List.nil_append]
    exact (findsFirst_listText hop).map _
  unfold compileTest
  cases ho : c.operator with
  | equal | notEqual => simp [FindsFirst, Comparison.orderFaults, Comparison.listFaults, ho,
      ComparisonOperator.isOrdering]
  | greater | greaterOrEqual | less | lessOrEqual =>
    exact hordering (by rw [ho]; rfl) _
  | member => exact hmember (.inl ho) _
  | notMember => exact hmember (.inr ho) _

theorem findsFirst_compileComparison (c : Comparison) :
    FindsFirst (compileComparison c) c.faults := by
  refine (Field.findsFirst_ofText c.field).bind fun field _ => ?_
  rw [← List.append_nil (c.orderFaults ++ c.listFaults)]
  exact (findsFirst_compileTest c).bind fun t _ => rfl

mutual

theorem findsFirst_compile (f : Filter) :
    FindsFirst f.compile (f.leaves.flatMap Comparison.faults) := by
  match f with
  | .comparison c =>
    rw [compile, leaves, List.flatMap_singleton]
    exact findsFirst_compileComparison c
  | .logical operator f fs =>
    rw [compile, leaves, List.flatMap_append]
    refine (findsFirst_compile f).bind fun c _ => ?_
    rw [← List.append_nil ((leavesOf fs).flatMap _)]
    exact (findsFirst_compileItems fs).bind fun cs _ => rfl

theorem findsFirst_compileItems (fs : List Filter) :
    FindsFirst (compileItems fs) ((leavesOf fs).flatMap Comparison.faults) := by
  match fs with
  | [] =>
    rw [compileItems]
    rfl
  | f :: fs =>
    rw [compileItems, leavesOf, List.flatMap_append]
    refine (findsFirst_compile f).bind fun c _ => ?_
    rw [← List.append_nil ((leavesOf fs).flatMap _)]
    exact (findsFirst_compileItems fs).bind fun cs _ => rfl

end

/-- A filter compiles just if all of its comparisons are valid. Otherwise the error is the first
fault of the first comparison, from left to right, that is not. -/
theorem compile_checks (f : Filter) :
    ((∃ c, f.compile = .ok c) ↔ ∀ l ∈ f.leaves, l.IsValid)
      ∧ ∀ e, f.compile = .error e ↔ ∃ before l after, f.leaves = before ++ l :: after
          ∧ (∀ b ∈ before, b.IsValid) ∧ l.faults.head? = some e := by
  have h := findsFirst_compile f
  constructor
  · simp only [h.exists_ok_iff, List.flatMap_eq_nil_iff, Comparison.faults_eq_nil]
  · intro e
    rw [h.error_iff, List.head?_flatMap, List.findSome?_eq_some_iff]
    simp only [List.head?_eq_none_iff, Comparison.faults_eq_nil]
    constructor
    · rintro ⟨before, l, after, hleaves, hfault, hvalid⟩
      exact ⟨before, l, after, hleaves, hvalid, hfault⟩
    · rintro ⟨before, l, after, hleaves, hvalid, hfault⟩
      exact ⟨before, l, after, hleaves, hfault, hvalid⟩

end Filter
end DocumentStore
