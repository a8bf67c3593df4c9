import DocumentStore.Proofs.Filter.Pieces

/-! Compiled filters as they are read in a statement. Main statement: the text of a filter's
condition is read as an expression over the comparisons of the filter, which has the value of the
filter whatever the truths of these comparisons are, and each question mark stands in the comparison
whose value is bound to it. -/
namespace DocumentStore

open Syntax

namespace Comparison

/-- Whether a field is compared with null for equality, which asks for no value. -/
def isNullEquality (c : Comparison) : Bool :=
  decide (c.operator = .equal) && decide (c.value = .null)

def binds (c : Comparison) : Bool := !c.isNullEquality

/-- The value that is bound for a comparison: the text of a list, or the cell of any other value. -/
def parameter (c : Comparison) : Cell :=
  match c.operator with
  | .member | .notMember => .text c.value.text
  | _ => .ofJson c.value

end Comparison

namespace Filter

mutual

/-- The value of a filter whose comparisons have some truths. They are numbered from left to
right. -/
def valueFrom (σ : ℕ → Truth) (position : ℕ) : Filter → Truth
  | .comparison _ => σ position
  | .logical .and f fs =>
    (valueFrom σ position f).and (joinFrom σ .and (position + f.leafCount) fs)
  | .logical .or f fs =>
    (valueFrom σ position f).or (joinFrom σ .or (position + f.leafCount) fs)
  | .logical .not f fs =>
    ((valueFrom σ position f).and (joinFrom σ .and (position + f.leafCount) fs)).not

def joinFrom (σ : ℕ → Truth) (k : Connective) (position : ℕ) : List Filter → Truth
  | [] => k.unit
  | f :: fs => k.apply (valueFrom σ position f) (joinFrom σ k (position + f.leafCount) fs)

end

end Filter

/-- A comparison with its place among the comparisons of a filter, and with the number of values
that are bound before its own. -/
structure Leaf where
  position : ℕ
  slot : ℕ
  comparison : Comparison
  field : Field
  names : Field.ofText comparison.field = .ok field

/-- What is read where a comparison stands. A value is not in a list if it is null or not found. -/
def Leaf.reading (l : Leaf) : Expr Atom :=
  match l.comparison.operator with
  | .equal =>
    .leaf ⟨l.field, if l.comparison.value = .null then .isNull else .compare .equal l.slot⟩
  | .notEqual => .leaf ⟨l.field, .isNot l.slot⟩
  | .greater => .leaf ⟨l.field, .compare .greater l.slot⟩
  | .greaterOrEqual => .leaf ⟨l.field, .compare .greaterOrEqual l.slot⟩
  | .less => .leaf ⟨l.field, .compare .less l.slot⟩
  | .lessOrEqual => .leaf ⟨l.field, .compare .lessOrEqual l.slot⟩
  | .member => .leaf ⟨l.field, .among l.slot⟩
  | .notMember => .join .or (.leaf ⟨l.field, .isNull⟩) (.leaf ⟨l.field, .notAmong l.slot⟩)

namespace Syntax

theorem Connective.apply_assoc (k : Connective) (s t u : Truth) :
    k.apply (k.apply s t) u = k.apply s (k.apply t u) := by
  cases k <;> cases s <;> cases t <;> cases u <;> rfl

theorem Connective.apply_unit (k : Connective) (t : Truth) : k.apply t k.unit = t := by
  cases k <;> cases t <;> rfl

namespace Expr

variable {α β : Type} (k : Connective) (e : Expr α) (es : List (Expr α))

theorem bind_foldl (g : α → Expr β) :
    (es.foldl (.join k) e).bind g = (es.map (·.bind g)).foldl (.join k) (e.bind g) := by
  induction es generalizing e with
  | nil => rfl
  | cons e' es ih => exact ih (.join k e e')

theorem leaves_foldl : (es.foldl (.join k) e).leaves = e.leaves ++ es.flatMap leaves := by
  induction es generalizing e with
  | nil => simp
  | cons e' es ih => simp [ih (.join k e e'), leaves]

theorem eval_foldl (σ : α → Truth) :
    (es.foldl (.join k) e).eval σ
      = k.apply (e.eval σ) (es.foldr (fun e t => k.apply (e.eval σ) t) k.unit) := by
  induction es generalizing e with
  | nil => exact (k.apply_unit _).symm
  | cons e' es ih => simp [ih (.join k e e'), eval, k.apply_assoc]

end Expr

end Syntax

theorem Filter.parameters_compileTest {l : Comparison} {t : Test} (h : compileTest l = .ok t) :
    t.parameters = if l.binds then [l.parameter] else [] := by
  unfold compileTest at h
  cases ho : l.operator with
  | equal =>
    simp only [ho, Except.ok.injEq] at h
    subst h
    by_cases hv : l.value = .null <;>
      simp [hv, ho, Comparison.binds, Comparison.isNullEquality, Comparison.parameter,
        Test.parameters]
  | notEqual =>
    simp only [ho, Except.ok.injEq] at h
    subst h
    simp [ho, Comparison.binds, Comparison.isNullEquality, Comparison.parameter, Test.parameters]
  | greater | greaterOrEqual | less | lessOrEqual =>
    simp only [ho] at h
    obtain ⟨-, -, rfl⟩ := map_eq_ok h
    simp [ho, Comparison.binds, Comparison.isNullEquality, Comparison.parameter, Test.parameters]
  | member | notMember =>
    simp only [ho] at h
    obtain ⟨text, hl, rfl⟩ := map_eq_ok h
    obtain ⟨items, hvalue, rfl⟩ := listText_eq_ok hl
    simp [ho, hvalue, Comparison.binds, Comparison.isNullEquality, Comparison.parameter,
      Test.parameters]

theorem Leaf.testExpr_eq (l : Leaf) {t : Test} (h : Filter.compileTest l.comparison = .ok t) :
    testExpr l.field l.slot t = l.reading := by
  unfold Filter.compileTest at h
  cases ho : l.comparison.operator with
  | equal =>
    simp only [ho, Except.ok.injEq] at h
    subst h
    by_cases hv : l.comparison.value = .null <;> simp [hv, ho, testExpr, reading]
  | notEqual =>
    simp only [ho, Except.ok.injEq] at h
    subst h
    simp [ho, testExpr, reading]
  | greater | greaterOrEqual | less | lessOrEqual | member | notMember =>
    simp only [ho] at h
    obtain ⟨-, -, rfl⟩ := map_eq_ok h
    simp [ho, testExpr, reading]

theorem Condition.text_textRest (k : Connective) (cs : List Condition) :
    (Condition.textRest (String.ofList (link k)) cs).toList
      = linked k (cs.map (·.text.toList)) := by
  induction cs with
  | nil => simp [textRest, linked]
  | cons c cs ih => simp [textRest, linked, ih]

/-- How a filter stands in a text: as an expression over its comparisons, which are numbered from
`position`, and whose question marks are numbered from `slot`. -/
structure ReadBack (f : Filter) (c : Condition) (position slot : ℕ) (e : Expr Leaf) : Prop where
  reads : ∀ fuel, c.text.toList.length ≤ fuel → Reads (readNegation fuel) EndsWord slot
    (slot + c.parameters.length) c.text.toList (e.bind Leaf.reading)
  comparisons : e.leaves.map Leaf.comparison = f.leaves
  positions : e.leaves.map Leaf.position = List.range' position f.leafCount
  slots : (e.leaves.filter (·.comparison.binds)).map Leaf.slot
    = List.range' slot c.parameters.length
  value : ∀ σ, e.eval (fun l => σ l.position) = f.valueFrom σ position
  parameters : c.parameters = (f.leaves.filter Comparison.binds).map Comparison.parameter
  placeholders : c.placeholders = c.parameters.length

/-- The same for conditions that are linked. -/
structure ReadBackAll (fs : List Filter) (cs : List Condition) (position slot : ℕ)
    (es : List (Expr Leaf)) : Prop where
  reads : ∀ fuel, (∀ c ∈ cs, c.text.toList.length ≤ fuel) → ReadsAll (readNegation fuel) EndsWord
    slot (slot + (Condition.parametersOf cs).length) (cs.map (·.text.toList))
    (es.map (·.bind Leaf.reading))
  comparisons : (es.flatMap Expr.leaves).map Leaf.comparison = Filter.leavesOf fs
  positions : (es.flatMap Expr.leaves).map Leaf.position
    = List.range' position (Filter.leavesOf fs).length
  slots : ((es.flatMap Expr.leaves).filter (·.comparison.binds)).map Leaf.slot
    = List.range' slot (Condition.parametersOf cs).length
  value : ∀ σ k, es.foldr (fun e t => k.apply (e.eval fun l => σ l.position) t) k.unit
    = Filter.joinFrom σ k position fs
  parameters : Condition.parametersOf cs
    = ((Filter.leavesOf fs).filter Comparison.binds).map Comparison.parameter
  placeholders : ∀ k, (linked k (cs.map (·.text.toList))).count '?'
    = (Condition.parametersOf cs).length

variable {f : Filter} {fs : List Filter} {c : Condition} {cs : List Condition}
  {position slot : ℕ} {e : Expr Leaf} {es : List (Expr Leaf)}

theorem ReadBack.comparison (l : Leaf) {t : Test}
    (h : Filter.compileTest l.comparison = .ok t) :
    ReadBack (.comparison l.comparison) (.test l.field t) l.position l.slot (.leaf l) where
  reads fuel hfuel := by
    have hlength := length_text_test l.field.text t
    rw [Condition.text] at hfuel
    obtain ⟨fuel, rfl⟩ := Nat.exists_eq_add_one_of_ne_zero (show fuel ≠ 0 by omega)
    have hreads := reads_test (n := l.slot) (Field.plain_of_ofText l.names) t
      (show 2 ≤ fuel by omega)
    rw [l.testExpr_eq h] at hreads
    exact hreads
  comparisons := rfl
  positions := rfl
  slots := by
    have hparameters := Filter.parameters_compileTest h
    rw [Condition.parameters, hparameters]
    cases hb : l.comparison.binds <;> simp [Expr.leaves, hb]
  value _ := rfl
  parameters := by
    rw [Condition.parameters, Filter.parameters_compileTest h, Filter.leaves]
    cases hb : l.comparison.binds <;> simp [hb]
  placeholders := count_text_test (Field.plain_of_ofText l.names) t

theorem ReadBackAll.nil (position slot : ℕ) : ReadBackAll [] [] position slot [] where
  reads _ _ := .nil slot
  comparisons := rfl
  positions := rfl
  slots := rfl
  value _ _ := rfl
  parameters := rfl
  placeholders _ := rfl

theorem ReadBackAll.cons (h : ReadBack f c position slot e)
    (hs : ReadBackAll fs cs (position + f.leafCount) (slot + c.parameters.length) es) :
    ReadBackAll (f :: fs) (c :: cs) position slot (e :: es) where
  reads fuel hfuel := by
    rw [Condition.parametersOf, List.length_append, ← Nat.add_assoc]
    exact .cons (h.reads fuel (hfuel c (by simp)))
      (hs.reads fuel fun c' hc' => hfuel c' (by simp [hc']))
  comparisons := by simp [h.comparisons, hs.comparisons, Filter.leavesOf]
  positions := by
    rw [List.flatMap_cons, List.map_append, h.positions, hs.positions, Filter.leavesOf,
      List.length_append, ← List.range'_append_1]
    rfl
  slots := by
    rw [List.flatMap_cons, List.filter_append, List.map_append, h.slots, hs.slots,
      Condition.parametersOf, List.length_append, ← List.range'_append_1]
  value σ k := by
    rw [List.foldr_cons, h.value, hs.value, Filter.joinFrom]
  parameters := by
    rw [Condition.parametersOf, h.parameters, hs.parameters, Filter.leavesOf, List.filter_append,
      List.map_append]
  placeholders k := by
    have hcount : c.text.toList.count '?' = c.parameters.length := h.placeholders
    have hrest := hs.placeholders k
    have hlink : (link k).count '?' = 0 := by cases k <;> decide
    rw [linked] at hrest ⊢
    rw [List.map_cons, List.flatMap_cons, List.count_append, List.count_append, hlink, hcount,
      hrest, Condition.parametersOf, List.length_append, Nat.zero_add]

def Syntax.Connective.operator : Connective → LogicalOperator
  | .and => .and
  | .or => .or

theorem Condition.text_connect (k : Connective) (c : Condition) (cs : List Condition) :
    (Filter.connect k.operator c cs).text.toList
      = '(' :: (c.text.toList ++ linked k (cs.map (·.text.toList)) ++ [')']) := by
  have hand : " AND " = String.ofList (link .and) := by decide
  have hor : " OR " = String.ofList (link .or) := by decide
  cases k with
  | and => simp [Syntax.Connective.operator, Filter.connect, text, hand, text_textRest]
  | or => simp [Syntax.Connective.operator, Filter.connect, text, hor, text_textRest]

theorem Condition.parameters_connect (k : Connective) (c : Condition) (cs : List Condition) :
    (Filter.connect k.operator c cs).parameters = c.parameters ++ parametersOf cs := by
  cases k <;> rfl

theorem Filter.valueFrom_logical (σ : ℕ → Truth) (k : Connective) (position : ℕ) (f : Filter)
    (fs : List Filter) :
    (Filter.logical k.operator f fs).valueFrom σ position
      = k.apply (f.valueFrom σ position) (joinFrom σ k (position + f.leafCount) fs) := by
  cases k <;> rfl

/-- Linked conditions in parentheses stand for the conjunction or disjunction of their filters. -/
theorem ReadBack.join (k : Connective) (h : ReadBack f c position slot e)
    (hs : ReadBackAll fs cs (position + f.leafCount) (slot + c.parameters.length) es) :
    ReadBack (.logical k.operator f fs) (Filter.connect k.operator c cs) position slot
      (es.foldl (.join k) e) := by
  have hall := ReadBackAll.cons h hs
  have hleaves : (es.foldl (.join k) e).leaves = (e :: es).flatMap Expr.leaves := by
    rw [Expr.leaves_foldl, List.flatMap_cons]
  refine ⟨fun fuel hfuel => ?_, ?_, ?_, ?_, fun σ => ?_, ?_, ?_⟩
  · rw [Condition.text_connect] at hfuel ⊢
    rw [Condition.parameters_connect, List.length_append, ← Nat.add_assoc, Expr.bind_foldl]
    obtain ⟨hcount, hpieces⟩ := length_linked k (cs.map (·.text.toList))
    simp only [List.length_cons, List.length_append, List.length_nil] at hfuel
    obtain ⟨fuel, rfl⟩ := Nat.exists_eq_add_one_of_ne_zero (show fuel ≠ 0 by omega)
    have hfirst := h.reads fuel (by omega)
    have hrest := hs.reads fuel fun c' hc' => by
      have hle := hpieces _ (List.mem_map_of_mem hc')
      omega
    exact hfirst.join hrest (by omega)
  · rw [hleaves, hall.comparisons]
    rfl
  · rw [hleaves, hall.positions]
    rfl
  · rw [hleaves, hall.slots, Condition.parameters_connect]
    rfl
  · rw [Expr.eval_foldl, h.value, hs.value, Filter.valueFrom_logical]
  · rw [Condition.parameters_connect]
    exact hall.parameters
  · have hcount : c.text.toList.count '?' = c.parameters.length := h.placeholders
    rw [Condition.placeholders, Condition.text_connect, Condition.parameters_connect]
    simp [hcount, hs.placeholders k]

theorem Condition.text_notAll (c : Condition) (cs : List Condition) :
    (Condition.notAll c cs).text.toList
      = Keyword.not.spelling.toList ++ ' ' :: (Condition.all c cs).text.toList := by
  have hnot : "NOT (".toList = Keyword.not.spelling.toList ++ ' ' :: "(".toList := by decide
  simp only [text, String.toList_append, hnot, List.append_assoc, List.cons_append]

theorem ReadBack.not (h : ReadBack (.logical .and f fs) (.all c cs) position slot e) :
    ReadBack (.logical .not f fs) (.notAll c cs) position slot (.not e) where
  reads fuel hfuel := by
    rw [Condition.text_notAll] at hfuel ⊢
    simp only [List.length_append, List.length_cons] at hfuel
    obtain ⟨fuel, rfl⟩ := Nat.exists_eq_add_one_of_ne_zero (show fuel ≠ 0 by omega)
    exact (h.reads fuel (by omega)).not
  comparisons := h.comparisons
  positions := h.positions
  slots := h.slots
  value σ := congrArg Truth.not (h.value σ)
  parameters := h.parameters
  placeholders := by
    have hcount : (Condition.all c cs).text.toList.count '?'
        = (Condition.all c cs).parameters.length := h.placeholders
    have hnot : Keyword.not.spelling.toList.count '?' = 0 := by decide
    rw [Condition.placeholders, Condition.text_notAll, List.count_append, hnot, Nat.zero_add,
      List.count_cons_of_ne (by decide), hcount]
    rfl

namespace Filter

mutual

theorem readBack_compile (f : Filter) {c : Condition} (h : f.compile = .ok c) (position slot : ℕ) :
    ∃ e, ReadBack f c position slot e := by
  match f with
  | .comparison l =>
    obtain ⟨field, t, hfield, ht, rfl⟩ := compile_comparison_eq_ok h
    exact ⟨_, .comparison ⟨position, slot, l, field, hfield⟩ ht⟩
  | .logical operator f fs =>
    obtain ⟨c', cs, hc, hcs, rfl⟩ := compile_logical_eq_ok h
    obtain ⟨e, he⟩ := readBack_compile f hc position slot
    obtain ⟨es, hes⟩ := readBackAll_compile fs hcs (position + f.leafCount)
      (slot + c'.parameters.length)
    cases operator with
    | and => exact ⟨_, he.join .and hes⟩
    | or => exact ⟨_, he.join .or hes⟩
    | not => exact ⟨_, (he.join .and hes).not⟩

theorem readBackAll_compile (fs : List Filter) {cs : List Condition} (h : compileItems fs = .ok cs)
    (position slot : ℕ) : ∃ es, ReadBackAll fs cs position slot es := by
  match fs with
  | [] =>
    obtain rfl : [] = cs := by simpa [compileItems] using h
    exact ⟨[], .nil position slot⟩
  | f :: fs =>
    obtain ⟨c, cs', hc, hcs, rfl⟩ := compileItems_cons_eq_ok h
    obtain ⟨e, he⟩ := readBack_compile f hc position slot
    obtain ⟨es, hes⟩ := readBackAll_compile fs hcs (position + f.leafCount)
      (slot + c.parameters.length)
    exact ⟨_, .cons he hes⟩

end

/-- The text of a filter's condition is read as an expression over the comparisons of the filter,
from left to right, which has the value of the filter whatever their truths are. Each question mark
stands in the comparison whose value is bound to it, and equality with null is the only comparison
without one. -/
theorem read_compiled {f : Filter} {c : Condition} (h : f.compile = .ok c) :
    (∃ e : Expr Leaf, Syntax.read c.text = some (e.bind Leaf.reading)
        ∧ e.leaves.map Leaf.comparison = f.leaves
        ∧ e.leaves.map Leaf.position = List.range f.leafCount
        ∧ (e.leaves.filter (·.comparison.binds)).map Leaf.slot = List.range c.placeholders
        ∧ ∀ σ : ℕ → Truth, e.eval (fun l => σ l.position) = f.valueFrom σ 0)
      ∧ c.placeholders = c.parameters.length
      ∧ c.placeholders = f.leafCount - f.leaves.countP Comparison.isNullEquality
      ∧ c.parameters = (f.leaves.filter Comparison.binds).map Comparison.parameter := by
  obtain ⟨e, he⟩ := readBack_compile f h 0 0
  have hread : Syntax.read c.text = some (e.bind Leaf.reading) :=
    read_of_reads (he.reads _ (Nat.le_succ _))
  have hlength : c.parameters.length = f.leafCount - f.leaves.countP Comparison.isNullEquality := by
    have hsplit := List.length_eq_countP_add_countP Comparison.isNullEquality (l := f.leaves)
    rw [he.parameters, List.length_map, ← List.countP_eq_length_filter, leafCount]
    have hbinds : f.leaves.countP Comparison.binds
        = f.leaves.countP fun c => !c.isNullEquality := rfl
    rw [hbinds]
    simp only [Bool.not_eq_true, Bool.decide_eq_false] at hsplit
    omega
  refine ⟨⟨e, hread, he.comparisons, ?_, ?_, he.value⟩, he.placeholders, ?_, he.parameters⟩
  · rw [he.positions, List.range_eq_range']
  · rw [he.slots, he.placeholders, List.range_eq_range']
  · rw [he.placeholders, hlength]

/-- A filter with every logical operator, an equality with null and a test in two parts. -/
def mixed : Filter :=
  .logical .or
    (.logical .not (.comparison ⟨"id", .equal, .null⟩)
      [.comparison ⟨"score", .greater, .integer 1⟩])
    [.logical .and (.comparison ⟨"meta.page count", .notMember, .array [.string "x"]⟩) []]

theorem read_mixed :
    ∃ c, mixed.compile = .ok c ∧ (∃ e, Syntax.read c.text = some e) ∧ c.placeholders = 2
      ∧ c.parameters = [.integer 1, .text "[\"x\"]"]
      ∧ c.text = "(NOT (id IS NULL AND score > ?) OR ((json_extract(meta, '$.\"page count\"') IS NULL "
        ++ "OR json_extract(meta, '$.\"page count\"') NOT IN (SELECT value FROM json_each(?)))))" := by
  have hcompile : mixed.compile = .ok (.any
      (.notAll (.test (.column .id) .isNull)
        [.test (.column .score) (.compare .greater (.integer 1))])
      [.all (.test (.path ["page count"]) (.notAmong "[\"x\"]")) []]) := rfl
  obtain ⟨⟨e, hread, -⟩, hlength, -⟩ := read_compiled hcompile
  exact ⟨_, hcompile, ⟨_, hread⟩, hlength, rfl, by decide +kernel⟩

end Filter

end DocumentStore
