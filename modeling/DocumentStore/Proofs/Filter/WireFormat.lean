import DocumentStore.Filter.Wire
import DocumentStore.Proofs.Json.StrictText
import DocumentStore.Proofs.Outcome

/-! The wire format of filters. Main statement: a filter is read from what it is written as, the
values read as filters are told by their keys, writing one back drops just the keys that are not
read, and any other value is refused for the first of its faults. -/
namespace DocumentStore

section

variable {ε α β : Type}

/-- A check passes if there is no fault, and otherwise finds the first one. -/
def FindsFirst (check : Except ε α) (faults : List ε) : Prop :=
  match check with
  | .ok _ => faults = []
  | .error e => faults.head? = some e

theorem FindsFirst.error_append {e : ε} {as : List ε}
    (h : FindsFirst (.error e : Except ε α) as) (bs : List ε) :
    FindsFirst (.error e : Except ε β) (as ++ bs) := by
  obtain ⟨rest, rfl⟩ := List.head?_eq_some_iff.mp h
  rfl

theorem FindsFirst.bind {x : Except ε α} {f : α → Except ε β} {as bs : List ε}
    (hx : FindsFirst x as) (hf : ∀ a, x = .ok a → FindsFirst (f a) bs) :
    FindsFirst (x >>= f) (as ++ bs) := by
  cases x with
  | error e => exact hx.error_append bs
  | ok a =>
    obtain rfl : as = [] := hx
    exact hf a rfl

theorem FindsFirst.error_iff {x : Except ε α} {faults : List ε} (h : FindsFirst x faults) (e : ε) :
    x = .error e ↔ faults.head? = some e := by
  cases x with
  | error e' =>
    obtain ⟨rest, rfl⟩ := List.head?_eq_some_iff.mp h
    simp
  | ok a =>
    obtain rfl : faults = [] := h
    simp

theorem FindsFirst.exists_ok_iff {x : Except ε α} {faults : List ε} (h : FindsFirst x faults) :
    (∃ a, x = .ok a) ↔ faults = [] := by
  cases x with
  | ok a => simpa [FindsFirst] using h
  | error e =>
    obtain ⟨rest, rfl⟩ := List.head?_eq_some_iff.mp h
    simp

theorem FindsFirst.map {x : Except ε α} {faults : List ε} (h : FindsFirst x faults) (f : α → β) :
    FindsFirst (x.map f) faults := by
  cases x <;> exact h

end

theorem ComparisonOperator.ofSpelling?_eq_some {s : String} {o : ComparisonOperator} :
    ofSpelling? s = some o ↔ s = o.spelling := by
  constructor
  · intro h
    exact (by simpa using List.find?_some h : o.spelling = s).symm
  · rintro rfl
    exact ofSpelling?_spelling o

theorem LogicalOperator.ofSpelling?_eq_some {s : String} {o : LogicalOperator} :
    ofSpelling? s = some o ↔ s = o.spelling := by
  constructor
  · intro h
    exact (by simpa using List.find?_some h : o.spelling = s).symm
  · rintro rfl
    exact ofSpelling?_spelling o

namespace Filter

/-- The values that stand for a filter. -/
inductive Accepted : Json → Prop
  | comparison {fields : Json.Fields} (field : String) (operator : ComparisonOperator)
      (value : Json) (hfield : fields.lookup "field" = some (.string field))
      (hoperator : fields.lookup "operator" = some (.string operator.spelling))
      (hvalue : fields.lookup "value" = some value) : Accepted (.object fields)
  | logical {fields : Json.Fields} (operator : LogicalOperator) (first : Json) (rest : List Json)
      (hfield : fields.lookup "field" = none)
      (hoperator : fields.lookup "operator" = some (.string operator.spelling))
      (hconditions : fields.lookup "conditions" = some (.array (first :: rest)))
      (accepted : ∀ v ∈ first :: rest, Accepted v) : Accepted (.object fields)

def nodeKeys (fields : Json.Fields) : List String :=
  if (fields.lookup "field").isSome then ["field", "operator", "value"]
  else ["conditions", "operator"]

mutual

/-- A value without the keys of its nodes that are not read. -/
def pruned : Json → Json
  | .object fields => .object (prunedFields (nodeKeys fields) fields)
  | v => v

def prunedFields (keys : List String) : Json.Fields → Json.Fields
  | [] => []
  | (k, v) :: fields =>
    if k ∈ keys then
      (k, if k = "conditions" then prunedConditions v else v) :: prunedFields keys fields
    else prunedFields keys fields

def prunedConditions : Json → Json
  | .array items => .array (prunedItems items)
  | v => v

def prunedItems : List Json → List Json
  | [] => []
  | v :: vs => pruned v :: prunedItems vs

end

section

variable (fields : Json.Fields)

def presenceFaults (key : String) : List FilterError :=
  match fields.lookup key with
  | some _ => []
  | none => [.missingKey key (.object fields)]

def textFaults (key : String) : List FilterError :=
  match fields.lookup key with
  | some (.string _) => []
  | some v => [.wrongType key "a string" v.kind]
  | none => [.missingKey key (.object fields)]

def spellingFaults {α : Type} (ofSpelling? : String → Option α) (unknown : String → FilterError) :
    List FilterError :=
  match fields.lookup "operator" with
  | some (.string s) => if (ofSpelling? s).isSome then [] else [unknown s]
  | _ => []

def listFaults : List FilterError :=
  match fields.lookup "conditions" with
  | some (.array _) | none => []
  | some v => [.wrongType "conditions" "a list" v.kind]

def emptinessFaults : List FilterError :=
  match fields.lookup "operator", fields.lookup "conditions" with
  | some (.string s), some (.array []) =>
    ((LogicalOperator.ofSpelling? s).map FilterError.emptyConditions).toList
  | _, _ => []

def comparisonFaults : List FilterError :=
  textFaults fields "field" ++ (textFaults fields "operator" ++ (presenceFaults fields "value"
    ++ spellingFaults fields ComparisonOperator.ofSpelling? .unknownComparisonOperator))

/-- The faults of a logical node before its conditions are looked at one by one. -/
def logicalFaults : List FilterError :=
  textFaults fields "operator" ++ (presenceFaults fields "conditions"
    ++ (spellingFaults fields LogicalOperator.ofSpelling? .unknownLogicalOperator
    ++ listFaults fields))

end

mutual

/-- The faults of a value as a filter, in the order in which they are looked for. -/
def faults : Json → List FilterError
  | .object fields =>
    if (fields.lookup "field").isSome then comparisonFaults fields
    else logicalFaults fields ++ (conditionFaults fields ++ emptinessFaults fields)
  | v => [.notAnObject v.kind]

/-- The faults of the conditions of a node, from left to right. -/
def conditionFaults : Json.Fields → List FilterError
  | [] => []
  | (k, v) :: fields => if "conditions" = k then listedFaults v else conditionFaults fields

def listedFaults : Json → List FilterError
  | .array items => itemFaults items
  | _ => []

def itemFaults : List Json → List FilterError
  | [] => []
  | v :: vs => faults v ++ itemFaults vs

end

theorem conditionFaults_eq (fields : Json.Fields) :
    conditionFaults fields = ((fields.lookup "conditions").map listedFaults).getD [] := by
  induction fields with
  | nil => rfl
  | cons f fields ih =>
    obtain ⟨k, v⟩ := f
    rw [conditionFaults, List.lookup_cons]
    by_cases hk : "conditions" = k
    · simp [hk]
    · simp [beq_eq_false_iff_ne.mpr hk, hk, ih]

section

variable {fields : Json.Fields} {key : String}

theorem required_eq_ok {v : Json} : required fields key = .ok v ↔ fields.lookup key = some v := by
  cases h : fields.lookup key <;> simp [required, h]

theorem requiredText_eq_ok {s : String} :
    requiredText fields key = .ok s ↔ fields.lookup key = some (.string s) := by
  cases h : fields.lookup key with
  | none => simp [requiredText, required, h]
  | some v => cases v <;> simp [requiredText, required, h]

theorem findsFirst_required (fields : Json.Fields) (key : String) :
    FindsFirst (required fields key) (presenceFaults fields key) := by
  cases h : fields.lookup key <;> simp [FindsFirst, required, presenceFaults, h]

theorem findsFirst_requiredText (fields : Json.Fields) (key : String) :
    FindsFirst (requiredText fields key) (textFaults fields key) := by
  cases h : fields.lookup key with
  | none => simp [FindsFirst, requiredText, required, textFaults, h]
  | some v => cases v <;> simp [FindsFirst, requiredText, required, textFaults, h]

theorem findsFirst_readComparison (fields : Json.Fields) :
    FindsFirst (readComparison fields) (comparisonFaults fields) := by
  refine (findsFirst_requiredText fields "field").bind fun field _ => ?_
  refine (findsFirst_requiredText fields "operator").bind fun spelling hspelling => ?_
  refine (findsFirst_required fields "value").bind fun value _ => ?_
  rw [spellingFaults, requiredText_eq_ok.mp hspelling]
  cases h : ComparisonOperator.ofSpelling? spelling <;>
    simp [FindsFirst, pure, Except.pure, throw, throwThe, MonadExceptOf.throw, h]

theorem findsFirst_readLogical (fields : Json.Fields) :
    FindsFirst (readLogical fields) (logicalFaults fields) := by
  have htext := findsFirst_requiredText fields "operator"
  rw [readLogical, logicalFaults]
  split
  · rename_i e he
    rw [he] at htext
    exact htext.error_append _
  · rename_i spelling hspelling
    rw [hspelling] at htext
    have hnone : textFaults fields "operator" = [] := htext
    rw [requiredText_eq_ok] at hspelling
    rw [hnone, List.nil_append]
    split
    · rename_i hconditions
      simp [FindsFirst, presenceFaults, hconditions]
    · rename_i v hconditions
      cases hoperator : LogicalOperator.ofSpelling? spelling with
      | none => simp [FindsFirst, presenceFaults, spellingFaults, hconditions, hspelling, hoperator]
      | some operator =>
        cases v <;>
          simp [FindsFirst, presenceFaults, spellingFaults, listFaults, hconditions, hspelling,
            hoperator]

theorem readLogical_eq_ok {operator : LogicalOperator}
    {items : { items : List Json // sizeOf items < sizeOf fields }} :
    readLogical fields = .ok (operator, items)
      ↔ fields.lookup "operator" = some (.string operator.spelling)
        ∧ fields.lookup "conditions" = some (.array items.1) := by
  rw [readLogical]
  split
  · rename_i e he
    have hno : fields.lookup "operator" ≠ some (.string operator.spelling) := fun h => by
      rw [requiredText_eq_ok.mpr h] at he
      cases he
    simp [hno]
  · rename_i spelling hspelling
    rw [requiredText_eq_ok] at hspelling
    split
    · rename_i hconditions
      simp [hconditions]
    · rename_i v hconditions
      simp only [hspelling, hconditions, Option.some.injEq, Json.string.injEq]
      rw [← LogicalOperator.ofSpelling?_eq_some]
      cases hoperator : LogicalOperator.ofSpelling? spelling with
      | none => simp
      | some o => cases v <;> simp [Subtype.ext_iff]

theorem readComparison_eq_ok {c : Comparison} :
    readComparison fields = .ok c
      ↔ fields.lookup "field" = some (.string c.field)
        ∧ fields.lookup "operator" = some (.string c.operator.spelling)
        ∧ fields.lookup "value" = some c.value := by
  constructor
  · intro h
    obtain ⟨field, hfield, h⟩ := bind_eq_ok h
    obtain ⟨spelling, hspelling, h⟩ := bind_eq_ok h
    obtain ⟨value, hvalue, h⟩ := bind_eq_ok h
    split at h
    · rename_i operator hoperator
      cases h
      rw [ComparisonOperator.ofSpelling?_eq_some] at hoperator
      rw [← hoperator]
      exact ⟨requiredText_eq_ok.mp hfield, requiredText_eq_ok.mp hspelling,
        required_eq_ok.mp hvalue⟩
    · cases h
  · rintro ⟨hfield, hoperator, hvalue⟩
    simp [readComparison, requiredText_eq_ok.mpr hfield, requiredText_eq_ok.mpr hoperator,
      required_eq_ok.mpr hvalue, bind, Except.bind, pure, Except.pure]

end

theorem ofJson_comparison {fields : Json.Fields} (h : (fields.lookup "field").isSome) :
    ofJson (.object fields) = (readComparison fields).map .comparison := by
  rw [ofJson, if_pos h]
  cases readComparison fields <;> rfl

theorem ofJson_logical {fields : Json.Fields} (h : fields.lookup "field" = none) :
    ofJson (.object fields)
      = readLogical fields >>= fun node => ofJsonItems node.2 >>= ofConditions node.1 := by
  rw [ofJson, if_neg (by simp [h])]
  cases readLogical fields with
  | error e => rfl
  | ok node =>
    obtain ⟨operator, items, hsize⟩ := node
    simp only [bind, Except.bind]
    cases ofJsonItems items <;> rfl

theorem ofJsonItems_cons (v : Json) (vs : List Json) :
    ofJsonItems (v :: vs) = ofJson v >>= fun f => ofJsonItems vs >>= fun fs => .ok (f :: fs) := by
  rw [ofJsonItems]
  cases ofJson v with
  | error e => rfl
  | ok f => cases ofJsonItems vs <;> rfl

theorem ofJsonItems_eq_ok {items : List Json} {fs : List Filter} :
    ofJsonItems items = .ok fs ↔ List.Forall₂ (fun v f => ofJson v = .ok f) items fs := by
  have hmap : ofJsonItems items = items.mapM ofJson := by
    induction items with
    | nil => simp [ofJsonItems, pure, Except.pure]
    | cons v vs ih => rw [ofJsonItems_cons, List.mapM_cons, ih]; rfl
  rw [hmap, mapM_eq_ok]

mutual

theorem findsFirst_ofJson (v : Json) : FindsFirst (ofJson v) (faults v) := by
  match v with
  | .object fields =>
    rw [faults]
    split
    · rename_i hfield
      rw [ofJson_comparison hfield]
      have h := findsFirst_readComparison fields
      cases hread : readComparison fields <;> simpa [FindsFirst, hread, Except.map] using h
    · rename_i hfield
      rw [ofJson_logical (by simpa only [Option.not_isSome_iff_eq_none] using hfield)]
      refine (findsFirst_readLogical fields).bind fun node hnode => ?_
      obtain ⟨operator, items, hsize⟩ := node
      obtain ⟨hoperator, hconditions⟩ := readLogical_eq_ok.mp hnode
      rw [conditionFaults_eq, hconditions, Option.map_some, Option.getD_some, listedFaults]
      refine (findsFirst_ofJsonItems items).bind fun conditions hread => ?_
      rw [emptinessFaults, hoperator, hconditions]
      cases ofJsonItems_eq_ok.mp hread <;> simp [FindsFirst, ofConditions]
  | .null | .bool _ | .integer _ | .real _ | .string _ | .array _ =>
    simp [FindsFirst, ofJson, faults]
termination_by sizeOf v
decreasing_by simp; omega

theorem findsFirst_ofJsonItems (items : List Json) :
    FindsFirst (ofJsonItems items) (itemFaults items) := by
  match items with
  | [] => simp [FindsFirst, ofJsonItems, itemFaults]
  | v :: vs =>
    rw [ofJsonItems_cons, itemFaults]
    refine (findsFirst_ofJson v).bind fun f _ => ?_
    rw [← List.append_nil (itemFaults vs)]
    exact (findsFirst_ofJsonItems vs).bind fun fs _ => rfl
termination_by sizeOf items

end

/-- A logical node is read as its operator over what its conditions are read as. -/
theorem ofJson_of_conditions {fields : Json.Fields} {operator : LogicalOperator} {items : List Json}
    {fs : List Filter} (hfield : fields.lookup "field" = none)
    (hoperator : fields.lookup "operator" = some (.string operator.spelling))
    (hconditions : fields.lookup "conditions" = some (.array items))
    (hread : ofJsonItems items = .ok fs) :
    ofJson (.object fields) = ofConditions operator fs := by
  have hsize : sizeOf items < sizeOf fields := by
    have := sizeOf_lookup_lt hconditions
    simp at this
    omega
  have hnode : readLogical fields = .ok (operator, ⟨items, hsize⟩) :=
    readLogical_eq_ok.mpr ⟨hoperator, hconditions⟩
  rw [ofJson_logical hfield, hnode]
  show ofJsonItems items >>= ofConditions operator = _
  rw [hread]
  rfl

/-- Induction over what is read as a filter: a property of comparisons that logical nodes take over
from their conditions. -/
theorem ofJson_induction {motive : Json → Filter → Prop}
    (comparison : ∀ (fields : Json.Fields) (c : Comparison),
      fields.lookup "field" = some (.string c.field) →
      fields.lookup "operator" = some (.string c.operator.spelling) →
      fields.lookup "value" = some c.value → motive (.object fields) (.comparison c))
    (logical : ∀ (fields : Json.Fields) (operator : LogicalOperator) (v : Json) (vs : List Json)
      (f : Filter) (fs : List Filter), fields.lookup "field" = none →
      fields.lookup "operator" = some (.string operator.spelling) →
      fields.lookup "conditions" = some (.array (v :: vs)) →
      List.Forall₂ motive (v :: vs) (f :: fs) → motive (.object fields) (.logical operator f fs))
    (v : Json) {f : Filter} (h : ofJson v = .ok f) : motive v f := by
  match v with
  | .object fields =>
    cases hfield : fields.lookup "field" with
    | some field =>
      rw [ofJson_comparison (by simp [hfield])] at h
      obtain ⟨c, hc, rfl⟩ := map_eq_ok h
      obtain ⟨hf, ho, hv⟩ := readComparison_eq_ok.mp hc
      exact comparison fields c hf ho hv
    | none =>
      rw [ofJson_logical hfield] at h
      obtain ⟨⟨operator, items, hsize⟩, hnode, h⟩ := bind_eq_ok h
      obtain ⟨conditions, hread, h⟩ := bind_eq_ok h
      obtain ⟨ho, hconditions⟩ := readLogical_eq_ok.mp hnode
      have hall : List.Forall₂ motive items conditions :=
        ((List.forall₂_and_left items conditions).mpr
          ⟨fun w hw => List.sizeOf_lt_of_mem hw, ofJsonItems_eq_ok.mp hread⟩).imp
          fun w g hg => ofJson_induction comparison logical w hg.2
      cases hall with
      | nil => cases h
      | cons hf hfs =>
        cases h
        exact logical fields operator _ _ _ _ hfield ho hconditions (.cons hf hfs)
  | .null | .bool _ | .integer _ | .real _ | .string _ | .array _ => simp [ofJson] at h
termination_by sizeOf v
decreasing_by
  have := hg.1
  simp
  omega

theorem accepted_of_ofJson {v : Json} {f : Filter} (h : ofJson v = .ok f) : Accepted v := by
  refine ofJson_induction (motive := fun v _ => Accepted v) ?_ ?_ v h
  · intro fields c hfield hoperator hvalue
    exact .comparison c.field c.operator c.value hfield hoperator hvalue
  · intro fields operator v vs f fs hfield hoperator hconditions hall
    refine .logical operator v vs hfield hoperator hconditions fun w hw => ?_
    exact ((List.forall₂_and_left (v :: vs) (f :: fs) (R := fun _ _ => True)).mp
      (hall.imp fun _ _ h => ⟨h, trivial⟩)).1 w hw

theorem Accepted.exists_ofJson {v : Json} (h : Accepted v) : ∃ f, ofJson v = .ok f := by
  induction h with
  | comparison field operator value hfield hoperator hvalue =>
    refine ⟨.comparison ⟨field, operator, value⟩, ?_⟩
    rw [ofJson_comparison (by simp [hfield]),
      (readComparison_eq_ok (c := ⟨field, operator, value⟩)).mpr ⟨hfield, hoperator, hvalue⟩]
    rfl
  | logical operator first rest hfield hoperator hconditions _ ih =>
    obtain ⟨_ | ⟨f, fs⟩, hall⟩ := exists_forall₂ ih
    · cases hall
    · refine ⟨.logical operator f fs, ?_⟩
      rw [ofJson_of_conditions hfield hoperator hconditions (ofJsonItems_eq_ok.mpr hall)]
      rfl

mutual

theorem ofJson_toJson (f : Filter) : ofJson f.toJson = .ok f := by
  match f with
  | .comparison c =>
    rw [toJson, ofJson_comparison (by rfl), (readComparison_eq_ok (c := c)).mpr ⟨rfl, rfl, rfl⟩]
    rfl
  | .logical operator f fs =>
    have hitems : ofJsonItems (toJson f :: toJsonItems fs) = .ok (f :: fs) :=
      ofJsonItems_eq_ok.mpr (.cons (ofJson_toJson f) (forall₂_toJsonItems fs))
    rw [toJson, ofJson_of_conditions (by rfl) (by rfl) (by rfl) hitems]
    rfl

theorem forall₂_toJsonItems (fs : List Filter) :
    List.Forall₂ (fun v f => ofJson v = .ok f) (toJsonItems fs) fs := by
  match fs with
  | [] => exact .nil
  | f :: fs => exact .cons (ofJson_toJson f) (forall₂_toJsonItems fs)

end

theorem lookup_of_mem {fields : Json.Fields} (hs : fields.Pairwise fun f g => f.1 < g.1)
    {f : String × Json} (h : f ∈ fields) : fields.lookup f.1 = some f.2 := by
  induction hs with
  | nil => cases h
  | cons hlt _ ih =>
    rw [List.lookup_cons]
    rcases List.mem_cons.mp h with rfl | h
    · simp
    · rw [beq_eq_false_iff_ne.mpr (hlt f h).ne']
      exact ih h

theorem filter_fields {fields : Json.Fields} (picked : Json.Fields)
    (hs : fields.Pairwise fun f g => f.1 < g.1) (hp : (picked.map Prod.fst).Pairwise (· < ·))
    (h : ∀ f ∈ picked, fields.lookup f.1 = some f.2) :
    (fields.filter fun f => f.1 ∈ picked.map Prod.fst) = picked := by
  have hmem : ∀ f, f ∈ fields.filter (fun f => f.1 ∈ picked.map Prod.fst) ↔ f ∈ picked := by
    intro f
    rw [List.mem_filter]
    constructor
    · rintro ⟨hf, hkey⟩
      obtain ⟨g, hg, hkey⟩ := List.mem_map.mp (of_decide_eq_true hkey)
      have hvalue := h g hg
      rw [hkey, lookup_of_mem hs hf, Option.some.injEq] at hvalue
      rwa [← Prod.ext hkey hvalue.symm]
    · intro hf
      obtain ⟨before, after, hfields, -⟩ := List.lookup_eq_some_iff.mp (h f hf)
      exact ⟨by simp [hfields], decide_eq_true (List.mem_map_of_mem hf)⟩
  rw [List.pairwise_map] at hp
  have hnodup : ∀ {l : Json.Fields}, (l.Pairwise fun f g => f.1 < g.1) → l.Nodup :=
    fun hl => hl.imp fun hlt heq => absurd (heq ▸ hlt) (lt_irrefl _)
  refine ((List.perm_ext_iff_of_nodup (hnodup (hs.filter _)) (hnodup hp)).mpr hmem).eq_of_pairwise
    (fun f g _ _ hfg hgf => absurd hgf hfg.asymm) (hs.filter _) hp

theorem prunedFields_eq (keys : List String) (fields : Json.Fields) :
    prunedFields keys fields = (fields.filter fun f => f.1 ∈ keys).map fun f =>
      (f.1, if f.1 = "conditions" then prunedConditions f.2 else f.2) := by
  induction fields with
  | nil => rfl
  | cons f fields ih =>
    rw [prunedFields, List.filter_cons, ih]
    by_cases hk : f.1 ∈ keys <;> simp [hk]

theorem isProper_of_lookup {fields : Json.Fields} (hp : Json.AreProperFields fields) {key : String}
    {v : Json} (h : fields.lookup key = some v) : v.IsProper := by
  induction fields with
  | nil => simp at h
  | cons f fields ih =>
    rw [List.lookup_cons] at h
    split at h
    · cases h
      exact hp.1
    · exact ih hp.2 h

theorem prunedItems_eq {vs : List Json} {fs : List Filter} (hp : Json.AreProper vs)
    (h : List.Forall₂ (fun v f => v.IsProper → f.toJson = pruned v) vs fs) :
    toJsonItems fs = prunedItems vs := by
  induction h with
  | nil => rfl
  | cons hf _ ih => rw [toJsonItems, prunedItems, hf hp.1, ih hp.2]

theorem toJson_of_ofJson {v : Json} (hp : v.IsProper) {f : Filter} (h : ofJson v = .ok f) :
    f.toJson = pruned v := by
  refine ofJson_induction (motive := fun v f => v.IsProper → f.toJson = pruned v) ?_ ?_ v h hp
  · intro fields c hfield hoperator hvalue hp
    have hfilter := filter_fields [("field", .string c.field),
      ("operator", .string c.operator.spelling), ("value", c.value)] hp.1
      (show ["field", "operator", "value"].Pairwise (· < ·) by decide +kernel)
      (by simp [hfield, hoperator, hvalue])
    simp only [List.map_cons, List.map_nil] at hfilter
    rw [pruned, nodeKeys, if_pos (by simp [hfield]), prunedFields_eq, hfilter]
    simp [toJson]
  · intro fields operator v vs f fs hfield hoperator hconditions hall hp
    have hfilter := filter_fields [("conditions", .array (v :: vs)),
      ("operator", .string operator.spelling)] hp.1
      (show ["conditions", "operator"].Pairwise (· < ·) by decide +kernel)
      (by simp [hoperator, hconditions])
    have hitems := prunedItems_eq (isProper_of_lookup hp.2 hconditions) hall
    simp only [List.map_cons, List.map_nil] at hfilter
    rw [pruned, nodeKeys, if_neg (by simp [hfield]), prunedFields_eq, hfilter]
    simp [toJson, toJsonItems, prunedConditions, ← hitems]

/-- A filter is read from what it is written as; just the accepted values are read as filters, and
are written without the keys that are not read; the error of any other value is the first of its
faults. -/
theorem wire_format :
    (∀ f : Filter, ofJson f.toJson = .ok f)
      ∧ (∀ v : Json, (∃ f, ofJson v = .ok f) ↔ Accepted v)
      ∧ (∀ (v : Json) (f : Filter), v.IsProper → ofJson v = .ok f → f.toJson = pruned v)
      ∧ ∀ (v : Json) (e : FilterError), ofJson v = .error e ↔ (faults v).head? = some e :=
  ⟨ofJson_toJson,
    fun _ => ⟨fun ⟨_, h⟩ => accepted_of_ofJson h, Accepted.exists_ofJson⟩,
    fun _ _ hp h => toJson_of_ofJson hp h,
    fun v => (findsFirst_ofJson v).error_iff⟩

/-- A negation with keys that no node needs, one of them below a compared value. -/
def annotated : Json :=
  .object [("conditions", .array [.object [("conditions", .bool true), ("field", .string "meta.a"),
    ("operator", .string "=="), ("value", .object [("note", .null)])]]), ("note", .null),
    ("operator", .string "NOT")]

def plain : Filter := .logical .not (.comparison ⟨"meta.a", .equal, .object [("note", .null)]⟩) []

theorem ofJson_annotated : ofJson annotated = .ok plain := by
  have hleaf : ofJson (.object [("conditions", .bool true), ("field", .string "meta.a"),
      ("operator", .string "=="), ("value", .object [("note", .null)])])
        = .ok (.comparison ⟨"meta.a", .equal, .object [("note", .null)]⟩) := by
    rw [ofJson_comparison (by rfl)]
    rfl
  exact ofJson_of_conditions (by rfl) (by rfl) (by rfl) (ofJsonItems_eq_ok.mpr (.cons hleaf .nil))

theorem wire_format_annotated :
    (annotated.IsProper ∧ ofJson annotated = .ok plain)
      ∧ plain.toJson = pruned annotated ∧ annotated ≠ pruned annotated
      ∧ ofJson plain.toJson = .ok plain ∧ Accepted annotated
      ∧ ofJson (.object []) = .error (.missingKey "operator" (.object [])) := by
  have hproper : annotated.IsProper :=
    ⟨by decide +kernel, ⟨⟨by decide +kernel, trivial, trivial, trivial,
      ⟨by decide +kernel, trivial, trivial⟩, trivial⟩, trivial⟩, trivial, trivial, trivial⟩
  refine ⟨⟨hproper, ofJson_annotated⟩, wire_format.2.2.1 _ _ hproper ofJson_annotated, ?_,
    wire_format.1 plain, (wire_format.2.1 annotated).mp ⟨plain, ofJson_annotated⟩,
    (wire_format.2.2.2 _ _).mpr rfl⟩
  decide

end Filter
end DocumentStore
