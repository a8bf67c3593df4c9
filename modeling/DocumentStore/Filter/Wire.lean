import DocumentStore.Filter.Basic

/-! The wire format of filters. A mapping with a `field` is a comparison, any other one a logical
node; further keys are ignored. -/
namespace DocumentStore.Filter

mutual

def toJson : Filter → Json
  | .comparison c =>
    .object [("field", .string c.field), ("operator", .string c.operator.spelling),
      ("value", c.value)]
  | .logical operator f fs =>
    .object [("conditions", .array (toJson f :: toJsonItems fs)),
      ("operator", .string operator.spelling)]

def toJsonItems : List Filter → List Json
  | [] => []
  | f :: fs => toJson f :: toJsonItems fs

end

def required (fields : Json.Fields) (key : String) : Except FilterError Json :=
  match fields.lookup key with
  | some v => .ok v
  | none => .error (.missingKey key (.object fields))

def requiredText (fields : Json.Fields) (key : String) : Except FilterError String :=
  match required fields key with
  | .ok (.string s) => .ok s
  | .ok v => .error (.wrongType key "a string" v.kind)
  | .error e => .error e

def readComparison (fields : Json.Fields) : Except FilterError Comparison := do
  let field ← requiredText fields "field"
  let spelling ← requiredText fields "operator"
  let value ← required fields "value"
  match ComparisonOperator.ofSpelling? spelling with
  | some operator => return ⟨field, operator, value⟩
  | none => throw (.unknownComparisonOperator spelling)

theorem sizeOf_lookup_lt {fields : Json.Fields} {key : String} {v : Json}
    (h : fields.lookup key = some v) : sizeOf v < sizeOf fields := by
  induction fields with
  | nil => simp at h
  | cons p rest ih =>
    obtain ⟨k, w⟩ := p
    rw [List.lookup_cons] at h
    split at h
    · cases h; simp; omega
    · have := ih h; simp; omega

def readLogical (fields : Json.Fields) :
    Except FilterError (LogicalOperator × { items : List Json // sizeOf items < sizeOf fields }) :=
  match requiredText fields "operator" with
  | .error e => .error e
  | .ok spelling =>
    match h : fields.lookup "conditions" with
    | none => .error (.missingKey "conditions" (.object fields))
    | some v =>
      match LogicalOperator.ofSpelling? spelling with
      | none => .error (.unknownLogicalOperator spelling)
      | some operator =>
        match v with
        | .array items => .ok (operator, ⟨items, by have := sizeOf_lookup_lt h; simp at this; omega⟩)
        | v => .error (.wrongType "conditions" "a list" v.kind)

mutual

def ofJson (v : Json) : Except FilterError Filter :=
  match v with
  | .object fields =>
    if (fields.lookup "field").isSome then
      match readComparison fields with
      | .ok c => .ok (.comparison c)
      | .error e => .error e
    else
      match readLogical fields with
      | .error e => .error e
      | .ok (operator, ⟨items, _⟩) =>
        match ofJsonItems items with
        | .ok conditions => ofConditions operator conditions
        | .error e => .error e
  | v => .error (.notAnObject v.kind)
termination_by sizeOf v

def ofJsonItems (items : List Json) : Except FilterError (List Filter) :=
  match items with
  | [] => .ok []
  | v :: vs =>
    match ofJson v with
    | .error e => .error e
    | .ok f =>
      match ofJsonItems vs with
      | .error e => .error e
      | .ok fs => .ok (f :: fs)
termination_by sizeOf items

end

end DocumentStore.Filter
