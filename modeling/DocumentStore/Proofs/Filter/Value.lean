import DocumentStore.Proofs.Json.StoredText
import DocumentStore.Proofs.Store.Holding

/-! The values that a filter finds in a document: its columns, and what the keys of a path lead to
in its metadata. Main statement: a look-up in the row of a document, which goes by way of the stored
text, finds just these values unless the metadata is nested too deeply. -/
namespace DocumentStore

/-- The value reached by following keys from object to object, the first one under a key. -/
def Json.follow : List String → Json → Option Json
  | [], v => some v
  | k :: ks, .object fields => (fields.lookup k).bind (Json.follow ks)
  | _ :: _, _ => none

/-- The cell of a value that stands in a stored text, where a number that is not finite is null. -/
def Cell.ofStored : Json → Cell
  | .real x => if Json.isFinite x then .real x else .null
  | v => .ofJson v

namespace Document

/-- The cells of a document. A dataframe that is null counts as none. -/
def cell (d : Document) : Column → Cell
  | .id => .text d.id
  | .content => Row.textCell d.content
  | .dataframe =>
    match d.dataframe with
    | none | some .null => .null
    | some v => .text v.text
  | .blob => (d.blob.map Cell.blob).getD .null
  | .metadata => .text (Json.object d.metadata).text
  | .score => (d.score.map Row.numberCell).getD .null
  | .embedding => Row.textCell (d.embedding.map Json.singlesText)

/-- The value of a field, which is null where a path leads to nothing. -/
def value (d : Document) : Field → Cell
  | .column c => d.cell c
  | .path keys => (((Json.object d.metadata).follow keys).map Cell.ofStored).getD .null

theorem cell_ofDocument (key : ℤ) (d : Document) (c : Column) :
    (Row.ofDocument key d).cell c = d.cell c := by
  cases c with
  | dataframe =>
    simp only [Row.ofDocument, Row.ofRecord, Record.ofDocument, Row.cell, cell]
    rcases d.dataframe with _ | v
    · rfl
    · cases v <;> rfl
  | _ => rfl

end Document

namespace Node

mutual

theorem chars_ofJson (v : Json) : (ofJson v).chars = v.chars := by
  match v with
  | .null => rfl
  | .bool true => rfl
  | .bool false => rfl
  | .integer n => rfl
  | .real x =>
    rcases realChars_cases x with ⟨hfinite, -⟩ | ⟨hfinite, hchars⟩
    · simp [ofJson, hfinite, chars, Json.chars]
    · simp [ofJson, hfinite, chars, Json.chars, hchars]
  | .string s => rfl
  | .array [] => rfl
  | .array (v :: vs) => simp [ofJson, ofItems, chars, Json.chars, chars_ofJson v, itemChars_ofItems vs]
  | .object [] => rfl
  | .object ((k, v) :: fs) =>
    simp [ofJson, ofFields, chars, Json.chars, Json.quotedChars, Json.escapedChars, chars_ofJson v,
      fieldChars_ofFields fs]

theorem itemChars_ofItems (vs : List Json) : itemChars (ofItems vs) = Json.itemChars vs := by
  match vs with
  | [] => rfl
  | v :: vs => simp [ofItems, itemChars, Json.itemChars, chars_ofJson v, itemChars_ofItems vs]

theorem fieldChars_ofFields (fs : Json.Fields) : fieldChars (ofFields fs) = Json.fieldChars fs := by
  match fs with
  | [] => rfl
  | (k, v) :: fs =>
    simp [ofFields, fieldChars, Json.fieldChars, Json.quotedChars, Json.escapedChars, chars_ofJson v,
      fieldChars_ofFields fs]

end

theorem ofNode_ofJson (v : Json) : Cell.ofNode (ofJson v) = Cell.ofStored v := by
  cases v with
  | null => rfl
  | bool b => rfl
  | integer n =>
    have hread := (Number.wholeNumeral_strict n.natAbs).readNumber_signedChars (decide (n < 0))
      Number.stops_nil
    rw [List.append_nil, ← Number.integerChars_eq, Number.ofNumeral_wholeNumeral] at hread
    simp [ofJson, Cell.ofNode, hread, Cell.ofStored, Cell.ofJson]
  | real x =>
    rcases realChars_cases x with ⟨hfinite, negative, n, hn, hchars, hcell⟩ | ⟨hfinite, -⟩
    · have hread := hn.readNumber_signedChars negative Number.stops_nil
      rw [List.append_nil, ← hchars, hcell] at hread
      simp [ofJson, hfinite, Cell.ofNode, hread, Cell.ofStored]
    · simp [ofJson, hfinite, Cell.ofNode, Cell.ofStored]
  | string s => simp [ofJson, Cell.ofNode, Cell.ofStored, Cell.ofJson]
  | array items =>
    have hchars := chars_ofJson (.array items)
    rw [ofJson] at hchars
    simp [ofJson, Cell.ofNode, hchars, Cell.ofStored, Cell.ofJson, Json.text]
  | object fields =>
    have hchars := chars_ofJson (.object fields)
    rw [ofJson] at hchars
    simp [ofJson, Cell.ofNode, hchars, Cell.ofStored, Cell.ofJson, Json.text]

theorem find?_ofFields (key : String) (fields : Json.Fields) :
    ((ofFields fields).find? fun f => f.1.1 == key.toList).map (·.2)
      = (fields.lookup key).map ofJson := by
  induction fields with
  | nil => rfl
  | cons f fields ih =>
    obtain ⟨k, v⟩ := f
    by_cases hk : key = k
    · subst hk
      simp [ofFields]
    · have hne : (k.toList == key.toList) = false := by
        simpa [String.toList_inj] using Ne.symm hk
      have hne' : (key == k) = false := by simpa using hk
      simpa [ofFields, List.find?_cons, List.lookup_cons, hne, hne'] using ih

/-- Following keys in the value that was read is following them in the value that was written. -/
theorem follow_ofJson (keys : List String) (v : Json) :
    (ofJson v).follow keys = (v.follow keys).map ofJson := by
  induction keys generalizing v with
  | nil => rfl
  | cons k ks ih =>
    cases v with
    | object fields =>
      have hfind := find?_ofFields k fields
      simp only [follow, ofJson, field, hfind, Json.follow]
      cases fields.lookup k with
      | none => rfl
      | some w => simp [ih]
    | real x =>
      simp only [ofJson]
      split <;> rfl
    | _ => rfl

end Node

theorem Field.value_column (key : ℤ) (d : Document) (c : Column) :
    Field.value (Row.ofDocument key d).cell (.column c) = some (d.value (.column c)) := by
  rw [Field.value, Document.cell_ofDocument]
  rfl

theorem Field.value_path (key : ℤ) (d : Document) (keys : List String) :
    Field.value (Row.ofDocument key d).cell (.path keys)
      = if (Json.object d.metadata).nesting ≤ Node.depthLimit then some (d.value (.path keys))
        else none := by
  simp only [Field.value, Document.cell_ofDocument, Document.cell, Node.read_text]
  split
  · simp only [Option.map_some, Node.follow_ofJson, Option.map_map, Function.comp_def,
      Node.ofNode_ofJson, Document.value]
  · rfl

end DocumentStore
