import DocumentStore.Json.Shape

/-! Documents. The score belongs to retrieval; dataframe and blob are payloads that the store
passes on as they are. -/
namespace DocumentStore

structure Document where
  id : String := ""
  content : Option String := none
  dataframe : Option Json := none
  blob : Option (List UInt8) := none
  metadata : Json.Fields := []
  score : Option Float := none
  embedding : Option (List Float32) := none
deriving DecidableEq, Inhabited

namespace Document

def fieldNames : List String :=
  ["id", "content", "dataframe", "blob", "meta", "score", "embedding"]

def toJson (d : Document) : Json :=
  .ofPairs [
    ("id", .string d.id),
    ("content", .optional .string d.content),
    ("dataframe", d.dataframe.getD .null),
    ("blob", .optional (fun bytes => .array (bytes.map fun b => .integer b.toNat)) d.blob),
    ("meta", .object d.metadata),
    ("score", .optional .ofReal d.score),
    ("embedding", .optional (fun xs => .array (xs.map Json.ofSingle)) d.embedding)]

/-- A document that may still lack its id. -/
structure Draft where
  id : Option String := none
  rest : Document := {}

def setField (d : Draft) (name : String) (v : Json) : Except ShapeError Draft :=
  match name with
  | "id" => v.asText.map fun id => ⟨some id, d.rest⟩
  | "content" => (Json.asOptional Json.asText v).map fun x => ⟨d.id, { d.rest with content := x }⟩
  | "dataframe" =>
    (Json.asOptional Json.asAny v).map fun x => ⟨d.id, { d.rest with dataframe := x }⟩
  | "blob" =>
    (Json.asOptional (Json.asListOf Json.asByte) v).map fun x => ⟨d.id, { d.rest with blob := x }⟩
  | "meta" => v.asFields.map fun x => ⟨d.id, { d.rest with metadata := x }⟩
  | "score" => (Json.asOptional Json.asReal v).map fun x => ⟨d.id, { d.rest with score := x }⟩
  | "embedding" =>
    (Json.asOptional (Json.asListOf Json.asSingle) v).map fun x =>
      ⟨d.id, { d.rest with embedding := x }⟩
  | _ => .ok d

/-- Reads a document, which needs an id only. -/
def ofJson : Json.Shape Document := fun v => do
  let d ← Json.asRecord fieldNames setField {} v
  let id ← Json.demand v d.id
  return { d.rest with id := id }

def sameOption {α : Type} (same : α → α → Bool) : Option α → Option α → Bool
  | none, none => true
  | some a, some b => same a b
  | _, _ => false

def sameVector : List Float32 → List Float32 → Bool
  | [], [] => true
  | x :: xs, y :: ys => Number.sameSingle x y && sameVector xs ys
  | _, _ => false

/-- Whether two documents agree in every field, with both zeros as one number. -/
def same (d e : Document) : Bool :=
  d.id == e.id && d.content == e.content && sameOption Json.same d.dataframe e.dataframe
    && d.blob == e.blob && Json.sameFields d.metadata e.metadata
    && sameOption (fun x y : Float => x == y) d.score e.score
    && sameOption sameVector d.embedding e.embedding

end Document
end DocumentStore
