import DocumentStore.Config.Basic

/-! Components in serialized form: a type tag and the parameters to build the component from. -/
namespace DocumentStore

structure Component where
  type : String
  parameters : Json.Fields := []
deriving DecidableEq

def storeType : String := "lexvec_storage.StorageEngine"

def storeKey : String := "document_store"

namespace Component

def toJson (c : Component) : Json :=
  .ofPairs [("type", .string c.type), ("init_parameters", .object c.parameters)]

/-- Reads a mapping with a type; the parameters may be missing. -/
def ofFields (fields : Json.Fields) : Except ComponentFault Component :=
  match fields.lookup "type" with
  | none => .error .typeMissing
  | some (.string type) =>
    match fields.lookup "init_parameters" with
    | none => .ok ⟨type, []⟩
    | some (.object parameters) => .ok ⟨type, parameters⟩
    | some _ => .error .parametersNotMapping
  | some _ => .error .typeNotText

def ofJson : Json → Except ComponentFault Component
  | .object fields => ofFields fields
  | _ => .error .notMapping

/-- The component that stands among the parameters under a key. -/
def nested (key : String) (c : Component) : Except ComponentFault Component :=
  match c.parameters.lookup key with
  | none => .error (.nestedMissing key)
  | some (.object fields) =>
    if (fields.lookup "type").isSome then ofFields fields else .error (.nestedUntyped key)
  | some _ => .error (.nestedNotMapping key)

/-- Reads the parameters of a component that must have the given type. -/
def read {α : Type} (type : String) (shape : Json.Shape α) (c : Component) :
    Except ComponentFault α :=
  if c.type = type then
    match shape (.object c.parameters) with
    | .ok a => .ok a
    | .error fault => .error (.badParameters type fault)
  else .error (.unexpectedType type c.type)

end Component

namespace Config

def toComponent (c : Config) : Component := ⟨storeType, c.toFields⟩

def ofComponent (data : Component) : Except ComponentFault Config := do
  let c ← data.read storeType ofJson
  match c.validate with
  | .ok () => return c
  | .error fault => throw (.badConfig fault)

end Config
end DocumentStore
