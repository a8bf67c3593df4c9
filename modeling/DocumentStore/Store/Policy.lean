import DocumentStore.Json.Shape

/-! What a write does about a document whose id is taken. -/
namespace DocumentStore

/-- Without a policy a taken id fails the write. -/
inductive DuplicatePolicy where
  | none | skip | overwrite | fail
deriving DecidableEq, Repr

namespace DuplicatePolicy

def all : List DuplicatePolicy := [.none, .skip, .overwrite, .fail]

def name : DuplicatePolicy → String
  | .none => "none"
  | .skip => "skip"
  | .overwrite => "overwrite"
  | .fail => "fail"

def ofName? (s : String) : Option DuplicatePolicy := all.find? fun p => p.name == s

def ofJson : Json.Shape DuplicatePolicy := Json.asVariant ofName?

def resolve : DuplicatePolicy → DuplicatePolicy
  | .none => .fail
  | p => p

end DuplicatePolicy
end DocumentStore
