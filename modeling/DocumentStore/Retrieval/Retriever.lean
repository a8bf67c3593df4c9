import DocumentStore.Component
import DocumentStore.Retrieval.Hit
import DocumentStore.Retrieval.Request

/-! Retrievers: a configuration with a default for every argument of a run. A run settles its
arguments, checks them, and asks the store once. -/
namespace DocumentStore

def lexicalRetrieverType : String := "lexvec_retrieval.Bm25Retriever"
def vectorRetrieverType : String := "lexvec_retrieval.EmbeddingRetriever"

def positive (refuse : Int → ValidationError) (n : Int) : Except StoreError Nat :=
  if 0 < n then .ok n.toNat else .error (.validation (refuse n))

def readFilter : Json.Shape Filter := fun v =>
  match Filter.ofJson v with
  | .ok f => .ok f
  | .error e => .error (.refused e.message)

structure LexicalRetriever where
  filter : Option Filter := none
  topK : Int := defaultTopK
  squashScores : Bool := false
  snippet : Option SnippetOptions := none
  highlight : Option HighlightOptions := none

namespace LexicalRetriever

def fieldNames : List String := ["filters", "top_k", "scale_score", "snippet", "highlight"]

def toFields (r : LexicalRetriever) : Json.Fields :=
  Json.fieldsOf [
    ("filters", .optional Filter.toJson r.filter),
    ("top_k", .integer r.topK),
    ("scale_score", .bool r.squashScores),
    ("snippet", .optional SnippetOptions.toJson r.snippet),
    ("highlight", .optional HighlightOptions.toJson r.highlight)]

def setField (r : LexicalRetriever) (name : String) (v : Json) :
    Except ShapeError LexicalRetriever :=
  match name with
  | "filters" => (Json.asOptional readFilter v).map fun x => { r with filter := x }
  | "top_k" => v.asSigned.map fun x => { r with topK := x }
  | "scale_score" => v.asBool.map fun x => { r with squashScores := x }
  | "snippet" => (Json.asOptional SnippetOptions.ofJson v).map fun x => { r with snippet := x }
  | "highlight" =>
    (Json.asOptional HighlightOptions.ofJson v).map fun x => { r with highlight := x }
  | _ => .ok r

def ofJson : Json.Shape LexicalRetriever := Json.asRecord fieldNames setField {}

def validate (r : LexicalRetriever) : Except StoreError Unit :=
  (positive .invalidTopK r.topK).map fun _ => ()

/-- The arguments of a run; what is left out is taken from the retriever. -/
structure Arguments where
  query : String
  filter : Option Filter := none
  topK : Option Int := none
  squashScores : Option Bool := none

def request (r : LexicalRetriever) (a : Arguments) : Except StoreError LexicalRequest := do
  let topK ← positive .invalidTopK (a.topK.getD r.topK)
  let q ← lift .validation (LexicalRequest.ofQuery a.query)
  let q ← lift .validation ((q.withFilter (a.filter.or r.filter)).withTopK (some topK))
  return (q.withSnippet r.snippet).withHighlight r.highlight

def run {m : Type → Type} [Monad m]
    (ask : LexicalRequest → m (Except StoreError (List Hit)))
    (r : LexicalRetriever) (a : Arguments) : m (Except StoreError (List Hit)) :=
  match r.request a with
  | .error e => pure (.error e)
  | .ok q => do
    let hits ← ask q
    return hits.map fun hs =>
      if a.squashScores.getD r.squashScores then hs.map Hit.squashed else hs

def toComponent (store : Component) (r : LexicalRetriever) : Component :=
  ⟨lexicalRetrieverType, Json.insertField storeKey store.toJson r.toFields⟩

def ofComponent (c : Component) : Except ComponentFault LexicalRetriever :=
  c.read lexicalRetrieverType ofJson

end LexicalRetriever

structure VectorRetriever where
  filter : Option Filter := none
  topK : Int := defaultTopK
  candidates : Int := defaultCandidates

namespace VectorRetriever

def fieldNames : List String := ["filters", "top_k", "num_candidates"]

def toFields (r : VectorRetriever) : Json.Fields :=
  Json.fieldsOf [
    ("filters", .optional Filter.toJson r.filter),
    ("top_k", .integer r.topK),
    ("num_candidates", .integer r.candidates)]

def setField (r : VectorRetriever) (name : String) (v : Json) :
    Except ShapeError VectorRetriever :=
  match name with
  | "filters" => (Json.asOptional readFilter v).map fun x => { r with filter := x }
  | "top_k" => v.asSigned.map fun x => { r with topK := x }
  | "num_candidates" => v.asSigned.map fun x => { r with candidates := x }
  | _ => .ok r

def ofJson : Json.Shape VectorRetriever := Json.asRecord fieldNames setField {}

def validate (r : VectorRetriever) : Except StoreError Unit := do
  let _ ← positive .invalidTopK r.topK
  let _ ← positive .invalidNumCandidates r.candidates
  return ()

/-- The arguments of a run; what is left out is taken from the retriever. -/
structure Arguments where
  vector : List Float32
  filter : Option Filter := none
  topK : Option Int := none
  candidates : Option Int := none

def request (r : VectorRetriever) (a : Arguments) : Except StoreError VectorRequest := do
  let topK ← positive .invalidTopK (a.topK.getD r.topK)
  let candidates ← positive .invalidNumCandidates (a.candidates.getD r.candidates)
  let q ← lift .validation (VectorRequest.ofVector a.vector)
  let q ← lift .validation ((q.withFilter (a.filter.or r.filter)).withTopK (some topK))
  lift .validation (q.withCandidates candidates)

def run {m : Type → Type} [Monad m]
    (ask : VectorRequest → m (Except StoreError (List Hit)))
    (r : VectorRetriever) (a : Arguments) : m (Except StoreError (List Hit)) :=
  match r.request a with
  | .error e => pure (.error e)
  | .ok q => ask q

def toComponent (store : Component) (r : VectorRetriever) : Component :=
  ⟨vectorRetrieverType, Json.insertField storeKey store.toJson r.toFields⟩

def ofComponent (c : Component) : Except ComponentFault VectorRetriever :=
  c.read vectorRetrieverType ofJson

end VectorRetriever
end DocumentStore
