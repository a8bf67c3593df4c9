import DocumentStore.Error
import DocumentStore.Filter.Wire
import DocumentStore.Text.Blank

/-! What is asked of a store: the documents that match a query text, or those nearest to a query
vector. Requests that cannot be answered are refused when they are built. -/
namespace DocumentStore

def defaultTopK : Nat := 10
def defaultCandidates : Nat := 100
def defaultSnippetTokens : Nat := 16

def defaultOpenMarker : String := "<b>"
def defaultCloseMarker : String := "</b>"
def defaultEllipsis : String := "…"

/-- An excerpt of at most `maxTokens` tokens around the best matches. -/
structure SnippetOptions where
  maxTokens : Nat := defaultSnippetTokens
  openMarker : String := defaultOpenMarker
  closeMarker : String := defaultCloseMarker
  ellipsis : String := defaultEllipsis
  maxTokens_pos : 0 < maxTokens := by decide
  maxTokens_le : maxTokens ≤ maxSnippetTokens := by decide
deriving DecidableEq

namespace SnippetOptions

def ofMaxTokens (n : Int) : Except ValidationError SnippetOptions :=
  if h : 0 < n.toNat ∧ n.toNat ≤ maxSnippetTokens then
    .ok { maxTokens := n.toNat, maxTokens_pos := h.1, maxTokens_le := h.2 }
  else .error (.snippetTokensOutOfRange n)

def withMarkers (openMarker closeMarker : String) (s : SnippetOptions) : SnippetOptions :=
  { s with openMarker := openMarker, closeMarker := closeMarker }

def withEllipsis (ellipsis : String) (s : SnippetOptions) : SnippetOptions :=
  { s with ellipsis := ellipsis }

def fieldNames : List String := ["max_tokens", "open_marker", "close_marker", "ellipsis"]

def toJson (s : SnippetOptions) : Json :=
  .ofPairs [
    ("max_tokens", .integer s.maxTokens),
    ("open_marker", .string s.openMarker),
    ("close_marker", .string s.closeMarker),
    ("ellipsis", .string s.ellipsis)]

/-- Options whose budget is not yet checked. -/
structure Draft where
  maxTokens : Int := defaultSnippetTokens
  openMarker : String := defaultOpenMarker
  closeMarker : String := defaultCloseMarker
  ellipsis : String := defaultEllipsis

def setField (d : Draft) (name : String) (v : Json) : Except ShapeError Draft :=
  match name with
  | "max_tokens" => v.asSigned.map fun x => { d with maxTokens := x }
  | "open_marker" => v.asText.map fun x => { d with openMarker := x }
  | "close_marker" => v.asText.map fun x => { d with closeMarker := x }
  | "ellipsis" => v.asText.map fun x => { d with ellipsis := x }
  | _ => .ok d

/-- The budget is checked once every field is read. -/
def ofJson : Json.Shape SnippetOptions := fun v => do
  let d ← Json.asRecord fieldNames setField {} v
  match ofMaxTokens d.maxTokens with
  | .ok s => return (s.withMarkers d.openMarker d.closeMarker).withEllipsis d.ellipsis
  | .error e => throw (.refused e.message)

end SnippetOptions

/-- The whole content with every match between markers. -/
structure HighlightOptions where
  openMarker : String := defaultOpenMarker
  closeMarker : String := defaultCloseMarker
deriving DecidableEq

namespace HighlightOptions

def fieldNames : List String := ["open_marker", "close_marker"]

def toJson (h : HighlightOptions) : Json :=
  .ofPairs [("open_marker", .string h.openMarker), ("close_marker", .string h.closeMarker)]

def setField (h : HighlightOptions) (name : String) (v : Json) :
    Except ShapeError HighlightOptions :=
  match name with
  | "open_marker" => v.asText.map fun x => { h with openMarker := x }
  | "close_marker" => v.asText.map fun x => { h with closeMarker := x }
  | _ => .ok h

def ofJson : Json.Shape HighlightOptions := Json.asRecord fieldNames setField {}

end HighlightOptions

/-- Without a `topK` the number of hits is unbounded. -/
structure LexicalRequest where
  query : String
  filter : Option Filter := none
  topK : Option Nat := none
  snippet : Option SnippetOptions := none
  highlight : Option HighlightOptions := none
  query_nonblank : Text.blank query = false
  topK_pos : topK ≠ some 0 := by simp

namespace LexicalRequest

def ofQuery (query : String) : Except ValidationError LexicalRequest :=
  if h : Text.blank query = false then .ok { query := query, query_nonblank := h }
  else .error .emptyQuery

def withFilter (filter : Option Filter) (r : LexicalRequest) : LexicalRequest :=
  { r with filter := filter }

def withTopK (k : Option Nat) (r : LexicalRequest) : Except ValidationError LexicalRequest :=
  if h : k = some 0 then .error (.invalidTopK 0) else .ok { r with topK := k, topK_pos := h }

def withSnippet (snippet : Option SnippetOptions) (r : LexicalRequest) : LexicalRequest :=
  { r with snippet := snippet }

def withHighlight (highlight : Option HighlightOptions) (r : LexicalRequest) : LexicalRequest :=
  { r with highlight := highlight }

end LexicalRequest

/-- Filters apply to the `candidates` nearest documents only. -/
structure VectorRequest where
  vector : List Float32
  filter : Option Filter := none
  topK : Option Nat := none
  candidates : Nat := defaultCandidates
  vector_nonempty : vector ≠ []
  vector_finite : vector.all Float32.isFinite = true
  topK_pos : topK ≠ some 0 := by simp
  candidates_pos : 0 < candidates := by decide

namespace VectorRequest

def ofVector (vector : List Float32) : Except ValidationError VectorRequest :=
  if h : vector = [] then .error .emptyQueryVector
  else if hf : vector.all Float32.isFinite = true then
    .ok { vector := vector, vector_nonempty := h, vector_finite := hf }
  else .error (.nonFiniteEmbedding "<query>")

def withFilter (filter : Option Filter) (r : VectorRequest) : VectorRequest :=
  { r with filter := filter }

def withTopK (k : Option Nat) (r : VectorRequest) : Except ValidationError VectorRequest :=
  if h : k = some 0 then .error (.invalidTopK 0) else .ok { r with topK := k, topK_pos := h }

def withCandidates (n : Nat) (r : VectorRequest) : Except ValidationError VectorRequest :=
  if h : 0 < n then .ok { r with candidates := n, candidates_pos := h }
  else .error (.invalidNumCandidates 0)

end VectorRequest
end DocumentStore
