import DocumentStore.Filter.Condition
import DocumentStore.Retrieval.Hit
import DocumentStore.Retrieval.Request

/-! The text of ranked queries. Values stand in it as question marks only; they are bound from
left to right, those of the filter first, then those of the candidates, then the limit. -/
namespace DocumentStore

/-- A text with a question mark for each parameter, and the names of the excerpts it selects. -/
structure Statement where
  text : String
  parameters : List Cell
  excerpts : List String
deriving DecidableEq

namespace Statement

def commaList (names : List String) : String := ", ".intercalate names

/-- The candidates of a text search, each with its key, its score and its excerpts. -/
def lexicalCandidates (r : LexicalRequest) (query : String) : Statement where
  text :=
    "SELECT rowid AS pk, bm25(document_fts) AS score"
      ++ (if r.snippet.isSome then
          ", snippet(document_fts, 0, ?, ?, ?, ?) AS " ++ snippetKey else "")
      ++ (if r.highlight.isSome then
          ", highlight(document_fts, 0, ?, ?) AS " ++ highlightKey else "")
      ++ " FROM document_fts WHERE document_fts MATCH ?"
  parameters :=
    (match r.snippet with
      | some s =>
        [.text s.openMarker, .text s.closeMarker, .text s.ellipsis, .integer s.maxTokens]
      | none => [])
    ++ (match r.highlight with
      | some h => [.text h.openMarker, .text h.closeMarker]
      | none => [])
    ++ [.text query]
  excerpts :=
    (if r.snippet.isSome then [snippetKey] else [])
      ++ (if r.highlight.isSome then [highlightKey] else [])

def windowText (window : List (Int × Float)) : String :=
  (Json.array (window.map fun c => .array [.integer c.1, .real c.2])).text

/-- The integer that a number in a stored text spells, of any size. -/
def wholeOfNode? : Node → Option Int
  | .number spelling =>
    let (negative, r) := Number.readSign spelling
    (Number.Numeral.read r).bind fun p =>
      if p.1.isInteger then some (p.1.wholeValue negative) else none
  | _ => none

/-- A key and a distance, as they are extracted from an item of a window. -/
def windowEntry? : Node → Option (Int × Float)
  | .array [key, distance] =>
    match wholeOfNode? key, Cell.ofNode distance with
    | some key, .real x => some (key, x)
    | _, _ => none
  | _ => none

/-- The keys and distances that the text of a window gives back. -/
def readWindow (text : String) : Option (List (Int × Float)) :=
  match Node.read text with
  | some (.array items) => items.mapM windowEntry?
  | _ => none

def vectorCandidates (window : List (Int × Float)) : Statement where
  text :=
    "SELECT json_extract(value, '$[0]') AS pk, json_extract(value, '$[1]') AS score "
      ++ "FROM json_each(?)"
  parameters := [.text (windowText window)]
  excerpts := []

def columnNames : List String := Column.all.map Column.name

/-- The largest limit that can be bound. -/
def largestLimit : Nat := 0x7fffffffffffffff

/-- Joins the documents that meet a condition with the candidates and ranks them by score. -/
def ranked (condition : Option Condition) (candidates : Statement) (topK : Option Nat) :
    Statement where
  text :=
    "SELECT " ++ commaList (columnNames.map ("a." ++ ·)) ++ ", b.score"
      ++ String.join (candidates.excerpts.map (", b." ++ ·))
      ++ " FROM (SELECT pk, " ++ commaList columnNames ++ " FROM document"
      ++ (match condition with
        | some c => " WHERE " ++ c.text
        | none => "")
      ++ ") a INNER JOIN (" ++ candidates.text ++ ") b ON a.pk = b.pk"
      ++ " ORDER BY b.score ASC, a.pk ASC"
      ++ (if topK.isSome then " LIMIT ?" else "")
  parameters :=
    (match condition with
      | some c => c.parameters
      | none => [])
    ++ candidates.parameters
    ++ (match topK with
      | some k => [.integer (min k largestLimit : Nat)]
      | none => [])
  excerpts := candidates.excerpts

end Statement

def compileOptional : Option Filter → Except StoreError (Option Condition)
  | none => .ok none
  | some f => (lift .filter f.compile).map some

end DocumentStore
