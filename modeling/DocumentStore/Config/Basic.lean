import DocumentStore.Error
import DocumentStore.Text.Blank

/-! The configuration of a store, with a default for every field. -/
namespace DocumentStore

/-- The distance by which vectors are ranked: the negated dot product, or one minus the cosine. -/
inductive Similarity where
  | dotProduct | cosine
deriving DecidableEq, Repr

namespace Similarity

def all : List Similarity := [.dotProduct, .cosine]

def name : Similarity → String
  | .dotProduct => "dot_product"
  | .cosine => "cosine"

def ofName? (s : String) : Option Similarity := all.find? fun x => x.name == s

@[simp] theorem ofName?_name (x : Similarity) : ofName? x.name = some x := by
  cases x <;> decide

end Similarity

/-- How the lexical index cuts a content into tokens: windows of three characters, stems of
words, or words. -/
inductive TokenizerKind where
  | trigram | porter | words
deriving DecidableEq, Repr

namespace TokenizerKind

def all : List TokenizerKind := [.trigram, .porter, .words]

def name : TokenizerKind → String
  | .trigram => "trigram"
  | .porter => "porter"
  | .words => "unicode61"

def ofName? (s : String) : Option TokenizerKind := all.find? fun x => x.name == s

@[simp] theorem ofName?_name (x : TokenizerKind) : ofName? x.name = some x := by
  cases x <;> decide

def argument : TokenizerKind → String
  | .trigram => "trigram"
  | .porter => "porter unicode61"
  | .words => "unicode61"

end TokenizerKind

/-- The database name of a private store that no file backs. -/
def inMemoryName : String := ":memory:"

/-- Without dimensions there is no vector index. -/
structure Config where
  database : String := inMemoryName
  lexical : Bool := true
  dims : Option Nat := none
  similarity : Similarity := .dotProduct
  tokenizer : TokenizerKind := .trigram
deriving DecidableEq, Inhabited

namespace Config

def inMemory (c : Config) : Bool := c.database == inMemoryName

def hasVectors (c : Config) : Bool := c.dims.isSome

/-- What keeps a configuration from ever being opened. -/
def validate (c : Config) : Except ConfigFault Unit :=
  if Text.blank c.database then .error .emptyDatabase
  else if c.dims = some 0 then .error .zeroDims
  else .ok ()

def withDatabase (name : String) (c : Config) : Config := { c with database := name }

def withLexical (enabled : Bool) (c : Config) : Config := { c with lexical := enabled }

def withVectors (dims : Nat) (similarity : Similarity) (c : Config) : Config :=
  { c with dims := some dims, similarity := similarity }

def withTokenizer (tokenizer : TokenizerKind) (c : Config) : Config :=
  { c with tokenizer := tokenizer }

def fieldNames : List String :=
  ["database", "use_bm25", "embedding_dims", "embedding_similarity_function", "fts_tokenizer"]

def toFields (c : Config) : Json.Fields :=
  Json.fieldsOf [
    ("database", .string c.database),
    ("use_bm25", .bool c.lexical),
    ("embedding_dims", .optional (fun n : Nat => .integer n) c.dims),
    ("embedding_similarity_function", .string c.similarity.name),
    ("fts_tokenizer", .string c.tokenizer.name)]

def setField (c : Config) (name : String) (v : Json) : Except ShapeError Config :=
  match name with
  | "database" => v.asText.map fun x => { c with database := x }
  | "use_bm25" => v.asBool.map fun x => { c with lexical := x }
  | "embedding_dims" =>
    (Json.asOptional Json.asUnsigned v).map fun x => { c with dims := x }
  | "embedding_similarity_function" =>
    (Json.asVariant Similarity.ofName? v).map fun x => { c with similarity := x }
  | "fts_tokenizer" =>
    (Json.asVariant TokenizerKind.ofName? v).map fun x => { c with tokenizer := x }
  | _ => .ok c

def ofJson : Json.Shape Config := Json.asRecord fieldNames setField {}

end Config
end DocumentStore
