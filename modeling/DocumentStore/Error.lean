import DocumentStore.Filter.Basic
import DocumentStore.Json.Shape

/-! The faults of the store and its retrievers, by cause, and their wording. -/
namespace DocumentStore

def maxSnippetTokens : Nat := 64

/-- Bad input of a caller. -/
inductive ValidationError where
  | emptyQuery
  | emptyQueryVector
  | invalidTopK (n : Int)
  | invalidNumCandidates (n : Int)
  | snippetTokensOutOfRange (requested : Int)
  | dimensionMismatch (expected actual : Nat)
  | nonFiniteEmbedding (id : String)
deriving DecidableEq

def ValidationError.message : ValidationError → String
  | .emptyQuery => "query should be a non-empty string"
  | .emptyQueryVector => "query embedding should be a non-empty vector"
  | .invalidTopK n => "top_k must be greater than 0, got " ++ toString n
  | .invalidNumCandidates n => "num_candidates must be greater than 0, got " ++ toString n
  | .snippetTokensOutOfRange requested =>
    "snippet token budget must be within 1..=" ++ toString maxSnippetTokens ++ ", got "
      ++ toString requested
  | .dimensionMismatch expected actual =>
    "embedding dimension mismatch: expected " ++ toString expected ++ ", got " ++ toString actual
  | .nonFiniteEmbedding id =>
    "embedding contains non-finite values (document '" ++ id ++ "')"

/-- What a configuration cannot do. -/
inductive ConfigFault where
  | emptyDatabase
  | zeroDims
  | unreadableText
  | missingFile
  | lexicalDisabled
  | vectorsDisabled
deriving DecidableEq, Repr

def ConfigFault.message : ConfigFault → String
  | .emptyDatabase => "database path is empty"
  | .zeroDims => "embedding_dims must be greater than 0"
  | .unreadableText => "invalid store config"
  | .missingFile => "cannot read"
  | .lexicalDisabled => "lexical retrieval requires use_bm25 = true"
  | .vectorsDisabled => "embedding retrieval requires embedding_dims to be set"

/-- What is wrong with serialized component data. -/
inductive ComponentFault where
  | notMapping
  | typeNotText
  | typeMissing
  | parametersNotMapping
  | unexpectedType (expected actual : String)
  | badParameters (type : String) (fault : ShapeError)
  | nestedMissing (key : String)
  | nestedNotMapping (key : String)
  | nestedUntyped (key : String)
  | badConfig (fault : ConfigFault)
deriving DecidableEq

def configurationMessage (fault : ConfigFault) : String :=
  "configuration error: " ++ fault.message

def ComponentFault.message : ComponentFault → String
  | .notMapping => "component data must be a mapping"
  | .typeNotText => "'type' must be a string"
  | .typeMissing => "missing 'type' in component data"
  | .parametersNotMapping => "'init_parameters' must be a mapping"
  | .unexpectedType expected actual =>
    "expected component type '" ++ expected ++ "', got '" ++ actual ++ "'"
  | .badParameters type fault =>
    "invalid init_parameters for '" ++ type ++ "': " ++ fault.message
  | .nestedMissing key => "missing '" ++ key ++ "' in serialization data"
  | .nestedNotMapping key => "'" ++ key ++ "' in serialization data must be a mapping"
  | .nestedUntyped key => "missing 'type' in " ++ key ++ "'s serialization data"
  | .badConfig fault => configurationMessage fault

/-- Which text of a stored document cannot be read. -/
inductive RecordFault where
  | metadataNotObject (found : Json)
  | metadata
  | dataframe
  | embedding
deriving DecidableEq

def RecordFault.message : RecordFault → String
  | .metadataNotObject found => "meta is not an object: " ++ found.text
  | .metadata => "meta"
  | .dataframe => "dataframe"
  | .embedding => "embedding"

inductive StorageError where
  | engine
  | migrationFailed (version : Nat)
  | malformedRecord (id : String) (fault : RecordFault)
  | lockPoisoned
deriving DecidableEq

def StorageError.message : StorageError → String
  | .engine => "SQLite error"
  | .migrationFailed version => "migration failed at version " ++ toString version
  | .malformedRecord id fault => "malformed stored document '" ++ id ++ "': " ++ fault.message
  | .lockPoisoned => "connection lock poisoned"

inductive StoreError where
  | validation (e : ValidationError)
  | filter (e : FilterError)
  | duplicateDocument (id : String)
  | deserialization (fault : ComponentFault)
  | configuration (fault : ConfigFault)
  | storage (e : StorageError)
deriving DecidableEq

def StoreError.message : StoreError → String
  | .validation e => "validation error: " ++ e.message
  | .filter e => "filter error: " ++ e.message
  | .duplicateDocument id => "duplicate document: id '" ++ id ++ "' already exists"
  | .deserialization fault => "deserialization error: " ++ fault.message
  | .configuration fault => configurationMessage fault
  | .storage e => "storage error: " ++ e.message

/-- A failure of the tables themselves. -/
def StoreError.engine : StoreError := .storage .engine

def lift {ε α : Type} (wrap : ε → StoreError) : Except ε α → Except StoreError α
  | .ok a => .ok a
  | .error e => .error (wrap e)

end DocumentStore
