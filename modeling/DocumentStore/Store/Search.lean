import DocumentStore.Store.Read

/-! Ranked searches: by the words of a query, and by the distance to a vector. -/
namespace DocumentStore.Database

/-- Why a text search failed. -/
inductive SearchFault where
  | query (fault : Lexical.QueryFault)
  | store (e : StoreError)

def rankedRows (db : Database) (found : List Lexical.Found) : List Ranked :=
  found.filterMap fun f => (db.findKey? f.key).map fun r => ⟨r, f.score, f.excerpts⟩

/-- Searches for a query text, which is read only if the statement gets that far. -/
def searchOnce (condition : Option Condition) (r : LexicalRequest) (text : String)
    (db : Database) : Except SearchFault (List Hit) :=
  match db.lexical with
  | none => .error (.store .engine)
  | some i =>
    let candidates := Statement.lexicalCandidates r text
    match db.begins .found (Statement.ranked none candidates r.topK).parameters.length
        condition with
    | none => .error (.store .engine)
    | some false => .ok []
    | some true =>
      match Lexical.readQuery i.kind text with
      | .error fault => .error (.query fault)
      | .ok none => .ok []
      | .ok (some q) =>
        match rank .found condition r.topK (db.rankedRows (i.search r q)) with
        | .ok hits => .ok hits
        | .error e => .error (.store e)

/-- Searches for the query text of a request, and once more for its sanitised form if the text is
refused for its syntax. -/
def searchText (condition : Option Condition) (r : LexicalRequest) (db : Database) :
    Except StoreError (List Hit) :=
  match db.searchOnce condition r r.query with
  | .ok hits => .ok hits
  | .error (.store e) => .error e
  | .error (.query fault) =>
    if !fault.isRetried then .error .engine
    else
      let text := Lexical.sanitized r.query
      if text = "" then .error (.validation .emptyQuery)
      else if !Lexical.isUnsanitized r.query then .error .engine
      else
        match db.searchOnce condition r text with
        | .ok hits => .ok hits
        | .error (.store e) => .error e
        | .error (.query _) => .error .engine

def nearest (s : Similarity) (query : List Float32) (limit : Nat) (db : Database) :
    Except StoreError (List Vector.Candidate) :=
  match db.vectors with
  | none => .error .engine
  | some entries => .ok (Vector.nearest s query limit entries)

def windowRows (db : Database) (window : List (Int × Float)) : List Ranked :=
  window.filterMap fun c => (db.findKey? c.1).map fun r => ⟨r, c.2, []⟩

/-- Ranks a window of candidates, which is handed over as a text. -/
def searchWindow (condition : Option Condition) (topK : Option Nat)
    (window : List Vector.Candidate) (db : Database) : Except StoreError (List Hit) :=
  if window.isEmpty then .ok []
  else
    let entries := window.map fun c => (c.key, c.distance)
    let candidates := Statement.vectorCandidates entries
    match db.begins .window (Statement.ranked none candidates topK).parameters.length
        condition with
    | none => .error .engine
    | some false => .ok []
    | some true =>
      match Statement.readWindow (Statement.windowText entries) with
      | none => .error .engine
      | some found => rank .window condition topK (db.windowRows found)

end DocumentStore.Database
