import DocumentStore.Lexical.Excerpt
import DocumentStore.Lexical.Grammar
import DocumentStore.Lexical.Sanitize
import DocumentStore.Lexical.Score
import DocumentStore.Retrieval.Hit

/-! The lexical index, and the search of query texts in it. -/
namespace DocumentStore.Lexical

/-- The contents by key, cut into tokens by a tokenizer of its own. -/
structure Index where
  kind : TokenizerKind
  entries : List (Int × Option String)
deriving DecidableEq

/-- An entry that matches, with its ranking score and its excerpts. -/
structure Found where
  key : Int
  score : Float
  excerpts : List (String × String)

/-- A directive is a query text that begins with a star; the known ones find nothing. -/
def directiveFault? (cs : List Char) : Option QueryFault :=
  let name := ((cs.takeWhile (· ≠ '\x00')).dropWhile (· = ' ')).takeWhile (· ≠ ' ')
  let folded := String.ofList (name.map Char.toLower)
  if folded = "reads" ∨ folded = "id" then none else some (.unknownDirective (String.ofList name))

/-- The query of a text; a directive has none. -/
def readQuery (kind : TokenizerKind) (text : String) : Except QueryFault (Option Query) :=
  match text.toList with
  | '*' :: cs =>
    match directiveFault? cs with
    | some fault => .error fault
    | none => .ok none
  | _ => (Grammar.parse kind (Lexeme.ofText text)).map some

namespace Index

def tokensOf (i : Index) (content : Option String) : List Token :=
  match content with
  | some s => tokens i.kind s.toList
  | none => []

def termsOf (i : Index) (content : Option String) : List Bytes :=
  (i.tokensOf content).map (·.term)

def corpus (i : Index) (q : Query) : Corpus :=
  .ofTexts q (i.entries.map fun e => i.termsOf e.2)

def excerpts (i : Index) (r : LexicalRequest) (q : Query) (content : Option String)
    (positions : List (List Nat)) : List (String × String) :=
  let text := (content.getD "").toList
  let ts := i.tokensOf content
  let is := Instance.ofPositions (q.phrases.map fun p => p.1.length) positions
  (r.snippet.map fun o => (snippetKey, excerpted o text ts is)).toList
    ++ (r.highlight.map fun o => (highlightKey, highlighted o text ts is)).toList

/-- The entries that match, from one on; `earlier` holds the texts before it. -/
def findFrom (i : Index) (r : LexicalRequest) (q : Query) (c : Corpus)
    (texts earlier : List (List Bytes)) : List (Int × Option String) → List Found
  | [] => []
  | e :: es =>
    let terms := i.termsOf e.2
    let later := findFrom i r q c texts (earlier ++ [terms]) es
    match q.positions? ⟨texts, earlier⟩ terms with
    | none => later
    | some positions =>
      ⟨e.1, c.score terms.length (positions.map List.length), i.excerpts r q e.2 positions⟩
        :: later

def search (i : Index) (r : LexicalRequest) (q : Query) : List Found :=
  i.findFrom r q (i.corpus q) (i.entries.map fun e => i.termsOf e.2) [] i.entries

end Index
end DocumentStore.Lexical
