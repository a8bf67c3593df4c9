import DocumentStore.Text.Utf8

/-! Text queries: phrases near each other, joined by operators; and the faults for which a query
text is refused. -/
namespace DocumentStore.Lexical

/-- A term of a phrase. If `isOpen` it stands for every token that begins with it, and if
`isLeading` it must be the first token of the text. -/
structure Term where
  bytes : Bytes
  isOpen : Bool := false
  isLeading : Bool := false
deriving DecidableEq, Repr

/-- Terms that follow one another. A phrase without terms matches nothing. -/
abbrev Phrase := List Term

/-- Phrases with at most `distance` tokens between them, looked for in the content if
`inContent`. -/
structure Near where
  phrases : List Phrase
  distance : Nat := 10
  inContent : Bool := true
deriving DecidableEq, Repr

inductive Query where
  | near (n : Near)
  | and (qs : List Query)
  | or (qs : List Query)
  | not (left right : Query)

inductive QueryFault where
  | syntaxNear (token : String)
  | unterminated
  | noSuchColumn (name : String)
  | expectedInteger (token : String)
  | stackOverflow
  | tooLarge
  | unknownDirective (text : String)
deriving DecidableEq

def heightLimit : Nat := 256

namespace QueryFault

def message : QueryFault → String
  | .syntaxNear token => "fts5: syntax error near \"" ++ token ++ "\""
  | .unterminated => "unterminated string"
  | .noSuchColumn name => "no such column: " ++ name
  | .expectedInteger token => "expected integer, got \"" ++ token ++ "\""
  | .stackOverflow => "fts5: parser stack overflow"
  | .tooLarge =>
    "fts5 expression tree is too large (maximum depth " ++ toString heightLimit ++ ")"
  | .unknownDirective text => "unknown special query: " ++ text

def occursIn (needle : List Char) : List Char → Bool
  | [] => needle.isEmpty
  | c :: cs => needle.isPrefixOf (c :: cs) || occursIn needle cs

/-- The wordings that call for a query to be tried again in its sanitised form. -/
def retryWordings : List String := ["fts5: syntax error", "unterminated string", "no such column"]

/-- Whether the message has one of these wordings in it. -/
def isRetried (f : QueryFault) : Bool :=
  retryWordings.any fun w => occursIn w.toList f.message.toList

end QueryFault

namespace Query

def isVoid : Query → Bool
  | .near n => n.phrases.any List.isEmpty
  | _ => false

mutual

/-- The phrases from left to right, each with whether it is looked for in the content. -/
def phrases : Query → List (Phrase × Bool)
  | .near n => n.phrases.map fun p => (p, n.inContent)
  | .and qs | .or qs => phrasesOf qs
  | .not l r => phrases l ++ phrases r

def phrasesOf : List Query → List (Phrase × Bool)
  | [] => []
  | q :: qs => phrases q ++ phrasesOf qs

end

mutual

def height : Query → Nat
  | .near _ => 0
  | .and qs | .or qs => heightOf qs + 1
  | .not l r => max (height l) (height r) + 1

def heightOf : List Query → Nat
  | [] => 0
  | q :: qs => max (height q) (heightOf qs)

end

mutual

/-- Looks outside the content, that is nowhere. -/
def outside : Query → Query
  | .near n => .near { n with inContent := false }
  | .and qs => .and (outsideOf qs)
  | .or qs => .or (outsideOf qs)
  | .not l r => .not (outside l) (outside r)

def outsideOf : List Query → List Query
  | [] => []
  | q :: qs => outside q :: outsideOf qs

end

def conjuncts : Query → List Query
  | .and qs => qs
  | q => [q]

def disjuncts : Query → List Query
  | .or qs => qs
  | q => [q]

/-- Conjunctions and disjunctions do not nest in their own kind. -/
def conjunction (l r : Query) : Query := .and (l.conjuncts ++ r.conjuncts)

def disjunction (l r : Query) : Query := .or (l.disjuncts ++ r.disjuncts)

/-- Adds a phrase to those before it; phrases without terms are left out if there are others. -/
def juxtapose (l r : Query) : Query :=
  if r.isVoid then l else if l.isVoid then r else conjunction l r

def checked (q : Query) : Except QueryFault Query :=
  if heightLimit < q.height then .error .tooLarge else .ok q

end Query
end DocumentStore.Lexical
