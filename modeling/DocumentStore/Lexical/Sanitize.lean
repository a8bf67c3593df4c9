import DocumentStore.Text.Alphanumeric
import DocumentStore.Text.Blank

/-! The sanitised form of a query text: its terms in quotes, without operators. -/
namespace DocumentStore.Lexical

def isTermChar (c : Char) : Bool := Text.isAlphanumeric c || c = '_'

/-- The longest runs of term characters; `run` is the one that has begun, last character first. -/
def runsFrom (run : List Char) : List Char → List (List Char)
  | [] => if run.isEmpty then [] else [run.reverse]
  | c :: cs =>
    if isTermChar c then runsFrom (c :: run) cs
    else if run.isEmpty then runsFrom [] cs
    else run.reverse :: runsFrom [] cs

def operatorWords : List String := ["AND", "OR", "NOT", "NEAR"]

def terms (query : String) : List String :=
  ((runsFrom [] query.toList).map String.ofList).filter fun t => !operatorWords.contains t

def sanitized (query : String) : String :=
  " ".intercalate ((terms query).map fun t => "\"" ++ t ++ "\"")

/-- Whether a query text is not yet sanitised, white space around it aside. -/
def isUnsanitized (query : String) : Bool := sanitized query != Text.trim query

end DocumentStore.Lexical
