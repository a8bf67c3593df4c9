import DocumentStore.Filter.Basic
import DocumentStore.Text.Alphanumeric

/-! The fields that a filter may name: the columns of the document table and paths into the
metadata. A path's segments hold alphanumerics, underscores, hyphens and spaces, so that they can
stand in the text of a statement. -/
namespace DocumentStore

inductive Column where
  | id | content | dataframe | blob | metadata | score | embedding
deriving DecidableEq, Repr

namespace Column

def all : List Column := [.id, .content, .dataframe, .blob, .metadata, .score, .embedding]

def name : Column → String
  | .id => "id"
  | .content => "content"
  | .dataframe => "dataframe"
  | .blob => "blob"
  | .metadata => "meta"
  | .score => "score"
  | .embedding => "embedding"

def ofName? (s : String) : Option Column := all.find? fun c => c.name == s

@[simp] theorem ofName?_name (c : Column) : ofName? c.name = some c := by
  cases c <;> decide

end Column

inductive Field where
  | column (c : Column)
  | path (keys : List String)
deriving DecidableEq

namespace Field

/-- The pieces between the points of a text; there is always one. -/
def splitPoints : List Char → List (List Char)
  | [] => [[]]
  | c :: cs =>
    if c = '.' then [] :: splitPoints cs
    else match splitPoints cs with
      | [] => [[c]]
      | s :: ss => (c :: s) :: ss

def isKeyChar (c : Char) : Bool := Text.isAlphanumeric c || c = '_' || c = '-' || c = ' '

/-- What makes a segment unusable, its first bad character if it is not empty. -/
def keyFault? (segment : List Char) : Option KeyFault :=
  if segment.isEmpty then some .empty
  else (segment.find? fun c => !isKeyChar c).map .unsupported

def checkKeys : List (List Char) → Except KeyFault (List String)
  | [] => .ok []
  | s :: ss =>
    match keyFault? s with
    | some fault => .error fault
    | none => (checkKeys ss).map (String.ofList s :: ·)

def ofText (s : String) : Except FilterError Field :=
  match s.toList with
  | 'm' :: 'e' :: 't' :: 'a' :: '.' :: rest =>
    match checkKeys (splitPoints rest) with
    | .ok keys => .ok (.path keys)
    | .error fault => .error (.invalidMetaKey s fault)
  | _ =>
    match Column.ofName? s with
    | some c => .ok (.column c)
    | none => .error (.unknownField s)

def isBareStart (c : Char) : Bool := c.isAlpha || c = '_'

def isBareChar (c : Char) : Bool := c.isAlphanum || c = '_'

/-- A key as a step of a path; one that is no plain name is quoted. -/
def stepChars (key : String) : List Char :=
  match key.toList with
  | c :: cs =>
    if isBareStart c && (c :: cs).all isBareChar then '.' :: c :: cs
    else '.' :: '"' :: (c :: cs ++ ['"'])
  | [] => ['.', '"', '"']

def pathChars (keys : List String) : List Char := '$' :: keys.flatMap stepChars

def text : Field → String
  | .column c => c.name
  | .path keys => "json_extract(meta, '" ++ String.ofList (pathChars keys) ++ "')"

end Field
end DocumentStore
