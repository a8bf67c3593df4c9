import DocumentStore.Document.Record
import DocumentStore.Number.Order
import DocumentStore.Vector.Distance

/-! The window of the nearest entries of the vector index: entries are taken in one by one, and the
farthest one is put out whenever there are too many. -/
namespace DocumentStore.Vector

/-- An entry of the index by its key, with its distance from the query. -/
structure Candidate where
  distance : Float
  key : Int
deriving DecidableEq

/-- By distance in the total order of doubles, then by key. -/
def Candidate.compare (a b : Candidate) : Ordering :=
  (Ord.compare (Number.totalKey a.distance) (Number.totalKey b.distance)).then
    (Ord.compare a.key b.key)

def insert (c : Candidate) : List Candidate → List Candidate
  | [] => [c]
  | d :: ds => if (c.compare d).isLT then c :: d :: ds else d :: insert c ds

/-- Takes in a candidate and puts out the farthest one if there are more than `limit`. -/
def takeIn (limit : Nat) (window : List Candidate) (c : Candidate) : List Candidate :=
  (insert c window).take limit

/-- The candidate of an entry: its text must hold a vector of the query's length whose distance is
finite. -/
def candidate? (s : Similarity) (query : List Float32) (entry : Int × String) :
    Option Candidate :=
  match Record.vector? entry.2 with
  | none => none
  | some v =>
    if v.length = query.length then
      let d := distance s query v
      if d.isFinite then some ⟨d, entry.1⟩ else none
    else none

def nearest (s : Similarity) (query : List Float32) (limit : Nat) (entries : List (Int × String)) :
    List Candidate :=
  (entries.filterMap (candidate? s query)).foldl (takeIn limit) []

end DocumentStore.Vector
