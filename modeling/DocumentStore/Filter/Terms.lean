import DocumentStore.Filter.Condition

/-! How a statement asks its condition of the rows. The condition falls into terms that must all
hold. A term that equates a column with a value fixes the column: the other terms see the value in
its place, whatever a row has there. Terms that see no row are asked once and for all, and where a
term asks for the id the rows are looked up by it. -/
namespace DocumentStore

/-- What the documents of a statement are joined with: nothing, the entries that a text search
finds, or a window of candidates. -/
inductive Join where
  | alone | found | window
deriving DecidableEq

/-- A condition that must hold, with the cells that it sees in place of those of the row. -/
structure Term where
  condition : Condition
  fixed : Column → Option Cell

/-- What a column makes of a value to which it is fixed. -/
def Affinity.keep : Affinity → Cell → Cell
  | .text, v => v.toText
  | .real, v => v.toReal
  | .none, v => v

namespace Test

def isComparison : Test → Bool
  | .compare _ _ => true
  | _ => false

def isEquality : Test → Bool
  | .compare .equal _ => true
  | _ => false

def asksList : Test → Bool
  | .among _ | .notAmong _ => true
  | _ => false

end Test

namespace Condition

mutual

/-- The conditions that must all hold. A disjunction of one condition is this condition. -/
def terms : Condition → List Condition
  | .all c cs => terms c ++ termsOf cs
  | .any c [] => terms c
  | c => [c]

def termsOf : List Condition → List Condition
  | [] => []
  | c :: cs => terms c ++ termsOf cs

end

mutual

def leaves : Condition → List (Field × Test)
  | .test field t => [(field, t)]
  | .all c cs | .any c cs | .notAll c cs => leaves c ++ leavesOf cs

def leavesOf : List Condition → List (Field × Test)
  | [] => []
  | c :: cs => leaves c ++ leavesOf cs

end

def asksList (c : Condition) : Bool := c.leaves.any fun p => p.2.asksList

def fixes? : Condition → Option (Column × Cell)
  | .test (.column c) (.compare .equal v) => some (c, c.affinity.keep v)
  | _ => none

/-- To what terms fix a column. The last of those that fix it decides. -/
def fixed (ts : List Condition) (c : Column) : Option Cell :=
  (ts.reverse.filterMap fixes?).lookup c

/-- The terms as they are asked. The one that decides about a column looks at the column itself. -/
def askedFrom (all : Column → Option Cell) : List Condition → List Term
  | [] => []
  | t :: ts =>
    let decides := t.fixes?.any fun p => (fixed ts p.1).isNone
    ⟨t, if decides then fun _ => none else all⟩ :: askedFrom all ts

def asked (c : Condition) : List Term := askedFrom (fixed c.terms) c.terms

end Condition

namespace Term

def cells (t : Term) (row : Column → Cell) (c : Column) : Cell := (t.fixed c).getD (row c)

def isTrue (t : Term) (row : Column → Cell) : Option Bool := t.condition.isTrue (t.cells row)

/-- Whether a test of a field sees no row: no row has an id that is null, and of a column of blobs
only comparisons see to what it is fixed. -/
def isSettledIn (fixed : Column → Option Cell) : Field × Test → Bool
  | (.column .id, t) => (fixed .id).isSome || t == .isNull
  | (.column .blob, t) => (fixed .blob).isSome && t.isComparison
  | (.column c, _) => (fixed c).isSome
  | (.path _, _) => (fixed .metadata).isSome

def isSettled (t : Term) : Bool := t.condition.leaves.all (isSettledIn t.fixed)

/-- Whether all terms hold, asked in turn. -/
def allTrue (row : Column → Cell) : List Term → Option Bool
  | [] => some true
  | t :: ts => Condition.thenAlso (t.isTrue row) (allTrue row ts)

end Term

namespace Condition

/-- What stands in for a row where none is seen. -/
def noRow : Column → Cell := fun _ => .text ""

/-- Whether all terms hold that are asked before there is a row. -/
def isTrueAhead (c : Condition) : Option Bool :=
  Term.allTrue noRow (c.asked.filter fun t => t.isSettled && !t.condition.asksList)

/-- The test of the id that a term is, if it asks for the id or for one of a list. -/
def idTest? : Condition → Option Test
  | .test (.column .id) t =>
    match t with
    | .compare .equal _ | .among _ => some t
    | _ => none
  | _ => none

mutual

/-- Tests of the id of which one holds wherever the condition does. -/
def idTests? : Condition → Option (List Test)
  | .test field t => (idTest? (.test field t)).map fun t => [t]
  | .all c cs => (idTests? c).or (firstIdTests? cs)
  | .any c cs => (idTests? c).bind fun ts => (allIdTests? cs).map (ts ++ ·)
  | .notAll _ _ => none

def firstIdTests? : List Condition → Option (List Test)
  | [] => none
  | c :: cs => (idTests? c).or (firstIdTests? cs)

def allIdTests? : List Condition → Option (List Test)
  | [] => some []
  | c :: cs => (idTests? c).bind fun ts => (allIdTests? cs).map (ts ++ ·)

end

end Condition

/-- By how many ids rows are looked up at most. Beyond this, what they are joined with comes
first. -/
def Join.mostIds : Join → Option Nat
  | .alone => none
  | .found => some 2
  | .window => some 1

/-- Whether a statement looks up rows by these tests of their id. -/
def Join.looksUp (join : Join) (ts : List Test) : Bool :=
  match join.mostIds with
  | none => true
  | some n => decide (ts.length ≤ n) && ts.all Test.isEquality

namespace Condition

/-- The tests by which rows are looked up. A term that asks for the id itself comes before those
that ask for one of several. -/
def lookup? (join : Join) (c : Condition) : Option (List Test) :=
  match c.terms.findSome? idTest? with
  | some t => if join.looksUp [t] then some [t] else none
  | none => c.terms.findSome? fun t => t.idTests?.filter join.looksUp

/-- Whether a row meets a condition. Rows that are not looked up are passed over; if none are looked
up, what the documents are joined with comes first, and terms that ask for a list but see no row
are asked with it. -/
def holds (join : Join) (row : Column → Cell) (c : Condition) : Option Bool :=
  match c.lookup? join with
  | some ts => thenAlso (anyTrue row (ts.map (.test (.column .id)))) (Term.allTrue row c.asked)
  | none =>
    let early := c.asked.filter fun t => t.isSettled && t.condition.asksList
    Term.allTrue row (if join = .alone then c.asked else early ++ c.asked)

end Condition
end DocumentStore
