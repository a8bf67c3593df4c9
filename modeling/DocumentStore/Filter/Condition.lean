import DocumentStore.Filter.Field
import DocumentStore.Filter.Truth
import DocumentStore.Calendar.Iso
import DocumentStore.Cell

/-! Conditions on the rows of the document table, into which filters are compiled. A condition has
a text with a question mark for each value, and the values as parameters from left to right. A
row is kept only if its condition is certainly true; a malformed metadata text makes a condition
fail as soon as the condition looks into it. -/
namespace DocumentStore

/-- The comparisons with a bound value that are unknown on nulls. -/
inductive Relation where
  | equal | greater | greaterOrEqual | less | lessOrEqual
deriving DecidableEq, Repr

namespace Relation

def symbol : Relation → String
  | .equal => "="
  | .greater => ">"
  | .greaterOrEqual => ">="
  | .less => "<"
  | .lessOrEqual => "<="

def admits : Relation → Ordering → Bool
  | .equal, o => o.isEq
  | .greater, o => o.isGT
  | .greaterOrEqual, o => o.isGE
  | .less, o => o.isLT
  | .lessOrEqual, o => o.isLE

end Relation

/-- What is asked of a field. A list is bound as its compact text. -/
inductive Test where
  | isNull
  | isNot (v : Cell)
  | compare (r : Relation) (v : Cell)
  | among (list : String)
  | notAmong (list : String)
deriving DecidableEq

inductive Condition where
  | test (field : Field) (t : Test)
  | all (first : Condition) (rest : List Condition)
  | any (first : Condition) (rest : List Condition)
  | notAll (first : Condition) (rest : List Condition)

namespace Test

def text (x : String) : Test → String
  | .isNull => x ++ " IS NULL"
  | .isNot _ => x ++ " IS NOT ?"
  | .compare r _ => x ++ " " ++ r.symbol ++ " ?"
  | .among _ => x ++ " IN (SELECT value FROM json_each(?))"
  | .notAmong _ =>
    "(" ++ x ++ " IS NULL OR " ++ x ++ " NOT IN (SELECT value FROM json_each(?)))"

def parameters : Test → List Cell
  | .isNull => []
  | .isNot v | .compare _ v => [v]
  | .among list | .notAmong list => [.text list]

end Test

/-- How a column converts what it is compared with. -/
inductive Affinity where
  | text | real | none
deriving DecidableEq, Repr

namespace Affinity

def convert : Affinity → Cell → Cell
  | .text, v => v.toText
  | .real, v => v.toNumber
  | .none, v => v

/-- Converts a member of a list; a column of texts leaves it as it is. -/
def convertMember : Affinity → Cell → Cell
  | .real, v => v.toNumber
  | _, v => v

end Affinity

def Column.affinity : Column → Affinity
  | .blob => .none
  | .score => .real
  | _ => .text

def Field.affinity : Field → Affinity
  | .column c => c.affinity
  | .path _ => .none

/-- The value of a field in a row, unless the metadata is malformed. -/
def Field.value (cells : Column → Cell) : Field → Option Cell
  | .column c => some (cells c)
  | .path keys =>
    match cells .metadata with
    | .text s => (Node.read s).map fun n => ((n.follow keys).map Cell.ofNode).getD .null
    | _ => some .null

def memberOf (x : Cell) (members : List Cell) : Truth :=
  if members.isEmpty then .no
  else if x.isNull then .unknown
  else if members.any fun m => !m.isNull && (x.compare m).isEq then .yes
  else if members.any Cell.isNull then .unknown
  else .no

def listMembers (list : String) : Option (List Cell) :=
  match Node.read list with
  | some (.array items) => some (items.map Cell.ofNode)
  | _ => none

namespace Test

/-- The truth of a test on a value, unless a list is malformed. -/
def truth (a : Affinity) (x : Cell) : Test → Option Truth
  | .isNull => some (.ofBool x.isNull)
  | .isNot v =>
    let v := a.convert v
    some (.ofBool (x.isNull != v.isNull || !(x.compare v).isEq))
  | .compare r v =>
    let v := a.convert v
    some (if x.isNull || v.isNull then .unknown else .ofBool (r.admits (x.compare v)))
  | .among list => (listMembers list).map fun ms => memberOf x (ms.map a.convertMember)
  | .notAmong list =>
    if x.isNull then some .yes
    else (listMembers list).map fun ms => (memberOf x (ms.map a.convertMember)).not

end Test

namespace Condition

mutual

def text : Condition → String
  | .test field t => t.text field.text
  | .all c cs => "(" ++ text c ++ textRest " AND " cs ++ ")"
  | .any c cs => "(" ++ text c ++ textRest " OR " cs ++ ")"
  | .notAll c cs => "NOT (" ++ text c ++ textRest " AND " cs ++ ")"

def textRest (connective : String) : List Condition → String
  | [] => ""
  | c :: cs => connective ++ text c ++ textRest connective cs

end

mutual

def parameters : Condition → List Cell
  | .test _ t => t.parameters
  | .all c cs | .any c cs | .notAll c cs => parameters c ++ parametersOf cs

def parametersOf : List Condition → List Cell
  | [] => []
  | c :: cs => parameters c ++ parametersOf cs

end

def placeholders (c : Condition) : Nat := c.text.toList.count '?'

/-- Goes on to the second answer only after true. -/
def thenAlso : Option Bool → Option Bool → Option Bool
  | some true, r => r
  | l, _ => l

def elseAlso : Option Bool → Option Bool → Option Bool
  | some false, r => r
  | l, _ => l

def testTruth (cells : Column → Cell) (field : Field) (t : Test) : Option Truth :=
  (field.value cells).bind fun x => t.truth field.affinity x

mutual

/-- Whether a condition is certainly true. It stops at the first part that settles this. -/
def isTrue (cells : Column → Cell) : Condition → Option Bool
  | .test field t => (testTruth cells field t).map (· == .yes)
  | .all c cs => thenAlso (isTrue cells c) (allTrue cells cs)
  | .any c cs => elseAlso (isTrue cells c) (anyTrue cells cs)
  | .notAll c cs => elseAlso (isFalse cells c) (anyFalse cells cs)

def isFalse (cells : Column → Cell) : Condition → Option Bool
  | .test field t => (testTruth cells field t).map (· == .no)
  | .all c cs => elseAlso (isFalse cells c) (anyFalse cells cs)
  | .any c cs => thenAlso (isFalse cells c) (allFalse cells cs)
  | .notAll c cs => thenAlso (isTrue cells c) (allTrue cells cs)

def allTrue (cells : Column → Cell) : List Condition → Option Bool
  | [] => some true
  | c :: cs => thenAlso (isTrue cells c) (allTrue cells cs)

def anyTrue (cells : Column → Cell) : List Condition → Option Bool
  | [] => some false
  | c :: cs => elseAlso (isTrue cells c) (anyTrue cells cs)

def allFalse (cells : Column → Cell) : List Condition → Option Bool
  | [] => some true
  | c :: cs => thenAlso (isFalse cells c) (allFalse cells cs)

def anyFalse (cells : Column → Cell) : List Condition → Option Bool
  | [] => some false
  | c :: cs => elseAlso (isFalse cells c) (anyFalse cells cs)

end

end Condition

namespace Filter

def checkOrderable : Json → Except FilterError Unit
  | .array items => .error (.unorderableValue (Json.array items).kind)
  | .object fields => .error (.unorderableValue (Json.object fields).kind)
  | .string s => if Calendar.isIso s then .ok () else .error (.notIsoDate s)
  | _ => .ok ()

def listText (c : Comparison) : Except FilterError String :=
  match c.value with
  | .array items => .ok (Json.array items).text
  | _ => .error (.expectedList c.field c.operator)

def compileTest (c : Comparison) : Except FilterError Test :=
  let compare (r : Relation) : Except FilterError Test :=
    (checkOrderable c.value).map fun _ => .compare r (.ofJson c.value)
  match c.operator with
  | .equal => .ok (if c.value = .null then .isNull else .compare .equal (.ofJson c.value))
  | .notEqual => .ok (.isNot (.ofJson c.value))
  | .greater => compare .greater
  | .greaterOrEqual => compare .greaterOrEqual
  | .less => compare .less
  | .lessOrEqual => compare .lessOrEqual
  | .member => (listText c).map .among
  | .notMember => (listText c).map .notAmong

def compileComparison (c : Comparison) : Except FilterError Condition := do
  let field ← Field.ofText c.field
  let t ← compileTest c
  return .test field t

def connect : LogicalOperator → Condition → List Condition → Condition
  | .and => .all
  | .or => .any
  | .not => .notAll

mutual

/-- The condition that a filter stands for, or the fault of its first faulty comparison. -/
def compile : Filter → Except FilterError Condition
  | .comparison c => compileComparison c
  | .logical operator f fs => do
    let c ← compile f
    let cs ← compileItems fs
    return connect operator c cs

def compileItems : List Filter → Except FilterError (List Condition)
  | [] => .ok []
  | f :: fs => do
    let c ← compile f
    let cs ← compileItems fs
    return c :: cs

end

end Filter
end DocumentStore
