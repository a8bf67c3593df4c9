import DocumentStore.Filter.Condition

/-! Conditions as they stand in a statement. A scanner takes a text apart into tokens and numbers
its question marks from left to right; a reader puts the tokens together again. A disjunction binds
loosest, then a conjunction, then a negation, then the tests. -/
namespace DocumentStore.Syntax

inductive Connective where
  | and | or
deriving DecidableEq, Repr

namespace Connective

def apply : Connective → Truth → Truth → Truth
  | .and => Truth.and
  | .or => Truth.or

/-- The truth that a connective leaves out of account. -/
def unit : Connective → Truth
  | .and => .yes
  | .or => .no

end Connective

/-- A combination of leaves. -/
inductive Expr (α : Type) where
  | leaf (a : α)
  | not (e : Expr α)
  | join (k : Connective) (l r : Expr α)
deriving DecidableEq

namespace Expr

variable {α β : Type}

def bind (g : α → Expr β) : Expr α → Expr β
  | leaf a => g a
  | not e => .not (bind g e)
  | join k l r => .join k (bind g l) (bind g r)

def leaves : Expr α → List α
  | leaf a => [a]
  | not e => leaves e
  | join _ l r => leaves l ++ leaves r

/-- The value of an expression under some values of its leaves. -/
def eval (σ : α → Truth) : Expr α → Truth
  | leaf a => σ a
  | not e => (eval σ e).not
  | join k l r => k.apply (eval σ l) (eval σ r)

end Expr

/-- What is asked of a field, with the number of the question mark that stands for the value. -/
inductive Predicate where
  | isNull
  | isNot (slot : Nat)
  | compare (r : Relation) (slot : Nat)
  | among (slot : Nat)
  | notAmong (slot : Nat)
deriving DecidableEq

structure Atom where
  field : Field
  predicate : Predicate
deriving DecidableEq

inductive Keyword where
  | or | and | not | is | null | in | select | value | from | jsonEach | jsonExtract
deriving DecidableEq, Repr

namespace Keyword

def all : List Keyword :=
  [.or, .and, .not, .is, .null, .in, .select, .value, .from, .jsonEach, .jsonExtract]

def spelling : Keyword → String
  | .or => "OR"
  | .and => "AND"
  | .not => "NOT"
  | .is => "IS"
  | .null => "NULL"
  | .in => "IN"
  | .select => "SELECT"
  | .value => "value"
  | .from => "FROM"
  | .jsonEach => "json_each"
  | .jsonExtract => "json_extract"

def ofSpelling? (s : String) : Option Keyword := all.find? fun k => k.spelling == s

end Keyword

def Connective.keyword : Connective → Keyword
  | .and => .and
  | .or => .or

inductive Token where
  | keyword (k : Keyword)
  | column (c : Column)
  | quoted (cs : List Char)
  | relation (r : Relation)
  | parameter (slot : Nat)
  | opening | closing | comma
  | unknown (cs : List Char)
deriving DecidableEq

def Token.ofWord (w : List Char) : Token :=
  match Column.ofName? (String.ofList w), Keyword.ofSpelling? (String.ofList w) with
  | some c, _ => .column c
  | none, some k => .keyword k
  | none, none => .unknown w

/-- What the scanner is in. -/
inductive Mode where
  | between
  | word (cs : List Char)
  | quoted (cs : List Char)
  | less | greater
deriving DecidableEq

/-- How many question marks have been seen, and what the scanner is in. -/
structure Scan where
  slots : Nat
  mode : Mode

namespace Scan

def isWordChar (c : Char) : Bool := c.isAlphanum || c = '_'

def start (slots : Nat) (c : Char) : List Token × Scan :=
  if isWordChar c then ([], ⟨slots, .word [c]⟩)
  else match c with
    | ' ' => ([], ⟨slots, .between⟩)
    | '\'' => ([], ⟨slots, .quoted []⟩)
    | '<' => ([], ⟨slots, .less⟩)
    | '>' => ([], ⟨slots, .greater⟩)
    | '=' => ([.relation .equal], ⟨slots, .between⟩)
    | '?' => ([.parameter slots], ⟨slots + 1, .between⟩)
    | '(' => ([.opening], ⟨slots, .between⟩)
    | ')' => ([.closing], ⟨slots, .between⟩)
    | ',' => ([.comma], ⟨slots, .between⟩)
    | c => ([.unknown [c]], ⟨slots, .between⟩)

def step (s : Scan) (c : Char) : List Token × Scan :=
  let after (t : Token) : List Token × Scan :=
    (t :: (start s.slots c).1, (start s.slots c).2)
  match s.mode with
  | .between => start s.slots c
  | .word w => if isWordChar c then ([], ⟨s.slots, .word (w ++ [c])⟩) else after (.ofWord w)
  | .quoted q =>
    if c = '\'' then ([.quoted q], ⟨s.slots, .between⟩) else ([], ⟨s.slots, .quoted (q ++ [c])⟩)
  | .less =>
    if c = '=' then ([.relation .lessOrEqual], ⟨s.slots, .between⟩) else after (.relation .less)
  | .greater =>
    if c = '=' then ([.relation .greaterOrEqual], ⟨s.slots, .between⟩)
    else after (.relation .greater)

def finish (s : Scan) : List Token :=
  match s.mode with
  | .between => []
  | .word w => [.ofWord w]
  | .quoted q => [.unknown q]
  | .less => [.relation .less]
  | .greater => [.relation .greater]

def tokens : Scan → List Char → List Token
  | s, [] => s.finish
  | s, c :: cs => (s.step c).1 ++ tokens (s.step c).2 cs

end Scan

/-- Takes something off the front of some tokens and leaves the rest. -/
abbrev Reader (α : Type) := List Token → Option (α × List Token)

/-- What the reader of a path is in. -/
inductive Step where
  | done
  | point
  | bare (key : List Char)
  | quoted (key : List Char)

/-- The keys of a path without its dollar sign: each one after a point, quoted or not. -/
def readSteps : Step → List Char → Option (List String)
  | .done, [] => some []
  | .bare k, [] => some [String.ofList k]
  | .point, [] | .quoted _, [] => none
  | .done, c :: cs => if c = '.' then readSteps .point cs else none
  | .point, c :: cs => if c = '"' then readSteps (.quoted []) cs else readSteps (.bare [c]) cs
  | .bare k, c :: cs =>
    if c = '.' then (readSteps .point cs).map (String.ofList k :: ·)
    else readSteps (.bare (k ++ [c])) cs
  | .quoted k, c :: cs =>
    if c = '"' then (readSteps .done cs).map (String.ofList k :: ·)
    else readSteps (.quoted (k ++ [c])) cs

def readPath : List Char → Option (List String)
  | '$' :: cs => readSteps .done cs
  | _ => none

def readField : Reader Field
  | .keyword .jsonExtract :: .opening :: .column .metadata :: .comma :: .quoted path :: .closing
      :: ts =>
    (readPath path).map fun keys => (.path keys, ts)
  | .column c :: ts => some (.column c, ts)
  | _ => none

def readList : Reader Nat
  | .opening :: .keyword .select :: .keyword .value :: .keyword .from :: .keyword .jsonEach
      :: .opening :: .parameter slot :: .closing :: .closing :: ts => some (slot, ts)
  | _ => none

def readPredicate : Reader Predicate
  | .keyword .is :: .keyword .null :: ts => some (.isNull, ts)
  | .keyword .is :: .keyword .not :: .parameter slot :: ts => some (.isNot slot, ts)
  | .relation r :: .parameter slot :: ts => some (.compare r slot, ts)
  | .keyword .in :: ts => (readList ts).map fun p => (.among p.1, p.2)
  | .keyword .not :: .keyword .in :: ts => (readList ts).map fun p => (.notAmong p.1, p.2)
  | _ => none

def readAtom : Reader Atom := fun ts =>
  (readField ts).bind fun p => (readPredicate p.2).map fun q => (⟨p.1, q.1⟩, q.2)

/-- What follows an operand and a connective as often as there is one; `fuel` bounds how often. -/
def readChain (operand : Reader (Expr Atom)) (k : Connective) : Nat → Expr Atom → Reader (Expr Atom)
  | 0, _, _ => none
  | fuel + 1, e, ts =>
    if ts.head? = some (.keyword k.keyword) then
      (operand ts.tail).bind fun p => readChain operand k fuel (.join k e p.1) p.2
    else some (e, ts)

def readJoined (operand : Reader (Expr Atom)) (k : Connective) (fuel : Nat) : Reader (Expr Atom) :=
  fun ts => (operand ts).bind fun p => readChain operand k fuel p.1 p.2

def readConjunction (operand : Reader (Expr Atom)) (fuel : Nat) : Reader (Expr Atom) :=
  readJoined operand .and fuel

def readDisjunction (operand : Reader (Expr Atom)) (fuel : Nat) : Reader (Expr Atom) :=
  readJoined (readConjunction operand fuel) .or fuel

/-- A test, an expression in parentheses, or the negation of such a thing. -/
def readNegation : Nat → Reader (Expr Atom)
  | 0, _ => none
  | fuel + 1, .keyword .not :: ts => (readNegation fuel ts).map fun p => (.not p.1, p.2)
  | fuel + 1, .opening :: ts =>
    match readDisjunction (readNegation fuel) fuel ts with
    | some (e, .closing :: ts) => some (e, ts)
    | _ => none
  | _ + 1, ts => (readAtom ts).map fun p => (.leaf p.1, p.2)

/-- The expression that a text stands for, if it stands for one and nothing else. -/
def read (s : String) : Option (Expr Atom) :=
  let fuel := s.toList.length + 1
  match readDisjunction (readNegation fuel) fuel (Scan.tokens ⟨0, .between⟩ s.toList) with
  | some (e, []) => some e
  | _ => none

end DocumentStore.Syntax
