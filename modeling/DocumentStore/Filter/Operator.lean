/-! The operators of filters and their spellings. -/
namespace DocumentStore

inductive ComparisonOperator where
  | equal | notEqual | greater | greaterOrEqual | less | lessOrEqual | member | notMember
deriving DecidableEq, Repr

namespace ComparisonOperator

def all : List ComparisonOperator :=
  [.equal, .notEqual, .greater, .greaterOrEqual, .less, .lessOrEqual, .member, .notMember]

def spelling : ComparisonOperator → String
  | .equal => "=="
  | .notEqual => "!="
  | .greater => ">"
  | .greaterOrEqual => ">="
  | .less => "<"
  | .lessOrEqual => "<="
  | .member => "in"
  | .notMember => "not in"

def ofSpelling? (s : String) : Option ComparisonOperator := all.find? fun o => o.spelling == s

@[simp] theorem ofSpelling?_spelling (o : ComparisonOperator) :
    ofSpelling? o.spelling = some o := by
  cases o <;> decide

/-- Whether the operator asks for an order and not only for equality. -/
def isOrdering : ComparisonOperator → Bool
  | .greater | .greaterOrEqual | .less | .lessOrEqual => true
  | _ => false

end ComparisonOperator

/-- A negation denies that all of its conditions hold. -/
inductive LogicalOperator where
  | and | or | not
deriving DecidableEq, Repr

namespace LogicalOperator

def all : List LogicalOperator := [.and, .or, .not]

def spelling : LogicalOperator → String
  | .and => "AND"
  | .or => "OR"
  | .not => "NOT"

def ofSpelling? (s : String) : Option LogicalOperator := all.find? fun o => o.spelling == s

@[simp] theorem ofSpelling?_spelling (o : LogicalOperator) : ofSpelling? o.spelling = some o := by
  cases o <;> decide

end LogicalOperator
end DocumentStore
