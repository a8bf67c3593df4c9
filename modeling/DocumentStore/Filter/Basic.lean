import DocumentStore.Filter.Operator
import DocumentStore.Json.Printer
import DocumentStore.Text.Visible

/-! Filters over documents: trees of comparisons, in which every logical node has a condition, and
the faults that a filter can have. -/
namespace DocumentStore

/-- A field, an operator and the value that the field is compared with. -/
structure Comparison where
  field : String
  operator : ComparisonOperator
  value : Json
deriving DecidableEq

inductive Filter where
  | comparison (c : Comparison)
  | logical (operator : LogicalOperator) (first : Filter) (rest : List Filter)

/-- What is wrong with a segment of a path into the metadata. -/
inductive KeyFault where
  | empty
  | unsupported (c : Char)
deriving DecidableEq

inductive FilterError where
  | missingKey (key : String) (node : Json)
  | notAnObject (found : String)
  | wrongType (key expected found : String)
  | unknownComparisonOperator (spelling : String)
  | unknownLogicalOperator (spelling : String)
  | emptyConditions (operator : LogicalOperator)
  | unknownField (field : String)
  | invalidMetaKey (field : String) (fault : KeyFault)
  | unorderableValue (found : String)
  | notIsoDate (value : String)
  | expectedList (field : String) (operator : ComparisonOperator)
deriving DecidableEq

def KeyFault.message : KeyFault → String
  | .empty => "empty key segment"
  | .unsupported c => "unsupported character " ++ Text.shown c

def quotedSpellings (spellings : List String) : String :=
  ", ".intercalate (spellings.map fun s => "'" ++ s ++ "'")

namespace FilterError

def orderingSpellings : String :=
  quotedSpellings ((ComparisonOperator.all.filter (·.isOrdering)).map (·.spelling))

def message : FilterError → String
  | .missingKey key node => "'" ++ key ++ "' key missing in " ++ node.text
  | .notAnObject found => "filter node must be an object, got " ++ found
  | .wrongType key expected found => "'" ++ key ++ "' must be " ++ expected ++ ", got " ++ found
  | .unknownComparisonOperator spelling =>
    "unknown comparison operator '" ++ spelling ++ "'. Valid operators are: "
      ++ quotedSpellings (ComparisonOperator.all.map (·.spelling))
  | .unknownLogicalOperator spelling =>
    "unknown logical operator '" ++ spelling ++ "'. Valid operators are: "
      ++ quotedSpellings (LogicalOperator.all.map (·.spelling))
  | .emptyConditions operator =>
    "logical operator '" ++ operator.spelling ++ "' requires at least one condition"
  | .unknownField field => "unknown document field '" ++ field ++ "'"
  | .invalidMetaKey field fault =>
    "invalid metadata key in '" ++ field ++ "': " ++ fault.message
  | .unorderableValue found =>
    "filter value can't be of type " ++ found ++ " using operators " ++ orderingSpellings
  | .notIsoDate value =>
    "can't compare string '" ++ value ++ "' using operators " ++ orderingSpellings
      ++ ". Strings are only comparable if they are ISO formatted dates"
  | .expectedList field operator =>
    field ++ "'s value must be a list when using '" ++ operator.spelling ++ "' comparator"

end FilterError

namespace Filter

/-- A logical node over a list of conditions, which must not be empty. -/
def ofConditions (operator : LogicalOperator) : List Filter → Except FilterError Filter
  | [] => .error (.emptyConditions operator)
  | f :: fs => .ok (.logical operator f fs)

mutual

def leaves : Filter → List Comparison
  | .comparison c => [c]
  | .logical _ f fs => leaves f ++ leavesOf fs

def leavesOf : List Filter → List Comparison
  | [] => []
  | f :: fs => leaves f ++ leavesOf fs

end

def leafCount (f : Filter) : Nat := f.leaves.length

end Filter
end DocumentStore
