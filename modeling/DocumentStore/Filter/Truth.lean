/-! Three-valued logic: conjunction is the minimum and disjunction the maximum of
`no < unknown < yes`. -/
namespace DocumentStore

inductive Truth where
  | no | unknown | yes
deriving DecidableEq, Repr

namespace Truth

def ofBool (b : Bool) : Truth := if b then .yes else .no

def not : Truth → Truth
  | .no => .yes
  | .unknown => .unknown
  | .yes => .no

def and : Truth → Truth → Truth
  | .no, _ | _, .no => .no
  | .yes, .yes => .yes
  | _, _ => .unknown

def or : Truth → Truth → Truth
  | .yes, _ | _, .yes => .yes
  | .no, .no => .no
  | _, _ => .unknown

end Truth
end DocumentStore
