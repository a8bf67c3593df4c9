import DocumentStore.Filter.Terms

/-! How large a statement may be: the height of the expression into which its condition is parsed,
where lists of conditions lean to the left, and the number of its parameters. -/
namespace DocumentStore

def mostHeight : Nat := 1000
def mostParameters : Nat := 32766

def Field.height : Field → Nat
  | .column _ => 1
  | .path _ => 2

def Test.height (field : Nat) : Test → Nat
  | .notAmong _ => field + 3
  | _ => field + 1

namespace Condition

mutual

def height : Condition → Nat
  | .test field t => t.height field.height
  | .all c cs | .any c cs => heightOf (height c) cs
  | .notAll c cs => heightOf (height c) cs + 1

/-- The height when conditions are connected one by one to what has the given height. -/
def heightOf (first : Nat) : List Condition → Nat
  | [] => first
  | c :: cs => heightOf (max first (height c) + 1) cs

end

/-- By how much a statement is higher than its condition. -/
def heightAround (join : Join) (c : Condition) : Nat :=
  match join with
  | .alone => if c.asksList then 1 else 0
  | .window => 1
  | .found => 2

/-- Whether a statement with this condition, and with so many parameters beside those of the
condition, is accepted. -/
def fits (join : Join) (others : Nat) (c : Condition) : Bool :=
  decide (c.height + c.heightAround join ≤ mostHeight)
    && decide (c.parameters.length + others ≤ mostParameters)

end Condition
end DocumentStore
