import DocumentStore.Json.Basic
import DocumentStore.Number.Order
import DocumentStore.Number.Layout

/-! Reading typed values out of JSON values. A record is given by a mapping, whose unknown keys are
ignored, or by a list of its fields in their order of declaration. Fields are read in the order of
their keys, so that the first wrong one among them decides. -/
namespace DocumentStore

/-- Why a value does not have the shape asked for. -/
inductive ShapeError where
  | invalidType
  | invalidValue
  | invalidLength
  | unknownVariant
  | missingField
  | refused (reason : String)
deriving DecidableEq, Repr

def ShapeError.message : ShapeError → String
  | .invalidType => "invalid type"
  | .invalidValue => "invalid value"
  | .invalidLength => "invalid length"
  | .unknownVariant => "unknown variant"
  | .missingField => "missing field"
  | .refused reason => reason

namespace Json

abbrev Shape (α : Type) := Json → Except ShapeError α

def asText : Shape String
  | .string s => .ok s
  | _ => .error .invalidType

def asBool : Shape Bool
  | .bool b => .ok b
  | _ => .error .invalidType

def asInteger (low high : Int) : Shape Int
  | .integer n => if low ≤ n ∧ n ≤ high then .ok n else .error .invalidValue
  | _ => .error .invalidType

def asSigned : Shape Int := asInteger (-0x8000000000000000) 0x7fffffffffffffff

def asUnsigned : Shape Nat := fun v => (asInteger 0 0xffffffffffffffff v).map Int.toNat

def asByte : Shape UInt8 := fun v => (asInteger 0 255 v).map fun n => n.toNat.toUInt8

def asReal : Shape Float
  | .integer n => .ok (Number.doubleOfInt n)
  | .real x => .ok x
  | _ => .error .invalidType

def asSingle : Shape Float32
  | .integer n =>
    .ok (Float32.ofBits (Number.binary32.ofDatum (Number.Datum.ofInt n)).toUInt32)
  | .real x => .ok (Number.narrow x)
  | _ => .error .invalidType

def asFields : Shape Fields
  | .object fields => .ok fields
  | _ => .error .invalidType

def asAny : Shape Json := .ok

def asOptional {α : Type} (shape : Shape α) : Shape (Option α)
  | .null => .ok none
  | v => (shape v).map some

def asListOf {α : Type} (shape : Shape α) : Shape (List α)
  | .array items => items.mapM shape
  | _ => .error .invalidType

/-- One of some names, on its own or as the only key of a mapping over null. -/
def asVariant {α : Type} (find : String → Option α) : Shape α
  | .string s => named s
  | .object [(s, v)] => do
    let a ← named s
    if v = .null then return a else throw .invalidType
  | .object _ => .error .invalidValue
  | _ => .error .invalidType
where
  named (s : String) : Except ShapeError α :=
    match find s with
    | some a => .ok a
    | none => .error .unknownVariant

/-- Reads a record field by field into `start`. -/
def asRecord {α : Type} (names : List String) (set : α → String → Shape α) (start : α) : Shape α
  | .object fields => fields.foldlM (fun a f => if names.contains f.1 then set a f.1 f.2 else .ok a) start
  | .array items => do
    let a ← (names.zip items).foldlM (fun a f => set a f.1 f.2) start
    if names.length < items.length then throw .invalidLength else return a
  | _ => .error .invalidType

/-- A field without a default, which a list must be long enough to hold. -/
def demand {α : Type} (v : Json) : Option α → Except ShapeError α
  | some a => .ok a
  | none =>
    match v with
    | .array _ => .error .invalidLength
    | _ => .error .missingField

/-- A single precision number as the decimal that names it, or null if it is not finite. -/
def ofSingle (x : Float32) : Json :=
  match Number.singleDatum x with
  | .finite negative m e =>
    let d := Number.binary32.shortest m e
    .real (if m = 0 then Number.widen x else Number.doubleOfDecimal negative d.digits d.exponent)
  | _ => .null

def ofReal (x : Float) : Json := if x.isFinite then .real x else .null

end Json
end DocumentStore
