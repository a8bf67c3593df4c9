import DocumentStore.Json.Stored
import DocumentStore.Number.Order

/-! The cells of the document table: their order, what JSON values become as cells, and how a cell
is converted before it is compared with a column of texts or of numbers. -/
namespace DocumentStore

inductive Cell where
  | null
  | integer (n : Int)
  | real (x : Float)
  | text (s : String)
  | blob (bytes : List UInt8)
deriving DecidableEq

namespace Cell

/-- An integer if it fits 64 bits with a sign, otherwise the nearest double. -/
def ofInt (n : Int) : Cell :=
  if -0x8000000000000000 ≤ n ∧ n < 0x8000000000000000 then .integer n else .real (Number.doubleOfInt n)

/-- Booleans become 0 and 1, lists and mappings their compact text. -/
def ofJson : Json → Cell
  | .null => .null
  | .bool b => .integer (if b then 1 else 0)
  | .integer n => ofInt n
  | .real x => .real x
  | .string s => .text s
  | .array items => .text (Json.array items).text
  | .object fields => .text (Json.object fields).text

/-- An integer if there is neither point nor exponent and it fits, otherwise a double: the engine is
assumed to read every number as the double nearest to it. -/
def ofNumeral (negative : Bool) (n : Number.Numeral) : Cell :=
  if n.isInteger then ofInt (n.wholeValue negative)
  else .real (Number.doubleOfDecimal negative (Number.digitsValue n.digits) n.scale)

def readNumber (cs : List Char) : Option (Cell × List Char) :=
  let (negative, r) := Number.readSign cs
  (Number.Numeral.read r).map fun p => (ofNumeral negative p.1, p.2)

def ofNode : Node → Cell
  | .null => .null
  | .bool b => .integer (if b then 1 else 0)
  | .number spelling =>
    match readNumber spelling with
    | some (c, _) => c
    | none => .null
  | .string value _ => .text (String.ofList value)
  | .array items => .text (String.ofList (Node.array items).chars)
  | .object fields => .text (String.ofList (Node.object fields).chars)

def isNull : Cell → Bool
  | .null => true
  | _ => false

/-- Null, numbers, texts, blobs. -/
def rank : Cell → Nat
  | .null => 0
  | .integer _ | .real _ => 1
  | .text _ => 2
  | .blob _ => 3

/-- Numbers by value, texts and blobs by their bytes; every number is below every text and every
text below every blob. -/
def compare : Cell → Cell → Ordering
  | .integer a, .integer b => Ord.compare a b
  | .integer a, .real b => (Number.Datum.ofInt a).compare (Number.doubleDatum b)
  | .real a, .integer b => (Number.doubleDatum a).compare (Number.Datum.ofInt b)
  | .real a, .real b => (Number.doubleDatum a).compare (Number.doubleDatum b)
  | .text a, .text b => Ord.compare a b
  | .blob a, .blob b => Ord.compare a b
  | a, b => Ord.compare a.rank b.rank

def isNumeralSpace (c : Char) : Bool :=
  c = ' ' || decide (0x09 ≤ c.toNat) && decide (c.toNat ≤ 0x0d)

/-- A text that is a numeral, blanks around it aside, becomes that number. -/
def toNumber : Cell → Cell
  | .text s =>
    match readNumber (s.toList.dropWhile isNumeralSpace) with
    | some (c, r) => if r.all isNumeralSpace then c else .text s
    | none => .text s
  | c => c

def toText : Cell → Cell
  | .integer n => .text (toString n)
  | .real x => .text (Number.cellText x)
  | c => c

/-- What a column of numbers keeps of a cell: numerals become doubles. -/
def toReal (c : Cell) : Cell :=
  match c.toNumber with
  | .integer n => .real (Number.doubleOfInt n)
  | c => c

end Cell
end DocumentStore
