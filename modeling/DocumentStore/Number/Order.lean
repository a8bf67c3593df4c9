import DocumentStore.Number.Binary

/-! Two orders on numbers: the exact order of the values, in which integers and doubles mix and
both zeros are equal, and the total order of the bit patterns, in which they are not. -/
namespace DocumentStore.Number
namespace Datum

def ofInt (n : Int) : Datum := .finite (decide (n < 0)) n.natAbs 0

/-- Below, among or above the finite numbers. -/
def rank : Datum → Nat
  | .infinite true => 0
  | .finite .. => 1
  | .infinite false => 2
  | .nan => 3

/-- The value in units of `2 ^ unit`, for a `unit` that is no larger than the exponent. -/
def scaled (unit : Int) : Datum → Int
  | .finite negative m e =>
    let n : Int := m * Nat.pow 2 (e - unit).toNat
    if negative then -n else n
  | _ => 0

def exponent : Datum → Int
  | .finite _ _ e => e
  | _ => 0

def compare (a b : Datum) : Ordering :=
  match Ord.compare a.rank b.rank with
  | .eq =>
    let unit := min a.exponent b.exponent
    Ord.compare (a.scaled unit) (b.scaled unit)
  | o => o

end Datum

/-- An integer that grows with the bit pattern of a double read as sign and magnitude, so that
`-0.0` comes just before `0.0`. -/
def totalKey (x : Float) : Int :=
  let bits := x.toBits.toNat
  if bits < 0x8000000000000000 then bits else 0x7fffffffffffffff - (bits : Int)

def sameSingle (x y : Float32) : Bool := x == y

end DocumentStore.Number
