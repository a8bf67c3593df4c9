import DocumentStore.Number.Binary

/-! The shortest decimal that reads back as a given binary number, and the decimal of a fixed
number of significant digits nearest to it, both found by exact arithmetic. -/
namespace DocumentStore.Number

/-- The number `digits * 10 ^ exponent`. -/
structure Decimal where
  digits : Nat
  exponent : Int
deriving DecidableEq, Repr

/-- The decimal interval that rounds to `significand * 2 ^ exponent`, in quarters of a last
place; the gap below a power of two is half as wide, and the ends belong to even significands. -/
structure RoundingInterval where
  low : Nat
  middle : Nat
  high : Nat
  closed : Bool
  exponent : Int

def BinaryFormat.interval (f : BinaryFormat) (m : Nat) (e : Int) : RoundingInterval :=
  let narrowBelow := m == Nat.pow 2 f.fractionBits && decide (f.minExponent < e)
  ⟨4 * m - (if narrowBelow then 1 else 2), 4 * m, 4 * m + 2, m % 2 == 0, e - 2⟩

namespace RoundingInterval

/-- Multiplying a count of `10 ^ k` by the first number and one of the interval's units by the
second makes the two comparable. -/
def scales (i : RoundingInterval) (k : Int) : Nat × Nat :=
  (Nat.pow 10 k.toNat * Nat.pow 2 (-i.exponent).toNat,
    Nat.pow 2 i.exponent.toNat * Nat.pow 10 (-k).toNat)

def holds (i : RoundingInterval) (k : Int) (c : Nat) : Bool :=
  let (a, b) := i.scales k
  if i.closed then decide (i.low * b ≤ c * a) && decide (c * a ≤ i.high * b)
  else decide (i.low * b < c * a) && decide (c * a < i.high * b)

/-- The multiple of `10 ^ k` in the interval that is nearest to its middle. -/
def nearest? (i : RoundingInterval) (k : Int) : Option Nat :=
  let (a, b) := i.scales k
  let c := i.middle * b / a
  match i.holds k c, i.holds k (c + 1) with
  | true, true =>
    let below := i.middle * b - c * a
    let above := (c + 1) * a - i.middle * b
    if below < above then some c else if above < below then some (c + 1)
    else some (c + c % 2)
  | true, false => some c
  | false, true => some (c + 1)
  | false, false => none

/-- Searches ever finer grids, starting from the multiples of `10 ^ k`. -/
def search (i : RoundingInterval) : Nat → Int → Decimal
  | 0, k => ⟨0, k⟩
  | steps + 1, k =>
    match i.nearest? k with
    | some c => ⟨c, k⟩
    | none => i.search steps (k - 1)

end RoundingInterval

def floorLog10 (num den : Nat) : Int :=
  let guess := floorLog2 num den * 30103 / 100000
  let reached (k : Int) : Bool := 
    decide (den * Nat.pow 10 k.toNat ≤ num * Nat.pow 10 (-k).toNat)
  if reached (guess + 1) then guess + 1 else if reached guess then guess else guess - 1

namespace BinaryFormat

/-- The fewest digits that read back as `m * 2 ^ e`, and of those the nearest. -/
def shortest (f : BinaryFormat) (m : Nat) (e : Int) : Decimal :=
  let top := ((m.log2 : Int) + e + 1) * 30103 / 100000 + 1
  (f.interval m e).search 24 top

end BinaryFormat

/-- The nearest decimal of `places` significant digits, rounded by `divide`. -/
def significant (divide : Nat → Nat → Nat) (places m : Nat) (e : Int) : Decimal :=
  let num := m * Nat.pow 2 e.toNat
  let den := Nat.pow 2 (-e).toNat
  let k := floorLog10 num den - (places - 1 : Nat)
  ⟨divide (num * Nat.pow 10 (-k).toNat) (den * Nat.pow 10 k.toNat), k⟩

end DocumentStore.Number
