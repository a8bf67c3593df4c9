/-! Binary interchange formats by exact arithmetic on natural numbers. A bit pattern denotes
`significand * 2 ^ exponent`; rounding sends a quotient to the nearest pattern, a tie to the
even one, and everything past the largest finite number to infinity. -/
namespace DocumentStore.Number

/-- The quotient nearest to `num / den`, a tie going to the even neighbour. -/
def divHalfEven (num den : Nat) : Nat :=
  let q := num / den
  let r := num % den
  if 2 * r < den then q else if den < 2 * r then q + 1 else q + q % 2

/-- The quotient nearest to `num / den`, a tie going up. -/
def divHalfUp (num den : Nat) : Nat := (2 * num + den) / (2 * den)

/-- The exponent of the largest power of two that is at most `num / den`. -/
def floorLog2 (num den : Nat) : Int :=
  let k : Int := (num.log2 : Int) - den.log2
  if den * Nat.pow 2 k.toNat ≤ num * Nat.pow 2 (-k).toNat then k else k - 1

/-- The widths of the stored fraction and of the exponent. -/
structure BinaryFormat where
  fractionBits : Nat
  exponentBits : Nat

def binary64 : BinaryFormat := ⟨52, 11⟩
def binary32 : BinaryFormat := ⟨23, 8⟩

/-- What a bit pattern denotes. -/
inductive Datum where
  | finite (negative : Bool) (significand : Nat) (exponent : Int)
  | infinite (negative : Bool)
  | nan
deriving DecidableEq, Repr

namespace BinaryFormat

def minExponent (f : BinaryFormat) : Int :=
  2 - Nat.pow 2 (f.exponentBits - 1) - f.fractionBits

/-- The magnitude that stands for infinity; the finite ones lie below it. -/
def infinity (f : BinaryFormat) : Nat :=
  (Nat.pow 2 f.exponentBits - 1) * Nat.pow 2 f.fractionBits

def signBit (f : BinaryFormat) : Nat := Nat.pow 2 (f.fractionBits + f.exponentBits)

def unpack (f : BinaryFormat) (magnitude : Nat) : Nat × Int :=
  if magnitude < Nat.pow 2 f.fractionBits then (magnitude, f.minExponent)
  else (Nat.pow 2 f.fractionBits + magnitude % Nat.pow 2 f.fractionBits,
    f.minExponent + (magnitude / Nat.pow 2 f.fractionBits - 1 : Nat))

def datum (f : BinaryFormat) (bits : Nat) : Datum :=
  let magnitude := bits % f.signBit
  let negative := decide (f.signBit ≤ bits)
  if magnitude < f.infinity then .finite negative (f.unpack magnitude).1 (f.unpack magnitude).2
  else if magnitude = f.infinity then .infinite negative
  else .nan

def round (f : BinaryFormat) (num den : Nat) : Nat :=
  if num = 0 then 0 else
    let e := max f.minExponent (floorLog2 num den - f.fractionBits)
    let s := divHalfEven (num * Nat.pow 2 (-e).toNat) (den * Nat.pow 2 e.toNat)
    min f.infinity ((e - f.minExponent).toNat * Nat.pow 2 f.fractionBits + s)

/-- The pattern nearest to what another format's pattern denotes. -/
def ofDatum (f : BinaryFormat) : Datum → Nat
  | .finite negative m e =>
    (if negative then f.signBit else 0) + f.round (m * Nat.pow 2 e.toNat) (Nat.pow 2 (-e).toNat)
  | .infinite negative => (if negative then f.signBit else 0) + f.infinity
  | .nan => f.infinity + Nat.pow 2 (f.fractionBits - 1)

end BinaryFormat

def doubleDatum (x : Float) : Datum := binary64.datum x.toBits.toNat

def singleDatum (x : Float32) : Datum := binary32.datum x.toBits.toNat

def narrow (x : Float) : Float32 := Float32.ofBits (binary32.ofDatum (doubleDatum x)).toUInt32

def widen (x : Float32) : Float := Float.ofBits (binary64.ofDatum (singleDatum x)).toUInt64

def doubleOfInt (n : Int) : Float :=
  Float.ofBits (binary64.ofDatum (.finite (decide (n < 0)) n.natAbs 0)).toUInt64

/-- The double nearest to `digits * 10 ^ exponent`. The bounds lie beyond every double. -/
def doubleOfDecimal (negative : Bool) (digits : Nat) (exponent : Int) : Float :=
  let magnitude :=
    if digits = 0 ∨ exponent + (digits.log2 : Int) < -1200 then 0
    else if 400 < exponent then binary64.infinity
    else binary64.round (digits * Nat.pow 10 exponent.toNat) (Nat.pow 10 (-exponent).toNat)
  Float.ofBits ((if negative then binary64.signBit else 0) + magnitude).toUInt64

end DocumentStore.Number
