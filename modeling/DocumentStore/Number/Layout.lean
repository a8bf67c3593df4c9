import DocumentStore.Number.Shortest

/-! How a decimal is laid out as text: which magnitudes are written positionally, and what the
scientific form looks like. Each output of the library has one layout. -/
namespace DocumentStore.Number

/-- A number with leading digit at `10 ^ x` is positional for `lowest ≤ x ≤ highest`; otherwise
it has an exponent of at least `exponentWidth` digits, after a fraction that is `.0` at least
if `keepPoint`. -/
structure Layout where
  lowest : Int
  highest : Int
  keepPoint : Bool
  exponentWidth : Nat

def Layout.double : Layout := ⟨-5, 15, false, 1⟩

def Layout.single : Layout := ⟨-6, 12, false, 1⟩

def Layout.cell : Layout := ⟨-4, 14, true, 2⟩

/-- The decimal digits of a number without the zeros at its end, and how many those were. -/
def trimZeros (n : Nat) : List Char × Nat :=
  let reversed := (Nat.toDigits 10 n).reverse
  ((reversed.dropWhile (· = '0')).reverse, (reversed.takeWhile (· = '0')).length)

def padLeft (width : Nat) (cs : List Char) : List Char :=
  List.replicate (width - cs.length) '0' ++ cs

/-- Digits with the point after the first `whole` of them, and at least one digit on each side. -/
def positional (digits : List Char) (whole : Int) : List Char :=
  if whole ≤ 0 then '0' :: '.' :: (List.replicate (-whole).toNat '0' ++ digits)
  else
    let w := whole.toNat
    let front := digits.take w ++ List.replicate (w - digits.length) '0'
    let back := digits.drop w
    front ++ '.' :: (if back.isEmpty then ['0'] else back)

namespace Layout

def positive (l : Layout) (d : Decimal) : List Char :=
  let (digits, zeros) := trimZeros d.digits
  let x := d.exponent + zeros + (digits.length : Int) - 1
  if l.lowest ≤ x ∧ x ≤ l.highest then positional digits (x + 1)
  else
    let fraction := digits.drop 1
    digits.take 1
      ++ (if fraction.isEmpty then (if l.keepPoint then ['.', '0'] else []) else '.' :: fraction)
      ++ 'e' :: (if x < 0 then '-' else '+') :: padLeft l.exponentWidth (Nat.toDigits 10 x.natAbs)

/-- A signed decimal; zero has one digit on each side of the point. -/
def write (l : Layout) (negative : Bool) (d : Decimal) : List Char :=
  (if negative then ['-'] else [])
    ++ (if d.digits = 0 then ['0', '.', '0'] else l.positive d)

end Layout

/-- The shortest text of a finite number, and nothing for the others. -/
def shortestText? (f : BinaryFormat) (l : Layout) : Datum → Option String
  | .finite negative 0 _ => some (String.ofList (l.write negative ⟨0, 0⟩))
  | .finite negative m e => some (String.ofList (l.write negative (f.shortest m e)))
  | _ => none

def doubleText? (x : Float) : Option String :=
  shortestText? binary64 .double (doubleDatum x)

/-- The JSON text of a single precision number, if it is finite. -/
def singleText? (x : Float32) : Option String :=
  shortestText? binary32 .single (singleDatum x)

/-- The text that a double becomes when it is compared with a column of texts: fifteen significant
digits. -/
def cellText (x : Float) : String :=
  match doubleDatum x with
  | .finite _ 0 _ => "0.0"
  | .finite negative m e =>
    String.ofList (Layout.cell.write negative (significant divHalfUp 15 m e))
  | .infinite negative => if negative then "-Inf" else "Inf"
  | .nan => ""

/-- A computed number as one digit, nine places and a bare exponent. -/
def scientificText (x : Float) : String :=
  match doubleDatum x with
  | .finite _ 0 _ => "0"
  | .finite negative m e =>
    let d := significant divHalfEven 10 m e
    let digits := Nat.toDigits 10 d.digits
    let x := d.exponent + (digits.length : Int) - 1
    (if negative then "-" else "") ++ String.ofList (digits.take 1 ++ '.' :: (digits.drop 1).take 9)
      ++ "e" ++ toString x
  | .infinite negative => if negative then "-inf" else "inf"
  | .nan => "NaN"

end DocumentStore.Number
