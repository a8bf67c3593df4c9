/-! Decimal numerals as they stand in a text. Every reader of numbers takes the parts of a numeral
off the front of its text, and decides which of them it allows and what number they make. -/
namespace DocumentStore.Number

def digitValue (c : Char) : Nat := c.toNat - 48

def digitsValue (ds : List Char) : Nat := ds.foldl (fun n d => n * 10 + digitValue d) 0

/-- Whether a text begins with a minus, and what follows its sign. -/
def readSign : List Char → Bool × List Char
  | '-' :: r => (true, r)
  | '+' :: r => (false, r)
  | r => (false, r)

/-- An exponent as it is written. -/
structure Exponent where
  letter : Char
  sign : Option Char
  digits : List Char
deriving DecidableEq

namespace Exponent

def chars (e : Exponent) : List Char := e.letter :: (e.sign.toList ++ e.digits)

def value (e : Exponent) : Int :=
  if e.sign = some '-' then -(digitsValue e.digits : Int) else digitsValue e.digits

def readSign : List Char → Option Char × List Char
  | '-' :: r => (some '-', r)
  | '+' :: r => (some '+', r)
  | r => (none, r)

/-- The exponent at the front of a text, if there is one. It must have digits. -/
def read : List Char → Option (Option Exponent × List Char)
  | [] => some (none, [])
  | c :: r =>
    if c = 'e' ∨ c = 'E' then
      let (sign, r) := readSign r
      let ds := r.takeWhile Char.isDigit
      if ds.isEmpty then none else some (some ⟨c, sign, ds⟩, r.dropWhile Char.isDigit)
    else some (none, c :: r)

end Exponent

/-- The parts of a numeral without its sign: digits before a point, the digits after it if there
is one, and an exponent. -/
structure Numeral where
  whole : List Char
  places : Option (List Char) := none
  exponent : Option Exponent := none
deriving DecidableEq

namespace Numeral

def readPlaces : List Char → Option (List Char) × List Char
  | '.' :: r => (some (r.takeWhile Char.isDigit), r.dropWhile Char.isDigit)
  | r => (none, r)

/-- A numeral with digits on at least one side of its point, and what follows it. -/
def read (cs : List Char) : Option (Numeral × List Char) :=
  let whole := cs.takeWhile Char.isDigit
  let (places, r) := readPlaces (cs.dropWhile Char.isDigit)
  if whole.isEmpty && (places.getD []).isEmpty then none
  else (Exponent.read r).map fun p => (⟨whole, places, p.1⟩, p.2)

/-- Whether the numeral begins with a zero that it does not need. -/
def hasLeadingZero (n : Numeral) : Bool := n.whole.head? == some '0' && 1 < n.whole.length

/-- The numeral with a digit on each side of its point. -/
def chars (n : Numeral) : List Char :=
  (if n.whole.isEmpty then ['0'] else n.whole)
    ++ (match n.places with
      | none => []
      | some ds => '.' :: (if ds.isEmpty then ['0'] else ds))
    ++ (n.exponent.map Exponent.chars).getD []

def isInteger (n : Numeral) : Bool := n.places.isNone && n.exponent.isNone

def wholeValue (negative : Bool) (n : Numeral) : Int :=
  let v : Int := digitsValue n.whole
  if negative then -v else v

def digits (n : Numeral) : List Char := n.whole ++ n.places.getD []

def scale (n : Numeral) : Int :=
  (n.exponent.map Exponent.value).getD 0 - (n.places.getD []).length

end Numeral
end DocumentStore.Number
