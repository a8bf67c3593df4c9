import DocumentStore.Calendar.Date
import DocumentStore.Number.Binary
import DocumentStore.Toml.Text

/-! TOML numbers and moments. A number that begins like a date or a time of day must be one. -/
namespace DocumentStore.Toml

open Json (Reader)

def readField (n low high : Nat) : Reader Nat := fun cs =>
  let ds := cs.take n
  let v := ds.foldl (fun v d => 10 * v + Number.digitValue d) 0
  if ds.length = n ∧ ds.all Char.isDigit ∧ low ≤ v ∧ v ≤ high then some (v, cs.drop n) else none

def expect (c : Char) : List Char → Option (List Char)
  | d :: r => if c = d then some r else none
  | [] => none

def skipTime (cs : List Char) : Option (List Char) := do
  let (_, r) ← readField 2 0 23 cs
  let r ← expect ':' r
  let (_, r) ← readField 2 0 59 r
  let r ← expect ':' r
  let (_, r) ← readField 2 0 60 r
  match r with
  | '.' :: r => if (r.takeWhile Char.isDigit).isEmpty then none else some (r.dropWhile Char.isDigit)
  | r => some r

def skipOffset (cs : List Char) : Option (List Char) :=
  match cs with
  | [] => some []
  | c :: r =>
    if c = 'Z' ∨ c = 'z' then some r
    else if c = '+' ∨ c = '-' then do
      let (_, r) ← readField 2 0 23 r
      let r ← expect ':' r
      let (_, r) ← readField 2 0 59 r
      return r
    else some cs

def skipDate (cs : List Char) : Option (List Char) := do
  let (year, r) ← readField 4 0 9999 cs
  let r ← expect '-' r
  let (month, r) ← readField 2 1 12 r
  let r ← expect '-' r
  let (day, r) ← readField 2 1 31 r
  if day ≤ Calendar.daysInMonth year month then some r else none

def skipDateTime (cs : List Char) : Option (List Char) := do
  let r ← skipDate cs
  match r with
  | c :: t =>
    if c = 'T' ∨ c = 't' ∨ c = ' ' then
      match skipTime t with
      | some t => skipOffset t
      | none => some r
    else some r
  | [] => some []

/-- Whether a text begins with `n` digits and a given character. -/
def beginsField (n : Nat) (c : Char) (cs : List Char) : Bool :=
  (cs.take n).length == n && (cs.take n).all Char.isDigit && (cs.drop n).head? == some c

/-- Digits of a base, with single underscores between them. -/
def readDigits (isDigit : Char → Bool) : Reader (List Char)
  | [] => none
  | c :: r => if isDigit c then some (go c r) else none
where
  go (c : Char) : List Char → List Char × List Char
    | [] => ([c], [])
    | '_' :: d :: r =>
      if isDigit d then
        let p := go d r
        (c :: p.1, p.2)
      else ([c], '_' :: d :: r)
    | d :: r =>
      if isDigit d then
        let p := go d r
        (c :: p.1, p.2)
      else ([c], d :: r)

def valueIn (base : Nat) (ds : List Char) : Nat :=
  ds.foldl (fun n d => base * n + (Json.hexValue? d).getD 0) 0

def signedItem (n : Int) : Option Item :=
  if -0x8000000000000000 ≤ n ∧ n < 0x8000000000000000 then some (.integer n) else none

def readBased (base : Nat) (isDigit : Char → Bool) : Reader Item := fun cs => do
  let (ds, r) ← readDigits isDigit cs
  let v ← signedItem (valueIn base ds)
  return (v, r)

def isHexDigit (c : Char) : Bool := (Json.hexValue? c).isSome
def isOctalDigit (c : Char) : Bool := decide ('0' ≤ c) && decide (c ≤ '7')
def isBinaryDigit (c : Char) : Bool := c = '0' || c = '1'

/-- The sign of a number, true for a minus. -/
def readSign : List Char → Bool × List Char
  | '+' :: r => (false, r)
  | '-' :: r => (true, r)
  | r => (false, r)

def readWhole : Reader (List Char)
  | '0' :: r => some (['0'], r)
  | cs => readDigits Char.isDigit cs

def readExponent : Reader (Option Int)
  | c :: r =>
    if c = 'e' ∨ c = 'E' then
      let (negative, r) := readSign r
      match readDigits Char.isDigit r with
      | none => none
      | some (ds, r) =>
        let n : Int := valueIn 10 ds
        some (some (if negative then -n else n), r)
    else some (none, c :: r)
  | [] => some (none, [])

def realItem (negative : Bool) (digits : Nat) (exponent : Int) : Option Item :=
  let x := Number.doubleOfDecimal negative digits exponent
  if x.isInf ∧ ¬negative then none else some (.real x)

def readDecimal : Reader Item := fun cs => do
  let (negative, r) := readSign cs
  match r with
  | 'i' :: 'n' :: 'f' :: r => some (.real (if negative then -(1.0 / 0.0) else 1.0 / 0.0), r)
  | 'n' :: 'a' :: 'n' :: r => some (.real (0.0 / 0.0), r)
  | r =>
    let (whole, r) ← readWhole r
    match r with
    | '.' :: r =>
      let (places, r) ← readDigits Char.isDigit r
      let (e, r) ← readExponent r
      let v ← realItem negative (valueIn 10 (whole ++ places)) (e.getD 0 - places.length)
      return (v, r)
    | r =>
      let (e, r) ← readExponent r
      match e with
      | some e =>
        let v ← realItem negative (valueIn 10 whole) e
        return (v, r)
      | none =>
        let n : Int := valueIn 10 whole
        let v ← signedItem (if negative then -n else n)
        return (v, r)

def textBefore (cs rest : List Char) : String := String.ofList (cs.take (cs.length - rest.length))

def readMoment (skip : List Char → Option (List Char)) : Reader Item := fun cs =>
  (skip cs).map fun r => (.moment (textBefore cs r), r)

def readNumeric : Reader Item := fun cs =>
  if beginsField 4 '-' cs then readMoment skipDateTime cs
  else if beginsField 2 ':' cs then readMoment skipTime cs
  else
    match cs with
    | '0' :: 'x' :: r => readBased 16 isHexDigit r
    | '0' :: 'o' :: r => readBased 8 isOctalDigit r
    | '0' :: 'b' :: r => readBased 2 isBinaryDigit r
    | cs => readDecimal cs

end DocumentStore.Toml
