import DocumentStore.Json.Basic
import DocumentStore.Number.Numeral

/-! Strict JSON text. The reader takes a value off the front of a list of characters; it refuses
more than 127 containers inside each other, a number that no double can hold, half a surrogate
pair and a bare control character. -/
namespace DocumentStore.Json

/-- Takes something off the front of a text and leaves the rest. -/
abbrev Reader (α : Type) := List Char → Option (α × List Char)

def isSpace (c : Char) : Bool := c = ' ' || c = '\n' || c = '\t' || c = '\r'

def skipSpace (cs : List Char) : List Char := cs.dropWhile isSpace

def hexValue? (c : Char) : Option Nat :=
  if '0' ≤ c ∧ c ≤ '9' then some (c.toNat - 48)
  else if 'a' ≤ c ∧ c ≤ 'f' then some (c.toNat - 87)
  else if 'A' ≤ c ∧ c ≤ 'F' then some (c.toNat - 55)
  else none

def codeUnit? (a b c d : Char) : Option Nat := do
  let a ← hexValue? a
  let b ← hexValue? b
  let c ← hexValue? c
  let d ← hexValue? d
  return 4096 * a + 256 * b + 16 * c + d

def shortEscape? : Char → Option Char
  | '"' => some '"'
  | '\\' => some '\\'
  | '/' => some '/'
  | 'b' => some '\x08'
  | 'f' => some '\x0c'
  | 'n' => some '\n'
  | 'r' => some '\r'
  | 't' => some '\t'
  | _ => none

def readQuoted : Reader (List Char)
  | [] => none
  | '"' :: r => some ([], r)
  | '\\' :: 'u' :: a :: b :: c :: d :: r =>
    match codeUnit? a b c d with
    | none => none
    | some n =>
      if 0xd800 ≤ n ∧ n < 0xdc00 then
        match r with
        | '\\' :: 'u' :: e :: f :: g :: h :: r' =>
          match codeUnit? e f g h with
          | none => none
          | some m =>
            if 0xdc00 ≤ m ∧ m < 0xe000 then
              (readQuoted r').map fun p =>
                (Char.ofNat (0x10000 + (n - 0xd800) * 1024 + (m - 0xdc00)) :: p.1, p.2)
            else none
        | _ => none
      else if 0xdc00 ≤ n ∧ n < 0xe000 then none
      else (readQuoted r).map fun p => (Char.ofNat n :: p.1, p.2)
  | '\\' :: e :: r =>
    match shortEscape? e with
    | none => none
    | some c => (readQuoted r).map fun p => (c :: p.1, p.2)
  | c :: r =>
    if c = '\\' ∨ c.toNat < 0x20 then none else (readQuoted r).map fun p => (c :: p.1, p.2)

def readString : Reader String
  | '"' :: r => (readQuoted r).map fun p => (String.ofList p.1, p.2)
  | _ => none

/-- Digits as long as the significand stays below `2 ^ 64`, and how many were left over. -/
def absorbWhole (significand : Nat) : List Char → Nat × Nat
  | [] => (significand, 0)
  | d :: ds =>
    let n := significand * 10 + Number.digitValue d
    if n < 0x10000000000000000 then absorbWhole n ds else (significand, ds.length + 1)

/-- Digits as long as the significand stays below `2 ^ 64`, and how many were taken. -/
def absorbFraction (significand : Nat) : List Char → Nat × Nat
  | [] => (significand, 0)
  | d :: ds =>
    let n := significand * 10 + Number.digitValue d
    if n < 0x10000000000000000 then
      let r := absorbFraction n ds
      (r.1, r.2 + 1)
    else (significand, 0)

def powerOfTen (k : Nat) : Float := Float.ofScientific 1 false k

def divideByTens (x : Float) (n : Nat) : Float :=
  if n ≤ 308 then x / powerOfTen n
  else if x == 0 then x
  else divideByTens (x / powerOfTen 308) (n - 308)
termination_by n
decreasing_by omega

/-- The significand as a double, scaled by one multiplication or division; nothing if it is too
large. -/
def scaleReal (significand : Nat) (exponent : Int) : Option Float :=
  let x := significand.toUInt64.toFloat
  if 0 ≤ exponent then
    if exponent ≤ 308 then
      let y := x * powerOfTen exponent.toNat
      if y.isInf then none else some y
    else if x == 0 then some x else none
  else some (divideByTens x (-exponent).toNat)

def signed (negative : Bool) (x : Float) : Float := if negative then -x else x

/-- The value of a numeral. A bare run of digits is an integer if it fits 64 bits, save that `-0` is
a double. -/
def numberOfNumeral (negative : Bool) (n : Number.Numeral) : Option Json :=
  let (significand, dropped) := absorbWhole 0 n.whole
  if n.isInteger then
    if dropped ≠ 0 then (scaleReal significand dropped).map fun x => .real (signed negative x)
    else if ¬negative then some (.integer significand)
    else if 0 < significand ∧ significand ≤ 0x8000000000000000 then some (.integer (-(significand : Int)))
    else some (.real (-significand.toUInt64.toFloat))
  else
    let (significand, taken) := absorbFraction significand (n.places.getD [])
    let start : Int := dropped - taken
    match n.exponent with
    | none => (scaleReal significand start).map fun x => .real (signed negative x)
    | some e =>
      if e.value.natAbs < 0x80000000 then
        (scaleReal significand (start + e.value)).map fun x => .real (signed negative x)
      else if significand ≠ 0 ∧ 0 < e.value then none
      else some (.real (signed negative 0))

/-- A number with digits on each side of its point, and without a leading zero that it does not
need. -/
def readNumber : Reader Json := fun cs =>
  let (negative, cs) := match cs with
    | '-' :: r => (true, r)
    | r => (false, r)
  (Number.Numeral.read cs).bind fun (n, r) =>
    if n.whole.isEmpty || n.hasLeadingZero || n.places == some [] then none
    else (numberOfNumeral negative n).map fun v => (v, r)

def readScalar : Reader Json
  | 'n' :: 'u' :: 'l' :: 'l' :: r => some (.null, r)
  | 't' :: 'r' :: 'u' :: 'e' :: r => some (.bool true, r)
  | 'f' :: 'a' :: 'l' :: 's' :: 'e' :: r => some (.bool false, r)
  | '"' :: r => (readQuoted r).map fun p => (.string (String.ofList p.1), p.2)
  | r => readNumber r

/-- The items that follow one another up to the closing bracket; `fuel` bounds their number. -/
def readItems (value : Reader Json) : Nat → Reader (List Json)
  | 0, _ => none
  | fuel + 1, cs =>
    match value (skipSpace cs) with
    | none => none
    | some (v, r) =>
      match skipSpace r with
      | ',' :: r => (readItems value fuel r).map fun p => (v :: p.1, p.2)
      | ']' :: r => some ([v], r)
      | _ => none

/-- The fields that follow one another up to the closing brace. -/
def readFields (value : Reader Json) : Nat → Reader (List (String × Json))
  | 0, _ => none
  | fuel + 1, cs =>
    match readString (skipSpace cs) with
    | none => none
    | some (k, r) =>
      match skipSpace r with
      | ':' :: r =>
        match value (skipSpace r) with
        | none => none
        | some (v, r) =>
          match skipSpace r with
          | ',' :: r => (readFields value fuel r).map fun p => ((k, v) :: p.1, p.2)
          | '\x7d' :: r => some ([(k, v)], r)
          | _ => none
      | _ => none

/-- A value with at most `depth` containers inside each other. -/
def readValue : Nat → Reader Json
  | 0, cs => if cs.head? = some '[' ∨ cs.head? = some '\x7b' then none else readScalar cs
  | depth + 1, cs =>
    match cs with
    | '[' :: r =>
      match skipSpace r with
      | ']' :: r => some (.array [], r)
      | r => (readItems (readValue depth) r.length r).map fun p => (.array p.1, p.2)
    | '\x7b' :: r =>
      match skipSpace r with
      | '\x7d' :: r => some (.object [], r)
      | r => (readFields (readValue depth) r.length r).map fun p => (ofPairs p.1, p.2)
    | cs => readScalar cs

/-- How many containers may lie inside each other. -/
def depthLimit : Nat := 127

def readFront (s : String) : Option (Json × List Char) := readValue depthLimit (skipSpace s.toList)

/-- The value that a text holds, if it holds one and nothing else. -/
def read (s : String) : Option Json :=
  match readFront s with
  | some (v, r) => if (skipSpace r).isEmpty then some v else none
  | none => none

end DocumentStore.Json
