import DocumentStore.Json.Reader
import DocumentStore.Json.Printer

/-! JSON text in a stored column, as a look-up by path reads it. This reader is more lenient than
the strict one: it takes comments, single quotes, bare keys, trailing commas and loose numbers. A
number keeps its spelling and a string its escapes, so that a container found by a path is given
back the way it was written. -/
namespace DocumentStore

/-- A value in a stored text. A string has the characters it denotes and those it is written with;
so has a key. -/
inductive Node where
  | null
  | bool (b : Bool)
  | number (spelling : List Char)
  | string (value written : List Char)
  | array (items : List Node)
  | object (fields : List ((List Char × List Char) × Node))
deriving Inhabited

namespace Node

open Json (Reader)

/-- Greater nesting is refused. -/
def depthLimit : Nat := 1000

/-- Spaces beyond those of strict JSON. -/
def isLooseSpace (c : Char) : Bool :=
  let n := c.toNat
  Json.isSpace c || n == 0x0b || n == 0x0c || n == 0xa0 || n == 0x1680
    || (0x2000 ≤ n && n ≤ 0x200a) || n == 0x2028 || n == 0x2029 || n == 0x202f || n == 0x205f
    || n == 0x3000 || n == 0xfeff

def afterBlock : List Char → Option (List Char)
  | [] => none
  | '*' :: '/' :: r => some r
  | _ :: r => afterBlock r

/-- Skips spaces and comments, of which there are at most as many as characters. -/
def skipAtMost : Nat → List Char → List Char
  | 0, cs => cs
  | n + 1, cs =>
    match cs with
    | '/' :: '*' :: r =>
      match afterBlock r with
      | some r => skipAtMost n r
      | none => cs
    | '/' :: '/' :: r => skipAtMost n (r.dropWhile (· ≠ '\n'))
    | c :: r => if isLooseSpace c then skipAtMost n r else c :: r
    | [] => []

def skip (cs : List Char) : List Char := skipAtMost cs.length cs

def escapedUnit (n : Nat) : List Char :=
  ['\\', 'u', '0', '0', Json.hexDigit (n / 16), Json.hexDigit (n % 16)]

/-- Puts a character, denoted and written, before what has been read. -/
def piece (value written : List Char) (rest : Option ((List Char × List Char) × List Char)) :
    Option ((List Char × List Char) × List Char) :=
  rest.map fun p => ((value ++ p.1.1, written ++ p.1.2), p.2)

def readQuoted (quote : Char) : Reader (List Char × List Char)
  | [] => none
  | '\\' :: 'u' :: a :: b :: c :: d :: r =>
    match Json.codeUnit? a b c d with
    | none => none
    | some n =>
      let single := piece [Char.ofNat (if 0xd800 ≤ n ∧ n < 0xe000 then 0xfffd else n)]
        ['\\', 'u', a, b, c, d] (readQuoted quote r)
      match r with
      | '\\' :: 'u' :: e :: f :: g :: h :: r' =>
        match Json.codeUnit? e f g h with
        | none => none
        | some m =>
          if (0xd800 ≤ n ∧ n < 0xdc00) ∧ (0xdc00 ≤ m ∧ m < 0xe000) then
            piece [Char.ofNat (0x10000 + (n - 0xd800) * 1024 + (m - 0xdc00))]
              ['\\', 'u', a, b, c, d, '\\', 'u', e, f, g, h] (readQuoted quote r')
          else single
      | _ => single
  | '\\' :: 'x' :: a :: b :: r =>
    match Json.hexValue? a, Json.hexValue? b with
    | some m, some n =>
      piece [Char.ofNat (16 * m + n)] (escapedUnit (16 * m + n)) (readQuoted quote r)
    | _, _ => none
  | '\\' :: e :: r =>
    match Json.shortEscape? e with
    | some c => piece [c] ['\\', e] (readQuoted quote r)
    | none =>
      if e = '\'' then piece ['\''] ['\''] (readQuoted quote r)
      else if e = 'v' then piece ['\x0b'] (escapedUnit 0x0b) (readQuoted quote r)
      else if e = '0' then
        if r.head?.any Char.isDigit then none
        else piece ['\x00'] (escapedUnit 0) (readQuoted quote r)
      else if e = '\n' ∨ e = '\r' ∨ e = '\u2028' ∨ e = '\u2029' then readQuoted quote r
      else none
  | c :: r =>
    if c = quote then some (([], []), r)
    else if c = '\\' ∨ c = '\x00' then none
    else if c.toNat < 0x20 then piece [c] (escapedUnit c.toNat) (readQuoted quote r)
    else if c = '"' then piece [c] ['\\', '"'] (readQuoted quote r)
    else piece [c] [c] (readQuoted quote r)

def isNameStart (c : Char) : Bool := c.isAlpha || c = '_' || c = '$' || decide (128 ≤ c.toNat)

def isNamePart (c : Char) : Bool := (isNameStart c || c.isDigit) && !isLooseSpace c

def readKey : Reader (List Char × List Char)
  | '"' :: r => readQuoted '"' r
  | '\'' :: r => readQuoted '\'' r
  | c :: r =>
    if isNameStart c && !isLooseSpace c then
      let name := c :: r.takeWhile isNamePart
      some ((name, name), r.dropWhile isNamePart)
    else none
  | [] => none

def startsWithWord (word : String) (cs : List Char) : Bool :=
  (cs.take word.length).map Char.toLower == word.toList

def isHexDigit (c : Char) : Bool := (Json.hexValue? c).isSome

/-- The digits after the prefix of a hexadecimal number, if there is such a prefix. -/
def hexDigits? : List Char → Option (List Char)
  | '0' :: x :: r => if x = 'x' ∨ x = 'X' then some r else none
  | _ => none

def readMagnitude (cs : List Char) : Option (List Char × List Char) :=
  match hexDigits? cs with
  | some r =>
    let ds := r.takeWhile isHexDigit
    if ds.isEmpty then none
    else
      let n := ds.foldl (fun n d => 16 * n + (Json.hexValue? d).getD 0) 0
      some (Nat.toDigits 10 n, r.dropWhile isHexDigit)
  | none =>
    (Number.Numeral.read cs).bind fun p =>
      if p.1.hasLeadingZero then none else some (p.1.chars, p.2)

def readNumber (cs : List Char) : Option (Node × List Char) :=
  let (negative, cs) := Number.readSign cs
  let sign := if negative then ['-'] else []
  if startsWithWord "infinity" cs then some (.number (sign ++ ['9', 'e', '9', '9', '9']), cs.drop 8)
  else if startsWithWord "inf" cs then some (.number (sign ++ ['9', 'e', '9', '9', '9']), cs.drop 3)
  else (readMagnitude cs).map fun p => (.number (sign ++ p.1), p.2)

def readScalar : Reader Node
  | 'n' :: 'u' :: 'l' :: 'l' :: r => some (.null, r)
  | 't' :: 'r' :: 'u' :: 'e' :: r => some (.bool true, r)
  | 'f' :: 'a' :: 'l' :: 's' :: 'e' :: r => some (.bool false, r)
  | '"' :: r => (readQuoted '"' r).map fun p => (.string p.1.1 p.1.2, p.2)
  | '\'' :: r => (readQuoted '\'' r).map fun p => (.string p.1.1 p.1.2, p.2)
  | cs =>
    if startsWithWord "nan" cs then some (.null, cs.drop 3)
    else if startsWithWord "qnan" cs ∨ startsWithWord "snan" cs then some (.null, cs.drop 4)
    else readNumber cs

/-- The items up to the closing bracket, before which a comma may stand. -/
def readItems (value : Reader Node) : Nat → Reader (List Node)
  | 0, _ => none
  | fuel + 1, cs =>
    match skip cs with
    | ']' :: r => some ([], r)
    | cs =>
      match value cs with
      | none => none
      | some (v, r) =>
        match skip r with
        | ',' :: r => (readItems value fuel r).map fun p => (v :: p.1, p.2)
        | ']' :: r => some ([v], r)
        | _ => none

/-- The fields up to the closing brace, before which a comma may stand. -/
def readFields (value : Reader Node) : Nat → Reader (List ((List Char × List Char) × Node))
  | 0, _ => none
  | fuel + 1, cs =>
    match skip cs with
    | '\x7d' :: r => some ([], r)
    | cs =>
      match readKey cs with
      | none => none
      | some (k, r) =>
        match skip r with
        | ':' :: r =>
          match value (skip r) with
          | none => none
          | some (v, r) =>
            match skip r with
            | ',' :: r => (readFields value fuel r).map fun p => ((k, v) :: p.1, p.2)
            | '\x7d' :: r => some ([(k, v)], r)
            | _ => none
        | _ => none

def readValue : Nat → Reader Node
  | 0, cs => if cs.head? = some '[' ∨ cs.head? = some '\x7b' then none else readScalar cs
  | depth + 1, cs =>
    match cs with
    | '[' :: r => (readItems (readValue depth) (r.length + 1) r).map fun p => (.array p.1, p.2)
    | '\x7b' :: r => (readFields (readValue depth) (r.length + 1) r).map fun p => (.object p.1, p.2)
    | cs => readScalar cs

/-- The value that a stored text holds, if it holds one and nothing else. -/
def read (s : String) : Option Node :=
  match readValue depthLimit (skip s.toList) with
  | some (v, r) => if (skip r).isEmpty then some v else none
  | none => none

mutual

/-- Compact text that keeps the spelling of numbers and strings. -/
def chars : Node → List Char
  | .null => ['n', 'u', 'l', 'l']
  | .bool true => ['t', 'r', 'u', 'e']
  | .bool false => ['f', 'a', 'l', 's', 'e']
  | .number spelling => spelling
  | .string _ written => '"' :: (written ++ ['"'])
  | .array [] => ['[', ']']
  | .array (v :: vs) => '[' :: (chars v ++ itemChars vs)
  | .object [] => ['\x7b', '\x7d']
  | .object ((k, v) :: fs) => '\x7b' :: '"' :: (k.2 ++ '"' :: ':' :: (chars v ++ fieldChars fs))

def itemChars : List Node → List Char
  | [] => [']']
  | v :: vs => ',' :: (chars v ++ itemChars vs)

def fieldChars : List ((List Char × List Char) × Node) → List Char
  | [] => ['\x7d']
  | (k, v) :: fs => ',' :: '"' :: (k.2 ++ '"' :: ':' :: (chars v ++ fieldChars fs))

end

/-- The value under a key of an object, the first one if there are several. -/
def field (key : List Char) : Node → Option Node
  | .object fields => (fields.find? fun f => f.1.1 == key).map (·.2)
  | _ => none

/-- The value reached by following keys from object to object. -/
def follow : List String → Node → Option Node
  | [], v => some v
  | k :: ks, v => (v.field k.toList).bind (follow ks)

end Node
end DocumentStore
