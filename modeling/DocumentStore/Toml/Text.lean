import DocumentStore.Json.Reader
import DocumentStore.Toml.Basic

/-! The lexical parts of TOML: blanks, comments, line ends, strings and keys. -/
namespace DocumentStore.Toml

open Json (Reader)

def isGap (c : Char) : Bool := c = ' ' || c = '\t'

def skipGap (cs : List Char) : List Char := cs.dropWhile isGap

/-- Characters that may stand in a comment or, delimiters aside, in a string. -/
def isPlain (c : Char) : Bool :=
  c = '\t' || (decide (0x20 ≤ c.toNat) && decide (c.toNat ≠ 0x7f))

def skipComment : List Char → List Char
  | '#' :: r => r.dropWhile isPlain
  | r => r

def afterNewline? : List Char → Option (List Char)
  | '\n' :: r | '\r' :: '\n' :: r => some r
  | _ => none

/-- What follows the end of a line that holds only a gap and a comment from here on. -/
def finishLine (cs : List Char) : Option (List Char) :=
  match skipComment (skipGap cs) with
  | [] => some []
  | r => afterNewline? r

/-- Skips gaps, comments and line ends; `fuel` bounds the lines. -/
def skipLines : Nat → List Char → List Char
  | 0, cs => cs
  | fuel + 1, cs =>
    match afterNewline? (skipComment (skipGap cs)) with
    | some r => skipLines fuel r
    | none => skipGap cs

def skipAll (cs : List Char) : List Char := skipLines (cs.length + 1) cs

def shortEscape? : Char → Option Char
  | 'b' => some '\x08'
  | 't' => some '\t'
  | 'n' => some '\n'
  | 'f' => some '\x0c'
  | 'r' => some '\r'
  | '"' => some '"'
  | '\\' => some '\\'
  | _ => none

/-- The character whose code the hexadecimal digits give, if it has one. -/
def scalar? (digits : List Char) : Option Char := do
  let ns ← digits.mapM Json.hexValue?
  let n := ns.foldl (fun n d => 16 * n + d) 0
  if Nat.isValidChar n then some (Char.ofNat n) else none

def readEscape : Reader Char
  | 'u' :: r => if 4 ≤ r.length then (scalar? (r.take 4)).map fun c => (c, r.drop 4) else none
  | 'U' :: r => if 8 ≤ r.length then (scalar? (r.take 8)).map fun c => (c, r.drop 8) else none
  | c :: r => (shortEscape? c).map fun c => (c, r)
  | [] => none

/-- The characters up to the closing quote of a line; `fuel` bounds their number. -/
def readBasic : Nat → Reader (List Char)
  | 0, _ => none
  | fuel + 1, cs =>
    match cs with
    | '"' :: r => some ([], r)
    | '\\' :: r =>
      match readEscape r with
      | some (c, r) => (readBasic fuel r).map fun p => (c :: p.1, p.2)
      | none => none
    | c :: r =>
      if isPlain c then (readBasic fuel r).map fun p => (c :: p.1, p.2) else none
    | [] => none

def readLiteral : Reader (List Char)
  | '\'' :: r => some ([], r)
  | c :: r => if isPlain c then (readLiteral r).map fun p => (c :: p.1, p.2) else none
  | [] => none

/-- Three quotes close a text of several lines, and up to two before them belong to it. -/
def closeQuotes (quote : Char) (cs : List Char) : Option (List Char × List Char) :=
  let n := (cs.takeWhile (· = quote)).length
  if n < 3 then none
  else
    let kept := min (n - 3) 2
    some (List.replicate kept quote, cs.drop (kept + 3))

def dropBlank : List Char → List Char
  | '\r' :: '\n' :: r => dropBlank r
  | ' ' :: r | '\t' :: r | '\n' :: r => dropBlank r
  | r => r

/-- What follows a backslash that ends its line, with the white space on the next lines gone. -/
def foldLine? (cs : List Char) : Option (List Char) :=
  (afterNewline? (skipGap cs)).map dropBlank

def readBasicLines : Nat → Reader (List Char)
  | 0, _ => none
  | fuel + 1, cs =>
    match closeQuotes '"' cs with
    | some p => some p
    | none =>
      match cs with
      | '\\' :: r =>
        match foldLine? r with
        | some r => readBasicLines fuel r
        | none =>
          match readEscape r with
          | some (c, r) => (readBasicLines fuel r).map fun p => (c :: p.1, p.2)
          | none => none
      | c :: r =>
        match afterNewline? (c :: r) with
        | some r => (readBasicLines fuel r).map fun p => ('\n' :: p.1, p.2)
        | none =>
          if isPlain c then (readBasicLines fuel r).map fun p => (c :: p.1, p.2) else none
      | [] => none

def readLiteralLines : Nat → Reader (List Char)
  | 0, _ => none
  | fuel + 1, cs =>
    match closeQuotes '\'' cs with
    | some p => some p
    | none =>
      match cs with
      | c :: r =>
        match afterNewline? (c :: r) with
        | some r => (readLiteralLines fuel r).map fun p => ('\n' :: p.1, p.2)
        | none =>
          if isPlain c then (readLiteralLines fuel r).map fun p => (c :: p.1, p.2) else none
      | [] => none

/-- A line end right after the opening quotes is no part of the text. -/
def skipNewline (cs : List Char) : List Char := (afterNewline? cs).getD cs

def ofChars (p : List Char × List Char) : String × List Char := (String.ofList p.1, p.2)

def readString : Reader String
  | '"' :: '"' :: '"' :: r =>
    (readBasicLines (r.length + 1) (skipNewline r)).map ofChars
  | '\'' :: '\'' :: '\'' :: r =>
    (readLiteralLines (r.length + 1) (skipNewline r)).map ofChars
  | '"' :: r => (readBasic (r.length + 1) r).map ofChars
  | '\'' :: r => (readLiteral r).map ofChars
  | _ => none

def isBareChar (c : Char) : Bool := c.isAlphanum || c = '_' || c = '-'

def readSimpleKey : Reader String
  | '"' :: r => (readBasic (r.length + 1) r).map ofChars
  | '\'' :: r => (readLiteral r).map ofChars
  | cs =>
    let name := cs.takeWhile isBareChar
    if name.isEmpty then none else some (String.ofList name, cs.dropWhile isBareChar)

/-- The further parts of a dotted key; gaps may stand around the points. -/
def readKeyRest : Nat → Reader (List String)
  | 0, _ => none
  | fuel + 1, cs =>
    match skipGap cs with
    | '.' :: r =>
      match readSimpleKey (skipGap r) with
      | none => none
      | some (k, r) => (readKeyRest fuel r).map fun p => (k :: p.1, p.2)
    | r => some ([], r)

/-- How many parts a key may have, and how many containers may lie inside each other. -/
def nestingLimit : Nat := 79

/-- A dotted key, as the path before its last part and that part. -/
def readKey : Reader (List String × String) := fun cs =>
  match readSimpleKey cs with
  | none => none
  | some (k, r) =>
    match readKeyRest (r.length + 1) r with
    | none => none
    | some (ks, r) =>
      if nestingLimit < ks.length + 1 then none
      else some (((k :: ks).dropLast, (k :: ks).getLast (by simp)), r)

end DocumentStore.Toml
