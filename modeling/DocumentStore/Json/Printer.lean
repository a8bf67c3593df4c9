import DocumentStore.Json.Basic
import DocumentStore.Number.Layout

/-! Compact JSON text: no blanks, and only quotes, backslashes and control characters escaped. -/
namespace DocumentStore.Json

def hexDigit (n : Nat) : Char :=
  if n < 10 then Char.ofNat (48 + n) else Char.ofNat (87 + n)

def escapeChar (c : Char) : List Char :=
  if c = '"' then ['\\', '"']
  else if c = '\\' then ['\\', '\\']
  else if c = '\x08' then ['\\', 'b']
  else if c = '\x0c' then ['\\', 'f']
  else if c = '\n' then ['\\', 'n']
  else if c = '\r' then ['\\', 'r']
  else if c = '\t' then ['\\', 't']
  else if c.toNat < 0x20 then ['\\', 'u', '0', '0', hexDigit (c.toNat / 16), hexDigit (c.toNat % 16)]
  else [c]

def quotedChars (s : String) : List Char := '"' :: (s.toList.flatMap escapeChar ++ ['"'])

def integerChars (n : Int) : List Char :=
  if n < 0 then '-' :: Nat.toDigits 10 n.natAbs else Nat.toDigits 10 n.natAbs

/-- A double in its shortest form; one that is not finite is written as null. -/
def realChars (x : Float) : List Char :=
  ((Number.doubleText? x).getD "null").toList

mutual

def chars : Json → List Char
  | .null => ['n', 'u', 'l', 'l']
  | .bool true => ['t', 'r', 'u', 'e']
  | .bool false => ['f', 'a', 'l', 's', 'e']
  | .integer n => integerChars n
  | .real x => realChars x
  | .string s => quotedChars s
  | .array [] => ['[', ']']
  | .array (v :: vs) => '[' :: (chars v ++ itemChars vs)
  | .object [] => ['\x7b', '\x7d']
  | .object ((k, v) :: fs) => '\x7b' :: (quotedChars k ++ ':' :: (chars v ++ fieldChars fs))

/-- The items after the first one, and the closing bracket. -/
def itemChars : List Json → List Char
  | [] => [']']
  | v :: vs => ',' :: (chars v ++ itemChars vs)

def fieldChars : Fields → List Char
  | [] => ['\x7d']
  | (k, v) :: fs => ',' :: (quotedChars k ++ ':' :: (chars v ++ fieldChars fs))

end

def text (v : Json) : String := String.ofList v.chars

def singleChars (x : Float32) : List Char :=
  ((Number.singleText? x).getD "null").toList

def singlesText (xs : List Float32) : String :=
  String.ofList ('[' :: ((xs.map singleChars).intersperse [',']).flatten ++ [']'])

end DocumentStore.Json
