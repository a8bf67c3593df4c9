import DocumentStore.Lexical.Query

/-! The lexemes of a query text. The text ends at its first null character. -/
namespace DocumentStore.Lexical

/-- A word keeps its spelling beside its text, from which the quotes are gone. -/
inductive Lexeme where
  | word (spelling text : List Char)
  | and | or | not
  | openGroup | closeGroup
  | openSet | closeSet
  | colon | comma | plus | minus | star | caret
  | bad (fault : QueryFault)
deriving DecidableEq

namespace Lexeme

def spelling : Lexeme → List Char
  | .word s _ => s
  | .and => ['A', 'N', 'D']
  | .or => ['O', 'R']
  | .not => ['N', 'O', 'T']
  | .openGroup => ['(']
  | .closeGroup => [')']
  | .openSet => ['\x7b']
  | .closeSet => ['\x7d']
  | .colon => [':']
  | .comma => [',']
  | .plus => ['+']
  | .minus => ['-']
  | .star => ['*']
  | .caret => ['^']
  | .bad _ => []

def isGap (c : Char) : Bool := c = ' ' || c = '\t' || c = '\n' || c = '\r'

def isBareChar (c : Char) : Bool :=
  c.isAlphanum || c = '_' || c = '\x1a' || decide (0x80 ≤ c.toNat)

def mark? : Char → Option Lexeme
  | '(' => some .openGroup
  | ')' => some .closeGroup
  | '\x7b' => some .openSet
  | '\x7d' => some .closeSet
  | ':' => some .colon
  | ',' => some .comma
  | '+' => some .plus
  | '-' => some .minus
  | '*' => some .star
  | '^' => some .caret
  | _ => none

def ofBare (cs : List Char) : Lexeme :=
  if cs = ['A', 'N', 'D'] then .and
  else if cs = ['O', 'R'] then .or
  else if cs = ['N', 'O', 'T'] then .not
  else .word cs cs

/-- The text up to the closing quote, in which a quote is written twice, and what follows. -/
def readQuoted : List Char → Option (List Char × List Char)
  | '"' :: '"' :: r => (readQuoted r).map fun p => ('"' :: p.1, p.2)
  | '"' :: r => some ([], r)
  | c :: r => (readQuoted r).map fun p => (c :: p.1, p.2)
  | [] => none

/-- The lexemes up to the end or to the first bad one; `fuel` bounds their number. -/
def scan : Nat → List Char → List Lexeme
  | 0, _ => []
  | fuel + 1, cs =>
    match cs.dropWhile isGap with
    | [] => []
    | c :: r =>
      match mark? c with
      | some l => l :: scan fuel r
      | none =>
        if c = '"' then
          match readQuoted r with
          | some (text, rest) =>
            .word ('"' :: r.take (r.length - rest.length)) text :: scan fuel rest
          | none => [.bad .unterminated]
        else if isBareChar c then
          ofBare ((c :: r).takeWhile isBareChar) :: scan fuel ((c :: r).dropWhile isBareChar)
        else [.bad (.syntaxNear (String.singleton c))]

def ofText (s : String) : List Lexeme :=
  let cs := s.toList.takeWhile (· ≠ '\x00')
  scan (cs.length + 1) cs

end Lexeme
end DocumentStore.Lexical
