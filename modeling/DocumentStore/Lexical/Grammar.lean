import DocumentStore.Lexical.Lexeme
import DocumentStore.Lexical.Token

/-! The grammar of query texts. Phrases that follow one another must all match; this binds tighter
than `NOT`, which binds tighter than `AND`, and that than `OR`; all three group to the left.

The reader counts the symbols that stand open to the left of the place where it reads, as there
must not be more than a fixed number of them. -/
namespace DocumentStore.Lexical.Grammar

/-- Takes something off the front of some lexemes and leaves the rest. -/
abbrev Reader (α : Type) := List Lexeme → Except QueryFault (α × List Lexeme)

/-- How many symbols may stand open. -/
def symbolLimit : Nat := 99

def checkStack (symbols : Nat) : Except QueryFault Unit :=
  if symbols ≤ symbolLimit then .ok () else .error .stackOverflow

def unexpected : List Lexeme → QueryFault
  | .bad fault :: _ => fault
  | l :: _ => .syntaxNear (String.ofList l.spelling)
  | [] => .syntaxNear ""

/-- A bad lexeme counts before any fault of what stands in front of it. -/
def refuseBad : List Lexeme → Except QueryFault Unit
  | .bad fault :: _ => .error fault
  | _ => .ok ()

def expect (l : Lexeme) (symbols : Nat) : Reader Unit
  | x :: r =>
    if x = l then (checkStack symbols).map fun _ => ((), r) else .error (unexpected (x :: r))
  | [] => .error (unexpected [])

/-- Adds the terms of a text to a phrase. Whether the last term of all is open depends on this
text alone. -/
def addTerms (kind : TokenizerKind) (phrase : Phrase) (text : List Char) (isOpen : Bool) :
    Phrase :=
  let terms := phrase ++ (tokens kind text).map fun t => ⟨t.term, false, false⟩
  match terms.getLast? with
  | some t => terms.dropLast ++ [{ t with isOpen := isOpen }]
  | none => []

def readStar (symbols : Nat) : Reader Bool := fun ls =>
  match ls with
  | .star :: r => (checkStack symbols).map fun _ => (true, r)
  | ls => do
    refuseBad ls
    checkStack symbols
    return (false, ls)

/-- The texts that plus signs add to a phrase; `fuel` bounds their number. -/
def readMore (kind : TokenizerKind) (h : Nat) (phrase : Phrase) : Nat → Reader Phrase
  | 0, ls => .ok (phrase, ls)
  | fuel + 1, ls =>
    match ls with
    | .plus :: .word _ text :: r => do
      checkStack (h + 3)
      let (isOpen, r) ← readStar (h + 4) r
      readMore kind h (addTerms kind phrase text isOpen) fuel r
    | .plus :: r => .error (unexpected r)
    | ls => .ok (phrase, ls)

/-- A phrase. `h` symbols stand open before it. -/
def readPhrase (kind : TokenizerKind) (h : Nat) : Reader Phrase
  | .word _ text :: r => do
    checkStack (h + 1)
    let (isOpen, r) ← readStar (h + 2) r
    readMore kind h (addTerms kind [] text isOpen) r.length r
  | ls => .error (unexpected ls)

/-- Keeps a phrase without terms only if it is the only one. -/
def addPhrase (ps : List Phrase) (p : Phrase) : List Phrase :=
  if p.isEmpty then (if ps.isEmpty then [p] else ps)
  else ps.filter (!·.isEmpty) ++ [p]

def readPhrases (kind : TokenizerKind) (h : Nat) (ps : List Phrase) : Nat → Reader (List Phrase)
  | 0, ls => .ok (ps, ls)
  | fuel + 1, ls =>
    match ls with
    | .word s t :: r => do
      let (p, r) ← readPhrase kind h (.word s t :: r)
      readPhrases kind h (addPhrase ps p) fuel r
    | ls => .ok (ps, ls)

def distance (spelling : List Char) : Except QueryFault Nat :=
  if spelling.all Char.isDigit then
    .ok (spelling.foldl (fun n d => if n < 214748363 then 10 * n + (d.toNat - 48) else n) 0)
  else .error (.expectedInteger (String.ofList spelling))

/-- A group of phrases near each other, from after its opening parenthesis. -/
def readGroup (kind : TokenizerKind) (h : Nat) (name : List Char) : Reader Near := fun ls => do
  let (p, r) ← readPhrase kind (h + 2) ls
  let (ps, r) ← readPhrases kind (h + 3) [p] r.length r
  let (spelling, r) ← (match r with
    | .comma :: .word s _ :: r => do
      checkStack (h + 5)
      return (some s, r)
    | .comma :: r => throw (unexpected r)
    | r => do
      refuseBad r
      checkStack (h + 4)
      return (none, r) : Except QueryFault (Option (List Char) × List Lexeme))
  let (_, r) ← expect .closeGroup (h + 5) r
  refuseBad r
  if name = ['N', 'E', 'A', 'R'] then
    match spelling with
    | some s => return ({ phrases := ps, distance := ← distance s }, r)
    | none => return ({ phrases := ps }, r)
  else throw (.syntaxNear (String.ofList name))

def leading : Phrase → Phrase
  | [] => []
  | t :: ts => { t with isLeading := true } :: ts

/-- A phrase, a phrase at the front of the text, or a group. -/
def readNear (kind : TokenizerKind) (h : Nat) : Reader Near
  | .caret :: r => do
    checkStack (h + 1)
    let (p, r) ← readPhrase kind (h + 1) r
    return ({ phrases := [leading p] }, r)
  | .word name _ :: .openGroup :: r => do
    checkStack (h + 2)
    readGroup kind h name r
  | ls => do
    let (p, r) ← readPhrase kind h ls
    return ({ phrases := [p] }, r)

def isContent (name : List Char) : Bool := name.map Char.toLower = "content".toList

def checkColumn (name : List Char) : Except QueryFault Unit :=
  if isContent name then .ok () else .error (.noSuchColumn (String.ofList name))

def readColumns (h : Nat) : Nat → Reader Unit
  | 0, ls => .error (unexpected ls)
  | fuel + 1, ls =>
    match ls with
    | .word _ name :: r => do
      checkStack (h + 3)
      checkColumn name
      readColumns h fuel r
    | ls => expect .closeSet (h + 3) ls

def readColumnSet (h : Nat) : Reader Unit
  | .word _ name :: r => do
    checkStack (h + 1)
    checkColumn name
    return ((), r)
  | .openSet :: .word _ name :: r => do
    checkStack (h + 2)
    checkColumn name
    readColumns h (r.length + 1) r
  | .openSet :: r => .error (unexpected r)
  | ls => .error (unexpected ls)

/-- Columns to search and the colon after them, if the text goes on with them: true if they are
the content, and false if they are what is left without it. -/
def readScope (h : Nat) : Reader (Option Bool) := fun ls => do
  match ls with
  | .minus :: r =>
    checkStack (h + 1)
    let (_, r) ← readColumnSet (h + 1) r
    let (_, r) ← expect .colon (h + 2) r
    return (some false, r)
  | .openSet :: _ | .word _ _ :: .colon :: _ =>
    let (_, r) ← readColumnSet h ls
    let (_, r) ← expect .colon (h + 2) r
    return (some true, r)
  | ls => return (none, ls)

def inScope (scope : Option Bool) (q : Query) : Query :=
  if scope = some false then q.outside else q

def underScope (scope : Option Bool) (h : Nat) : Nat := if scope.isSome then h + 2 else h

def readJuxtaposed (kind : TokenizerKind) (h : Nat) (q : Query) : Nat → Reader Query
  | 0, ls => .ok (q, ls)
  | fuel + 1, ls =>
    match ls with
    | .word _ _ :: _ | .caret :: _ | .minus :: _ | .openSet :: _ => do
      let (scope, r) ← readScope (h + 1) ls
      let (n, r) ← readNear kind (underScope scope (h + 1)) r
      refuseBad r
      let q ← (q.juxtapose (inScope scope (.near n))).checked
      readJuxtaposed kind h q fuel r
    | ls => .ok (q, ls)

/-- How tightly an operator binds, and what it makes of its sides. -/
def operator? : Lexeme → Option (Nat × (Query → Query → Query))
  | .or => some (1, Query.disjunction)
  | .and => some (2, Query.conjunction)
  | .not => some (3, Query.not)
  | _ => none

mutual

/-- A query whose operators outside parentheses bind at least as tightly as `low`. -/
def readQuery (kind : TokenizerKind) : Nat → Nat → Nat → Reader Query
  | 0, _, _, ls => .error (unexpected ls)
  | fuel + 1, low, h, ls => do
    let (q, r) ← readOperand kind fuel h ls
    readOperators kind fuel low h q r

def readOperators (kind : TokenizerKind) : Nat → Nat → Nat → Query → Reader Query
  | 0, _, _, q, ls => .ok (q, ls)
  | fuel + 1, low, h, q, ls =>
    match ls with
    | [] => .ok (q, [])
    | l :: r =>
      match operator? l with
      | none => .ok (q, l :: r)
      | some (binding, join) =>
        if binding < low then .ok (q, l :: r)
        else do
          checkStack (h + 2)
          let (q', r) ← readQuery kind fuel (binding + 1) (h + 2) r
          refuseBad r
          let q ← (join q q').checked
          readOperators kind fuel low h q r

/-- A query in parentheses, perhaps for some columns only, or a list of phrases. -/
def readOperand (kind : TokenizerKind) : Nat → Nat → Reader Query
  | 0, _, ls => .error (unexpected ls)
  | fuel + 1, h, ls => do
    let (scope, r) ← readScope h ls
    let h' := underScope scope h
    match r with
    | .openGroup :: r =>
      checkStack (h' + 1)
      let (q, r) ← readQuery kind fuel 1 (h' + 1) r
      let (_, r) ← expect .closeGroup (h' + 3) r
      return (inScope scope q, r)
    | r =>
      let (n, r) ← readNear kind h' r
      readJuxtaposed kind h (inScope scope (.near n)) r.length r

end

def parse (kind : TokenizerKind) (ls : List Lexeme) : Except QueryFault Query := do
  let (q, r) ← readQuery kind (3 * ls.length + 3) 1 0 ls
  if r.isEmpty then return q else throw (unexpected r)

end DocumentStore.Lexical.Grammar
