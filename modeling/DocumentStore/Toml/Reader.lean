import DocumentStore.Toml.Scalar

/-! TOML documents: values, sections, and the table of a whole text. -/
namespace DocumentStore.Toml

open Json (Reader)

/-- The items up to the closing bracket; a comma may stand after the last one. -/
def readItems (value : Reader Item) : Nat → Reader (List Item)
  | 0, _ => none
  | fuel + 1, cs =>
    match skipAll cs with
    | ']' :: r => some ([], r)
    | r =>
      match value r with
      | none => none
      | some (v, r) =>
        match skipAll r with
        | ',' :: r => (readItems value fuel r).map fun p => (v :: p.1, p.2)
        | ']' :: r => some ([v], r)
        | _ => none

def readPair (value : Reader Item) : Reader Pair := fun cs =>
  match readKey cs with
  | some ((path, key), '=' :: r) =>
    (value (skipGap r)).map fun p => (⟨path, key, p.1⟩, p.2)
  | _ => none

/-- The pairs of an inline table, of which there is at least one, up to the closing brace. -/
def readPairs (value : Reader Item) : Nat → Reader (List Pair)
  | 0, _ => none
  | fuel + 1, cs =>
    match readPair value (skipGap cs) with
    | none => none
    | some (p, r) =>
      match skipGap r with
      | ',' :: r => (readPairs value fuel r).map fun q => (p :: q.1, q.2)
      | '\x7d' :: r => some ([p], r)
      | _ => none

def readScalar : Reader Item
  | 't' :: 'r' :: 'u' :: 'e' :: r => some (.bool true, r)
  | 'f' :: 'a' :: 'l' :: 's' :: 'e' :: r => some (.bool false, r)
  | c :: r =>
    if c = '"' ∨ c = '\'' then (readString (c :: r)).map fun p => (.string p.1, p.2)
    else readNumeric (c :: r)
  | [] => none

def readValue : Nat → Reader Item
  | 0, cs => if cs.head? = some '[' ∨ cs.head? = some '\x7b' then none else readScalar cs
  | depth + 1, cs =>
    match cs with
    | '[' :: r => (readItems (readValue depth) (r.length + 1) r).map fun p => (.list p.1, p.2)
    | '\x7b' :: r =>
      match skipGap r with
      | '\x7d' :: r => some (.table .inline [], r)
      | r => do
        let (ps, r) ← readPairs (readValue depth) (r.length + 1) r
        let es ← addPairs [] ps
        return (.table .inline es, r)
    | cs => readScalar cs

/-- A line of a document that says something. -/
inductive Line where
  | pair (p : Pair)
  | header (h : Header)

def readHeader (closing : List Char → Option (List Char)) (cs : List Char) :
    Option ((List String × String) × List Char) := do
  let (k, r) ← readKey (skipGap cs)
  let r ← closing (skipGap r)
  return (k, r)

def readLine : Reader Line
  | '[' :: '[' :: r =>
    (readHeader (fun r => (expect ']' r).bind (expect ']')) r).map fun p =>
      (.header (.listed p.1.1 p.1.2), p.2)
  | '[' :: r => (readHeader (expect ']') r).map fun p => (.header (.table p.1.1 p.1.2), p.2)
  | cs => (readPair (readValue nestingLimit) cs).map fun p => (.pair p.1, p.2)

/-- The lines of a document; `fuel` bounds their number. -/
def readLines : Nat → List Char → Option (List Line)
  | 0, _ => none
  | fuel + 1, cs =>
    match skipComment (skipGap cs) with
    | [] => some []
    | c :: r =>
      match afterNewline? (c :: r) with
      | some r => readLines fuel r
      | none =>
        match readLine (skipGap cs) with
        | none => none
        | some (l, r) => (finishLine r).bind fun r => (readLines fuel r).map (l :: ·)

def sections : List Line → List Pair × List Section
  | [] => ([], [])
  | .pair p :: ls =>
    let (ps, ss) := sections ls
    (p :: ps, ss)
  | .header h :: ls =>
    let (ps, ss) := sections ls
    ([], ⟨h, ps⟩ :: ss)

def skipMark : List Char → List Char
  | '\uFEFF' :: r => r
  | r => r

/-- The table that a text holds. A byte order mark before it is skipped. -/
def read (s : String) : Option Entries := do
  let cs := skipMark s.toList
  let lines ← readLines (cs.length + 1) cs
  let (ps, ss) := sections lines
  let es ← addPairs [] ps
  ss.foldlM addSection es

end DocumentStore.Toml
