import DocumentStore.Filter.Size
import DocumentStore.Retrieval.Statement
import DocumentStore.Store.Database

/-! Reading documents: by id, by condition in the order of the keys, and ranked by a score. -/
namespace DocumentStore.Database

def get (id : String) (db : Database) : Except StoreError (Option Document) :=
  match db.findId? id with
  | none => .ok none
  | some r => r.document.map some

/-- The documents of the rows that meet a condition, up to the first row that cannot be read. -/
def documentsOf (condition : Option Condition) : List Row → Except StoreError (List Document)
  | [] => .ok []
  | r :: rs =>
    match r.meets .alone condition with
    | none => .error .engine
    | some false => documentsOf condition rs
    | some true => do
      let d ← r.document
      let ds ← documentsOf condition rs
      return d :: ds

/-- Whether some row meets a condition. Every row is asked. -/
def anyMeets (join : Join) (condition : Condition) (db : Database) : Option Bool :=
  (db.rows.mapM fun r => condition.holds join r.cell).map fun answers => answers.any id

/-- Whether a statement goes on to what its documents are joined with, unless it fails before.
Beside its condition it has so many parameters. -/
def begins (join : Join) (others : Nat) (condition : Option Condition) (db : Database) :
    Option Bool :=
  match condition with
  | none => some true
  | some c =>
    if !c.fits join others then none
    else
      Condition.thenAlso c.isTrueAhead
        (if join ≠ .alone && (c.lookup? join).isSome then db.anyMeets join c else some true)

def filter (condition : Option Condition) (db : Database) : Except StoreError (List Document) :=
  match db.begins .alone 0 condition with
  | none => .error .engine
  | some false => .ok []
  | some true => documentsOf condition db.rows

/-- A row that is ranked. -/
structure Ranked where
  row : Row
  score : Float
  excerpts : List (String × String) := []

/-- By score, and by key where scores are equal. -/
def Ranked.le (a b : Ranked) : Bool :=
  match (Number.doubleDatum a.score).compare (Number.doubleDatum b.score) with
  | .lt => true
  | .eq => decide (a.row.key ≤ b.row.key)
  | .gt => false

def keepMeeting (join : Join) (condition : Option Condition) :
    List Ranked → Except StoreError (List Ranked)
  | [] => .ok []
  | a :: as =>
    match a.row.meets join condition with
    | none => .error .engine
    | some meets => do
      let as ← keepMeeting join condition as
      return if meets then a :: as else as

def best (topK : Option Nat) (as : List Ranked) : List Ranked :=
  let sorted := as.mergeSort Ranked.le
  match topK with
  | some k => sorted.take (min k Statement.largestLimit)
  | none => sorted

/-- What a ranked query selects: the cells of the document, the score, the excerpts. -/
def Ranked.cells (a : Ranked) : List Cell :=
  a.row.cells ++ .real a.score :: a.excerpts.map fun e => .text e.2

/-- A ranked row as it is read. -/
structure Selected where
  record : Record
  score : Float
  excerpts : List (String × Option String)

/-- Reads the cells of a ranked row, whose excerpts have these names. -/
def Selected.ofCells? (names : List String) (cells : List Cell) : Option Selected := do
  let record ← Row.recordAt 0 cells
  let score ← (Row.readCell Row.number? Column.all.length cells).join
  let texts ← (List.range names.length).mapM fun i =>
    Row.readCell Row.text? (Column.all.length + 1 + i) cells
  return ⟨record, score, names.zip texts⟩

def Ranked.selected (a : Ranked) : Except StoreError Selected :=
  match Selected.ofCells? (a.excerpts.map Prod.fst) a.cells with
  | some row => .ok row
  | none => .error .engine

/-- Decodes a row. Its ranking score takes the place of the stored one. -/
def Selected.hit (a : Selected) : Except StoreError Hit := do
  let d ← a.record.toDocument
  return {
    document := { d with score := some a.score }
    excerpts := Json.fieldsOf (a.excerpts.filterMap fun e => e.2.map fun s => (e.1, .string s)) }

/-- Ranks rows that meet a condition. Every row is read before any is decoded. -/
def rank (join : Join) (condition : Option Condition) (topK : Option Nat) (as : List Ranked) :
    Except StoreError (List Hit) := do
  let as ← keepMeeting join condition as
  let selected ← (best topK as).mapM Ranked.selected
  selected.mapM Selected.hit

end DocumentStore.Database
