import DocumentStore.Document.Record
import DocumentStore.Filter.Terms

/-! The rows of the document table, in which a document has a key of its own beside its id. -/
namespace DocumentStore

structure Row where
  key : Int
  id : String
  content : Option String := none
  dataframe : Option String := none
  blob : Cell := .null
  metadata : Option String := none
  score : Cell := .null
  embedding : Option String := none
deriving DecidableEq

namespace Row

def textCell : Option String → Cell
  | none => .null
  | some s => .text s

def cell (r : Row) : Column → Cell
  | .id => .text r.id
  | .content => textCell r.content
  | .dataframe => textCell r.dataframe
  | .blob => r.blob
  | .metadata => textCell r.metadata
  | .score => r.score
  | .embedding => textCell r.embedding

/-- The cells of a row in the order in which every statement selects them. -/
def cells (r : Row) : List Cell := Column.all.map r.cell

/-- The cell of a number; a number that is none becomes null. -/
def numberCell (x : Float) : Cell := if x.isNaN then .null else .real x

def ofRecord (key : Int) (r : Record) : Row where
  key := key
  id := r.id
  content := r.content
  dataframe := r.dataframe
  blob := (r.blob.map Cell.blob).getD .null
  metadata := some r.metadata
  score := (r.score.map numberCell).getD .null
  embedding := r.embedding

def text? : Cell → Option (Option String)
  | .null => some none
  | .text s => some (some s)
  | _ => none

def blob? : Cell → Option (Option (List UInt8))
  | .null => some none
  | .blob bytes => some (some bytes)
  | _ => none

def number? : Cell → Option (Option Float)
  | .null => some none
  | .real x => some (some x)
  | .integer n => some (some (Number.doubleOfInt n))
  | _ => none

def readCell {α : Type} (read : Cell → Option α) (i : Nat) (cells : List Cell) : Option α :=
  cells[i]?.bind read

/-- The record in the cells from an offset on, unless a cell is missing or of a kind that its column
does not hold. -/
def recordAt (offset : Nat) (cells : List Cell) : Option Record := do
  let id ← (readCell text? offset cells).join
  let content ← readCell text? (offset + 1) cells
  let dataframe ← readCell text? (offset + 2) cells
  let blob ← readCell blob? (offset + 3) cells
  let metadata ← readCell text? (offset + 4) cells
  let score ← readCell number? (offset + 5) cells
  let embedding ← readCell text? (offset + 6) cells
  return {
    id := id, content := content, dataframe := dataframe, blob := blob,
    metadata := metadata.getD "", score := score, embedding := embedding }

def record? (r : Row) : Option Record := recordAt 0 r.cells

def document (r : Row) : Except StoreError Document :=
  match r.record? with
  | some record => record.toDocument
  | none => .error .engine

/-- Whether a row meets an optional condition, unless asking it fails. -/
def meets (join : Join) (condition : Option Condition) (r : Row) : Option Bool :=
  match condition with
  | none => some true
  | some c => c.holds join r.cell

end Row
end DocumentStore
