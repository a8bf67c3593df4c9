import DocumentStore.Document.Basic

/-! Hits: documents with their ranking score, and excerpts beside them. -/
namespace DocumentStore

def snippetKey : String := "snippet"
def highlightKey : String := "highlight"

structure Hit where
  document : Document
  excerpts : Json.Fields := []
deriving DecidableEq

/-- A hit that may still lack its document. -/
structure Hit.Draft where
  document : Option Document := none
  excerpts : Json.Fields := []

namespace Hit

def score (h : Hit) : Option Float := h.document.score

def excerpt? (key : String) (h : Hit) : Option String :=
  match h.excerpts.lookup key with
  | some (.string s) => some s
  | _ => none

def snippet (h : Hit) : Option String := h.excerpt? snippetKey
def highlight (h : Hit) : Option String := h.excerpt? highlightKey

def fieldNames : List String := ["document", "aux"]

def setField (d : Draft) (name : String) (v : Json) : Except ShapeError Draft :=
  match name with
  | "document" => (Document.ofJson v).map fun x => { d with document := some x }
  | "aux" => v.asFields.map fun x => { d with excerpts := x }
  | _ => .ok d

def ofJson : Json.Shape Hit := fun v => do
  let d ← Json.asRecord fieldNames setField {} v
  let document ← Json.demand v d.document
  return ⟨document, d.excerpts⟩

end Hit

/-- The divisor of raw lexical scores before they are squashed. -/
def scoreScale : Float := 8.0

/-- Maps a raw lexical score, of which lower is better, into the unit interval, where higher is
better. -/
def squash (raw : Float) : Float := 1.0 / (1.0 + Float.exp (raw / scoreScale))

def Hit.squashed (h : Hit) : Hit :=
  { h with document := { h.document with score := h.document.score.map squash } }

end DocumentStore
