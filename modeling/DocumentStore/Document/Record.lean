import DocumentStore.Document.Basic
import DocumentStore.Error
import DocumentStore.Json.Reader
import DocumentStore.Text.Blank

/-! Documents as they are stored: metadata, dataframe and embedding as JSON texts. A blank text and
the text `null` both stand for an absent value. -/
namespace DocumentStore

structure Record where
  id : String
  content : Option String
  dataframe : Option String
  blob : Option (List UInt8)
  metadata : String
  score : Option Float
  embedding : Option String
deriving DecidableEq

namespace Record

def ofDocument (d : Document) : Record where
  id := d.id
  content := d.content
  dataframe :=
    match d.dataframe with
    | none | some .null => none
    | some v => some v.text
  blob := d.blob
  metadata := (Json.object d.metadata).text
  score := d.score
  embedding := d.embedding.map Json.singlesText

/-- A text without the white space around it, if it stands for a value. -/
def present? (s : String) : Option String :=
  let t := Text.trim s
  if t = "" ∨ t = "null" then none else some t

def vector? (s : String) : Option (List Float32) :=
  (Json.read s).bind fun v => (Json.asListOf Json.asSingle v).toOption

def readMetadata (s : String) : Except RecordFault Json.Fields :=
  match present? s with
  | none => .ok []
  | some t =>
    match Json.read t with
    | some (.object fields) => .ok fields
    | some v => .error (.metadataNotObject v)
    | none => .error .metadata

def readPresent {α : Type} (read : String → Option α) (fault : RecordFault) (s : Option String) :
    Except RecordFault (Option α) :=
  match s.bind present? with
  | none => .ok none
  | some t =>
    match read t with
    | some a => .ok (some a)
    | none => .error fault

def readFields (r : Record) : Except RecordFault Document := do
  let metadata ← readMetadata r.metadata
  let dataframe ← readPresent Json.read .dataframe r.dataframe
  let embedding ← readPresent vector? .embedding r.embedding
  return {
    id := r.id, content := r.content, dataframe := dataframe, blob := r.blob,
    metadata := metadata, score := r.score, embedding := embedding }

def toDocument (r : Record) : Except StoreError Document :=
  lift (fun fault => .storage (.malformedRecord r.id fault)) r.readFields

end Record
end DocumentStore
