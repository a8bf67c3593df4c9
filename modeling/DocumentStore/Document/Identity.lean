import DocumentStore.Document.Basic
import DocumentStore.Digest.Blake3
import DocumentStore.Json.Printer
import DocumentStore.Text.Utf8

/-! Generated ids. An id is generated as the digest of every field but id and score; each field is
framed by its name, a byte that tells whether it is there, and its length, so that no bytes can
pass from one field to the next. A document with a generated id gets a new one from every setter. -/
namespace DocumentStore

/-- The lowest `n` bytes of a number, lowest first. -/
def littleEndian : Nat → Nat → Bytes
  | 0, _ => []
  | n + 1, k => (k % 256).toUInt8 :: littleEndian n (k / 256)

def frame (name : String) : Option (Bytes) → Bytes
  | none => utf8 name ++ [0]
  | some bytes => utf8 name ++ 1 :: (littleEndian 8 bytes.length ++ bytes)

namespace Document

/-- The exact bits of a vector. -/
def vectorBytes (xs : List Float32) : Bytes :=
  xs.flatMap fun x => littleEndian 4 x.toBits.toNat

def contentBytes (d : Document) : Bytes :=
  frame "content" (d.content.map utf8)
    ++ frame "dataframe" (d.dataframe.map fun v => utf8 v.text)
    ++ frame "blob" d.blob
    ++ frame "meta" (some (utf8 (Json.object d.metadata).text))
    ++ frame "embedding" (d.embedding.map vectorBytes)

def contentId (d : Document) : String := Blake3.hex d.contentBytes

/-- Whether the id is not one that a caller chose. -/
def hasGeneratedId (d : Document) : Bool := d.id == "" || d.id == d.contentId

def withContentId (d : Document) : Document := { d with id := d.contentId }

/-- Changes a document and renews its id if that was generated. -/
def modify (change : Document → Document) (d : Document) : Document :=
  if d.hasGeneratedId then (change d).withContentId else change d

def ofContent (content : String) : Document :=
  ({ content := some content } : Document).withContentId

def withId (id : String) (d : Document) : Document := { d with id := id }

def withMetadata (fields : Json.Fields) : Document → Document :=
  modify fun d => { d with metadata := fields }

def withEntry (key : String) (value : Json) : Document → Document :=
  modify fun d => { d with metadata := Json.insertField key value d.metadata }

def withEmbedding (xs : List Float32) : Document → Document :=
  modify fun d => { d with embedding := some xs }

def withDataframe (v : Json) : Document → Document :=
  modify fun d => { d with dataframe := some v }

def withBlob (bytes : Bytes) : Document → Document :=
  modify fun d => { d with blob := some bytes }

end Document
end DocumentStore
