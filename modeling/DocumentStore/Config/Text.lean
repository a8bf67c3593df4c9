import DocumentStore.Config.Basic
import DocumentStore.Toml.Reader

/-! Configurations as TOML texts. Unknown keys are ignored. -/
namespace DocumentStore.Config

open Toml (Item Entries)

def isHollow : Item → Bool
  | .list [] | .table _ [] => true
  | _ => false

/-- One of some names, as a string or as the key of an empty container. -/
def readVariant {α : Type} (find : String → Option α) : Item → Option α
  | .string s => find s
  | .table .inline [(s, v)] => if isHollow v then find s else none
  | .table .inline _ => none
  | .table _ ((s, v) :: _) => if isHollow v then find s else none
  | _ => none

def readEntry (c : Config) : String × Item → Option Config
  | ("database", v) => match v with
    | .string s => some { c with database := s }
    | _ => none
  | ("use_bm25", v) => match v with
    | .bool b => some { c with lexical := b }
    | _ => none
  | ("embedding_dims", v) => match v with
    | .integer n => if 0 ≤ n then some { c with dims := some n.toNat } else none
    | _ => none
  | ("embedding_similarity_function", v) =>
    (readVariant Similarity.ofName? v).map fun x => { c with similarity := x }
  | ("fts_tokenizer", v) =>
    (readVariant TokenizerKind.ofName? v).map fun x => { c with tokenizer := x }
  | _ => some c

def ofText (s : String) : Except ConfigFault Config :=
  match (Toml.read s).bind fun es => es.foldlM readEntry {} with
  | none => .error .unreadableText
  | some c => c.validate.map fun _ => c

/-- The configuration of a file, given its text if there is such a file. -/
def ofFile : Option String → Except ConfigFault Config
  | none => .error .missingFile
  | some s => ofText s

end DocumentStore.Config
