import DocumentStore.Store.Database
import DocumentStore.Store.Policy

/-! Writing and deleting batches of documents. A batch is written as a whole or not at all. -/
namespace DocumentStore

/-- What is wrong with an embedding, for a store with the given dimensions if it has any. -/
def embeddingFault? (dims : Option Nat) (d : Document) : Option ValidationError :=
  match d.embedding with
  | none => none
  | some xs =>
    if !xs.all Float32.isFinite then some (.nonFiniteEmbedding d.id)
    else
      match dims with
      | some n => if xs.length = n then none else some (.dimensionMismatch n xs.length)
      | none => none

def validateEmbeddings (dims : Option Nat) (ds : List Document) : Except StoreError Unit :=
  match ds.findSome? (embeddingFault? dims) with
  | some e => .error (.validation e)
  | none => .ok ()

namespace Database

def writeOne (policy : DuplicatePolicy) (db : Database) (d : Document) :
    Except StoreError (Database × Nat) :=
  let record := Record.ofDocument d
  match db.findId? d.id with
  | none => .ok (db.append record, 1)
  | some r =>
    match policy.resolve with
    | .skip => .ok (db, 0)
    | .overwrite => .ok (db.replace (Row.ofRecord r.key record), 1)
    | .fail | .none => .error (.duplicateDocument d.id)

def write (policy : DuplicatePolicy) (db : Database) :
    List Document → Except StoreError (Database × Nat)
  | [] => .ok (db, 0)
  | d :: ds => do
    let (db, n) ← db.writeOne policy d
    let (db, m) ← write policy db ds
    return (db, n + m)

def eraseRows (p : Row → Bool) (db : Database) : Database :=
  ((db.rows.filter p).map (·.key)).foldl (fun db key => db.erase key) db

/-- Deletes the documents with these ids, which are handed over as the text of a list; other ids are
ignored. -/
def delete (ids : List String) (db : Database) : Except StoreError Database :=
  if ids.isEmpty then .ok db
  else
    match listMembers (Json.array (ids.map .string)).text with
    | none => .error .engine
    | some members => .ok (db.eraseRows fun r => memberOf (.text r.id) members == .yes)

end Database
end DocumentStore
