import DocumentStore.Component
import DocumentStore.Store.Search
import DocumentStore.Store.Write

/-! Stores: a database under a configuration, and the disk on which databases outlive the stores
that had them open. A store whose lock is poisoned refuses everything that needs its database. -/
namespace DocumentStore

structure Store where
  config : Config
  database : Database
  isPoisoned : Bool := false

/-- What lies in a file: a database, or something whose schema leaves no room for the document
table. -/
inductive DiskFile where
  | database (db : Database)
  | blocked

/-- Where a path leads: to a file of some name, to a database that no file backs, or nowhere. -/
inductive Place where
  | file (name : String)
  | memory
  | nowhere
deriving DecidableEq

/-- The files by name, and how the engine and the system under it resolve paths. -/
structure Disk where
  files : List (String × DiskFile) := []
  place : String → Place := .file

namespace Disk

def find? (path : String) (disk : Disk) : Option DiskFile :=
  match disk.place path with
  | .file name => disk.files.lookup name
  | _ => none

def put (path : String) (file : DiskFile) (disk : Disk) : Disk :=
  match disk.place path with
  | .file name => { disk with files := (name, file) :: disk.files.filter fun f => f.1 != name }
  | _ => disk

/-- Whether the database of a configuration is backed by a file. -/
def backs (c : Config) (disk : Disk) : Bool :=
  !c.inMemory && match disk.place c.database with
    | .file _ => true
    | _ => false

end Disk

/-- Brings the schema of what lies in a file up to its latest version. -/
def DiskFile.migrate : DiskFile → Except StoreError Database
  | .database db => .ok db.migrate
  | .blocked => .error (.storage (.migrationFailed schemaVersion))

namespace Store

/-- Connects to what a configuration names. What is not there is made, and holds nothing yet. -/
def connect (c : Config) (disk : Disk) : Except StoreError DiskFile :=
  if c.inMemory then .ok (.database {})
  else if disk.place c.database = .nowhere then .error .engine
  else .ok ((disk.find? c.database).getD (.database {}))

/-- Opens the store that a configuration describes, with every index that it enables. -/
def openIn (disk : Disk) (c : Config) : Except StoreError Store := do
  lift .configuration c.validate
  let file ← connect c disk
  let db ← file.migrate
  return { config := c, database := db.ensureIndexes c }

def close (disk : Disk) (s : Store) : Disk :=
  if s.config.inMemory then disk else disk.put s.config.database (.database s.database)

def toComponent (s : Store) : Component := s.config.toComponent

def ofComponent (disk : Disk) (data : Component) : Except StoreError Store := do
  let c ← lift .deserialization (Config.ofComponent data)
  openIn disk c

def poison (s : Store) : Store := { s with isPoisoned := true }

def locked (s : Store) : Except StoreError Database :=
  if s.isPoisoned then .error (.storage .lockPoisoned) else .ok s.database

/-- The outcome of an operation, and the store after it. -/
abbrev Outcome (α : Type) := Except StoreError α × Store

/-- Puts a changed database into a store; after a failure the store is as it was. -/
def commit {α : Type} (s : Store) : Except StoreError (Database × α) → Outcome α
  | .ok (db, a) => (.ok a, { s with database := db })
  | .error e => (.error e, s)

def count (s : Store) : Except StoreError Nat := s.locked.map fun db => db.rows.length

def get (id : String) (s : Store) : Except StoreError (Option Document) := s.locked.bind (·.get id)

/-- The documents that meet a filter, in the order in which they were first written. -/
def filter (f : Option Filter) (s : Store) : Except StoreError (List Document) := do
  let db ← s.locked
  let condition ← compileOptional f
  db.filter condition

/-- Writes a batch, and tells how many documents were added or replaced. -/
def write (ds : List Document) (policy : DuplicatePolicy) (s : Store) : Outcome Nat :=
  s.commit do
    validateEmbeddings s.config.dims ds
    let db ← s.locked
    db.write policy ds

def delete (ids : List String) (s : Store) : Outcome Unit :=
  s.commit (s.locked.bind fun db => (db.delete ids).map fun db => (db, ()))

def rebuild (s : Store) : Outcome Unit :=
  s.commit (s.locked.map fun db => (db.rebuild s.config, ()))

def searchText (r : LexicalRequest) (s : Store) : Except StoreError (List Hit) :=
  if !s.config.lexical then .error (.configuration .lexicalDisabled)
  else do
    let db ← s.locked
    let condition ← compileOptional r.filter
    db.searchText condition r

/-- Whether there is room for a window of `limit` entries and one more, each of 16 bytes. -/
def hasRoomFor (limit : Nat) : Bool :=
  decide (min (limit + 1) 0xffffffffffffffff * 16 ≤ 0x7fffffffffffffff)

/-- The outcome of an operation that can panic, with nothing to show for it then. -/
abbrev Attempt (α : Type) := Option (Except StoreError α) × Store

/-- The nearest entries of the vector index. Without room for its window the search panics while it
has the lock. -/
def nearest (similarity : Similarity) (query : List Float32) (limit : Nat) (s : Store) :
    Attempt (List Vector.Candidate) :=
  match s.locked with
  | .error e => (some (.error e), s)
  | .ok db =>
    match db.nearest similarity query limit with
    | .error e => (some (.error e), s)
    | .ok window => if hasRoomFor limit then (some (.ok window), s) else (none, s.poison)

/-- The hits of a vector search: filters apply to the window of the nearest entries. -/
def searchVector (r : VectorRequest) (s : Store) : Attempt (List Hit) :=
  match s.config.dims with
  | none => (some (.error (.configuration .vectorsDisabled)), s)
  | some dims =>
    let checked : Except StoreError (Database × Option Condition) := do
      let db ← s.locked
      if r.vector.length ≠ dims then
        throw (.validation (.dimensionMismatch dims r.vector.length))
      let condition ← compileOptional r.filter
      return (db, condition)
    match checked with
    | .error e => (some (.error e), s)
    | .ok (db, condition) =>
      match s.nearest s.config.similarity r.vector r.candidates with
      | (none, s) => (none, s)
      | (some (.error e), s) => (some (.error e), s)
      | (some (.ok window), s) => (some (db.searchWindow condition r.topK window), s)

end Store
end DocumentStore
