import DocumentStore.Lexical.Search
import DocumentStore.Store.Row
import DocumentStore.Vector.Window

/-! A database: the rows of the document table in the order of their keys, and the two indexes
derived from them. An index that was created once is kept up to date from then on. -/
namespace DocumentStore

/-- Puts a value under a key into a list in the order of the keys. -/
def putKey {α : Type} (key : Int) (a : α) : List (Int × α) → List (Int × α)
  | [] => [(key, a)]
  | (k, b) :: rest =>
    if key = k then (key, a) :: rest
    else if key < k then (key, a) :: (k, b) :: rest
    else (k, b) :: putKey key a rest

def eraseKey {α : Type} (key : Int) (l : List (Int × α)) : List (Int × α) :=
  l.filter fun e => e.1 != key

def schemaVersion : Nat := 1

/-- A database has a document table from the first version of its schema on. -/
structure Database where
  version : Nat := 0
  rows : List Row := []
  lexical : Option Lexical.Index := none
  vectors : Option (List (Int × String)) := none
deriving DecidableEq

namespace Database

/-- One more than the largest key. -/
def nextKey (db : Database) : Int := db.rows.foldl (fun n r => max n r.key) 0 + 1

def findId? (id : String) (db : Database) : Option Row := db.rows.find? fun r => r.id == id

def findKey? (key : Int) (db : Database) : Option Row := db.rows.find? fun r => r.key == key

/-- The text that the vector index holds for a row. -/
def putVector (r : Row) (l : List (Int × String)) : List (Int × String) :=
  match r.embedding with
  | some text => putKey r.key text l
  | none => eraseKey r.key l

/-- Brings both indexes up to date with a row. -/
def index (r : Row) (db : Database) : Database :=
  { db with
    lexical := db.lexical.map fun i => { i with entries := putKey r.key r.content i.entries }
    vectors := db.vectors.map (putVector r) }

def unindex (key : Int) (db : Database) : Database :=
  { db with
    lexical := db.lexical.map fun i => { i with entries := eraseKey key i.entries }
    vectors := db.vectors.map (eraseKey key) }

def append (record : Record) (db : Database) : Database :=
  let r := Row.ofRecord db.nextKey record
  index r { db with rows := db.rows ++ [r] }

def replace (r : Row) (db : Database) : Database :=
  index r { db with rows := db.rows.map fun q => if q.key = r.key then r else q }

def erase (key : Int) (db : Database) : Database :=
  unindex key { db with rows := db.rows.filter fun r => r.key != key }

def lexicalEntries (rows : List Row) : List (Int × Option String) :=
  rows.map fun r => (r.key, r.content)

def vectorEntries (rows : List Row) : List (Int × String) :=
  rows.filterMap fun r => r.embedding.map fun text => (r.key, text)

def rebuildLexical (db : Database) : Database :=
  { db with lexical := db.lexical.map fun i => { i with entries := lexicalEntries db.rows } }

def rebuildVectors (db : Database) : Database :=
  { db with vectors := db.vectors.map fun _ => vectorEntries db.rows }

/-- Derives the indexes that a configuration enables once more from the rows. -/
def rebuild (c : Config) (db : Database) : Database :=
  let db := if c.lexical then db.rebuildLexical else db
  if c.hasVectors then db.rebuildVectors else db

def migrate (db : Database) : Database :=
  if schemaVersion ≤ db.version then db else { db with version := schemaVersion }

/-- Creates the lexical index, with the triggers that keep it up to date, if it is not there, and
tells whether it is new. -/
def createLexical (kind : TokenizerKind) (db : Database) : Database × Bool :=
  match db.lexical with
  | some _ => (db, false)
  | none => ({ db with lexical := some ⟨kind, []⟩ }, true)

def createVectors (db : Database) : Database × Bool :=
  match db.vectors with
  | some _ => (db, false)
  | none => ({ db with vectors := some [] }, true)

/-- Creates the indexes that a configuration enables. A new index is filled if there are rows. -/
def ensureIndexes (c : Config) (db : Database) : Database :=
  let populated := !db.rows.isEmpty
  let db :=
    if c.lexical then
      match db.createLexical c.tokenizer with
      | (db, isNew) => if isNew && populated then db.rebuildLexical else db
    else db
  if c.hasVectors then
    match db.createVectors with
    | (db, isNew) => if isNew && populated then db.rebuildVectors else db
  else db

def tableNames (db : Database) : List String :=
  "document" :: ((db.lexical.map fun _ => "document_fts").toList
    ++ (db.vectors.map fun _ => "document_vec").toList)

end Database
end DocumentStore
