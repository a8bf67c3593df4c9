import DocumentStore.Proofs.Outcome
import DocumentStore.Proofs.Store.OrderedMap
import DocumentStore.Store.Basic

/-! The histories of one database: it is created, opened again under other configurations, written
to with or without success, deleted from, rebuilt and searched. A history is told together with
the configurations of its opens, the latest first, and with the ordered map of documents that its
writes and deletions make. Main statement: the store at the end holds just these documents, and
has those indexes that some open enabled. -/
namespace DocumentStore

open OrderedMap

inductive History : List Config → List Document → Store → Prop where
  /-- A new file, or a database that no file backs. -/
  | created {disk : Disk} {c : Config} {s : Store} (hnew : disk.find? c.database = none)
      (ho : Store.openIn disk c = .ok s) : History [c] [] s
  /-- A file is closed and opened once more, whatever has happened to other files. -/
  | reopened {cs : List Config} {docs : List Document} {s s' : Store} {disk : Disk} {c : Config}
      (h : History cs docs s) (hfile : disk.backs s.config)
      (hname : c.database = s.config.database) (ho : Store.openIn (s.close disk) c = .ok s') :
      History (c :: cs) docs s'
  | written {cs : List Config} {docs batch : List Document} {s s' : Store}
      {policy : DuplicatePolicy} {n : Nat} (h : History cs docs s)
      (hw : s.write batch policy = (.ok n, s')) : History cs (putAll policy docs batch) s'
  | refused {cs : List Config} {docs batch : List Document} {s s' : Store}
      {policy : DuplicatePolicy} {e : StoreError} (h : History cs docs s)
      (hw : s.write batch policy = (.error e, s')) : History cs docs s'
  | deleted {cs : List Config} {docs : List Document} {s s' : Store} {gone : List String}
      (h : History cs docs s) (hd : s.delete gone = (.ok (), s')) : History cs (remove gone docs) s'
  | rebuilt {cs : List Config} {docs : List Document} {s s' : Store}
      (h : History cs docs s) (hr : s.rebuild = (.ok (), s')) : History cs docs s'
  /-- A search whose window has no room panics, after which nothing is answered. -/
  | searched {cs : List Config} {docs : List Document} {s s' : Store} {r : VectorRequest}
      {answer : Option (Except StoreError (List Hit))} (h : History cs docs s)
      (hroom : Store.hasRoomFor r.candidates) (hs : s.searchVector r = (answer, s')) :
      History cs docs s'

namespace Database

/-- The tokenizer of the lexical index, if there is one, and whether there is a vector index. -/
def indexes (db : Database) : Option TokenizerKind × Bool :=
  (db.lexical.map (·.kind), db.vectors.isSome)

@[simp] theorem indexes_index (r : Row) (db : Database) : (index r db).indexes = db.indexes := by
  simp [index, indexes, Function.comp_def]

@[simp] theorem indexes_append (record : Record) (db : Database) :
    (db.append record).indexes = db.indexes :=
  indexes_index _ _

@[simp] theorem indexes_replace (r : Row) (db : Database) : (db.replace r).indexes = db.indexes :=
  indexes_index _ _

@[simp] theorem indexes_erase (key : Int) (db : Database) :
    (db.erase key).indexes = db.indexes := by
  simp [erase, unindex, indexes, Function.comp_def]

theorem indexes_writeOne {policy : DuplicatePolicy} {db db' : Database} {d : Document} {n : Nat}
    (h : db.writeOne policy d = .ok (db', n)) : db'.indexes = db.indexes := by
  unfold writeOne at h
  split at h
  · cases h; simp
  · split at h <;> cases h <;> simp

theorem indexes_write {policy : DuplicatePolicy} {batch : List Document} {db db' : Database}
    {n : Nat} (h : db.write policy batch = .ok (db', n)) : db'.indexes = db.indexes := by
  induction batch generalizing db db' n with
  | nil => cases h; rfl
  | cons d batch ih =>
    obtain ⟨⟨db₁, n₁⟩, hw, h⟩ := bind_eq_ok h
    obtain ⟨⟨db₂, n₂⟩, hws, h⟩ := bind_eq_ok h
    cases h
    rw [ih hws, indexes_writeOne hw]

theorem indexes_eraseRows (p : Row → Bool) (db : Database) :
    (db.eraseRows p).indexes = db.indexes := by
  have hfold : ∀ (keys : List Int) (db : Database),
      (keys.foldl (fun db key => db.erase key) db).indexes = db.indexes := by
    intro keys
    induction keys with
    | nil => intro db; rfl
    | cons key keys ih => intro db; simp [ih]
  exact hfold _ db

variable {db : Database} {ds : Numbered}

theorem Holds.rebuildLexical (h : db.Holds ds) : db.rebuildLexical = db := by
  obtain ⟨version, rows, lexical, vectors⟩ := db
  cases lexical with
  | none => rfl
  | some i =>
    have hi : i.entries = lexicalEntries rows := h.lexical i rfl
    show Database.mk version rows (some { i with entries := lexicalEntries rows }) vectors = _
    rw [← hi]

theorem Holds.rebuildVectors (h : db.Holds ds) : db.rebuildVectors = db := by
  obtain ⟨version, rows, lexical, vectors⟩ := db
  cases vectors with
  | none => rfl
  | some l =>
    have hl : l = vectorEntries rows := h.vectors l rfl
    show Database.mk version rows lexical (some (vectorEntries rows)) = _
    rw [← hl]

theorem Holds.rebuild (h : db.Holds ds) (c : Config) : db.rebuild c = db := by
  unfold Database.rebuild
  dsimp only
  rw [h.rebuildLexical, ite_self, h.rebuildVectors, ite_self]

@[simp] theorem migrate_lexical (db : Database) : db.migrate.lexical = db.lexical := by
  unfold Database.migrate
  split <;> rfl

@[simp] theorem migrate_vectors (db : Database) : db.migrate.vectors = db.vectors := by
  unfold Database.migrate
  split <;> rfl

theorem Holds.migrate (h : db.Holds ds) : db.migrate = db := by
  rw [Database.migrate, if_pos h.version.ge]

/-- An index that is new when a database is opened is filled from the rows, of which there may be
none. -/
theorem ensureIndexes_eq (c : Config) (db : Database) : db.ensureIndexes c = { db with
    lexical := if c.lexical && db.lexical.isNone then some ⟨c.tokenizer, lexicalEntries db.rows⟩
      else db.lexical
    vectors := if c.hasVectors && db.vectors.isNone then some (vectorEntries db.rows)
      else db.vectors } := by
  obtain ⟨version, rows, lexical, vectors⟩ := db
  unfold ensureIndexes
  cases c.lexical <;> cases c.hasVectors <;> cases lexical <;> cases vectors <;> cases rows <;> rfl

theorem ensureIndexes_rows (c : Config) (db : Database) : (db.ensureIndexes c).rows = db.rows := by
  rw [ensureIndexes_eq]

theorem ensureIndexes_lexical (c : Config) (db : Database) :
    (db.ensureIndexes c).lexical
      = if c.lexical && db.lexical.isNone then some ⟨c.tokenizer, lexicalEntries db.rows⟩
        else db.lexical := by
  rw [ensureIndexes_eq]

theorem ensureIndexes_vectors (c : Config) (db : Database) :
    (db.ensureIndexes c).vectors
      = if c.hasVectors && db.vectors.isNone then some (vectorEntries db.rows) else db.vectors := by
  rw [ensureIndexes_eq]

theorem Holds.ensureIndexes (h : db.Holds ds) (c : Config) : (db.ensureIndexes c).Holds ds := by
  refine ⟨?_, ?_, h.keys, h.ids, ?_, ?_⟩
  · rw [ensureIndexes_eq]
    exact h.version
  · rw [ensureIndexes_rows, h.rows]
  · intro i hi
    rw [ensureIndexes_lexical] at hi
    rw [ensureIndexes_rows]
    split at hi
    · cases hi; rfl
    · exact h.lexical i hi
  · intro l hl
    rw [ensureIndexes_vectors] at hl
    rw [ensureIndexes_rows]
    split at hl
    · cases hl; rfl
    · exact h.vectors l hl

theorem ensureIndexes_lexical_isSome (c : Config) (db : Database) :
    (db.ensureIndexes c).lexical.isSome = (c.lexical || db.lexical.isSome) := by
  rw [ensureIndexes_lexical]
  cases c.lexical <;> cases db.lexical <;> rfl

theorem ensureIndexes_vectors_isSome (c : Config) (db : Database) :
    (db.ensureIndexes c).vectors.isSome = (c.hasVectors || db.vectors.isSome) := by
  rw [ensureIndexes_vectors]
  cases c.hasVectors <;> cases db.vectors <;> rfl

end Database

namespace Store

theorem openIn_eq_ok {disk : Disk} {c : Config} {s : Store} (h : openIn disk c = .ok s) :
    ∃ file db, connect c disk = .ok file ∧ file.migrate = .ok db
      ∧ s = { config := c, database := db.ensureIndexes c } := by
  obtain ⟨_, -, h⟩ := bind_eq_ok h
  obtain ⟨file, hconnect, h⟩ := bind_eq_ok h
  obtain ⟨db, hmigrate, h⟩ := bind_eq_ok h
  cases h
  exact ⟨file, db, hconnect, hmigrate, rfl⟩

theorem config_of_openIn {disk : Disk} {c : Config} {s : Store} (h : openIn disk c = .ok s) :
    s.config = c := by
  obtain ⟨file, db, -, -, rfl⟩ := openIn_eq_ok h
  rfl

theorem connect_new {disk : Disk} {c : Config} {file : DiskFile}
    (hnew : disk.find? c.database = none) (h : connect c disk = .ok file) :
    file = .database {} := by
  unfold connect at h
  rw [hnew] at h
  split at h
  · cases h; rfl
  · split at h <;> cases h
    rfl

theorem find?_put {disk : Disk} {path name : String} (hplace : disk.place path = .file name)
    (file : DiskFile) : (disk.put path file).find? path = some file := by
  have hput : disk.put path file
      = { disk with files := (name, file) :: disk.files.filter fun f => f.1 != name } := by
    rw [Disk.put, hplace]
  rw [hput, Disk.find?, hplace]
  simp

@[simp] theorem place_put (disk : Disk) (path : String) (file : DiskFile) :
    (disk.put path file).place = disk.place := by
  unfold Disk.put
  split <;> rfl

theorem exists_place_of_backs {disk : Disk} {c : Config} (h : disk.backs c) :
    c.inMemory = false ∧ ∃ name, disk.place c.database = .file name := by
  obtain ⟨hmemory, hplace⟩ := Bool.and_eq_true_iff.mp h
  refine ⟨by simpa using hmemory, ?_⟩
  split at hplace
  · rename_i name hname
    exact ⟨name, hname⟩
  · cases hplace

/-- Connecting to a file once more finds what was there when it was closed. -/
theorem connect_close {disk : Disk} {s : Store} {c : Config} (hfile : disk.backs s.config)
    (hname : c.database = s.config.database) :
    connect c (s.close disk) = .ok (.database s.database) := by
  obtain ⟨hmemory, name, hplace⟩ := exists_place_of_backs hfile
  have hc : c.inMemory = false := by rwa [Config.inMemory, hname]
  rw [connect, close, hc, hmemory, hname]
  simp only [Bool.false_eq_true, if_false, place_put, hplace, find?_put hplace, Option.getD_some]
  rfl

theorem eq_of_openIn_close {disk : Disk} {s s' : Store} {c : Config} {ds : Numbered}
    (hds : s.database.Holds ds) (hfile : disk.backs s.config)
    (hname : c.database = s.config.database) (h : openIn (s.close disk) c = .ok s') :
    s' = { config := c, database := s.database.ensureIndexes c } := by
  obtain ⟨file, db, hconnect, hmigrate, rfl⟩ := openIn_eq_ok h
  rw [connect_close hfile hname] at hconnect
  cases hconnect
  cases hmigrate
  rw [hds.migrate]

theorem locked_of_not_poisoned {s : Store} (h : s.isPoisoned = false) :
    s.locked = .ok s.database := by
  simp [locked, h]

theorem write_eq {s : Store} (h : s.isPoisoned = false) (batch : List Document)
    (policy : DuplicatePolicy) :
    s.write batch policy = s.commit (do
      validateEmbeddings s.config.dims batch
      s.database.write policy batch) := by
  simp only [write, locked_of_not_poisoned h]
  rfl

/-- A change that succeeds puts the changed database in the place of the old one. -/
theorem commit_eq_ok {α : Type} {s s' : Store} {change : Except StoreError (Database × α)} {a : α}
    (h : s.commit change = (.ok a, s')) :
    ∃ db, change = .ok (db, a) ∧ s' = { s with database := db } := by
  cases change with
  | error e => cases h
  | ok p =>
    cases h
    exact ⟨p.1, rfl, rfl⟩

/-- A change that fails leaves behind what it found. -/
theorem commit_eq_error {α : Type} {s s' : Store} {change : Except StoreError (Database × α)}
    {e : StoreError} (h : s.commit change = (.error e, s')) : s' = s := by
  cases change with
  | error e => cases h; rfl
  | ok p => cases h

theorem write_ok {s s' : Store} {batch : List Document} {policy : DuplicatePolicy} {n : Nat}
    (hlock : s.isPoisoned = false) (h : s.write batch policy = (.ok n, s')) :
    ∃ db, s.database.write policy batch = .ok (db, n) ∧ s' = { s with database := db } := by
  rw [write_eq hlock] at h
  obtain ⟨db, hchange, hs⟩ := commit_eq_ok h
  obtain ⟨_, -, hw⟩ := bind_eq_ok hchange
  exact ⟨db, hw, hs⟩

theorem delete_eq {s : Store} (hlock : s.isPoisoned = false) (gone : List String) :
    s.delete gone
      = (.ok (), { s with database := s.database.eraseRows fun r => gone.contains r.id }) := by
  rw [delete, locked_of_not_poisoned hlock, Except.bind, Database.delete_eq]
  rfl

theorem rebuild_ok {s s' : Store} (hlock : s.isPoisoned = false) (h : s.rebuild = (.ok (), s')) :
    s' = { s with database := s.database.rebuild s.config } := by
  obtain ⟨db, hchange, rfl⟩ := commit_eq_ok h
  rw [locked_of_not_poisoned hlock] at hchange
  cases hchange
  rfl

theorem nearest_snd (s : Store) (similarity : Similarity) (query : List Float32) {limit : Nat}
    (hroom : hasRoomFor limit) : (s.nearest similarity query limit).2 = s := by
  unfold nearest
  split
  · rfl
  · split
    · rfl
    · simp [hroom]

theorem searchVector_snd {s : Store} {r : VectorRequest} (hroom : hasRoomFor r.candidates) :
    (s.searchVector r).2 = s := by
  unfold searchVector
  split
  · rfl
  · dsimp only
    split
    · rfl
    · have hn := s.nearest_snd s.config.similarity r.vector hroom
      split <;> simp_all

end Store

/-- Holding the documents, with a lock that can be taken and the indexes that were enabled. -/
structure Store.Keeps (s : Store) (cs : List Config) (docs : List Document) : Prop where
  lock : s.isPoisoned = false
  holds : ∃ ds : Numbered, s.database.Holds ds ∧ ds.documents = docs
  lexical : s.database.lexical.isSome ↔ ∃ c ∈ cs, c.lexical
  vectors : s.database.vectors.isSome ↔ ∃ c ∈ cs, c.hasVectors

theorem Store.Keeps.of_indexes {s s' : Store} {cs : List Config} {docs docs' : List Document}
    (h : s.Keeps cs docs) (hlock : s'.isPoisoned = false)
    (hi : s'.database.indexes = s.database.indexes)
    (hh : ∃ ds : Numbered, s'.database.Holds ds ∧ ds.documents = docs') : s'.Keeps cs docs' := by
  have hl : s'.database.lexical.isSome = s.database.lexical.isSome := by
    simpa [Database.indexes] using congrArg (fun p => p.1.isSome) hi
  have hv : s'.database.vectors.isSome = s.database.vectors.isSome := congrArg Prod.snd hi
  exact ⟨hlock, hh, hl ▸ h.lexical, hv ▸ h.vectors⟩

/-- At every point of a history the store holds what the ordered map says. -/
theorem History.keeps {cs : List Config} {docs : List Document} {s : Store}
    (h : History cs docs s) : s.Keeps cs docs := by
  induction h with
  | @created disk c s hnew ho =>
    obtain ⟨file, db, hconnect, hmigrate, rfl⟩ := Store.openIn_eq_ok ho
    obtain rfl := Store.connect_new hnew hconnect
    cases hmigrate
    refine ⟨rfl, ⟨[], Database.holds_empty.ensureIndexes c, rfl⟩, ?_, ?_⟩
    · simp [Database.ensureIndexes_lexical_isSome]
    · simp [Database.ensureIndexes_vectors_isSome]
  | @reopened cs docs s s' disk c _ hfile hname ho ih =>
    obtain ⟨ds, hds, hdocs⟩ := ih.holds
    obtain rfl := Store.eq_of_openIn_close hds hfile hname ho
    refine ⟨rfl, ⟨ds, hds.ensureIndexes c, hdocs⟩, ?_, ?_⟩
    · simp [Database.ensureIndexes_lexical_isSome, ih.lexical]
    · simp [Database.ensureIndexes_vectors_isSome, ih.vectors]
  | @written cs docs batch s s' policy n _ hw ih =>
    obtain ⟨db, hdb, rfl⟩ := Store.write_ok ih.lock hw
    obtain ⟨ds, hds, rfl⟩ := ih.holds
    exact ih.of_indexes ih.lock (Database.indexes_write hdb) (hds.write_ok hdb).2
  | refused _ hw ih => rwa [Store.commit_eq_error hw]
  | @deleted cs docs s s' gone _ hd ih =>
    obtain ⟨ds, hds, rfl⟩ := ih.holds
    rw [Store.delete_eq ih.lock] at hd
    cases hd
    exact ih.of_indexes ih.lock (Database.indexes_eraseRows _ _) (hds.eraseRows gone)
  | @rebuilt cs docs s s' _ hr ih =>
    obtain ⟨ds, hds, -⟩ := ih.holds
    have hs' := Store.rebuild_ok ih.lock hr
    rw [hds.rebuild] at hs'
    rwa [hs']
  | @searched cs docs s s' r answer _ hroom hs ih =>
    have hs' : s' = s := by
      rw [← Store.searchVector_snd (s := s) hroom, hs]
    rwa [hs']

end DocumentStore
