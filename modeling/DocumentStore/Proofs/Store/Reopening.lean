import DocumentStore.Proofs.Component
import DocumentStore.Proofs.Store.Locking

/-! Closing a file and opening it again. Main statement: a store on a file is given back by its
component, however often it is reopened between operations, and under another configuration its file
gains indexes but keeps all that it held. -/
namespace DocumentStore

namespace Store

inductive Reply where
  | count (answer : Except StoreError Nat)
  | document (answer : Except StoreError (Option Document))
  | documents (answer : Except StoreError (List Document))
  | written (answer : Except StoreError Nat)
  | done (answer : Except StoreError Unit)
  | hits (answer : Option (Except StoreError (List Hit)))

variable {s : Store}

namespace Operation

def reply (s : Store) : Operation → Reply
  | count => .count s.count
  | get id => .document (s.get id)
  | filter f => .documents (s.filter f)
  | write batch policy => .written (s.write batch policy).1
  | delete ids => .done (s.delete ids).1
  | rebuild => .done s.rebuild.1
  | searchText r => .hits (some (s.searchText r))
  | searchVector r => .hits (s.searchVector r).1

/-- The replies of operations that follow each other, and the store after them. -/
def replies (s : Store) : List Operation → List Reply × Store
  | [] => ([], s)
  | o :: os => (o.reply s :: (replies (o.run s).2 os).1, (replies (o.run s).2 os).2)

theorem replies_append (s : Store) (os os' : List Operation) :
    replies s (os ++ os')
      = ((replies s os).1 ++ (replies (replies s os).2 os').1,
          (replies (replies s os).2 os').2) := by
  induction os generalizing s with
  | nil => rfl
  | cons o os ih => rw [List.cons_append, replies, ih, replies]; rfl

end Operation

theorem commit_config {α : Type} (s : Store) (change : Except StoreError (Database × α)) :
    (s.commit change).2.config = s.config := by
  cases change <;> rfl

/-- The same, but that after every session the store is closed, and opened again by its
component. -/
def sessions (disk : Disk) (s : Store) :
    List (List Operation) → Except StoreError (List Reply × Store)
  | [] => .ok ([], s)
  | os :: oss => do
    let p := Operation.replies s os
    let t ← ofComponent (p.2.close disk) p.2.toComponent
    let q ← sessions (p.2.close disk) t oss
    return (p.1 ++ q.1, q.2)

end Store

open Store.Operation

section

variable {cs : List Config} {docs : List Document} {s : Store}

/-- An operation for which there is room leads to a store of some history, with the same
configuration. -/
theorem History.operated (h : History cs docs s) {o : Store.Operation} (hroom : o.HasRoom) :
    (o.run s).2.config = s.config ∧ ∃ docs', History cs docs' (o.run s).2 := by
  cases o with
  | count | get id | filter f | searchText r => exact ⟨rfl, docs, h⟩
  | write batch policy =>
    refine ⟨s.commit_config _, ?_⟩
    cases hw : s.write batch policy with
    | mk answer t =>
      simp only [run, hw]
      cases answer with
      | ok n => exact ⟨_, h.written hw⟩
      | error e => exact ⟨_, h.refused hw⟩
  | delete ids =>
    have hd : s.delete ids = (.ok (), (s.delete ids).2) := by
      rw [Store.delete_eq h.keeps.lock]
    exact ⟨s.commit_config _, _, h.deleted hd⟩
  | rebuild =>
    have hr : s.rebuild = (.ok (), s.rebuild.2) := by
      rw [Store.rebuild, Store.locked_of_not_poisoned h.keeps.lock]
      rfl
    exact ⟨s.commit_config _, _, h.rebuilt hr⟩
  | searchVector r =>
    rw [run, Store.searchVector_snd (Store.hasRoomFor_iff.mpr hroom)]
    exact ⟨rfl, docs, h⟩

theorem History.operated_all (h : History cs docs s) {os : List Store.Operation}
    (hroom : ∀ o ∈ os, o.HasRoom) :
    (replies s os).2.config = s.config ∧ ∃ docs', History cs docs' (replies s os).2 := by
  induction os generalizing docs s with
  | nil => exact ⟨rfl, docs, h⟩
  | cons o os ih =>
    obtain ⟨hconfig, docs', h'⟩ := h.operated (hroom o (by simp))
    obtain ⟨hconfigs, hend⟩ := ih h' fun p hp => hroom p (by simp [hp])
    exact ⟨hconfigs.trans hconfig, hend⟩

/-- Every configuration of a history is one under which some disk could be opened. -/
theorem History.opened (h : History cs docs s) :
    ∀ c ∈ cs, ∃ disk t, Store.openIn disk c = .ok t := by
  induction h with
  | created _ ho => exact List.forall_mem_singleton.mpr ⟨_, _, ho⟩
  | reopened _ _ _ ho ih => exact List.forall_mem_cons.mpr ⟨⟨_, _, ho⟩, ih⟩
  | written _ _ ih | refused _ _ ih | deleted _ _ ih | rebuilt _ _ ih | searched _ _ _ ih =>
    exact ih

end

namespace Database

variable {c : Config} {db : Database}

theorem ensureIndexes_eq_self (hlexical : c.lexical = true → db.lexical.isSome)
    (hvectors : c.hasVectors = true → db.vectors.isSome) : db.ensureIndexes c = db := by
  have hl : (c.lexical && db.lexical.isNone) = false := by
    cases hc : c.lexical <;> simp_all [Option.isSome_iff_ne_none]
  have hv : (c.hasVectors && db.vectors.isNone) = false := by
    cases hc : c.hasVectors <;> simp_all [Option.isSome_iff_ne_none]
  simp only [ensureIndexes_eq, hl, hv, Bool.false_eq_true, if_false]

theorem migrate_ensureIndexes_of_migrate {file : DiskFile} (h : file.migrate = .ok db)
    (c : Config) :
    (db.ensureIndexes c).migrate = db.ensureIndexes c := by
  have hversion : schemaVersion ≤ (db.ensureIndexes c).version := by
    rw [ensureIndexes_eq]
    cases file with
    | blocked => cases h
    | database db₀ =>
      cases h
      rw [migrate]
      split
      · assumption
      · exact le_rfl
  rw [migrate, if_pos hversion]

theorem ensureIndexes_idem (c : Config) (db : Database) :
    (db.ensureIndexes c).ensureIndexes c = db.ensureIndexes c := by
  refine ensureIndexes_eq_self (fun hc => ?_) fun hc => ?_
  · rw [ensureIndexes_lexical_isSome, hc, Bool.true_or]
  · rw [ensureIndexes_vectors_isSome, hc, Bool.true_or]

/-- Gaining the indexes that a configuration enables, complete from the start, and keeping all
else. -/
structure Gains (c : Config) (db db' : Database) : Prop where
  rows : db'.rows = db.rows
  lexical : db'.lexical = db.lexical
    ∨ db.lexical = none ∧ c.lexical = true
      ∧ db'.lexical = some ⟨c.tokenizer, lexicalEntries db.rows⟩
  vectors : db'.vectors = db.vectors
    ∨ db.vectors = none ∧ c.hasVectors = true ∧ db'.vectors = some (vectorEntries db.rows)

theorem gains_ensureIndexes (c : Config) (db : Database) : db.Gains c (db.ensureIndexes c) := by
  refine ⟨ensureIndexes_rows c db, ?_, ?_⟩
  · rw [ensureIndexes_lexical]
    split
    · rename_i h
      simp only [Bool.and_eq_true, Option.isNone_iff_eq_none] at h
      exact .inr ⟨h.2, h.1, rfl⟩
    · exact .inl rfl
  · rw [ensureIndexes_vectors]
    split
    · rename_i h
      simp only [Bool.and_eq_true, Option.isNone_iff_eq_none] at h
      exact .inr ⟨h.2, h.1, rfl⟩
    · exact .inl rfl

theorem Gains.tableNames {db' : Database} (h : db.Gains c db') :
    db.tableNames.Sublist db'.tableNames := by
  rw [Database.tableNames, Database.tableNames]
  refine .cons_cons _ (.append ?_ ?_)
  · rcases h.lexical with heq | ⟨hnone, -, -⟩
    · rw [heq]
    · simp [hnone]
  · rcases h.vectors with heq | ⟨hnone, -, -⟩
    · rw [heq]
    · simp [hnone]

end Database

namespace Store

variable {disk : Disk} {c : Config} {s t : Store}

theorem openIn_close (hvalid : c.validate = .ok ()) (hfile : disk.backs s.config)
    (hname : c.database = s.config.database) (hmigrated : s.database.migrate = s.database) :
    openIn (s.close disk) c = .ok { config := c, database := s.database.ensureIndexes c } := by
  rw [openIn, hvalid, connect_close hfile hname]
  show Except.ok _ = _
  rw [hmigrated]

theorem openIn_twice (h : openIn disk c = .ok s) : openIn (s.close disk) c = .ok s := by
  obtain ⟨file, db, hconnect, hmigrate, hs⟩ := openIn_eq_ok h
  have hconfig : s.config = c := config_of_openIn h
  cases hmemory : c.inMemory with
  | true => rwa [close, hconfig, if_pos hmemory]
  | false =>
    cases hplace : disk.place c.database with
    | nowhere =>
      rw [connect, hmemory, hplace] at hconnect
      cases hconnect
    | memory =>
      -- Nothing is kept where no file backs the database.
      have hclose : s.close disk = disk := by
        rw [close, hconfig, hmemory, Disk.put, hplace]
        rfl
      rwa [hclose]
    | file name =>
      have hfile : disk.backs s.config := by
        rw [hconfig, Disk.backs, hmemory, hplace]
        rfl
      have hmigrated : s.database.migrate = s.database := by
        rw [hs]
        exact Database.migrate_ensureIndexes_of_migrate hmigrate c
      have hself : s.database.ensureIndexes c = s.database := by
        rw [hs]
        exact Database.ensureIndexes_idem c db
      rw [openIn_close (validate_of_openIn h) hfile (by rw [hconfig]) hmigrated, hself, hs]

theorem reads_of_rows (hs : s.isPoisoned = false) (ht : t.isPoisoned = false)
    (hrows : t.database.rows = s.database.rows) :
    t.count = s.count ∧ (∀ id, t.get id = s.get id) ∧ ∀ f, t.filter f = s.filter f := by
  refine ⟨?_, fun id => ?_, fun f => ?_⟩
  · simp only [count, locked_of_not_poisoned, hs, ht, Except.map, hrows]
  · simp only [get, locked_of_not_poisoned, hs, ht, Except.bind, Database.get, Database.findId?,
      hrows]
  · simp only [filter, locked_of_not_poisoned, hs, ht, Database.filter, Database.begins,
      Database.anyMeets, bind, Except.bind, hrows]

end Store

section

variable {cs : List Config} {docs : List Document} {s : Store}

theorem History.openIn_close (h : History cs docs s) {disk : Disk} (hfile : disk.backs s.config)
    {c : Config} (hvalid : c.validate = .ok ()) (hname : c.database = s.config.database) :
    Store.openIn (s.close disk) c
      = .ok { config := c, database := s.database.ensureIndexes c } := by
  obtain ⟨ds, hds, -⟩ := h.keeps.holds
  exact Store.openIn_close hvalid hfile hname hds.migrate

theorem History.ofComponent_close (h : History cs docs s) {disk : Disk}
    (hfile : disk.backs s.config) (hfits : s.config.Fits) :
    Store.ofComponent (s.close disk) s.toComponent = .ok s := by
  have hk := h.keeps
  obtain ⟨disk', t, ho⟩ := h.opened _ h.config_mem
  have hvalid := Store.validate_of_openIn ho
  have hself : s.database.ensureIndexes s.config = s.database :=
    Database.ensureIndexes_eq_self (fun hc => hk.lexical.mpr ⟨_, h.config_mem, hc⟩)
      fun hc => hk.vectors.mpr ⟨_, h.config_mem, hc⟩
  rw [Store.toComponent, Store.ofComponent_toComponent hfits hvalid,
    h.openIn_close hfile hvalid rfl, hself, ← hk.lock]

theorem Store.backs_close (disk : Disk) (s : Store) (c : Config) :
    (s.close disk).backs c = disk.backs c := by
  have hplace : (s.close disk).place = disk.place := by
    unfold close
    split
    · rfl
    · exact place_put _ _ _
  simp only [Disk.backs, hplace]

/-- Sessions with room for their operations are answered like the operations without any break. -/
theorem History.sessions_eq (h : History cs docs s) {disk : Disk} (hfile : disk.backs s.config)
    (hfits : s.config.Fits) {oss : List (List Store.Operation)}
    (hroom : ∀ os ∈ oss, ∀ o ∈ os, o.HasRoom) :
    Store.sessions disk s oss = .ok (replies s oss.flatten) := by
  -- Each session ends with a store of some history, and the next one begins with this very store.
  induction oss generalizing docs s disk with
  | nil => rfl
  | cons os oss ih =>
    obtain ⟨hconfig, docs', h'⟩ := h.operated_all (hroom os List.mem_cons_self)
    have hfits' : (replies s os).2.config.Fits := by rwa [hconfig]
    have hfile' : disk.backs (replies s os).2.config := by rwa [hconfig]
    have hbacks : ((replies s os).2.close disk).backs (replies s os).2.config := by
      rwa [Store.backs_close]
    have hrest := ih h' hbacks hfits' fun os' hos' => hroom os' (List.mem_cons_of_mem _ hos')
    simp only [Store.sessions, h'.ofComponent_close hfile' hfits', hrest, bind, Except.bind,
      List.flatten_cons, replies_append]
    rfl

/-- A store on a file is the same after it was closed and opened again by its component, at the end
of any number of sessions. A broken lock is whole again then. Opening the file under another
configuration leaves the documents and the indexes as they are, and at most adds indexes that are
complete. Opening twice is opening once. -/
theorem History.reopens (h : History cs docs s) {disk : Disk} (hfile : disk.backs s.config)
    (hfits : s.config.Fits) :
    Store.ofComponent (s.close disk) s.toComponent = .ok s
      ∧ Store.ofComponent (s.poison.close disk) s.poison.toComponent = .ok s
      ∧ (∀ oss, (∀ os ∈ oss, ∀ o ∈ os, o.HasRoom) →
          Store.sessions disk s oss = .ok (replies s oss.flatten))
      ∧ (∀ c, c.validate = .ok () → c.database = s.config.database →
          ∃ t, Store.openIn (s.close disk) c = .ok t ∧ t.config = c ∧ History (c :: cs) docs t
            ∧ s.database.Gains c t.database
            ∧ s.database.tableNames.Sublist t.database.tableNames
            ∧ t.count = s.count ∧ (∀ id, t.get id = s.get id) ∧ ∀ f, t.filter f = s.filter f)
      ∧ ∀ disk c t, Store.openIn disk c = .ok t → Store.openIn (t.close disk) c = .ok t := by
  have hsame := h.ofComponent_close hfile hfits
  refine ⟨hsame, hsame, fun oss hroom => h.sessions_eq hfile hfits hroom,
    fun c hvalid hname => ?_, fun _ _ _ => Store.openIn_twice⟩
  have ho := h.openIn_close hfile hvalid hname
  have hgains := Database.gains_ensureIndexes c s.database
  exact ⟨_, ho, rfl, h.reopened hfile hname ho, hgains, hgains.tableNames,
    Store.reads_of_rows h.keeps.lock rfl hgains.rows⟩

end

def Config.onFile : Config := { database := "shelf" }

def Store.shelf : Store where
  config := .onFile
  database := {
    version := schemaVersion
    rows := rowsOf [(1, .fox)]
    lexical := some ⟨.trigram, Numbered.contents [(1, .fox)]⟩ }

theorem History.shelf : History [.onFile] [.fox] .shelf := by
  have h := @History.created {} .onFile _ rfl rfl
  exact @History.written _ _ [.fox] _ _ .fail _ h rfl

/-- A document that is deleted in one session is gone in the next one. A vector index that is
enabled later on is filled. -/
theorem History.reopens_shelf :
    History [.onFile] [.fox] .shelf
      ∧ (Store.sessions {} .shelf [[.count, .delete ["b"]], [.count]]).toOption.map Prod.fst
          = some [.count (.ok 1), .done (.ok ()), .count (.ok 0)]
      ∧ ∃ t, Store.openIn (Store.shelf.close {}) (Config.onFile.withVectors 1 .dotProduct) = .ok t
          ∧ t.database.vectors = some (Numbered.embeddingTexts [(1, .fox)]) := by
  have hfits : Store.shelf.config.Fits := by simp [Config.Fits, Store.shelf, Config.onFile]
  have hfile : Disk.backs Store.shelf.config {} := rfl
  obtain ⟨-, -, hsessions, hopens, -⟩ := History.shelf.reopens hfile hfits
  refine ⟨History.shelf, ?_, ?_⟩
  · rw [hsessions]
    · rfl
    · simp [HasRoom]
  · obtain ⟨t, ho, -, ht, hgains, -⟩ := hopens (Config.onFile.withVectors 1 .dotProduct) rfl rfl
    refine ⟨t, ho, ?_⟩
    rcases hgains.vectors with heq | ⟨-, -, heq⟩
    · have hvectors : t.database.vectors.isSome := ht.keeps.vectors.mpr ⟨_, List.mem_cons_self, rfl⟩
      rw [heq] at hvectors
      cases hvectors
    · exact heq

end DocumentStore
