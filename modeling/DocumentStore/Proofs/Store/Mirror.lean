import DocumentStore.Proofs.Store.History

/-! The indexes mirror the documents. An index exists from the first open that enables it, and at
every point of a history its entries are those that the documents give. -/
namespace DocumentStore

def Numbered.embeddingTexts (ds : Numbered) : List (Int × String) :=
  ds.filterMap fun e => e.2.embedding.map fun xs => (e.1, Json.singlesText xs)

def Numbered.contents (ds : Numbered) : List (Int × Option String) :=
  ds.map fun e => (e.1, e.2.content)

theorem vectorEntries_rowsOf (ds : Numbered) :
    Database.vectorEntries (rowsOf ds) = ds.embeddingTexts := by
  simp only [Database.vectorEntries, rowsOf, Numbered.embeddingTexts, List.filterMap_map]
  congr 1
  funext e
  simp [Function.comp_def]

theorem lexicalEntries_rowsOf (ds : Numbered) :
    Database.lexicalEntries (rowsOf ds) = ds.contents := by
  simp [Database.lexicalEntries, rowsOf, Numbered.contents]

/-- What it is for both indexes of a store to mirror numbered documents. -/
structure Database.Mirrors (db : Database) (ds : Numbered) : Prop where
  rows : db.rows = rowsOf ds
  keys : ds.Pairwise fun e f => e.1 < f.1
  vectors : ∀ l, db.vectors = some l → l = ds.embeddingTexts
  lexical : ∀ i, db.lexical = some i → i.entries = ds.contents

theorem Database.Holds.mirrors {db : Database} {ds : Numbered} (h : db.Holds ds) :
    db.Mirrors ds where
  rows := h.rows
  keys := h.keys
  vectors l hl := by rw [h.vectors l hl, h.rows, vectorEntries_rowsOf]
  lexical i hi := by rw [h.lexical i hi, h.rows, lexicalEntries_rowsOf]

/-- At every point of a history an index exists just if some open enabled it, and both indexes
mirror the documents, so that deriving them anew changes nothing. -/
theorem History.indexes_mirror {cs : List Config} {docs : List Document} {s : Store}
    (h : History cs docs s) :
    (s.database.vectors.isSome ↔ ∃ c ∈ cs, c.dims.isSome)
      ∧ (s.database.lexical.isSome ↔ ∃ c ∈ cs, c.lexical)
      ∧ (∃ ds : Numbered, ds.documents = docs ∧ s.database.Mirrors ds)
      ∧ s.database.rebuildVectors = s.database ∧ s.database.rebuildLexical = s.database
      ∧ s.rebuild = (.ok (), s)
      ∧ ∀ (disk : Disk) c s', disk.backs s.config → c.database = s.config.database →
          Store.openIn (s.close disk) c = .ok s' →
          (∃ ds : Numbered, ds.documents = docs ∧ s'.database.Mirrors ds)
            ∧ (c.dims.isSome → s'.database.vectors.isSome)
            ∧ (c.lexical → s'.database.lexical.isSome) := by
  have hk := h.keeps
  obtain ⟨ds, hds, hdocs⟩ := hk.holds
  refine ⟨hk.vectors, hk.lexical, ⟨ds, hdocs, hds.mirrors⟩, hds.rebuildVectors,
    hds.rebuildLexical, ?_, ?_⟩
  · simp only [Store.rebuild, Store.locked_of_not_poisoned hk.lock, Except.map, hds.rebuild]
    rfl
  · intro disk c s' hfile hname ho
    have hk' := (h.reopened hfile hname ho).keeps
    obtain ⟨ds', hds', hdocs'⟩ := hk'.holds
    refine ⟨⟨ds', hdocs', hds'.mirrors⟩, ?_, ?_⟩
    · intro hc
      exact hk'.vectors.mpr ⟨c, by simp, hc⟩
    · intro hc
      exact hk'.lexical.mpr ⟨c, by simp, hc⟩

/-- A file is filled without a vector index, and opened again with one: the index has an entry for
the one document with an embedding, and none for the other. -/
theorem History.indexes_mirror_enabled_later :
    ∃ s docs, History [{ database := "f", dims := some 2 }, { database := "f" }] docs s
      ∧ docs = [{ id := "a" }, { id := "b", embedding := some [1, 0] }]
      ∧ s.database.vectors = some [(2, Json.singlesText [1, 0])]
      ∧ s.rebuild = (.ok (), s) := by
  have h₀ := @History.created {} { database := "f" } _ rfl rfl
  have h₁ := @History.written _ _ [{ id := "a" }, { id := "b", embedding := some [1, 0] }] _ _
    .fail _ h₀ rfl
  have h₂ := @History.reopened _ _ _ _ {} { database := "f", dims := some 2 } h₁ rfl rfl rfl
  obtain ⟨-, -, -, -, -, hrebuild, -⟩ := h₂.indexes_mirror
  exact ⟨_, _, h₂, rfl, rfl, hrebuild⟩

end DocumentStore
