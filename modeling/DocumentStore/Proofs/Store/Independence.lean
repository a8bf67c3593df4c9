import DocumentStore.Proofs.Store.Narrowing
import DocumentStore.Proofs.Store.Rekeying

/-! What a store answers, whatever has happened to it. Main statement: two histories that end with
the same documents under the same configuration answer all requests alike, but that texts are
searched with the tokenizer of the first open that enabled the lexical index. -/
namespace DocumentStore

namespace Numbered

def rekey (φ : ℤ → ℤ) (ds : Numbered) : Numbered := ds.map fun e => (φ e.1, e.2)

theorem rowsOf_rekey (φ : ℤ → ℤ) (ds : Numbered) :
    rowsOf (ds.rekey φ) = (rowsOf ds).map (Row.rekey φ) := by
  rw [rowsOf, rowsOf, rekey, List.map_map, List.map_map]
  rfl

theorem contents_rekey (φ : ℤ → ℤ) (ds : Numbered) :
    (ds.rekey φ).contents = rekeyEntries φ ds.contents := by
  rw [contents, contents, rekey, rekeyEntries, List.map_map, List.map_map]
  rfl

theorem embeddingTexts_rekey (φ : ℤ → ℤ) (ds : Numbered) :
    (ds.rekey φ).embeddingTexts = rekeyEntries φ ds.embeddingTexts := by
  rw [embeddingTexts, embeddingTexts, rekey, rekeyEntries, List.filterMap_map,
    List.map_filterMap]
  congr 1
  funext e
  cases hembedding : e.2.embedding <;> simp [hembedding]

def fromZero (docs : List Document) : Numbered :=
  ((List.range docs.length).map Int.ofNat).zip docs

end Numbered

theorem exists_strictMono {keys : List ℤ} {b : ℤ} (hb : ∀ k ∈ keys, b < k)
    (hkeys : keys.Pairwise (· < ·)) :
    ∃ φ : ℤ → ℤ, StrictMono φ ∧ b < φ 0
      ∧ keys = ((List.range keys.length).map Int.ofNat).map φ := by
  induction keys generalizing b with
  | nil => exact ⟨fun i => b + 1 + i, fun i j hij => by simpa using hij, by simp, rfl⟩
  | cons k keys ih =>
    obtain ⟨hk, hkeys⟩ := List.pairwise_cons.mp hkeys
    obtain ⟨ψ, hψ, hfirst, hrest⟩ := ih hk hkeys
    -- The first key stands at zero, the others behind it, and smaller ones before it.
    refine ⟨fun i => if i ≤ 0 then k + i else ψ (i - 1), ?_, by simpa using hb k (by simp), ?_⟩
    · refine strictMono_int_of_lt_succ fun i => ?_
      rcases lt_trichotomy i 0 with hi | rfl | hi
      · rw [if_pos hi.le, if_pos (by omega)]
        omega
      · simpa using hfirst
      · rw [if_neg (by omega), if_neg (by omega)]
        exact hψ (by omega)
    · rw [List.length_cons, List.range_succ_eq_map, List.map_cons, List.map_cons, List.map_map,
        List.map_map]
      rw [List.map_map] at hrest
      refine congrArg₂ List.cons (by simp) (hrest.trans (List.map_congr_left fun n _ => ?_))
      simp

/-- Documents under growing keys are the documents from zero on, but for the keys. -/
theorem Numbered.exists_rekey {ds : Numbered} (h : ds.Pairwise fun e f => e.1 < f.1) :
    ∃ φ : ℤ → ℤ, StrictMono φ ∧ ds = (fromZero ds.documents).rekey φ := by
  have hsorted : (ds.map Prod.fst).Pairwise (· < ·) := List.pairwise_map.mpr h
  obtain ⟨b, hb⟩ : ∃ b, ∀ k ∈ ds.map Prod.fst, b < k := by
    cases hkeys : ds.map Prod.fst with
    | nil => exact ⟨0, by simp⟩
    | cons k keys =>
      rw [hkeys] at hsorted
      refine ⟨k - 1, List.forall_mem_cons.mpr ⟨by omega, fun l hl => ?_⟩⟩
      have := (List.pairwise_cons.mp hsorted).1 l hl
      omega
  obtain ⟨φ, hφ, -, hkeys⟩ := exists_strictMono hb hsorted
  have hlength : (ds.map Prod.fst).length = ds.documents.length := by simp [documents]
  rw [hlength] at hkeys
  exact ⟨φ, hφ, (List.zip_of_prod hkeys rfl).trans List.zip_map_left⟩

namespace Database

/-- The database of numbered documents, with a lexical index if there is a tokenizer for it. -/
def ofNumbered (kind : Option TokenizerKind) (hasVectors : Bool) (ds : Numbered) : Database where
  version := schemaVersion
  rows := rowsOf ds
  lexical := kind.map fun k => ⟨k, ds.contents⟩
  vectors := if hasVectors then some ds.embeddingTexts else none

theorem ofNumbered_rekey (φ : ℤ → ℤ) (kind : Option TokenizerKind) (hasVectors : Bool)
    (ds : Numbered) :
    ofNumbered kind hasVectors (ds.rekey φ) = (ofNumbered kind hasVectors ds).rekey φ := by
  rw [ofNumbered, ofNumbered, rekey, ds.rowsOf_rekey, ds.contents_rekey, ds.embeddingTexts_rekey]
  cases kind <;> cases hasVectors <;> rfl

theorem Holds.eq_ofNumbered {db : Database} {ds : Numbered} (h : db.Holds ds) :
    db = ofNumbered db.indexes.1 db.indexes.2 ds := by
  have hm := h.mirrors
  obtain ⟨version, rows, lexical, vectors⟩ := db
  obtain rfl : version = schemaVersion := h.version
  obtain rfl : rows = rowsOf ds := hm.rows
  have hlexical : lexical = (lexical.map (·.kind)).map fun k => ⟨k, ds.contents⟩ := by
    cases lexical with
    | none => rfl
    | some i => rw [← hm.lexical i rfl]; rfl
  have hvectors : vectors = if vectors.isSome then some ds.embeddingTexts else none := by
    cases vectors with
    | none => rfl
    | some l => rw [hm.vectors l rfl]; rfl
  exact congrArg₂ (Database.mk schemaVersion (rowsOf ds)) hlexical hvectors

end Database

/-- The tokenizer of the first open that enabled the lexical index. The latest open stands first. -/
def firstTokenizer? (cs : List Config) : Option TokenizerKind :=
  (cs.reverse.find? (·.lexical)).map (·.tokenizer)

theorem firstTokenizer?_cons (c : Config) (cs : List Config) :
    firstTokenizer? (c :: cs)
      = (firstTokenizer? cs).or (if c.lexical then some c.tokenizer else none) := by
  rw [firstTokenizer?, firstTokenizer?, List.reverse_cons, List.find?_append]
  cases cs.reverse.find? (·.lexical) with
  | some c' => rfl
  | none => cases hc : c.lexical <;> simp [hc]

theorem Database.kind_ensureIndexes (c : Config) (db : Database) :
    (db.ensureIndexes c).lexical.map (·.kind)
      = (db.lexical.map (·.kind)).or (if c.lexical then some c.tokenizer else none) := by
  rw [ensureIndexes_lexical]
  cases db.lexical <;> cases c.lexical <;> rfl

namespace History

variable {cs cs' : List Config} {docs : List Document} {s s' : Store}

/-- An index keeps the tokenizer with which it was created. -/
theorem kind_eq (h : History cs docs s) :
    s.database.lexical.map (·.kind) = firstTokenizer? cs := by
  induction h with
  | @created disk c s hnew ho =>
    obtain ⟨file, db, hconnect, hmigrate, rfl⟩ := Store.openIn_eq_ok ho
    obtain rfl := Store.connect_new hnew hconnect
    cases hmigrate
    rw [Database.kind_ensureIndexes, firstTokenizer?_cons]
    rfl
  | @reopened cs docs s s' disk c h hfile hname ho ih =>
    obtain ⟨ds, hds, -⟩ := h.keeps.holds
    obtain rfl := Store.eq_of_openIn_close hds hfile hname ho
    rw [Database.kind_ensureIndexes, firstTokenizer?_cons, ih]
  | written h hw ih =>
    obtain ⟨db, hdb, rfl⟩ := Store.write_ok h.keeps.lock hw
    exact (congrArg Prod.fst (Database.indexes_write hdb)).trans ih
  | refused _ hw ih => rwa [Store.commit_eq_error hw]
  | @deleted cs docs s s' gone h hd ih =>
    rw [Store.delete_eq h.keeps.lock] at hd
    cases hd
    exact (congrArg Prod.fst (Database.indexes_eraseRows _ _)).trans ih
  | rebuilt h hr ih =>
    obtain ⟨ds, hds, -⟩ := h.keeps.holds
    have hs' := Store.rebuild_ok h.keeps.lock hr
    rw [hds.rebuild] at hs'
    rwa [hs']
  | @searched cs docs s s' r answer _ hroom hs ih =>
    have hs' : s' = s := by
      rw [← Store.searchVector_snd (s := s) hroom, hs]
    rwa [hs']

end History

def Store.ofNumbered (c : Config) (kind : Option TokenizerKind) (hasVectors : Bool)
    (ds : Numbered) : Store :=
  { config := c, database := .ofNumbered kind hasVectors ds }

/-- But for its keys, a store is determined by its configuration, its documents, the tokenizer of
its lexical index and whether it has a vector index. -/
theorem History.exists_rekey {cs : List Config} {docs : List Document} {s : Store}
    (h : History cs docs s) :
    ∃ φ : ℤ → ℤ, StrictMono φ
      ∧ s = (Store.ofNumbered s.config (firstTokenizer? cs) s.database.vectors.isSome
          (.fromZero docs)).rekey φ := by
  have hk := h.keeps
  obtain ⟨ds, hds, rfl⟩ := hk.holds
  obtain ⟨φ, hφ, hkeys⟩ := Numbered.exists_rekey hds.keys
  refine ⟨φ, hφ, ?_⟩
  have hdatabase : s.database = (Database.ofNumbered (firstTokenizer? cs)
      s.database.vectors.isSome (.fromZero ds.documents)).rekey φ := by
    rw [← Database.ofNumbered_rekey, ← hkeys, ← h.kind_eq]
    exact hds.eq_ofNumbered
  obtain ⟨config, database, isPoisoned⟩ := s
  obtain rfl : isPoisoned = false := hk.lock
  exact congrArg (Store.mk config · false) hdatabase

namespace Store

variable {c c' : Config} (kind kind' : Option TokenizerKind) (hasVectors hasVectors' : Bool)
  (ds : Numbered)

theorem searchText_ofNumbered (hlexical : c'.lexical = c.lexical) (r : LexicalRequest) :
    (ofNumbered c' kind hasVectors' ds).searchText r
      = (ofNumbered c kind hasVectors ds).searchText r := by
  simp only [searchText, ofNumbered, hlexical]
  rfl

theorem searchText_disabled {s : Store} (hdisabled : s.config.lexical = false)
    (r : LexicalRequest) : s.searchText r = .error (.configuration .lexicalDisabled) := by
  rw [searchText, hdisabled]
  rfl

theorem searchVector_disabled {s : Store} (hdisabled : s.config.dims = none) (r : VectorRequest) :
    s.searchVector r = (some (.error (.configuration .vectorsDisabled)), s) := by
  rw [searchVector, hdisabled]

theorem searchVector_ofNumbered (hdims : c'.dims = c.dims)
    (hsimilarity : c'.similarity = c.similarity) (r : VectorRequest) :
    ((ofNumbered c' kind' hasVectors ds).searchVector r).1
      = ((ofNumbered c kind hasVectors ds).searchVector r).1 := by
  rcases Option.eq_none_or_eq_some c.dims with hnone | ⟨dims, hsome⟩
  · rw [searchVector_disabled (hdims.trans hnone), searchVector_disabled hnone]
  · have hsome' := hdims.trans hsome
    by_cases hlength : r.vector.length = dims
    · subst hlength
      cases hf : compileOptional r.filter with
      | error e => rw [searchVector_refused rfl hsome' hf, searchVector_refused rfl hsome hf]
      | ok condition =>
        rw [searchVector_checked rfl hsome' hf, searchVector_checked rfl hsome hf]
        simp only [nearest, ofNumbered, hsimilarity]
        cases hasVectors <;> cases hasRoomFor r.candidates <;> rfl
    · rw [searchVector_mismatch rfl hsome' hlength, searchVector_mismatch rfl hsome hlength]

end Store

/-- Two histories that end with the same documents cannot be told apart by counting, getting or
selecting them, nor by a vector search if the configurations agree on dimensions and similarity. A
text search tells them apart only if one configuration disables the lexical index, or the first
opens that enabled it did so with different tokenizers: later opens keep the index as it is. -/
theorem History.answers_alike {cs cs' : List Config} {docs : List Document} {s s' : Store}
    (h : History cs docs s) (h' : History cs' docs s') :
    s'.count = s.count ∧ (∀ id, s'.get id = s.get id) ∧ (∀ f, s'.filter f = s.filter f)
      ∧ (s'.config.dims = s.config.dims → s'.config.similarity = s.config.similarity →
          ∀ r, (s'.searchVector r).1 = (s.searchVector r).1)
      ∧ (s'.config.lexical = s.config.lexical →
          (s.config.lexical = true → firstTokenizer? cs' = firstTokenizer? cs) →
          ∀ r, s'.searchText r = s.searchText r) := by
  obtain ⟨φ, hφ, hs⟩ := h.exists_rekey
  obtain ⟨φ', hφ', hs'⟩ := h'.exists_rekey
  have hvectors : ∀ {cs : List Config} {s : Store}, History cs docs s → s.config.dims ≠ none →
      s.database.vectors.isSome = true := by
    intro cs s h hdims
    exact h.keeps.vectors.mpr ⟨s.config, h.config_mem, Option.isSome_iff_ne_none.mpr hdims⟩
  refine ⟨?_, ?_, ?_, ?_, ?_⟩
  · rw [hs, hs', Store.count_rekey, Store.count_rekey]
    rfl
  · intro id
    rw [hs, hs', Store.get_rekey, Store.get_rekey]
    rfl
  · intro f
    rw [hs, hs', Store.filter_rekey, Store.filter_rekey]
    rfl
  · intro hdims hsimilarity r
    by_cases hnone : s.config.dims = none
    · rw [Store.searchVector_disabled hnone, Store.searchVector_disabled (hdims.trans hnone)]
    · rw [hvectors h hnone] at hs
      rw [hvectors h' (hdims ▸ hnone)] at hs'
      rw [hs, hs', Store.searchVector_rekey hφ, Store.searchVector_rekey hφ']
      exact Store.searchVector_ofNumbered _ _ _ _ hdims hsimilarity r
  · intro hlexical hkind r
    cases henabled : s.config.lexical with
    | false =>
      rw [Store.searchText_disabled henabled, Store.searchText_disabled (hlexical.trans henabled)]
    | true =>
      rw [hkind henabled] at hs'
      rw [hs, hs', Store.searchText_rekey hφ, Store.searchText_rekey hφ']
      exact Store.searchText_ofNumbered _ _ _ _ hlexical r

def Document.running : Document where
  id := "a"
  content := some "running"
  embedding := some [1]

def LexicalRequest.inner : LexicalRequest where
  query := "unn"
  query_nonblank := by decide
  topK_pos := unbounded_ne_zero

/-- One store has lost a document and was opened again with another tokenizer, the other is new. The
key of their document differs, and none of their answers. -/
theorem History.answers_alike_renumbered :
    ∃ s s', History [{ database := "f", dims := some 1, tokenizer := .porter },
          { database := "f", dims := some 1 }] [.running] s
      ∧ History [{ dims := some 1 }] [.running] s'
      ∧ s.database.rows.map Row.key = [2] ∧ s'.database.rows.map Row.key = [1]
      ∧ s'.count = s.count ∧ (∀ id, s'.get id = s.get id) ∧ (∀ f, s'.filter f = s.filter f)
      ∧ (∀ r, (s'.searchVector r).1 = (s.searchVector r).1)
      ∧ ∀ r, s'.searchText r = s.searchText r := by
  have h₀ := @History.created {} { database := "f", dims := some 1 } _ rfl rfl
  have h₁ := @History.written _ _ [{ id := "b" }, .running] _ _ .fail _ h₀ rfl
  have h₂ := @History.deleted _ _ _ _ ["b"] h₁ rfl
  have h := @History.reopened _ _ _ _ {} { database := "f", dims := some 1, tokenizer := .porter }
    h₂ rfl rfl rfl
  have h₀' := @History.created {} { dims := some 1 } _ rfl rfl
  have h' := @History.written _ _ [.running] _ _ .fail _ h₀' rfl
  obtain ⟨hcount, hget, hfilter, hvector, htext⟩ := h.answers_alike h'
  exact ⟨_, _, h, h', rfl, rfl, hcount, hget, hfilter, hvector rfl rfl,
    htext rfl fun _ => by decide⟩

/-- Two files with the same document are opened under configurations that differ in the name of the
file only. One of them was first opened with another tokenizer, with which its text is still
searched. -/
theorem History.text_search_differs :
    ∃ s s', History [{ database := "f", dims := some 1, tokenizer := .porter },
          { database := "f", dims := some 1 }] [.running] s
      ∧ History [{ database := "g", dims := some 1, tokenizer := .porter }] [.running] s'
      ∧ s'.config = { s.config with database := s'.config.database }
      ∧ (s.searchText .inner).toOption.map (List.map (·.document.id)) = some ["a"]
      ∧ (s'.searchText .inner).toOption.map (List.map (·.document.id)) = some [] := by
  have h₀ := @History.created {} { database := "f", dims := some 1 } _ rfl rfl
  have h₁ := @History.written _ _ [.running] _ _ .fail _ h₀ rfl
  have h := @History.reopened _ _ _ _ {} { database := "f", dims := some 1, tokenizer := .porter }
    h₁ rfl rfl rfl
  have h₀' := @History.created {} { database := "g", dims := some 1, tokenizer := .porter } _
    rfl rfl
  have h' := @History.written _ _ [.running] _ _ .fail _ h₀' rfl
  exact ⟨_, _, h, h', rfl, by decide +kernel, by decide +kernel⟩

end DocumentStore
