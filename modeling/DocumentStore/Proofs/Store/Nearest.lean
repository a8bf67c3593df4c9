import DocumentStore.Proofs.Document.RoundTrip
import DocumentStore.Proofs.Retrieval.Window
import DocumentStore.Proofs.Store.Mirror
import DocumentStore.Proofs.Store.Ranking
import DocumentStore.Proofs.Store.Refusal
import DocumentStore.Proofs.Vector.Window

/-! Finding the documents nearest to a vector. Main statement: at every point of a history a vector
search takes the nearest documents first, then those of them in which the filter is true, then the
best of these. -/
namespace DocumentStore

open OrderedMap

/-- The vector by which a document is found: its embedding as it is read from the stored text. -/
def Document.vector? (d : Document) : Option (List Float32) :=
  d.embedding.bind fun xs => Record.vector? (Json.singlesText xs)

/-- A document under its key with its distance from the query, which must be finite. -/
def Document.neighbour? (similarity : Similarity) (query : List Float32) (key : ℤ)
    (d : Document) : Option Placed :=
  d.vector?.bind fun v =>
    if v.length = query.length ∧ (Vector.distance similarity query v).isFinite = true then
      some { key := key, document := d, score := Vector.distance similarity query v }
    else none

namespace Placed

def nearer (a b : Placed) : Bool :=
  decide (Number.totalKey a.score < Number.totalKey b.score
    ∨ Number.totalKey a.score = Number.totalKey b.score ∧ a.key ≤ b.key)

/-- The first ones of a list, or all of them. -/
def first {α : Type} (topK : Option ℕ) (l : List α) : List α :=
  match topK with
  | some k => l.take k
  | none => l

def candidate (p : Placed) : Vector.Candidate := ⟨p.score, p.key⟩

end Placed

namespace Numbered

/-- The nearest documents, as many as there are to be candidates. -/
def window (similarity : Similarity) (query : List Float32) (limit : ℕ) (ds : Numbered) :
    List Placed :=
  ((ds.filterMap fun e => e.2.neighbour? similarity query e.1).mergeSort Placed.nearer).take limit

/-- What a vector search finds: the filter chooses among the nearest documents, and only then is the
number of hits bounded. -/
def found (similarity : Similarity) (r : VectorRequest) (ds : Numbered) : List Placed :=
  Placed.first r.topK (((ds.window similarity r.vector r.candidates).filter fun p =>
    Filter.admits r.filter p.document).mergeSort Placed.le)

end Numbered

theorem OrderedMap.mem_putAll {policy : DuplicatePolicy} {docs batch : List Document} {d : Document}
    (h : d ∈ putAll policy docs batch) : d ∈ docs ∨ d ∈ batch := by
  induction batch generalizing docs with
  | nil => exact .inl h
  | cons b batch ih =>
    rcases ih h with hput | hrest
    · unfold put at hput
      split at hput
      · rcases List.mem_append.mp hput with hd | hd
        · exact .inl hd
        · exact .inr (by simp [List.mem_singleton.mp hd])
      · split at hput
        · obtain ⟨e, he, hd⟩ := List.mem_map.mp hput
          split at hd
          · exact .inr (by simp [hd])
          · exact .inl (hd ▸ he)
        · exact .inl hput
    · exact .inr (by simp [hrest])

theorem History.config_mem {cs : List Config} {docs : List Document} {s : Store}
    (h : History cs docs s) : s.config ∈ cs := by
  induction h with
  | created _ ho => simp [Store.config_of_openIn ho]
  | reopened _ _ _ ho => simp [Store.config_of_openIn ho]
  | written h hw ih =>
    obtain ⟨db, -, rfl⟩ := Store.write_ok h.keeps.lock hw
    exact ih
  | refused _ hw ih => rwa [Store.commit_eq_error hw]
  | deleted h hd ih =>
    rw [Store.delete_eq h.keeps.lock] at hd
    cases hd
    exact ih
  | rebuilt h hr ih =>
    obtain rfl := Store.rebuild_ok h.keeps.lock hr
    exact ih
  | @searched cs docs s s' r answer _ hroom hs ih =>
    have hs' : s' = s := by
      rw [← Store.searchVector_snd (s := s) hroom, hs]
    rwa [hs']

theorem Store.fault_of_write {s s' : Store} {batch : List Document} {policy : DuplicatePolicy}
    {n : ℕ} (hlock : s.isPoisoned = false) (h : s.write batch policy = (.ok n, s')) :
    ∀ d ∈ batch, embeddingFault? s.config.dims d = none := by
  rw [write_eq hlock] at h
  obtain ⟨db, hchange, -⟩ := commit_eq_ok h
  obtain ⟨_, hvalid, -⟩ := bind_eq_ok hchange
  unfold validateEmbeddings at hvalid
  split at hvalid
  · cases hvalid
  · rename_i hnone
    exact List.findSome?_eq_none_iff.mp hnone

theorem History.finite_embedding {cs : List Config} {docs : List Document} {s : Store}
    (h : History cs docs s) : ∀ d ∈ docs, d.HasFiniteEmbedding := by
  induction h with
  | created => simp
  | reopened _ _ _ _ ih => exact ih
  | @written cs docs batch s s' policy n h hw ih =>
    intro d hd
    rcases mem_putAll hd with hd | hd
    · exact ih d hd
    · have hfault := Store.fault_of_write h.keeps.lock hw d hd
      intro xs hxs x hx
      cases hfinite : x.isFinite with
      | true => rfl
      | false =>
        exact absurd (.nonFinite hxs ⟨x, hx, hfinite⟩) (embeddingFault?_eq_none.mp hfault _)
  | refused _ _ ih => exact ih
  | deleted _ _ ih => exact fun d hd => ih d (List.mem_filter.mp hd).1
  | rebuilt _ _ ih => exact ih
  | searched _ _ _ ih => exact ih

/-- Whether all of a document can be read as it was written. -/
structure Document.IsLegible (d : Document) : Prop where
  proper : d.IsProper
  shallow : d.nesting ≤ Json.depthLimit
  numbers : d.HasLegibleNumbers

/-- What is left of a document when it is stored: a dataframe that is null counts as absent, and so
does a score that is no number. -/
def Document.stored (d : Document) : Document :=
  { d.withoutNullDataframe with score := d.score.filter (!·.isNaN) }

theorem Document.IsLegible.reread_eq {d : Document} (h : d.IsLegible)
    (hfinite : d.HasFiniteEmbedding) : d.reread = .ok d.stored := by
  rw [Database.reread_eq]
  exact Record.toDocument_of_finite h.proper h.shallow h.numbers hfinite _

theorem Document.IsLegible.vector?_eq {d : Document} (h : d.IsLegible)
    (hfinite : d.HasFiniteEmbedding) : d.vector? = d.embedding := by
  rw [Document.vector?]
  cases hembedding : d.embedding with
  | none => rfl
  | some xs =>
    have hall : xs.all Float32.isFinite = true := List.all_eq_true.mpr (hfinite xs hembedding)
    rw [Option.bind_some, Json.vector?_singlesText (h.numbers.embedding xs hembedding), if_pos hall]

/-- The embedding of a document that can be read is the vector by which it is found. -/
theorem Document.embedding_of_reread {d e : Document} (h : d.reread = .ok e) :
    e.embedding = d.vector? := by
  have hembedding : Record.readPresent Record.vector? .embedding (d.embedding.map Json.singlesText)
      = .ok e.embedding := by
    rw [Database.reread_eq] at h
    exact (Record.isReadAs h).embedding
  cases hd : d.embedding with
  | none =>
    rw [hd] at hembedding
    exact (Except.ok.inj hembedding).symm.trans (by rw [vector?, hd]; rfl)
  | some xs =>
    rw [hd, Option.map_some, Record.readPresent_some (Record.present?_singlesText xs)] at hembedding
    rw [vector?, hd, Option.bind_some]
    cases hv : Record.vector? (Json.singlesText xs) with
    | none => rw [hv] at hembedding; cases hembedding
    | some v =>
      rw [hv] at hembedding
      exact (Except.ok.inj hembedding).symm

def Placed.storedHit (p : Placed) : Hit where
  document := { p.document.withoutNullDataframe with score := some p.score }

namespace Placed

theorem nearer_iff : ComparesBy (fun p => p.candidate.place) nearer := by
  intro a b
  show nearer a b = true ↔ a.candidate.place ≤ b.candidate.place
  unfold Vector.Candidate.place
  rw [nearer, decide_eq_true_iff, Prod.Lex.toLex_le_toLex]
  rfl

theorem nearer_eq (a b : Placed) : nearer a b = a.candidate.le b.candidate := by
  rw [Bool.eq_iff_iff, nearer_iff, Vector.Candidate.le_iff]

/-- A bound beyond that of the statements does not matter to a list that is not as long. -/
theorem upTo_eq_first {α : Type} {topK : Option ℕ} {l : List α}
    (h : l.length ≤ Statement.largestLimit) : upTo topK l = first topK l := by
  cases topK with
  | none => rfl
  | some k =>
    rcases le_total k Statement.largestLimit with hk | hk
    · rw [upTo, min_eq_left hk, first]
    · rw [upTo, min_eq_right hk, first, List.take_of_length_le h,
        List.take_of_length_le (h.trans hk)]

end Placed

theorem Store.le_of_hasRoomFor {limit : ℕ} (h : hasRoomFor limit) :
    limit ≤ Statement.largestLimit := by
  simp only [hasRoomFor, decide_eq_true_eq] at h
  simp only [Statement.largestLimit]
  omega

section

variable {ds : Numbered} {similarity : Similarity} {query : List Float32}

theorem Document.neighbour?_eq_some {key : ℤ} {d : Document} {p : Placed}
    (h : d.neighbour? similarity query key = some p) :
    p.key = key ∧ p.document = d ∧ p.excerpts = [] ∧ p.score.isFinite = true := by
  obtain ⟨v, -, hv⟩ := Option.bind_eq_some_iff.mp h
  split at hv
  · rename_i hfound
    cases hv
    exact ⟨rfl, rfl, rfl, hfound.2⟩
  · cases hv

theorem filterMap_candidate? (ds : Numbered) (similarity : Similarity) (query : List Float32) :
    ds.embeddingTexts.filterMap (Vector.candidate? similarity query)
      = (ds.filterMap fun e => e.2.neighbour? similarity query e.1).map Placed.candidate := by
  rw [Numbered.embeddingTexts, List.filterMap_filterMap, List.map_filterMap]
  congr 1
  funext e
  cases hembedding : e.2.embedding with
  | none => simp [Document.neighbour?, Document.vector?, hembedding]
  | some xs =>
    simp only [Option.map_some, Option.bind_some, Vector.candidate?, Document.neighbour?,
      Document.vector?, hembedding]
    cases hv : Record.vector? (Json.singlesText xs) with
    | none => rfl
    | some v =>
      by_cases hlength : v.length = query.length <;>
        by_cases hfinite : (Vector.distance similarity query v).isFinite = true <;>
        simp [hlength, hfinite, Placed.candidate]

theorem Numbered.nearest_eq (ds : Numbered) (similarity : Similarity) (query : List Float32)
    (limit : ℕ) :
    Vector.nearest similarity query limit ds.embeddingTexts
      = (ds.window similarity query limit).map Placed.candidate := by
  rw [Vector.nearest_eq, filterMap_candidate?, Numbered.window, List.map_take,
    List.map_mergeSort fun a _ b _ => Placed.nearer_eq a b]

theorem Numbered.mem_of_mem_window {limit : ℕ} {p : Placed}
    (h : p ∈ ds.window similarity query limit) :
    (p.key, p.document) ∈ ds ∧ p.excerpts = [] := by
  obtain ⟨e, he, hp⟩ := List.mem_filterMap.mp
    (List.mem_mergeSort.mp (List.mem_of_mem_take h))
  obtain ⟨hkey, hdocument, hexcerpts, -⟩ := Document.neighbour?_eq_some hp
  rw [hkey, hdocument]
  exact ⟨he, hexcerpts⟩

theorem Numbered.isFinite_of_mem_window {limit : ℕ} {p : Placed}
    (h : p ∈ ds.window similarity query limit) : p.score.isFinite = true := by
  obtain ⟨e, -, hp⟩ := List.mem_filterMap.mp (List.mem_mergeSort.mp (List.mem_of_mem_take h))
  exact (Document.neighbour?_eq_some hp).2.2.2

/-- The entries of a window, as they are handed over, lead back to the rows of their documents. -/
theorem Database.Holds.windowRows_eq {db : Database} (h : db.Holds ds) (limit : ℕ) :
    db.windowRows (((ds.window similarity query limit).map Placed.candidate).map fun c =>
        (c.key, c.distance))
      = (ds.window similarity query limit).map Placed.ranked := by
  rw [windowRows, List.map_map, List.filterMap_map, ← List.filterMap_eq_map]
  apply List.filterMap_congr
  intro p hp
  obtain ⟨hmem, hexcerpts⟩ := Numbered.mem_of_mem_window hp
  have hrow := h.findKey?_eq hmem
  simp only [Function.comp_apply, Placed.candidate, hrow, Option.map_some, Placed.ranked,
    hexcerpts]
  rfl

end

/-- How many parameters the statement of a request has beside those of its filter. -/
def VectorRequest.otherParameters (r : VectorRequest) : ℕ :=
  (Statement.ranked none (Statement.vectorCandidates []) r.topK).parameters.length

/-- The text of a window is read as it was written, so that the candidates themselves are ranked. -/
theorem Database.searchWindow_of_finite {window : List Vector.Candidate}
    (hfinite : ∀ c ∈ window, c.distance.isFinite = true) (db : Database)
    (condition : Option Condition) (r : VectorRequest) :
    db.searchWindow condition r.topK window
      = if window.isEmpty then .ok []
        else
          match db.begins .window r.otherParameters condition with
          | none => .error .engine
          | some false => .ok []
          | some true =>
            rank .window condition r.topK
              (db.windowRows (window.map fun c => (c.key, c.distance))) := by
  have hentries : ∀ c ∈ window.map fun c => (c.key, c.distance), c.2.isFinite = true := by
    intro c hc
    obtain ⟨c', hc', rfl⟩ := List.mem_map.mp hc
    exact hfinite c' hc'
  rw [searchWindow]
  dsimp only
  rw [Statement.readWindow_windowText hentries]
  rfl

theorem Database.Holds.searchWindow_eq {db : Database} {ds : Numbered} (h : db.Holds ds)
    (similarity : Similarity) (r : VectorRequest) (condition : Option Condition) :
    db.searchWindow condition r.topK
        (Vector.nearest similarity r.vector r.candidates ds.embeddingTexts)
      = if (ds.window similarity r.vector r.candidates).isEmpty then .ok []
        else
          match db.begins .window r.otherParameters condition with
          | none => .error .engine
          | some false => .ok []
          | some true =>
            rank .window condition r.topK
              ((ds.window similarity r.vector r.candidates).map Placed.ranked) := by
  have hfinite : ∀ c ∈ (ds.window similarity r.vector r.candidates).map Placed.candidate,
      c.distance.isFinite = true := by
    intro c hc
    obtain ⟨p, hp, rfl⟩ := List.mem_map.mp hc
    exact Numbered.isFinite_of_mem_window hp
  rw [Numbered.nearest_eq, searchWindow_of_finite hfinite, List.isEmpty_map, h.windowRows_eq]

/-- Where there is room for the candidates, the limit of the statements does not matter. -/
theorem Placed.best_window {ds : Numbered} {similarity : Similarity} {r : VectorRequest}
    (hroom : Store.hasRoomFor r.candidates) :
    best r.topK ((ds.window similarity r.vector r.candidates).filter fun p =>
      Filter.admits r.filter p.document) = ds.found similarity r := by
  have hlength : (ds.window similarity r.vector r.candidates).length ≤ Statement.largestLimit :=
    (List.length_take_le _ _).trans (Store.le_of_hasRoomFor hroom)
  refine upTo_eq_first ?_
  rw [List.length_mergeSort]
  exact (List.length_filter_le _ _).trans hlength

theorem Placed.best_nil (topK : Option ℕ) : best topK [] = [] := by
  cases topK <;> simp [best, upTo]

theorem Database.Holds.searchWindow {db : Database} {ds : Numbered} (h : db.Holds ds)
    (similarity : Similarity) {r : VectorRequest} {condition : Option Condition}
    (hf : compileOptional r.filter = .ok condition) (hroom : Store.hasRoomFor r.candidates) :
    db.searchWindow condition r.topK (Vector.nearest similarity r.vector r.candidates
        ds.embeddingTexts) = (ds.found similarity r).mapM Placed.hit
      ∨ db.searchWindow condition r.topK (Vector.nearest similarity r.vector r.candidates
          ds.embeddingTexts) = .error .engine
        ∧ ∃ f ∈ r.filter, f.Strains .window r.otherParameters ds.documents := by
  have hmem : ∀ p ∈ ds.window similarity r.vector r.candidates, (p.key, p.document) ∈ ds :=
    fun p hp => (Numbered.mem_of_mem_window hp).1
  rw [h.searchWindow_eq, ← Placed.best_window hroom]
  split
  · rename_i hempty
    rw [List.isEmpty_iff.mp hempty, List.filter_nil, Placed.best_nil]
    exact .inl rfl
  · rcases h.begins_cases hf .window r.otherParameters with
      hbegins | ⟨hbegins, hnone⟩ | ⟨hbegins, hstrains⟩
    · rw [hbegins]
      exact rank_ranked (fun p hp => settles_meets hf .window _ (hmem p hp)) _
    · have hempty : ((ds.window similarity r.vector r.candidates).filter fun p =>
          Filter.admits r.filter p.document) = [] :=
        List.filter_eq_nil_iff.mpr fun p hp => by
          rw [hnone p.document (List.mem_map_of_mem (hmem p hp))]
          exact Bool.false_ne_true
      rw [hbegins, hempty, Placed.best_nil]
      exact .inl rfl
    · rw [hbegins]
      exact .inr ⟨rfl, hstrains⟩

theorem Placed.hit_of_legible {p : Placed} (hp : p.document.IsLegible)
    (hfinite : p.document.HasFiniteEmbedding) (hexcerpts : p.excerpts = []) :
    p.hit = .ok p.storedHit := by
  rw [hit, hp.reread_eq hfinite, hexcerpts]
  rfl

section

variable {ds : Numbered} {similarity : Similarity} {r : VectorRequest} {p : Placed}

theorem Numbered.mem_filter_of_mem_found (h : p ∈ ds.found similarity r) :
    p ∈ (ds.window similarity r.vector r.candidates).filter fun p =>
      Filter.admits r.filter p.document := by
  unfold found Placed.first at h
  split at h
  · exact List.mem_mergeSort.mp (List.mem_of_mem_take h)
  · exact List.mem_mergeSort.mp h

theorem Numbered.mem_of_mem_found (h : p ∈ ds.found similarity r) :
    (p.key, p.document) ∈ ds ∧ p.excerpts = [] :=
  mem_of_mem_window (List.mem_filter.mp (mem_filter_of_mem_found h)).1

theorem Numbered.admits_of_mem_found (h : p ∈ ds.found similarity r) :
    Filter.admits r.filter p.document :=
  (List.mem_filter.mp (mem_filter_of_mem_found h)).2

end

namespace Store

variable {s : Store} {r : VectorRequest} {condition : Option Condition}

theorem searchVector_mismatch {dims : ℕ} (hlock : s.isPoisoned = false)
    (hdims : s.config.dims = some dims) (hlength : r.vector.length ≠ dims) :
    s.searchVector r
      = (some (.error (.validation (.dimensionMismatch dims r.vector.length))), s) := by
  simp only [searchVector, hdims, locked_of_not_poisoned hlock]
  simp [hlength, bind, Except.bind, throw, throwThe, MonadExceptOf.throw]

theorem searchVector_checked (hlock : s.isPoisoned = false)
    (hdims : s.config.dims = some r.vector.length)
    (hf : compileOptional r.filter = .ok condition) :
    s.searchVector r =
      match s.nearest s.config.similarity r.vector r.candidates with
      | (none, s) => (none, s)
      | (some (.error e), s) => (some (.error e), s)
      | (some (.ok window), s') =>
        (some (s.database.searchWindow condition r.topK window), s') := by
  simp only [searchVector, hdims, locked_of_not_poisoned hlock, hf, bind, Except.bind, ne_eq,
    not_true_eq_false, if_false]
  rfl

theorem searchVector_refused {e : StoreError} (hlock : s.isPoisoned = false)
    (hdims : s.config.dims = some r.vector.length) (hf : compileOptional r.filter = .error e) :
    s.searchVector r = (some (.error e), s) := by
  simp [searchVector, hdims, locked_of_not_poisoned hlock, hf, bind, Except.bind]

theorem searchVector_eq {entries : List (ℤ × String)} (hlock : s.isPoisoned = false)
    (hdims : s.config.dims = some r.vector.length) (hentries : s.database.vectors = some entries)
    (hf : compileOptional r.filter = .ok condition) (hroom : hasRoomFor r.candidates) :
    s.searchVector r = (some (s.database.searchWindow condition r.topK
      (Vector.nearest s.config.similarity r.vector r.candidates entries)), s) := by
  have hnearest : s.nearest s.config.similarity r.vector r.candidates
      = (some (.ok (Vector.nearest s.config.similarity r.vector r.candidates entries)), s) := by
    simp only [nearest, locked_of_not_poisoned hlock, Database.nearest, hentries, hroom, if_true]
  rw [searchVector_checked hlock hdims hf, hnearest]

end Store

/-- At every point of a history a vector search takes the documents nearest to its vector, as many
as it has candidates, and of these the best in which its filter is true, or else the engine fails,
and there is a reason. The vector of a document is its embedding, as every reading of the document
gives it. A vector of another length is refused before the filter is looked at. -/
theorem History.searchVector_nearest {cs : List Config} {docs : List Document} {s : Store}
    (h : History cs docs s) (r : VectorRequest) :
    (s.config.dims = none →
        s.searchVector r = (some (.error (.configuration .vectorsDisabled)), s))
      ∧ (∀ dims, s.config.dims = some dims → r.vector.length ≠ dims →
          s.searchVector r
            = (some (.error (.validation (.dimensionMismatch dims r.vector.length))), s))
      ∧ (∀ d ∈ docs, (∀ e, d.reread = .ok e → e.embedding = d.vector?)
          ∧ (d.IsLegible → d.vector? = d.embedding))
      ∧ ∃ ds : Numbered, ds.documents = docs ∧ s.database.Mirrors ds
        ∧ (s.config.dims = some r.vector.length → Store.hasRoomFor r.candidates →
          ∀ condition, compileOptional r.filter = .ok condition →
            (s.searchVector r = (some ((ds.found s.config.similarity r).mapM Placed.hit), s)
              ∨ s.searchVector r = (some (.error .engine), s)
                ∧ ∃ f ∈ r.filter, f.Strains .window r.otherParameters docs)
            ∧ ((∀ d ∈ docs, d.IsLegible) →
              (∀ f ∈ r.filter, ¬f.Strains .window r.otherParameters docs) →
              s.searchVector r
                = (some (.ok ((ds.found s.config.similarity r).map Placed.storedHit)), s))) := by
  have hk := h.keeps
  obtain ⟨ds, hds, rfl⟩ := hk.holds
  refine ⟨?_, ?_, ?_, ds, rfl, hds.mirrors, ?_⟩
  · intro hdims
    rw [Store.searchVector, hdims]
  · exact fun dims => Store.searchVector_mismatch hk.lock
  · intro d hd
    exact ⟨fun e he => Document.embedding_of_reread he,
      fun hlegible => hlegible.vector?_eq (h.finite_embedding d hd)⟩
  · intro hdims hroom condition hf
    have hvectors : s.database.vectors.isSome :=
      hk.vectors.mpr ⟨s.config, h.config_mem, by simp [Config.hasVectors, hdims]⟩
    obtain ⟨entries, hentries⟩ := Option.isSome_iff_exists.mp hvectors
    obtain rfl := hds.mirrors.vectors entries hentries
    have hanswer := hds.searchWindow s.config.similarity hf hroom
    rw [Store.searchVector_eq hk.lock hdims hentries hf hroom]
    constructor
    · rcases hanswer with hanswer | ⟨hanswer, hstrains⟩
      · exact .inl (by rw [hanswer])
      · exact .inr ⟨by rw [hanswer], hstrains⟩
    · intro hlegible hcalm
      have hhits : (ds.found s.config.similarity r).mapM Placed.hit
          = .ok ((ds.found s.config.similarity r).map Placed.storedHit) := by
        refine mapM_eq_ok.mpr (List.forall₂_map_right_iff.mpr (List.forall₂_same.mpr ?_))
        intro p hp
        obtain ⟨hmem, hexcerpts⟩ := Numbered.mem_of_mem_found hp
        have hdoc : p.document ∈ ds.documents := List.mem_map_of_mem hmem
        exact Placed.hit_of_legible (hlegible _ hdoc) (h.finite_embedding _ hdoc) hexcerpts
      rcases hanswer with hanswer | ⟨-, f, hf, hstrains⟩
      · rw [hanswer, hhits]
      · exact absurd hstrains (hcalm f hf)

def Document.fox : Document where
  id := "b"
  content := some "fox"
  metadata := [("n", .integer 1)]
  embedding := some [2]

/-- Three documents, the nearest one to a positive number first. That one has no number in its
metadata, and the others have the same. -/
def Numbered.three : Numbered :=
  [(1, { id := "a", embedding := some [3] }),
    (2, .fox),
    (3, { id := "c", metadata := [("n", .integer 1)], embedding := some [1] })]

theorem Numbered.legible_three : ∀ d ∈ Numbered.three.documents, d.IsLegible := by
  intro d hd
  have hflat : d.nesting ≤ Json.depthLimit ∧ (Json.object d.metadata).reals = []
      ∧ d.dataframe = none ∧ ∀ xs ∈ d.embedding, ∀ x ∈ xs, Json.IsLegibleSingle x := by
    revert d
    decide +kernel
  obtain ⟨hnesting, hreals, hframe, hembedding⟩ := hflat
  refine ⟨⟨?_, by simp [hframe]⟩, hnesting, ?_⟩
  · fin_cases hd <;>
      exact ⟨by simp [Document.fox], by simp [Document.fox, Json.IsProper, Json.AreProperFields]⟩
  · exact ⟨by simp [hreals], by simp [hframe], fun xs hxs x hx _ => hembedding xs hxs x hx⟩

theorem unbounded_ne_zero : (none : Option ℕ) ≠ some 0 := by simp

/-- Asks for two candidates, and for those of them that have the number. -/
def VectorRequest.filtered : VectorRequest where
  vector := [1]
  filter := some (.comparison ⟨"meta.n", .equal, .integer 1⟩)
  candidates := 2
  vector_nonempty := by simp
  vector_finite := by decide +kernel
  topK_pos := unbounded_ne_zero

/-- The store that holds the three documents, with both indexes. -/
def Store.three : Store where
  config := { dims := some 1 }
  database := {
    version := schemaVersion
    rows := rowsOf .three
    lexical := some ⟨.trigram, Numbered.three.contents⟩
    vectors := some Numbered.three.embeddingTexts }

theorem History.three : History [{ dims := some 1 }] Numbered.three.documents .three := by
  have h := @History.created {} { dims := some 1 } _ rfl rfl
  exact @History.written _ _ Numbered.three.documents _ _ .fail _ h rfl

/-- Of the two documents that have the number, one is no candidate and is not found. -/
theorem History.searchVector_nearest_filtered :
    History [{ dims := some 1 }] Numbered.three.documents .three
      ∧ Store.three.searchVector .filtered
          = (some (.ok [{ document := { Document.fox with score := some (-2) } }]), .three) := by
  obtain ⟨-, -, -, ds, hdocs, hmirrors, hfound⟩ := History.three.searchVector_nearest .filtered
  have hkeys : ds.map Prod.fst = [1, 2, 3] := by
    have hrows := congrArg (List.map Row.key) hmirrors.rows
    rw [rowsOf, List.map_map] at hrows
    exact hrows.symm
  obtain rfl : ds = .three := List.zip_of_prod hkeys hdocs
  have hhits : (Numbered.three.found .dotProduct .filtered).map Placed.storedHit
      = [{ document := { Document.fox with score := some (-2) } }] := by
    simp only [Numbered.found, Numbered.window]
    rw [@List.mergeSort_of_pairwise _ Placed.nearer _ (by decide +kernel),
      @List.mergeSort_of_pairwise _ Placed.le _ (by decide +kernel)]
    decide +kernel
  have hcalm : ∀ f ∈ VectorRequest.filtered.filter,
      ¬f.Strains .window VectorRequest.filtered.otherParameters Numbered.three.documents := by
    rintro f ⟨⟩
    exact Filter.not_strains_comparison (by decide) (by decide) (by decide)
  obtain ⟨-, hanswer⟩ := hfound rfl (by decide) _ rfl
  refine ⟨History.three, ?_⟩
  rw [← hhits]
  exact hanswer Numbered.legible_three hcalm

/-- Asks for a metadata text that is no JSON, and for the number as a member of a list. -/
def Filter.unclearMember : Filter :=
  .logical .and (.comparison ⟨"meta", .equal, .string "x"⟩)
    [.comparison ⟨"meta.n", .member, .array [.integer 1]⟩]

def VectorRequest.unclear : VectorRequest :=
  { VectorRequest.filtered with filter := some .unclearMember }

/-- No document has the metadata text, so that nothing should be found, but there is no answer. -/
theorem History.unclear_search_fails :
    ∃ condition, History [{ dims := some 1 }] Numbered.three.documents .three
      ∧ Store.three.config.dims = some VectorRequest.unclear.vector.length
      ∧ Store.hasRoomFor VectorRequest.unclear.candidates
      ∧ compileOptional VectorRequest.unclear.filter = .ok condition
      ∧ (∀ d ∈ Numbered.three.documents, Filter.admits VectorRequest.unclear.filter d = false)
      ∧ Store.three.searchVector .unclear = (some (.error .engine), .three) := by
  have hroom : Store.hasRoomFor VectorRequest.unclear.candidates := by decide
  have hfails : (Store.three.searchVector .unclear).1 = some (.error .engine) := by decide +kernel
  exact ⟨_, History.three, rfl, hroom, rfl, by decide +kernel,
    Prod.ext hfails (Store.searchVector_snd hroom)⟩

end DocumentStore
