import DocumentStore.Proofs.Document.Stability
import DocumentStore.Proofs.Retrieval.Binding
import DocumentStore.Proofs.Store.Finding
import DocumentStore.Proofs.Store.Retrying
import DocumentStore.Proofs.Store.Widening

/-! What hits carry. Main statement: each hit of a search carries a document of the store as it is
got by its id, under its ranking score, and beside it just the excerpts that were asked for,
whatever the names in its metadata; no document is in two hits. -/
namespace DocumentStore

/-- Whether the excerpts of a hit are texts under just these names. -/
structure Hit.HasExcerpts (names : List String) (hit : Hit) : Prop where
  perm : (hit.excerpts.map Prod.fst).Perm names
  texts : ∀ e ∈ hit.excerpts, ∃ text, e.2 = .string text

/-- What it is for a hit to carry a document of a store under a ranking score. The metadata are
those that were written, under the same keys and each number as its text is read. -/
structure Hit.Carries (s : Store) (d : Document) (x : Float) (hit : Hit) : Prop where
  id_eq : hit.document.id = d.id
  score_eq : hit.score = some x
  got : s.get hit.document.id
    = .ok (some { hit.document with score := d.score.filter (!·.isNaN) })
  readBack : d.IsProper → hit.document = { d.readBack with score := some x }
  keys_eq : d.IsProper → hit.document.metadata.map Prod.fst = d.metadata.map Prod.fst
  mem_metadata : d.IsProper → ∀ f ∈ d.metadata, (∀ x ∈ f.2.reals, Json.IsLegible x) →
    f ∈ hit.document.metadata

def Hit.Precedes (a b : Hit) : Prop :=
  ∀ x ∈ a.score, ∀ y ∈ b.score, ((Number.doubleDatum x).compare (Number.doubleDatum y)).isLE

/-- What the hits of a search are like that ranks the documents by these scores and asks for
excerpts under these names. -/
structure Hit.AreRanked (s : Store) (ds : Numbered) (score : ℤ × Document → Float → Prop)
    (names : List String) (hits : List Hit) : Prop where
  ids : (hits.map (·.document.id)).Nodup
  order : hits.Pairwise Hit.Precedes
  carried : ∀ hit ∈ hits,
    hit.HasExcerpts names ∧ ∃ e ∈ ds, ∃ x, score e x ∧ hit.Carries s e.2 x

theorem Hit.AreRanked.nil {s : Store} {ds : Numbered} {score : ℤ × Document → Float → Prop}
    {names : List String} : AreRanked s ds score names [] :=
  ⟨.nil, .nil, nofun⟩

/-- Whether a query is read so, or its sanitised form where the query itself is refused. -/
def Lexical.ReadsAs (kind : TokenizerKind) (query : String) (q : Query) : Prop :=
  readQuery kind query = .ok (some q)
    ∨ (∃ fault, readQuery kind query = .error fault)
      ∧ readQuery kind (sanitized query) = .ok (some q)

/-- Whether the lexical index finds a key under a score. -/
def Database.Scores (db : Database) (r : LexicalRequest) (key : ℤ) (x : Float) : Prop :=
  ∃ i q, db.lexical = some i ∧ Lexical.ReadsAs i.kind r.query q
    ∧ ∃ f ∈ i.search r q, f.key = key ∧ f.score = x

namespace Lexical.Index

variable {i : Index} {r : LexicalRequest} {q : Query}

theorem excerpts_of_mem_findFrom {c : Corpus} {texts earlier : List (List Bytes)}
    {entries : List (ℤ × Option String)} {f : Found}
    (hf : f ∈ i.findFrom r q c texts earlier entries) :
    ∃ content positions, f.excerpts = i.excerpts r q content positions := by
  induction entries generalizing earlier with
  | nil => cases hf
  | cons e es ih =>
    rw [findFrom] at hf
    split at hf
    · exact ih hf
    · rcases List.mem_cons.mp hf with rfl | hf
      · exact ⟨_, _, rfl⟩
      · exact ih hf

theorem fieldsOf_excerpts (content : Option String) (positions : List (List ℕ)) :
    let fields := Json.fieldsOf ((i.excerpts r q content positions).map fun e => (e.1, .string e.2))
    (fields.map Prod.fst).Perm r.excerptNames ∧ ∀ e ∈ fields, ∃ text, e.2 = .string text := by
  have hlt : highlightKey < snippetKey := by decide
  rw [excerpts, LexicalRequest.excerptNames]
  cases r.snippet <;> cases r.highlight <;>
    simp [Json.fieldsOf, Json.insertField, hlt, hlt.ne, List.Perm.swap]

end Lexical.Index

theorem Document.score_of_reread {d e : Document} (h : d.reread = .ok e) :
    e.score = d.score.filter (!·.isNaN) := by
  rw [Database.reread_eq] at h
  exact (Record.isReadAs h).score_eq

namespace Placed

variable {ps : List Placed} {p : Placed} {hit : Hit}

theorem carries {cs : List Config} {docs : List Document} {s : Store} (h : History cs docs s)
    (hp : p.document ∈ docs) (hhit : p.hit = .ok hit) : hit.Carries s p.document p.score := by
  obtain ⟨e, he, rfl⟩ := map_eq_ok hhit
  have hscore := Document.score_of_reread he
  have hid := Document.id_of_reread he
  have hmetadata (hproper : p.document.IsProper) :
      e.metadata = p.document.metadata.map fun f => (f.1, f.2.reread) := by
    rw [Document.eq_readBack_of_reread hproper he]
    exact Json.rereadFields_eq_map _
  refine ⟨hid, rfl, ?_, fun hproper => ?_, fun hproper => ?_, fun hproper f hf hnumbers => ?_⟩
  · have hgot : s.get e.id = .ok (some e) := by
      rw [hid, h.get_of_mem hp, he]
      rfl
    change s.get e.id = .ok (some { e with score := p.document.score.filter (!·.isNaN) })
    rw [← hscore]
    exact hgot
  · rw [Document.eq_readBack_of_reread hproper he]
  · rw [hmetadata hproper, List.map_map]
    rfl
  · rw [hmetadata hproper]
    exact List.mem_map.mpr ⟨f, hf, by rw [(Json.reread_eq_self_iff f.2).mpr hnumbers]⟩

theorem precedes_of_hits {a b : Placed} {x y : Hit} (hx : a.hit = .ok x) (hy : b.hit = .ok y)
    (h : a.place ≤ b.place) : x.Precedes y := by
  obtain ⟨d, -, rfl⟩ := map_eq_ok hx
  obtain ⟨e, -, rfl⟩ := map_eq_ok hy
  rintro _ ⟨⟩ _ ⟨⟩
  have hle : a.le b = true := (le_iff a b).mpr h
  unfold le Database.Ranked.le at hle
  change ((Number.doubleDatum a.ranked.score).compare (Number.doubleDatum b.ranked.score)).isLE
  cases hcompare :
    (Number.doubleDatum a.ranked.score).compare (Number.doubleDatum b.ranked.score) with
  | gt => simp [hcompare] at hle
  | _ => rfl

theorem pairwise_best (topK : Option ℕ) (ps : List Placed) :
    (best topK ps).Pairwise fun a b => a.place ≤ b.place := by
  have hsorted := le_iff.pairwise_mergeSort ps
  cases topK with
  | none => exact hsorted
  | some k => exact hsorted.sublist (List.take_sublist _ _)

theorem best_subperm (topK : Option ℕ) (ps : List Placed) : (best topK ps).Subperm ps := by
  have hsorted := List.mergeSort_perm ps le
  cases topK with
  | none => exact hsorted.subperm
  | some k => exact (List.take_sublist _ _).subperm.trans hsorted.subperm

end Placed

namespace Numbered.Places

variable {db : Database} {ds : Numbered} {ps qs : List Placed}

theorem of_subperm (h : ds.Places ps) (hqs : qs.Subperm ps) : ds.Places qs where
  mem p hp := h.mem p (hqs.subset hp)
  keys := by
    obtain ⟨rs, hperm, hsub⟩ := hqs
    exact (hperm.map Placed.key).nodup_iff.mp (h.keys.sublist (hsub.map Placed.key))

theorem ids_nodup (h : ds.Places ps) (hds : db.Holds ds) :
    (ps.map (·.document.id)).Nodup := by
  have hkeys : ps.Pairwise fun p q => p.key ≠ q.key := List.pairwise_map.mp h.keys
  refine List.pairwise_map.mpr (hkeys.imp_of_mem fun hp hq hne hid => hne ?_)
  exact congrArg Prod.fst (hds.eq_of_id (h.mem _ hp) (h.mem _ hq) hid)

theorem areRanked {cs : List Config} {s : Store} {score : ℤ × Document → Float → Prop}
    {names : List String} {topK : Option ℕ} {hits : List Hit} (h : ds.Places ps)
    (hhistory : History cs ds.documents s) (hds : s.database.Holds ds)
    (hscore : ∀ p ∈ ps, score (p.key, p.document) p.score)
    (hnames : ∀ p ∈ ps, ∀ hit, p.hit = .ok hit → hit.HasExcerpts names)
    (hhits : (Placed.best topK ps).mapM Placed.hit = .ok hits) :
    Hit.AreRanked s ds score names hits := by
  have hbest := h.of_subperm (Placed.best_subperm topK ps)
  refine ⟨?_, ?_, fun hit hhit => ?_⟩
  · rw [Placed.ids_of_hits hhits]
    exact hbest.ids_nodup hds
  · refine pairwise_of_mapM (fun a b x y => ?_) hhits (Placed.pairwise_best topK ps)
    exact Placed.precedes_of_hits
  · obtain ⟨p, hp, hhit⟩ := exists_of_mem_mapM hhits hhit
    have hp := Placed.mem_of_mem_best hp
    have hmem : p.document ∈ ds.documents := List.mem_map_of_mem (h.mem p hp)
    exact ⟨hnames p hp hit hhit, _, h.mem p hp, p.score, hscore p hp,
      Placed.carries hhistory hmem hhit⟩

end Numbered.Places

theorem Database.exists_found {db : Database} {found : List Lexical.Found} {ps : List Placed}
    (hrows : db.rankedRows found = ps.map Placed.ranked) {p : Placed} (hp : p ∈ ps) :
    ∃ f ∈ found, f.key = p.key ∧ f.score = p.score ∧ f.excerpts = p.excerpts := by
  have hmem : p.ranked ∈ db.rankedRows found := hrows ▸ List.mem_map_of_mem hp
  obtain ⟨f, hf, hrow⟩ := List.mem_filterMap.mp hmem
  obtain ⟨row, hrow, hsame⟩ := Option.map_eq_some_iff.mp hrow
  have hkey : row.key = f.key := by simpa using List.find?_some hrow
  refine ⟨f, hf, ?_, congrArg Ranked.score hsame, congrArg Ranked.excerpts hsame⟩
  exact hkey.symm.trans (congrArg (fun a => a.row.key) hsame)

theorem Placed.hasExcerpts {i : Lexical.Index} {r : LexicalRequest} {q : Lexical.Query}
    {f : Lexical.Found} (hf : f ∈ i.search r q) {p : Placed} (hexcerpts : f.excerpts = p.excerpts)
    {hit : Hit} (hhit : p.hit = .ok hit) : hit.HasExcerpts r.excerptNames := by
  obtain ⟨content, positions, heq⟩ := Lexical.Index.excerpts_of_mem_findFrom hf
  obtain ⟨d, -, rfl⟩ := map_eq_ok hhit
  rw [← hexcerpts, heq]
  obtain ⟨hperm, htexts⟩ := Lexical.Index.fieldsOf_excerpts (q := q) content positions
  exact ⟨hperm, htexts⟩

theorem Store.exists_condition {s : Store} {r : VectorRequest} {hits : List Hit}
    (hlock : s.isPoisoned = false) (h : (s.searchVector r).1 = some (.ok hits)) :
    ∃ condition, compileOptional r.filter = .ok condition := by
  cases hf : compileOptional r.filter with
  | ok condition => exact ⟨condition, rfl⟩
  | error e =>
    cases hdims : s.config.dims with
    | none =>
      rw [searchVector, hdims] at h
      cases h
    | some dims =>
      by_cases hlength : r.vector.length = dims
      · subst hlength
        rw [searchVector_refused hlock hdims hf] at h
        cases h
      · rw [searchVector_mismatch hlock hdims hlength] at h
        cases h

namespace History

variable {cs : List Config} {ds : Numbered} {s : Store} (h : History cs ds.documents s)
  (hds : s.database.Holds ds)

include h hds

theorem areRanked_of_searchOnce {r : LexicalRequest} {condition : Option Condition}
    (hf : compileOptional r.filter = .ok condition) {text : String}
    (htext : ∀ i q, s.database.lexical = some i → Lexical.readQuery i.kind text = .ok (some q) →
      Lexical.ReadsAs i.kind r.query q) {hits : List Hit}
    (hsearch : s.database.searchOnce condition r text = .ok hits) :
    Hit.AreRanked s ds (fun e => s.database.Scores r e.1) r.excerptNames hits := by
  cases hbegins : s.database.begins .found r.otherParameters condition with
  | none =>
    rw [Database.searchOnce_of_begins_none hbegins] at hsearch
    cases hsearch
  | some b =>
    cases b with
    | false =>
      cases hlexical : s.database.lexical with
      | none =>
        rw [Database.searchOnce, hlexical] at hsearch
        cases hsearch
      | some i =>
        rw [Database.searchOnce_of_begins_false hlexical hbegins] at hsearch
        cases hsearch
        exact .nil
    | true =>
      obtain ⟨i, hi, ⟨-, rfl⟩ | ⟨q, hq, hrank⟩⟩ := (Database.searchOnce_eq_ok hbegins).mp hsearch
      · exact .nil
      · obtain ⟨ps, hrows, hps⟩ := hds.rankedRows_search hi r q
        rw [hrows] at hrank
        rcases Database.rank_ranked
          (fun p hp => settles_meets hf .found r.otherParameters (hps.mem p hp)) r.topK with
          hall | ⟨hbroken, -⟩
        · have hkept := hps.of_subperm
            (List.filter_sublist (p := fun p => Filter.admits r.filter p.document)).subperm
          refine hkept.areRanked h hds (fun p hp => ?_) (fun p hp hit hhit => ?_)
            (hall.symm.trans hrank)
          all_goals
            obtain ⟨f, hf, hkey, hscore, hexcerpts⟩ :=
              Database.exists_found hrows (List.mem_of_mem_filter hp)
          · exact ⟨i, q, hi, htext i q hi hq, f, hf, hkey, hscore⟩
          · exact Placed.hasExcerpts hf hexcerpts hhit
        · cases hbroken.symm.trans hrank

theorem areRanked_of_searchText {r : LexicalRequest} {hits : List Hit}
    (hsearch : s.searchText r = .ok hits) :
    Hit.AreRanked s ds (fun e => s.database.Scores r e.1) r.excerptNames hits := by
  unfold Store.searchText at hsearch
  split at hsearch
  · cases hsearch
  · obtain ⟨db, hlocked, hsearch⟩ := bind_eq_ok hsearch
    obtain ⟨condition, hf, hsearch⟩ := bind_eq_ok hsearch
    cases (Store.locked_of_not_poisoned h.keeps.lock).symm.trans hlocked
    rcases Database.searchText_eq_ok.mp hsearch with hfirst | ⟨fault, hrefused, -, hsecond⟩
    · exact h.areRanked_of_searchOnce hds hf (fun i q _ hq => .inl hq) hfirst
    · refine h.areRanked_of_searchOnce hds hf (fun i q hi hq => .inr ⟨⟨fault, ?_⟩, hq⟩) hsecond
      have hbegins := Database.begins_of_searchOnce hrefused
      obtain ⟨j, hj, hread⟩ := (Database.searchOnce_eq_query hbegins).mp hrefused
      cases hi.symm.trans hj
      exact hread

theorem areRanked_of_searchVector {r : VectorRequest} {hits : List Hit}
    (hsearch : (s.searchVector r).1 = some (.ok hits)) :
    Hit.AreRanked s ds (fun e x => e.2.distance? s.config.similarity r.vector = some x) []
      hits := by
  have hlock := h.keeps.lock
  obtain ⟨condition, hf⟩ := Store.exists_condition hlock hsearch
  obtain ⟨hdims, hroom, entries, hentries⟩ := Store.searchVector_ok hlock hf hsearch
  obtain rfl := hds.mirrors.vectors entries hentries
  rw [Store.searchVector_eq hlock hdims hentries hf hroom] at hsearch
  rcases hds.searchWindow s.config.similarity hf hroom with hfound | ⟨hbroken, -⟩
  · rw [← Placed.best_window hroom] at hfound
    have hkept := (Numbered.places_window hds.keys s.config.similarity r.vector
      r.candidates).of_subperm
        (List.filter_sublist (p := fun p => Filter.admits r.filter p.document)).subperm
    refine hkept.areRanked h hds (fun p hp => ?_) (fun p hp hit hhit => ?_)
      (hfound.symm.trans (Option.some.inj hsearch))
    · exact (Numbered.mem_window (List.mem_of_mem_filter hp)).2
    · have hexcerpts := (Numbered.mem_of_mem_window (List.mem_of_mem_filter hp)).2
      obtain ⟨d, -, rfl⟩ := map_eq_ok hhit
      rw [hexcerpts]
      exact ⟨.nil, by simp [Json.fieldsOf]⟩
  · cases hbroken.symm.trans (Option.some.inj hsearch)

end History

/-- At every point of a history, the hits of a search are different documents of the store, ranked
by their scores: those that the lexical index gives to their keys, or their distances from the
vector. Each hit equals what is got by its id, but for the score, which stands for the one that was
written. Its excerpts are texts under the names that were asked for, none in a vector search, and
leave fields of these names in the metadata as they are. -/
theorem History.hits_carry {cs : List Config} {docs : List Document} {s : Store}
    (h : History cs docs s) :
    ∃ ds : Numbered, ds.documents = docs ∧ s.database.Mirrors ds
      ∧ (∀ r hits, s.searchText r = .ok hits →
        Hit.AreRanked s ds (fun e => s.database.Scores r e.1) r.excerptNames hits)
      ∧ ∀ r hits, (s.searchVector r).1 = some (.ok hits) →
        Hit.AreRanked s ds (fun e x => e.2.distance? s.config.similarity r.vector = some x) []
          hits := by
  obtain ⟨ds, hds, rfl⟩ := h.keeps.holds
  exact ⟨ds, rfl, hds.mirrors, fun r hits => h.areRanked_of_searchText hds,
    fun r hits => h.areRanked_of_searchVector hds⟩

/-- A document with fields of its own under the names of the excerpts. -/
def Document.annotated : Document where
  id := "a"
  content := some "a fox"
  metadata := [(highlightKey, .string "h"), (snippetKey, .string "s")]
  score := some 0.5

def LexicalRequest.excerpting : LexicalRequest :=
  { filtered with filter := none, snippet := some { maxTokens := 8 }, highlight := some {} }

def Store.annotated : Store where
  config := {}
  database := {
    version := schemaVersion
    rows := rowsOf [(1, .annotated)]
    lexical := some ⟨.trigram, [(1, some "a fox")]⟩ }

theorem History.annotated : History [{}] [.annotated] .annotated := by
  have h := @History.created {} {} _ rfl rfl
  exact @History.written _ _ [.annotated] _ _ .fail _ h rfl

def Hit.annotated (x : Float) : Hit where
  document := { Document.annotated with score := some x }
  excerpts := [(highlightKey, .string "a <b>fox</b>"), (snippetKey, .string "a <b>fox</b>")]

theorem Store.searchText_annotated :
    ∃ x, Store.annotated.searchText .excerpting = .ok [.annotated x] := by
  have hfound : ((Lexical.readQuery .trigram "fox").toOption.join.map fun q =>
      (Lexical.Index.search ⟨.trigram, [(1, some "a fox")]⟩ .excerpting q).map fun f =>
        (f.key, f.excerpts))
      = some [(1, [(snippetKey, "a <b>fox</b>"), (highlightKey, "a <b>fox</b>")])] := by
    decide +kernel
  obtain ⟨q, hq, hfound⟩ := Option.map_eq_some_iff.mp hfound
  obtain ⟨⟨key, x, excerpts⟩, hfound, hfields⟩ := List.map_eq_singleton_iff.mp hfound
  cases hfields
  let p : Placed :=
    ⟨1, .annotated, x, [(snippetKey, "a <b>fox</b>"), (highlightKey, "a <b>fox</b>")]⟩
  have hhit : p.hit = .ok (.annotated x) := by
    have hread : Document.annotated.reread = .ok .annotated := by decide +kernel
    rw [Placed.hit, hread]
    rfl
  have hrank : Database.rank .found none none ([p].map Placed.ranked) = .ok [.annotated x] := by
    rw [Database.rank_none, List.mergeSort_singleton, List.mapM_cons, hhit]
    rfl
  have hfirst : Store.annotated.database.searchOnce none .excerpting
      LexicalRequest.excerpting.query = .ok [.annotated x] := by
    refine (Database.searchOnce_eq_ok rfl).mpr ⟨_, rfl, .inr ⟨q, eq_ok_of_join hq, ?_⟩⟩
    rw [hfound]
    exact hrank
  refine ⟨x, ?_⟩
  rw [searchText_eq rfl rfl rfl, Database.searchText, hfirst]

/-- The fields of the document stay beside the excerpts of the same names. -/
theorem History.hits_carry_annotated :
    History [{}] [.annotated] .annotated
      ∧ ∃ x, Store.annotated.searchText .excerpting = .ok [.annotated x]
        ∧ Hit.HasExcerpts [snippetKey, highlightKey] (.annotated x)
        ∧ Store.annotated.get "a" = .ok (some { (Hit.annotated x).document with score := some 0.5 })
        ∧ ∀ f ∈ Document.annotated.metadata, f ∈ (Hit.annotated x).document.metadata := by
  obtain ⟨x, hsearch⟩ := Store.searchText_annotated
  obtain ⟨ds, hdocs, -, htext, -⟩ := History.annotated.hits_carry
  obtain ⟨hexcerpts, e, he, y, -, hcarries⟩ :=
    (htext .excerpting _ hsearch).carried _ (List.mem_singleton_self _)
  have hd : e.2 = .annotated := by
    have hmem : e.2 ∈ ds.documents := List.mem_map_of_mem he
    rw [hdocs] at hmem
    exact List.mem_singleton.mp hmem
  refine ⟨History.annotated, x, hsearch, hexcerpts, ?_, ?_⟩
  · have hgot := hcarries.got
    rw [hd] at hgot
    exact hgot
  · have hproper : Document.annotated.IsProper :=
      ⟨⟨by decide, by simp [Document.annotated, Json.IsProper, Json.AreProperFields]⟩,
        by simp [Document.annotated]⟩
    rw [hd] at hcarries
    exact fun f hf => hcarries.mem_metadata hproper f hf ((by decide :
      ∀ f ∈ Document.annotated.metadata, ∀ x ∈ f.2.reals, Json.IsLegible x) f hf)

end DocumentStore
