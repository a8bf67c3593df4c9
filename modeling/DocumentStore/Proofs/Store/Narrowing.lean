import DocumentStore.Proofs.Store.Answering

/-! Narrowing a search by a filter and a bound. Main statement: at every point of a history the hits
of a search are the first ones among all hits of the same search whose documents the filter
selects, unless the filter strains the search. -/
namespace DocumentStore

/-- The same search without a filter and without a bound. -/
def LexicalRequest.unrestricted (r : LexicalRequest) : LexicalRequest :=
  { r with filter := none, topK := none, topK_pos := unbounded_ne_zero }

/-- The same search, over as many candidates, without a filter and without a bound. -/
def VectorRequest.unrestricted (r : VectorRequest) : VectorRequest :=
  { r with filter := none, topK := none, topK_pos := unbounded_ne_zero }

/-- The hits whose documents are among those that were selected. -/
def Hit.among (selected : List Document) (hits : List Hit) : List Hit :=
  hits.filter fun hit => hit.document.id ∈ OrderedMap.idsOf selected

theorem Hit.length_among_le (selected : List Document) (hits : List Hit) :
    (among selected hits).length ≤ hits.length :=
  List.length_filter_le _ _

/-- How many parameters the statement of a request has beside those of its filter. -/
def LexicalRequest.otherParameters (r : LexicalRequest) : ℕ :=
  (Statement.ranked none (Statement.lexicalCandidates r r.query) r.topK).parameters.length

theorem LexicalRequest.length_parameters (r : LexicalRequest) (text : String) :
    (Statement.ranked none (Statement.lexicalCandidates r text) r.topK).parameters.length
      = r.otherParameters := by
  obtain ⟨query, filter, topK, snippet, highlight, _, _⟩ := r
  cases topK <;> cases snippet <;> cases highlight <;> rfl

theorem Document.id_of_reread {d e : Document} (h : d.reread = .ok e) : e.id = d.id := by
  rw [Database.reread_eq] at h
  exact (Record.isReadAs h).id_eq

theorem OrderedMap.idsOf_of_mapM {docs selected : List Document}
    (h : docs.mapM Document.reread = .ok selected) : idsOf selected = idsOf docs := by
  have hids := mapM_eq_ok.mp h
  induction hids with
  | nil => rfl
  | cons hd _ ih => rw [idsOf_cons, idsOf_cons, Document.id_of_reread hd, ih (mapM_eq_ok.mpr ‹_›)]

theorem Database.Holds.mem_idsOf_selected {db : Database} {ds : Numbered} (h : db.Holds ds)
    {p : Document → Bool} {selected : List Document}
    (hselected : (ds.documents.filter p).mapM Document.reread = .ok selected) {e : ℤ × Document}
    (he : e ∈ ds) : e.2.id ∈ OrderedMap.idsOf selected ↔ p e.2 = true := by
  rw [OrderedMap.idsOf_of_mapM hselected, OrderedMap.idsOf, List.mem_map]
  constructor
  · rintro ⟨d, hd, hid⟩
    obtain ⟨hd, hp⟩ := List.mem_filter.mp hd
    obtain ⟨f, hf, rfl⟩ := List.mem_map.mp hd
    rwa [← h.eq_of_id hf he hid]
  · intro hp
    exact ⟨e.2, List.mem_filter.mpr ⟨List.mem_map_of_mem he, hp⟩, rfl⟩

theorem Hit.among_nil (hits : List Hit) : among [] hits = [] := by simp [among, OrderedMap.idsOf]

theorem Placed.id_of_hit {p : Placed} {hit : Hit} (h : p.hit = .ok hit) :
    hit.document.id = p.document.id := by
  obtain ⟨d, hd, rfl⟩ := map_eq_ok h
  have hid : d.id = p.document.id := Document.id_of_reread hd
  exact hid

theorem forall₂_upTo {α β : Type} {R : α → β → Prop} {as : List α} {bs : List β}
    (topK : Option ℕ) (h : List.Forall₂ R as bs) :
    List.Forall₂ R (Placed.upTo topK as) (Placed.upTo topK bs) := by
  cases topK with
  | none => exact h
  | some k => exact List.forall₂_take _ h

theorem Placed.upTo_nil {α : Type} (topK : Option ℕ) : upTo topK ([] : List α) = [] := by
  cases topK <;> simp [upTo]

/-- Documents that are placed under their keys. -/
structure Numbered.Places (ds : Numbered) (ps : List Placed) : Prop where
  mem : ∀ p ∈ ps, (p.key, p.document) ∈ ds
  keys : (ps.map Placed.key).Nodup

theorem Numbered.Places.length_le {ds : Numbered} {ps : List Placed} (h : ds.Places ps) :
    ps.length ≤ ds.length := by
  have hsubset : ps.map Placed.key ⊆ ds.map Prod.fst := by
    intro key hkey
    obtain ⟨p, hp, rfl⟩ := List.mem_map.mp hkey
    exact List.mem_map_of_mem (h.mem p hp)
  simpa using (h.keys.subperm hsubset).length_le

theorem Filter.selected_eq_nil {f : Option Filter} {docs selected : List Document}
    (hnone : ∀ d ∈ docs, Filter.admits f d = false)
    (hselected : (docs.filter (Filter.admits f)).mapM Document.reread = .ok selected) :
    selected = [] := by
  have hempty : docs.filter (Filter.admits f) = [] :=
    List.filter_eq_nil_iff.mpr fun d hd => by
      rw [hnone d hd]
      exact Bool.false_ne_true
  rw [hempty] at hselected
  exact (Except.ok.inj hselected).symm

namespace Database

variable {condition : Option Condition} {db : Database} {ds : Numbered} {ps : List Placed}

/-- A filter and a bound narrow a ranking, which keeps its order and what it says of each document,
unless the filter breaks this off. -/
theorem Holds.rank_narrows (h : db.Holds ds) (hps : ds.Places ps) {join : Join} {hits : List Hit}
    {selected : List Document} (hall : rank join none none (ps.map Placed.ranked) = .ok hits)
    {f : Option Filter} (hf : compileOptional f = .ok condition)
    (hselected : (ds.documents.filter (Filter.admits f)).mapM Document.reread = .ok selected)
    (others : ℕ) (topK : Option ℕ) :
    rank join condition topK (ps.map Placed.ranked)
        = .ok (Placed.upTo topK (Hit.among selected hits))
      ∨ rank join condition topK (ps.map Placed.ranked) = .error .engine
        ∧ ∃ g ∈ f, g.Strains join others ds.documents := by
  rw [rank_none] at hall
  let keep : Placed → Bool := fun p => p.document.id ∈ OrderedMap.idsOf selected
  have hsettles : ∀ p ∈ ps, Settles (∃ g ∈ f, g.Strains join others ds.documents)
      (p.row.meets join condition) (keep p) := by
    intro p hp
    have hmem := hps.mem p hp
    have hkeep : keep p = Filter.admits f p.document := by
      rw [Bool.eq_iff_iff, decide_eq_true_iff]
      exact h.mem_idsOf_selected hselected hmem
    rw [hkeep]
    exact settles_meets hf join others hmem
  have hfiltered : List.Forall₂ (fun p hit => p.hit = .ok hit)
      ((ps.filter keep).mergeSort Placed.le) (Hit.among selected hits) := by
    rw [← Placed.le_iff.filter_mergeSort (Placed.eq_of_place hps.keys)]
    refine List.rel_filter (fun p hit hhit => ?_) (mapM_eq_ok.mp hall)
    simp only [keep, Placed.id_of_hit hhit]
  rcases rank_ranked hsettles topK with hrank | hstrains
  · left
    rw [hrank]
    exact mapM_eq_ok.mpr (forall₂_upTo topK hfiltered)
  · exact .inr hstrains

end Database

namespace Lexical.Index

variable {i : Index} {r : LexicalRequest} {q : Query}

theorem findFrom_unrestricted (c : Corpus) (texts earlier : List (List Bytes))
    (entries : List (ℤ × Option String)) :
    i.findFrom r.unrestricted q c texts earlier entries
      = i.findFrom r q c texts earlier entries := by
  induction entries generalizing earlier with
  | nil => rfl
  | cons e es ih =>
    rw [findFrom, findFrom, ih]
    rfl

theorem search_unrestricted : i.search r.unrestricted q = i.search r q :=
  findFrom_unrestricted _ _ _ _

theorem keys_findFrom (c : Corpus) (texts earlier : List (List Bytes))
    (entries : List (ℤ × Option String)) :
    ((i.findFrom r q c texts earlier entries).map Found.key).Sublist (entries.map Prod.fst) := by
  induction entries generalizing earlier with
  | nil => exact .slnil
  | cons e es ih =>
    rw [findFrom, List.map_cons]
    split
    · exact (ih _).cons _
    · exact (ih _).cons_cons _

end Lexical.Index

namespace Database

variable {condition : Option Condition} {db : Database} {ds : Numbered} {r : LexicalRequest}

theorem Holds.exists_ranked (h : db.Holds ds) {found : List Lexical.Found}
    (hmem : ∀ f ∈ found, ∃ e ∈ ds, e.1 = f.key) :
    ∃ ps : List Placed, db.rankedRows found = ps.map Placed.ranked
      ∧ (∀ p ∈ ps, (p.key, p.document) ∈ ds) ∧ ps.map Placed.key = found.map Lexical.Found.key := by
  induction found with
  | nil => exact ⟨[], rfl, by simp, rfl⟩
  | cons f found ih =>
    obtain ⟨ps, hrows, hps, hkeys⟩ := ih fun g hg => hmem g (by simp [hg])
    obtain ⟨⟨key, d⟩, he, rfl⟩ := hmem f (by simp)
    refine ⟨⟨f.key, d, f.score, f.excerpts⟩ :: ps, ?_, ?_, ?_⟩
    · have hrow := h.findKey?_eq he
      rw [rankedRows, List.filterMap_cons, hrow, List.map_cons, ← hrows]
      rfl
    · exact List.forall_mem_cons.mpr ⟨he, hps⟩
    · rw [List.map_cons, List.map_cons, hkeys]

theorem Holds.rankedRows_search (h : db.Holds ds) {i : Lexical.Index}
    (hlexical : db.lexical = some i) (r : LexicalRequest) (q : Lexical.Query) :
    ∃ ps : List Placed, db.rankedRows (i.search r q) = ps.map Placed.ranked ∧ ds.Places ps := by
  have hkeys : ((i.search r q).map Lexical.Found.key).Sublist (ds.map Prod.fst) := by
    have hentries : i.entries.map Prod.fst = ds.map Prod.fst := by
      rw [h.mirrors.lexical i hlexical, Numbered.contents, List.map_map]
      rfl
    rw [← hentries]
    exact Lexical.Index.keys_findFrom _ _ _ _
  have hmem : ∀ f ∈ i.search r q, ∃ e ∈ ds, e.1 = f.key := fun f hf =>
    List.mem_map.mp (hkeys.subset (List.mem_map_of_mem hf))
  obtain ⟨ps, hrows, hps, hsame⟩ := h.exists_ranked hmem
  refine ⟨ps, hrows, hps, ?_⟩
  rw [hsame]
  exact (Numbered.keys_nodup h.keys).sublist hkeys

theorem searchOnce_eq_ok {text : String} {hits : List Hit}
    (hbegins : db.begins .found r.otherParameters condition = some true) :
    db.searchOnce condition r text = .ok hits ↔
      ∃ i, db.lexical = some i
        ∧ (Lexical.readQuery i.kind text = .ok none ∧ hits = []
          ∨ ∃ q, Lexical.readQuery i.kind text = .ok (some q)
            ∧ rank .found condition r.topK (db.rankedRows (i.search r q)) = .ok hits) := by
  unfold searchOnce
  simp only [r.length_parameters, hbegins]
  cases hlexical : db.lexical with
  | none => simp
  | some i =>
    cases hquery : Lexical.readQuery i.kind text with
    | error fault => simp [hquery]
    | ok q =>
      cases q with
      | none => simp [hquery, eq_comm]
      | some q =>
        cases hrank : rank .found condition r.topK (db.rankedRows (i.search r q)) <;>
          simp [hquery, hrank]

theorem searchOnce_eq_query {text : String} {fault : Lexical.QueryFault}
    (hbegins : db.begins .found r.otherParameters condition = some true) :
    db.searchOnce condition r text = .error (.query fault) ↔
      ∃ i, db.lexical = some i ∧ Lexical.readQuery i.kind text = .error fault := by
  unfold searchOnce
  simp only [r.length_parameters, hbegins]
  cases hlexical : db.lexical with
  | none => simp
  | some i =>
    cases hquery : Lexical.readQuery i.kind text with
    | error fault' => simp [hquery]
    | ok q =>
      cases q with
      | none => simp [hquery]
      | some q =>
        cases hrank : rank .found condition r.topK (db.rankedRows (i.search r q)) <;>
          simp [hquery, hrank]

/-- A statement that finds nothing before it comes to the query does not read it. -/
theorem searchOnce_of_begins_false {i : Lexical.Index} (hlexical : db.lexical = some i)
    (hbegins : db.begins .found r.otherParameters condition = some false) (text : String) :
    db.searchOnce condition r text = .ok [] := by
  unfold searchOnce
  simp only [r.length_parameters, hbegins, hlexical]

theorem searchOnce_of_begins_none
    (hbegins : db.begins .found r.otherParameters condition = none) (text : String) :
    db.searchOnce condition r text = .error (.store .engine) := by
  unfold searchOnce
  simp only [r.length_parameters, hbegins]
  cases db.lexical <;> rfl

theorem begins_of_searchOnce {text : String} {fault : Lexical.QueryFault}
    (h : db.searchOnce condition r text = .error (.query fault)) :
    db.begins .found r.otherParameters condition = some true := by
  unfold searchOnce at h
  simp only [r.length_parameters] at h
  split at h
  · cases h
  · split at h
    · cases h
    · cases h
    · assumption

section

variable {selected : List Document} (hf : compileOptional r.filter = .ok condition)
  (hselected : (ds.documents.filter (Filter.admits r.filter)).mapM Document.reread = .ok selected)

include hf hselected

theorem Holds.searchOnce_narrows (h : db.Holds ds) {text : String} {hits : List Hit}
    (hall : db.searchOnce none r.unrestricted text = .ok hits) :
    db.searchOnce condition r text = .ok (Placed.upTo r.topK (Hit.among selected hits))
      ∨ db.searchOnce condition r text = .error (.store .engine)
        ∧ ∃ g ∈ r.filter, g.Strains .found r.otherParameters ds.documents := by
  obtain ⟨i, hlexical, hfound⟩ := (searchOnce_eq_ok rfl).mp hall
  rcases h.begins_cases hf .found r.otherParameters with
    hbegins | ⟨hbegins, hnone⟩ | ⟨hbegins, hstrains⟩
  · rcases hfound with ⟨hquery, rfl⟩ | ⟨q, hquery, hrank⟩
    · exact .inl ((searchOnce_eq_ok hbegins).mpr ⟨i, hlexical, .inl ⟨hquery, Placed.upTo_nil _⟩⟩)
    · obtain ⟨ps, hrows, hps⟩ := h.rankedRows_search hlexical r q
      rw [Lexical.Index.search_unrestricted, hrows] at hrank
      rcases h.rank_narrows hps hrank hf hselected r.otherParameters r.topK with
        hnarrow | ⟨hbroken, hstrains⟩
      · rw [← hrows] at hnarrow
        exact .inl ((searchOnce_eq_ok hbegins).mpr ⟨i, hlexical, .inr ⟨q, hquery, hnarrow⟩⟩)
      · rw [← hrows] at hbroken
        refine .inr ⟨?_, hstrains⟩
        unfold searchOnce
        simp only [r.length_parameters, hbegins, hlexical, hquery, hbroken]
  · left
    obtain rfl := Filter.selected_eq_nil hnone hselected
    rw [searchOnce_of_begins_false hlexical hbegins, Hit.among_nil, Placed.upTo_nil]
  · exact .inr ⟨searchOnce_of_begins_none hbegins text, hstrains⟩

end

theorem Holds.length_le_of_searchOnce (h : db.Holds ds) {text : String} {hits : List Hit}
    (hall : db.searchOnce none r.unrestricted text = .ok hits) : hits.length ≤ ds.length := by
  obtain ⟨i, hlexical, ⟨-, rfl⟩ | ⟨q, -, hrank⟩⟩ := (searchOnce_eq_ok rfl).mp hall
  · exact Nat.zero_le _
  · obtain ⟨ps, hrows, hps⟩ := h.rankedRows_search hlexical r.unrestricted q
    have hrank : (ps.mergeSort Placed.le).mapM Placed.hit = .ok hits := by
      rwa [hrows, LexicalRequest.unrestricted, rank_none] at hrank
    have hlength := (mapM_eq_ok.mp hrank).length_eq
    rw [List.length_mergeSort] at hlength
    rw [← hlength]
    exact hps.length_le

/-- How a request comes to hits: by its own text, or by the sanitised one. -/
theorem searchText_eq_ok {hits : List Hit} :
    db.searchText condition r = .ok hits ↔
      db.searchOnce condition r r.query = .ok hits
        ∨ ∃ fault, db.searchOnce condition r r.query = .error (.query fault)
          ∧ (fault.isRetried ∧ Lexical.sanitized r.query ≠ "" ∧ Lexical.isUnsanitized r.query)
          ∧ db.searchOnce condition r (Lexical.sanitized r.query) = .ok hits := by
  unfold searchText
  cases hfirst : db.searchOnce condition r r.query with
  | ok hits' => simp
  | error fault =>
    cases fault with
    | store e => simp
    | query fault =>
      cases hsecond : db.searchOnce condition r (Lexical.sanitized r.query) with
      | ok hits' =>
        dsimp only
        split_ifs <;> simp_all
      | error fault' =>
        cases fault' <;> dsimp only <;> split_ifs <;> simp [hsecond]

theorem searchText_of_store {e : StoreError}
    (h : db.searchOnce condition r r.query = .error (.store e)) :
    db.searchText condition r = .error e := by
  simp only [searchText, h]

theorem searchText_of_begins_none
    (hbegins : db.begins .found r.otherParameters condition = none) :
    db.searchText condition r = .error .engine :=
  searchText_of_store (searchOnce_of_begins_none hbegins _)

theorem Holds.searchText_narrows (h : db.Holds ds) {hits : List Hit} {selected : List Document}
    (hall : db.searchText none r.unrestricted = .ok hits)
    (hf : compileOptional r.filter = .ok condition)
    (hselected : (ds.documents.filter (Filter.admits r.filter)).mapM Document.reread
      = .ok selected) :
    db.searchText condition r = .ok (Placed.upTo r.topK (Hit.among selected hits))
      ∨ db.searchText condition r = .error .engine
        ∧ ∃ g ∈ r.filter, g.Strains .found r.otherParameters ds.documents := by
  rcases searchText_eq_ok.mp hall with hfirst | ⟨fault, hrefused, hrepeated, hsecond⟩
  · rcases h.searchOnce_narrows hf hselected hfirst with hnarrow | ⟨hbroken, hstrains⟩
    · exact .inl (searchText_eq_ok.mpr (.inl hnarrow))
    · exact .inr ⟨searchText_of_store hbroken, hstrains⟩
  · obtain ⟨i, hlexical, hquery⟩ := (searchOnce_eq_query rfl).mp hrefused
    rcases h.begins_cases hf .found r.otherParameters with
      hbegins | ⟨hbegins, hnone⟩ | ⟨hbegins, hstrains⟩
    · have hfirst : db.searchOnce condition r r.query = .error (.query fault) :=
        (searchOnce_eq_query hbegins).mpr ⟨i, hlexical, hquery⟩
      rcases h.searchOnce_narrows hf hselected hsecond with hnarrow | ⟨hbroken, hstrains⟩
      · exact .inl (searchText_eq_ok.mpr (.inr ⟨fault, hfirst, hrepeated, hnarrow⟩))
      · refine .inr ⟨?_, hstrains⟩
        obtain ⟨hretried, hne, hunsanitized⟩ := hrepeated
        have hunsanitized' : Lexical.isUnsanitized r.query = true := hunsanitized
        have hne' : Lexical.sanitized r.query ≠ "" := hne
        have hbroken' : db.searchOnce condition r (Lexical.sanitized r.query)
            = .error (.store .engine) := hbroken
        simp only [searchText, hfirst, hretried, hne', hunsanitized', hbroken', Bool.not_true,
          Bool.false_eq_true, if_false]
    · have hempty := searchOnce_of_begins_false hlexical hbegins
      rcases h.searchOnce_narrows hf hselected hsecond with hnarrow | ⟨hbroken, -⟩
      · rw [hempty] at hnarrow
        exact .inl (searchText_eq_ok.mpr (.inl ((hempty _).trans hnarrow)))
      · rw [hempty] at hbroken
        cases hbroken
    · exact .inr ⟨searchText_of_begins_none hbegins, hstrains⟩

theorem Holds.length_le_of_searchText (h : db.Holds ds) {hits : List Hit}
    (hall : db.searchText none r.unrestricted = .ok hits) : hits.length ≤ ds.length := by
  rcases searchText_eq_ok.mp hall with hfirst | ⟨-, -, -, hsecond⟩
  · exact h.length_le_of_searchOnce hfirst
  · exact h.length_le_of_searchOnce hsecond

end Database

theorem Numbered.places_window {ds : Numbered} (h : ds.Pairwise fun e f => e.1 < f.1)
    (similarity : Similarity) (query : List Float32) (limit : ℕ) :
    ds.Places (ds.window similarity query limit) := by
  refine ⟨fun p hp => (Numbered.mem_of_mem_window hp).1, ?_⟩
  have hkeys : ((ds.filterMap fun e => e.2.neighbour? similarity query e.1).map Placed.key).Sublist
      (ds.map Prod.fst) := by
    clear h
    induction ds with
    | nil => exact .slnil
    | cons e ds ih =>
      rw [List.filterMap_cons, List.map_cons]
      cases hp : e.2.neighbour? similarity query e.1 with
      | none => exact ih.cons _
      | some p =>
        rw [← (Document.neighbour?_eq_some hp).1]
        exact ih.cons_cons _
  have hsorted := (List.mergeSort_perm (ds.filterMap fun e => e.2.neighbour? similarity query e.1)
    Placed.nearer).map Placed.key
  have hnodup := hsorted.nodup_iff.mpr ((Numbered.keys_nodup h).sublist hkeys)
  exact hnodup.sublist ((List.take_sublist _ _).map _)

theorem Database.Holds.searchWindow_narrows {db : Database} {ds : Numbered} (h : db.Holds ds)
    {similarity : Similarity} {r : VectorRequest} {condition : Option Condition}
    {hits : List Hit} {selected : List Document} (hroom : Store.hasRoomFor r.candidates)
    (hall : db.searchWindow none none (Vector.nearest similarity r.vector r.candidates
      ds.embeddingTexts) = .ok hits) (hf : compileOptional r.filter = .ok condition)
    (hselected : (ds.documents.filter (Filter.admits r.filter)).mapM Document.reread
      = .ok selected) :
    db.searchWindow condition r.topK (Vector.nearest similarity r.vector r.candidates
        ds.embeddingTexts) = .ok (Placed.first r.topK (Hit.among selected hits))
      ∨ db.searchWindow condition r.topK (Vector.nearest similarity r.vector r.candidates
          ds.embeddingTexts) = .error .engine
        ∧ ∃ g ∈ r.filter, g.Strains .window r.otherParameters ds.documents := by
  have hps := Numbered.places_window h.keys similarity r.vector r.candidates
  have hfirst : Placed.first r.topK ([] : List Hit) = [] := by
    cases r.topK <;> simp [Placed.first]
  have hwindow := h.searchWindow_eq similarity r.unrestricted none
  rw [h.searchWindow_eq]
  rw [show db.searchWindow none none (Vector.nearest similarity r.vector r.candidates
    ds.embeddingTexts) = _ from hwindow] at hall
  by_cases hempty : (ds.window similarity r.vector r.candidates).isEmpty
  · rw [if_pos hempty]
    have hnone : hits = [] := by
      have hnil : (ds.window similarity r.unrestricted.vector
          r.unrestricted.candidates).isEmpty := hempty
      rw [if_pos hnil] at hall
      exact (Except.ok.inj hall).symm
    rw [hnone, Hit.among, List.filter_nil, hfirst]
    exact .inl rfl
  · rw [if_neg hempty]
    have hsome : ¬(ds.window similarity r.unrestricted.vector
        r.unrestricted.candidates).isEmpty := hempty
    rw [if_neg hsome] at hall
    have hrank : rank .window none none
        ((ds.window similarity r.vector r.candidates).map Placed.ranked) = .ok hits := hall
    have hlength : (Hit.among selected hits).length ≤ Statement.largestLimit := by
      have hhits := (mapM_eq_ok.mp ((rank_none _ _).symm.trans hrank)).length_eq
      rw [List.length_mergeSort] at hhits
      have hlimit : hits.length ≤ r.candidates := hhits ▸ List.length_take_le _ _
      exact (Hit.length_among_le _ _).trans (hlimit.trans (Store.le_of_hasRoomFor hroom))
    rw [← Placed.upTo_eq_first hlength]
    rcases h.begins_cases hf .window r.otherParameters with
      hbegins | ⟨hbegins, hnone⟩ | ⟨hbegins, hstrains⟩
    · rw [hbegins]
      exact h.rank_narrows hps hrank hf hselected r.otherParameters r.topK
    · obtain rfl := Filter.selected_eq_nil hnone hselected
      rw [hbegins, Hit.among_nil, Placed.upTo_nil]
      exact .inl rfl
    · rw [hbegins]
      exact .inr ⟨rfl, hstrains⟩

/-- Only with an index for its vector and with room for its candidates a search has hits. -/
theorem Store.searchVector_ok {s : Store} {r : VectorRequest} {condition : Option Condition}
    {hits : List Hit} (hlock : s.isPoisoned = false)
    (hf : compileOptional r.filter = .ok condition) (h : (s.searchVector r).1 = some (.ok hits)) :
    s.config.dims = some r.vector.length ∧ hasRoomFor r.candidates
      ∧ ∃ entries, s.database.vectors = some entries := by
  cases hdims : s.config.dims with
  | none =>
    rw [searchVector, hdims] at h
    cases h
  | some dims =>
    by_cases hlength : r.vector.length = dims
    · subst hlength
      rw [searchVector_checked hlock hdims hf] at h
      unfold nearest at h
      rw [locked_of_not_poisoned hlock] at h
      dsimp only [Database.nearest] at h
      cases hentries : s.database.vectors with
      | none =>
        rw [hentries] at h
        cases h
      | some entries =>
        cases hroom : hasRoomFor r.candidates with
        | true => exact ⟨rfl, rfl, _, rfl⟩
        | false =>
          rw [hentries, hroom] at h
          cases h
    · rw [searchVector_mismatch hlock hdims hlength] at h
      cases h

theorem Store.searchText_eq {s : Store} {r : LexicalRequest} {condition : Option Condition}
    (hlock : s.isPoisoned = false) (hlexical : s.config.lexical = true)
    (hf : compileOptional r.filter = .ok condition) :
    s.searchText r = s.database.searchText condition r := by
  simp only [searchText, hlexical, locked_of_not_poisoned hlock, hf]
  rfl

namespace History

variable {cs : List Config} {docs : List Document} {s : Store}

theorem selected_of_filter (h : History cs docs s) {f : Option Filter} {selected : List Document}
    (hselected : s.filter f = .ok selected) :
    ∃ condition, compileOptional f = .ok condition
      ∧ (docs.filter (Filter.admits f)).mapM Document.reread = .ok selected := by
  have hbind : (compileOptional f >>= fun condition => s.database.filter condition)
      = .ok selected := by
    rw [Store.filter, Store.locked_of_not_poisoned h.keeps.lock] at hselected
    exact hselected
  obtain ⟨condition, hcondition, -⟩ := bind_eq_ok hbind
  refine ⟨condition, hcondition, ?_⟩
  rcases h.filter_eq hcondition with hfilter | ⟨hfilter, -⟩
  · rw [← hfilter, hselected]
  · rw [hselected] at hfilter
    cases hfilter

theorem searchText_narrows (h : History cs docs s) {r : LexicalRequest} {hits : List Hit}
    {selected : List Document} (hall : s.searchText r.unrestricted = .ok hits)
    (hselected : s.filter r.filter = .ok selected) :
    (s.searchText r = .ok (Placed.upTo r.topK (Hit.among selected hits))
        ∨ s.searchText r = .error .engine
          ∧ ∃ f ∈ r.filter, f.Strains .found r.otherParameters docs)
      ∧ (Hit.among selected hits).length ≤ docs.length := by
  obtain ⟨condition, hcondition, hselected⟩ := h.selected_of_filter hselected
  have hk := h.keeps
  obtain ⟨ds, hds, rfl⟩ := hk.holds
  have hlexical : s.config.lexical = true := by
    by_contra hdisabled
    rw [Store.searchText, if_pos (by simpa using hdisabled)] at hall
    cases hall
  rw [Store.searchText_eq hk.lock hlexical rfl] at hall
  rw [Store.searchText_eq hk.lock hlexical hcondition]
  refine ⟨hds.searchText_narrows hall hcondition hselected, ?_⟩
  have hlength := (Hit.length_among_le selected hits).trans (hds.length_le_of_searchText hall)
  simpa [Numbered.documents] using hlength

theorem searchVector_narrows (h : History cs docs s) {r : VectorRequest} {hits : List Hit}
    {selected : List Document} (hall : (s.searchVector r.unrestricted).1 = some (.ok hits))
    (hselected : s.filter r.filter = .ok selected) :
    s.searchVector r = (some (.ok (Placed.first r.topK (Hit.among selected hits))), s)
      ∨ s.searchVector r = (some (.error .engine), s)
        ∧ ∃ f ∈ r.filter, f.Strains .window r.otherParameters docs := by
  obtain ⟨condition, hcondition, hselected⟩ := h.selected_of_filter hselected
  have hk := h.keeps
  obtain ⟨ds, hds, rfl⟩ := hk.holds
  obtain ⟨hdims, hroom, entries, hentries⟩ := Store.searchVector_ok hk.lock rfl hall
  obtain rfl := hds.mirrors.vectors entries hentries
  rw [Store.searchVector_eq hk.lock hdims hentries rfl hroom] at hall
  rw [Store.searchVector_eq (r := r) hk.lock hdims hentries hcondition hroom]
  rcases hds.searchWindow_narrows (r := r) hroom (Option.some.inj hall) hcondition hselected with
    hnarrow | ⟨hbroken, hstrains⟩
  · exact .inl (by rw [hnarrow])
  · exact .inr ⟨by rw [hbroken], hstrains⟩

/-- A filter that cannot be compiled is refused before anything is read. -/
theorem refuses_filter (h : History cs docs s) {f : Filter} {e : FilterError}
    (he : f.compile = .error e) :
    s.filter (some f) = .error (.filter e)
      ∧ (∀ r : LexicalRequest, r.filter = some f → s.config.lexical →
        s.searchText r = .error (.filter e))
      ∧ ∀ r : VectorRequest, r.filter = some f → s.config.dims = some r.vector.length →
        s.searchVector r = (some (.error (.filter e)), s) := by
  have hlocked := Store.locked_of_not_poisoned h.keeps.lock
  have hcompile : compileOptional (some f) = .error (.filter e) := by
    rw [compileOptional, he]
    rfl
  refine ⟨?_, ?_, ?_⟩
  · rw [Store.filter, hlocked, hcompile]
    rfl
  · intro r hf hlexical
    rw [Store.searchText, hlexical, hlocked, hf, hcompile]
    rfl
  · intro r hf hdims
    simp only [Store.searchVector, hdims, hlocked, hf, hcompile, bind, Except.bind]
    simp

/-- At every point of a history, a filter and a bound narrow a search: its hits are the first ones
among all hits of the same search whose documents the filter selects, just as they are there, or
else the engine fails because the filter strains the search. A filter that cannot be compiled is
refused with its fault by each way of reading. -/
theorem filter_narrows (h : History cs docs s) :
    (∀ (r : LexicalRequest) (hits : List Hit) (selected : List Document),
        s.searchText r.unrestricted = .ok hits → s.filter r.filter = .ok selected →
          s.searchText r = .ok (Placed.upTo r.topK (Hit.among selected hits))
              ∧ (docs.length ≤ Statement.largestLimit →
                s.searchText r = .ok (Placed.first r.topK (Hit.among selected hits)))
            ∨ s.searchText r = .error .engine
              ∧ ∃ f ∈ r.filter, f.Strains .found r.otherParameters docs)
      ∧ (∀ (r : VectorRequest) (hits : List Hit) (selected : List Document),
        (s.searchVector r.unrestricted).1 = some (.ok hits) → s.filter r.filter = .ok selected →
          s.searchVector r = (some (.ok (Placed.first r.topK (Hit.among selected hits))), s)
            ∨ s.searchVector r = (some (.error .engine), s)
              ∧ ∃ f ∈ r.filter, f.Strains .window r.otherParameters docs)
      ∧ ∀ (f : Filter) (e : FilterError), f.compile = .error e →
          s.filter (some f) = .error (.filter e)
            ∧ (∀ r : LexicalRequest, r.filter = some f → s.config.lexical →
              s.searchText r = .error (.filter e))
            ∧ ∀ r : VectorRequest, r.filter = some f → s.config.dims = some r.vector.length →
              s.searchVector r = (some (.error (.filter e)), s) := by
  refine ⟨?_, ?_, ?_⟩
  · intro r hits selected hall hselected
    obtain ⟨hanswer | hstrains, hlength⟩ := h.searchText_narrows hall hselected
    · exact .inl ⟨hanswer, fun hfew => by rw [hanswer, Placed.upTo_eq_first (hlength.trans hfew)]⟩
    · exact .inr hstrains
  · exact fun r hits selected => h.searchVector_narrows
  · exact fun f e => h.refuses_filter

end History

theorem Database.rank_none_of_sorted (join : Join) {ps : List Placed}
    (hsorted : ps.Pairwise fun a b => Placed.le a b) (hhits : ∀ p ∈ ps, p.hit = .ok p.storedHit) :
    rank join none none (ps.map Placed.ranked) = .ok (ps.map Placed.storedHit) := by
  rw [rank_none, List.mergeSort_of_pairwise hsorted]
  exact mapM_eq_ok.mpr (List.forall₂_map_right_iff.mpr (List.forall₂_same.mpr hhits))

theorem Placed.hit_of_three {p : Placed} (hp : p.document ∈ Numbered.three.documents)
    (hexcerpts : p.excerpts = []) : p.hit = .ok p.storedHit :=
  hit_of_legible (Numbered.legible_three _ hp) (History.three.finite_embedding _ hp) hexcerpts

theorem Document.fox_mem : Document.fox ∈ Numbered.three.documents := by decide

def LexicalRequest.filtered : LexicalRequest where
  query := "fox"
  filter := VectorRequest.filtered.filter
  query_nonblank := by decide
  topK_pos := unbounded_ne_zero

theorem Store.searchText_three : ∃ x, Store.three.searchText LexicalRequest.filtered.unrestricted
    = .ok [Placed.storedHit ⟨2, .fox, x, []⟩] := by
  have hfound : ((Lexical.readQuery .trigram "fox").toOption.join.map fun q =>
      (Lexical.Index.search ⟨.trigram, Numbered.three.contents⟩ LexicalRequest.filtered.unrestricted
        q).map fun f => (f.key, f.excerpts)) = some [(2, [])] := by
    decide +kernel
  obtain ⟨q, hq, hfound⟩ := Option.map_eq_some_iff.mp hfound
  obtain ⟨⟨key, x, excerpts⟩, hfound, hfields⟩ := List.map_eq_singleton_iff.mp hfound
  cases hfields
  have hrank := Database.rank_none_of_sorted .found
    (List.pairwise_singleton _ (⟨2, .fox, x, []⟩ : Placed))
    (List.forall_mem_singleton.mpr (Placed.hit_of_three Document.fox_mem rfl))
  have hfirst : Store.three.database.searchOnce none LexicalRequest.filtered.unrestricted
      LexicalRequest.filtered.unrestricted.query = .ok [Placed.storedHit ⟨2, .fox, x, []⟩] := by
    refine (Database.searchOnce_eq_ok rfl).mpr ⟨_, rfl, .inr ⟨q, eq_ok_of_join hq, ?_⟩⟩
    rw [hfound]
    exact hrank
  refine ⟨x, ?_⟩
  rw [searchText_eq rfl rfl rfl, Database.searchText, hfirst]

/-- Of the candidates only one has the number, and so has the one document with the word. -/
theorem History.filter_narrows_three :
    ∃ x, History [{ dims := some 1 }] Numbered.three.documents .three
      ∧ Store.three.searchText .filtered
          = .ok [{ document := { Document.fox with score := some x } }]
      ∧ Store.three.searchVector .filtered
          = (some (.ok [{ document := { Document.fox with score := some (-2) } }]), .three) := by
  obtain ⟨htext, hvector, -⟩ := History.three.filter_narrows
  have hselected : Store.three.filter VectorRequest.filtered.filter
      = .ok (Numbered.three.documents.drop 1) := by
    decide +kernel
  have hcalm {join : Join} {others : ℕ} (hothers : others < mostParameters) :
      ∀ f ∈ VectorRequest.filtered.filter, ¬f.Strains join others Numbered.three.documents := by
    rintro f ⟨⟩
    exact Filter.not_strains_comparison hothers (by decide) (by decide)
  obtain ⟨x, hfound⟩ := Store.searchText_three
  refine ⟨x, History.three, ?_, ?_⟩
  · rcases htext .filtered _ _ hfound hselected with ⟨hanswer, -⟩ | ⟨-, f, hf, hstrains⟩
    · rw [hanswer]
      rfl
    · exact absurd hstrains (hcalm (by decide) f hf)
  · have hall : (Store.three.searchVector VectorRequest.filtered.unrestricted).1
        = some (.ok [Placed.storedHit ⟨1, { id := "a", embedding := some [3] }, -3, []⟩,
          Placed.storedHit ⟨2, .fox, -2, []⟩]) := by
      have hnearest : Vector.nearest .dotProduct [1] 2 Numbered.three.embeddingTexts
          = [⟨-3, 1⟩, ⟨-2, 2⟩] := by
        decide +kernel
      have hhits : ∀ p ∈ ([⟨1, { id := "a", embedding := some [3] }, -3, []⟩,
          ⟨2, .fox, -2, []⟩] : List Placed), p.hit = .ok p.storedHit := by
        intro p hp
        fin_cases hp
        · exact Placed.hit_of_three (show _ ∈ Numbered.three.documents by decide) rfl
        · exact Placed.hit_of_three Document.fox_mem rfl
      rw [Store.searchVector_eq rfl rfl rfl rfl (by decide)]
      change some (Store.three.database.searchWindow none
        VectorRequest.filtered.unrestricted.topK
        (Vector.nearest .dotProduct [1] 2 Numbered.three.embeddingTexts)) = _
      rw [hnearest, Database.searchWindow_of_finite (by decide +kernel)]
      exact congrArg some (Database.rank_none_of_sorted .window (by decide +kernel) hhits)
    rcases hvector .filtered _ _ hall hselected with hanswer | ⟨-, f, hf, hstrains⟩
    · rw [hanswer]
      rfl
    · exact absurd hstrains (hcalm (by decide) f hf)

def LexicalRequest.unclear : LexicalRequest :=
  { LexicalRequest.filtered with filter := some .unclearMember }

/-- The filter selects nothing, but with it no search is answered that is answered without. -/
theorem History.unclear_search_differs :
    ∃ hits, History [{ dims := some 1 }] Numbered.three.documents .three
      ∧ Store.three.filter LexicalRequest.unclear.filter = .ok []
      ∧ Store.three.searchText LexicalRequest.unclear.unrestricted = .ok hits
      ∧ Store.three.searchText .unclear = .error .engine
      ∧ Store.three.filter VectorRequest.unclear.filter = .ok []
      ∧ (Store.three.searchVector .unclear).1 = some (.error .engine) := by
  obtain ⟨x, hfound⟩ := Store.searchText_three
  exact ⟨_, History.three, by decide +kernel, hfound, by decide +kernel, by decide +kernel,
    by decide +kernel⟩

end DocumentStore
