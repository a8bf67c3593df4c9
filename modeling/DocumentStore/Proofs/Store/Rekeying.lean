import DocumentStore.Proofs.Store.Nearest

/-! Exchanging the keys of a database for other ones in the same order, as another history would
have given them out. Main statement: no read and no search tells two such databases apart. -/
namespace DocumentStore

variable {φ : ℤ → ℤ}

namespace Row

def rekey (φ : ℤ → ℤ) (r : Row) : Row := { r with key := φ r.key }

@[simp] theorem key_rekey (r : Row) : (r.rekey φ).key = φ r.key := rfl

@[simp] theorem record?_rekey (r : Row) : (r.rekey φ).record? = r.record? := rfl

@[simp] theorem document_rekey (r : Row) : (r.rekey φ).document = r.document := rfl

/-- No column shows the key. -/
@[simp] theorem meets_rekey (join : Join) (condition : Option Condition) (r : Row) :
    (r.rekey φ).meets join condition = r.meets join condition := by
  cases condition <;> rfl

end Row

def rekeyEntries {α : Type} (φ : ℤ → ℤ) (entries : List (ℤ × α)) : List (ℤ × α) :=
  entries.map fun e => (φ e.1, e.2)

def Lexical.Index.rekey (φ : ℤ → ℤ) (i : Lexical.Index) : Lexical.Index :=
  { i with entries := rekeyEntries φ i.entries }

def Database.rekey (φ : ℤ → ℤ) (db : Database) : Database where
  version := db.version
  rows := db.rows.map (Row.rekey φ)
  lexical := db.lexical.map (Lexical.Index.rekey φ)
  vectors := db.vectors.map (rekeyEntries φ)

namespace Database

variable {join : Join} {condition : Option Condition} {db : Database}

theorem documentsOf_rekey (rows : List Row) :
    documentsOf condition (rows.map (Row.rekey φ)) = documentsOf condition rows := by
  induction rows with
  | nil => rfl
  | cons r rows ih => rw [List.map_cons, documentsOf, documentsOf, ih, Row.meets_rekey,
      Row.document_rekey]

theorem anyMeets_rekey (c : Condition) : (db.rekey φ).anyMeets join c = db.anyMeets join c := by
  rw [anyMeets, anyMeets, rekey, List.mapM_map]
  rfl

theorem begins_rekey (others : ℕ) :
    (db.rekey φ).begins join others condition = db.begins join others condition := by
  cases condition with
  | none => rfl
  | some c => rw [begins, begins, anyMeets_rekey]

theorem filter_rekey : (db.rekey φ).filter condition = db.filter condition := by
  rw [filter, filter, begins_rekey]
  cases db.begins .alone 0 condition with
  | none => rfl
  | some b =>
    cases b with
    | false => rfl
    | true => exact documentsOf_rekey db.rows

theorem get_rekey (id : String) : (db.rekey φ).get id = db.get id := by
  have hfind : (db.rekey φ).findId? id = (db.findId? id).map (Row.rekey φ) := by
    rw [findId?, rekey, List.find?_map]
    rfl
  rw [get, get, hfind]
  cases db.findId? id <;> rfl

theorem findKey?_rekey (hφ : StrictMono φ) (key : ℤ) :
    (db.rekey φ).findKey? (φ key) = (db.findKey? key).map (Row.rekey φ) := by
  rw [findKey?, rekey, List.find?_map]
  congr 2
  funext r
  simp [hφ.injective.eq_iff]

def Ranked.rekey (φ : ℤ → ℤ) (a : Ranked) : Ranked := { a with row := a.row.rekey φ }

theorem Ranked.le_rekey (hφ : StrictMono φ) (a b : Ranked) :
    (a.rekey φ).le (b.rekey φ) = a.le b := by
  simp only [le, rekey, Row.key_rekey, hφ.le_iff_le]

theorem keepMeeting_rekey (as : List Ranked) :
    keepMeeting join condition (as.map (Ranked.rekey φ))
      = (keepMeeting join condition as).map (List.map (Ranked.rekey φ)) := by
  induction as with
  | nil => rfl
  | cons a as ih =>
    have hmeets : (a.rekey φ).row.meets join condition = a.row.meets join condition :=
      a.row.meets_rekey join condition
    rw [List.map_cons, keepMeeting, keepMeeting, hmeets, ih]
    cases a.row.meets join condition with
    | none => rfl
    | some meets => cases keepMeeting join condition as <;> cases meets <;> rfl

theorem best_rekey (hφ : StrictMono φ) (topK : Option ℕ) (as : List Ranked) :
    best topK (as.map (Ranked.rekey φ)) = (best topK as).map (Ranked.rekey φ) := by
  have hsort : (as.map (Ranked.rekey φ)).mergeSort Ranked.le
      = (as.mergeSort Ranked.le).map (Ranked.rekey φ) :=
    (List.map_mergeSort fun a _ b _ => (Ranked.le_rekey hφ a b).symm).symm
  unfold best
  rw [hsort]
  cases topK <;> simp [List.map_take]

theorem rank_rekey (hφ : StrictMono φ) (topK : Option ℕ) (as : List Ranked) :
    rank join condition topK (as.map (Ranked.rekey φ)) = rank join condition topK as := by
  rw [rank, rank, keepMeeting_rekey]
  cases keepMeeting join condition as with
  | error e => rfl
  | ok kept =>
    simp only [Except.map, bind, Except.bind]
    rw [best_rekey hφ, List.mapM_map]
    rfl

end Database

namespace Lexical

def Found.rekey (φ : ℤ → ℤ) (f : Found) : Found := { f with key := φ f.key }

variable {i : Index} {r : LexicalRequest} {q : Query}

theorem Index.findFrom_rekey (c : Corpus) (texts earlier : List (List Bytes))
    (entries : List (ℤ × Option String)) :
    (i.rekey φ).findFrom r q c texts earlier (rekeyEntries φ entries)
      = (i.findFrom r q c texts earlier entries).map (Found.rekey φ) := by
  induction entries generalizing earlier with
  | nil => rfl
  | cons e es ih =>
    have hterms : (i.rekey φ).termsOf e.2 = i.termsOf e.2 := rfl
    have hrest := ih (earlier ++ [i.termsOf e.2])
    rw [rekeyEntries] at hrest ⊢
    rw [List.map_cons, findFrom, findFrom]
    dsimp only
    rw [hterms, hrest]
    cases q.positions? ⟨texts, earlier⟩ (i.termsOf e.2) <;> rfl

/-- What is found depends on the contents in their order only. -/
theorem Index.search_rekey (i : Index) :
    (i.rekey φ).search r q = (i.search r q).map (Found.rekey φ) := by
  have htexts : ((i.rekey φ).entries.map fun e => (i.rekey φ).termsOf e.2)
      = i.entries.map fun e => i.termsOf e.2 := by
    simp [Index.rekey, rekeyEntries, Index.termsOf, Index.tokensOf]
  rw [search, search, ← findFrom_rekey, corpus, corpus, htexts]
  rfl

end Lexical

namespace Database

variable {condition : Option Condition} {db : Database}

theorem rankedRows_rekey (hφ : StrictMono φ) (found : List Lexical.Found) :
    (db.rekey φ).rankedRows (found.map (Lexical.Found.rekey φ))
      = (db.rankedRows found).map (Ranked.rekey φ) := by
  rw [rankedRows, rankedRows, List.filterMap_map, List.map_filterMap]
  congr 1
  funext f
  simp only [Function.comp_apply, Lexical.Found.rekey, findKey?_rekey hφ, Option.map_map]
  rfl

theorem searchOnce_rekey (hφ : StrictMono φ) (r : LexicalRequest) (text : String) :
    (db.rekey φ).searchOnce condition r text = db.searchOnce condition r text := by
  have hlexical : (db.rekey φ).lexical = db.lexical.map (Lexical.Index.rekey φ) := rfl
  unfold searchOnce
  rw [hlexical]
  cases db.lexical with
  | none => rfl
  | some i =>
    have hkind : (i.rekey φ).kind = i.kind := rfl
    simp only [Option.map_some, begins_rekey, hkind]
    split
    · rfl
    · rfl
    · cases Lexical.readQuery i.kind text with
      | error fault => rfl
      | ok q =>
        cases q with
        | none => rfl
        | some q => simp only [i.search_rekey, rankedRows_rekey hφ, rank_rekey hφ]

theorem searchText_rekey (hφ : StrictMono φ) (r : LexicalRequest) :
    (db.rekey φ).searchText condition r = db.searchText condition r := by
  simp only [searchText, searchOnce_rekey hφ]

end Database

namespace Vector

def Candidate.rekey (φ : ℤ → ℤ) (c : Candidate) : Candidate := { c with key := φ c.key }

theorem Candidate.le_rekey (hφ : StrictMono φ) (a b : Candidate) :
    (a.rekey φ).le (b.rekey φ) = a.le b := by
  rw [Bool.eq_iff_iff, le_iff, le_iff]
  simp only [place, Prod.Lex.toLex_le_toLex, rekey, hφ.le_iff_le]

theorem candidate?_rekey (s : Similarity) (query : List Float32) (e : ℤ × String) :
    candidate? s query (φ e.1, e.2) = (candidate? s query e).map (Candidate.rekey φ) := by
  unfold candidate?
  cases Record.vector? e.2 with
  | none => rfl
  | some v =>
    dsimp only
    split_ifs <;> rfl

theorem nearest_rekey (hφ : StrictMono φ) (s : Similarity) (query : List Float32) (limit : ℕ)
    (entries : List (ℤ × String)) :
    nearest s query limit (rekeyEntries φ entries)
      = (nearest s query limit entries).map (Candidate.rekey φ) := by
  have hcandidates : (rekeyEntries φ entries).filterMap (candidate? s query)
      = (entries.filterMap (candidate? s query)).map (Candidate.rekey φ) := by
    rw [rekeyEntries, List.filterMap_map, List.map_filterMap]
    congr 1
    funext e
    exact candidate?_rekey s query e
  rw [nearest_eq, nearest_eq, hcandidates, List.map_take,
    List.map_mergeSort fun a _ b _ => (Candidate.le_rekey hφ a b).symm]

end Vector

namespace Database

variable {db : Database}

theorem nearest_rekey (hφ : StrictMono φ) (s : Similarity) (query : List Float32) (limit : ℕ) :
    (db.rekey φ).nearest s query limit
      = (db.nearest s query limit).map (List.map (Vector.Candidate.rekey φ)) := by
  have hvectors : (db.rekey φ).vectors = db.vectors.map (rekeyEntries φ) := rfl
  rw [nearest, nearest, hvectors]
  cases db.vectors with
  | none => rfl
  | some entries =>
    simp only [Option.map_some, Vector.nearest_rekey hφ]
    rfl

theorem windowRows_rekey (hφ : StrictMono φ) (window : List Vector.Candidate) :
    (db.rekey φ).windowRows ((window.map (Vector.Candidate.rekey φ)).map fun c =>
        (c.key, c.distance))
      = (db.windowRows (window.map fun c => (c.key, c.distance))).map (Ranked.rekey φ) := by
  rw [windowRows, windowRows, List.map_map, List.filterMap_map, List.filterMap_map,
    List.map_filterMap]
  congr 1
  funext c
  simp only [Function.comp_apply, Vector.Candidate.rekey, findKey?_rekey hφ, Option.map_map]
  rfl

theorem searchWindow_rekey (hφ : StrictMono φ) (condition : Option Condition) (r : VectorRequest)
    {window : List Vector.Candidate} (hfinite : ∀ c ∈ window, c.distance.isFinite = true) :
    (db.rekey φ).searchWindow condition r.topK (window.map (Vector.Candidate.rekey φ))
      = db.searchWindow condition r.topK window := by
  have hrekeyed : ∀ c ∈ window.map (Vector.Candidate.rekey φ), c.distance.isFinite = true :=
    List.forall_mem_map.mpr hfinite
  rw [searchWindow_of_finite hfinite, searchWindow_of_finite hrekeyed, List.isEmpty_map,
    begins_rekey, windowRows_rekey hφ, rank_rekey hφ]

end Database

namespace Store

def rekey (φ : ℤ → ℤ) (s : Store) : Store := { s with database := s.database.rekey φ }

theorem locked_rekey (s : Store) : (s.rekey φ).locked = s.locked.map (Database.rekey φ) := by
  unfold locked
  cases hlock : s.isPoisoned <;> simp [rekey, hlock, Except.map]

theorem count_rekey (s : Store) : (s.rekey φ).count = s.count := by
  rw [count, count, locked_rekey]
  cases s.locked with
  | error e => rfl
  | ok db => simp [Except.map, Database.rekey]

theorem get_rekey (s : Store) (id : String) : (s.rekey φ).get id = s.get id := by
  rw [get, get, locked_rekey]
  cases s.locked with
  | error e => rfl
  | ok db => exact Database.get_rekey id

theorem filter_rekey (s : Store) (f : Option Filter) : (s.rekey φ).filter f = s.filter f := by
  rw [filter, filter, locked_rekey]
  cases s.locked with
  | error e => rfl
  | ok db =>
    cases compileOptional f with
    | error e => rfl
    | ok condition => exact Database.filter_rekey

theorem searchText_rekey (hφ : StrictMono φ) (s : Store) (r : LexicalRequest) :
    (s.rekey φ).searchText r = s.searchText r := by
  have hconfig : (s.rekey φ).config = s.config := rfl
  rw [searchText, searchText, hconfig, locked_rekey]
  cases s.config.lexical with
  | false => rfl
  | true =>
    cases s.locked with
    | error e => rfl
    | ok db =>
      cases compileOptional r.filter with
      | error e => rfl
      | ok condition => exact Database.searchText_rekey hφ r

theorem nearest_rekey (hφ : StrictMono φ) (s : Store) (similarity : Similarity)
    (query : List Float32) (limit : ℕ) :
    (s.rekey φ).nearest similarity query limit
      = ((s.nearest similarity query limit).1.map
          (Except.map (List.map (Vector.Candidate.rekey φ))),
        (s.nearest similarity query limit).2.rekey φ) := by
  unfold nearest
  rw [locked_rekey]
  cases s.locked with
  | error e => rfl
  | ok db =>
    simp only [Except.map, Database.nearest_rekey hφ]
    cases db.nearest similarity query limit with
    | error e => rfl
    | ok window => cases hasRoomFor limit <;> rfl

theorem isFinite_of_nearest {s s' : Store} {similarity : Similarity} {query : List Float32}
    {limit : ℕ} {window : List Vector.Candidate}
    (h : s.nearest similarity query limit = (some (.ok window), s')) :
    ∀ c ∈ window, c.distance.isFinite = true := by
  unfold nearest at h
  cases hlock : s.locked with
  | error e => simp [hlock] at h
  | ok db =>
    cases hentries : db.vectors with
    | none => simp [hlock, Database.nearest, hentries] at h
    | some entries =>
      by_cases hroom : hasRoomFor limit
      · simp only [hlock, Database.nearest, hentries, hroom, if_true, Prod.mk.injEq,
          Option.some.injEq, Except.ok.injEq] at h
        obtain ⟨rfl, -⟩ := h
        exact fun c => Vector.isFinite_of_mem_nearest
      · simp [hlock, Database.nearest, hentries, hroom] at h

theorem searchVector_rekey (hφ : StrictMono φ) (s : Store) (r : VectorRequest) :
    (s.rekey φ).searchVector r = ((s.searchVector r).1, (s.searchVector r).2.rekey φ) := by
  have hconfig : (s.rekey φ).config = s.config := rfl
  unfold searchVector
  rw [hconfig, locked_rekey]
  cases s.config.dims with
  | none => rfl
  | some dims =>
    cases s.locked with
    | error e => rfl
    | ok db =>
      by_cases hlength : r.vector.length = dims
      · cases compileOptional r.filter with
        | error e =>
          simp [hlength, Except.map, bind, Except.bind]
        | ok condition =>
          simp only [hlength, Except.map, bind, Except.bind, ne_eq, not_true_eq_false, if_false,
            nearest_rekey hφ]
          rcases hnearest : s.nearest s.config.similarity r.vector r.candidates with
            ⟨_ | _ | window, s'⟩
          · rfl
          · rfl
          · have hwindow : (db.rekey φ).searchWindow condition r.topK
                  (window.map (Vector.Candidate.rekey φ))
                = db.searchWindow condition r.topK window :=
              Database.searchWindow_rekey hφ condition r (isFinite_of_nearest hnearest)
            exact congrArg (fun answer => (some answer, s'.rekey φ)) hwindow
      · simp [hlength, Except.map, bind, Except.bind, throw, throwThe, MonadExceptOf.throw]

end Store

end DocumentStore
