import DocumentStore.Proofs.Document.Readable
import DocumentStore.Proofs.Store.Nearest

/-! Reads that are answered. Main statement: a store that was only ever written to through its own
operations counts, gets, selects and searches without failing, but for documents with values that
can stand in no text and for filters that strain a statement. -/
namespace DocumentStore

open OrderedMap

namespace History

variable {cs : List Config} {docs : List Document} {s : Store}

theorem exists_reread (h : History cs docs s) {d : Document} (hd : d ∈ docs) (hfits : d.Fits) :
    ∃ e, d.reread = .ok e :=
  hfits.exists_reread (h.finite_embedding d hd)

theorem get_eq (h : History cs docs s) (id : String) :
    s.get id = (docs.find? fun d => d.id == id).mapM Document.reread := by
  obtain ⟨ds, hds, rfl⟩ := h.keeps.holds
  rw [← hds.get, Store.get, Store.locked_of_not_poisoned h.keeps.lock]
  rfl

theorem exists_get (h : History cs docs s) (id : String) :
    (∃ found, s.get id = .ok found) ∨ ∃ d ∈ docs, d.id = id ∧ ¬d.Fits := by
  rw [h.get_eq]
  cases hfind : docs.find? fun d => d.id == id with
  | none => exact .inl ⟨none, rfl⟩
  | some d =>
    have hd := List.mem_of_find?_eq_some hfind
    by_cases hfits : d.Fits
    · obtain ⟨e, he⟩ := h.exists_reread hd hfits
      exact .inl ⟨some e, by simp [Option.mapM, he]⟩
    · exact .inr ⟨d, hd, by simpa using List.find?_some hfind, hfits⟩

theorem ids_nodup (h : History cs docs s) : (idsOf docs).Nodup := by
  obtain ⟨ds, hds, rfl⟩ := h.keeps.holds
  rw [Numbered.idsOf_documents]
  exact hds.ids

theorem get_of_mem (h : History cs docs s) {d : Document} (hd : d ∈ docs) :
    s.get d.id = d.reread.map some := by
  have hfind : (docs.find? fun e => e.id == d.id) = some d := by
    cases hfind : docs.find? fun e => e.id == d.id with
    | none => simpa using List.find?_eq_none.mp hfind d hd
    | some e =>
      have hid : e.id = d.id := by simpa using List.find?_some hfind
      rw [List.inj_on_of_nodup_map h.ids_nodup (List.mem_of_find?_eq_some hfind) hd hid]
  rw [h.get_eq, hfind]
  rfl

theorem exists_get_iff (h : History cs docs s) {d : Document} (hd : d ∈ docs) (hp : d.IsProper) :
    (∃ e, s.get d.id = .ok (some e)) ↔ d.nesting ≤ Json.depthLimit := by
  rw [← hp.exists_reread_iff (h.finite_embedding d hd), h.get_of_mem hd]
  constructor
  · rintro ⟨e, he⟩
    obtain ⟨e', he', -⟩ := map_eq_ok he
    exact ⟨e', he'⟩
  · rintro ⟨e, he⟩
    exact ⟨e, by rw [he]; rfl⟩

theorem filter_eq (h : History cs docs s) {f : Option Filter} {condition : Option Condition}
    (hf : compileOptional f = .ok condition) :
    s.filter f = (docs.filter (Filter.admits f)).mapM Document.reread
      ∨ s.filter f = .error .engine ∧ ∃ g ∈ f, g.Strains .alone 0 docs := by
  cases f with
  | none =>
    obtain ⟨ds, hds, rfl⟩ := h.keeps.holds
    have hall : ds.documents.filter (Filter.admits none) = ds.documents :=
      List.filter_eq_self.mpr fun _ _ => rfl
    rw [hall, ← hds.filter_none, Store.filter, Store.locked_of_not_poisoned h.keeps.lock]
    exact .inl rfl
  | some f =>
    obtain ⟨c, hc, -⟩ := map_eq_ok hf
    obtain ⟨ds, hds, rfl⟩ := h.keeps.holds
    rw [Store.filter_some h.keeps.lock (lift_eq_ok hc)]
    exact (hds.filter_some (lift_eq_ok hc)).imp_right
      (And.imp_right fun hstrains => ⟨f, rfl, hstrains⟩)

theorem exists_filter (h : History cs docs s) {f : Option Filter} {condition : Option Condition}
    (hf : compileOptional f = .ok condition) :
    (∃ found, s.filter f = .ok found) ∨ (∃ d ∈ docs, Filter.admits f d ∧ ¬d.Fits)
      ∨ ∃ g ∈ f, g.Strains .alone 0 docs := by
  by_cases hfits : ∃ d ∈ docs, Filter.admits f d ∧ ¬d.Fits
  · exact .inr (.inl hfits)
  · push Not at hfits
    rcases h.filter_eq hf with hfilter | ⟨-, hstrains⟩
    · rw [hfilter]
      refine .inl (exists_mapM_eq_ok fun d hd => ?_)
      obtain ⟨hd, hadmits⟩ := List.mem_filter.mp hd
      exact h.exists_reread hd (hfits d hd hadmits)
    · exact .inr (.inr hstrains)

theorem exists_searchVector (h : History cs docs s) {r : VectorRequest}
    (hdims : s.config.dims = some r.vector.length) (hroom : Store.hasRoomFor r.candidates)
    {condition : Option Condition} (hf : compileOptional r.filter = .ok condition) :
    (∃ hits, s.searchVector r = (some (.ok hits), s))
      ∨ (∃ d ∈ docs, Filter.admits r.filter d ∧ ¬d.Fits)
      ∨ ∃ g ∈ r.filter, g.Strains .window r.otherParameters docs := by
  obtain ⟨-, -, -, ds, rfl, -, hsearch⟩ := h.searchVector_nearest r
  by_cases hfits : ∃ d ∈ ds.documents, Filter.admits r.filter d ∧ ¬d.Fits
  · exact .inr (.inl hfits)
  · push Not at hfits
    rcases (hsearch hdims hroom condition hf).1 with hfound | ⟨-, hstrains⟩
    · obtain ⟨hits, hhits⟩ :
          ∃ hits, (ds.found s.config.similarity r).mapM Placed.hit = .ok hits := by
        refine exists_mapM_eq_ok fun p hp => ?_
        have hd : p.document ∈ ds.documents :=
          List.mem_map_of_mem (Numbered.mem_of_mem_found hp).1
        obtain ⟨e, he⟩ := h.exists_reread hd (hfits _ hd (Numbered.admits_of_mem_found hp))
        exact ⟨_, by rw [Placed.hit, he]; rfl⟩
      exact .inl ⟨hits, by rw [hfound, hhits]⟩
    · exact .inr (.inr hstrains)

/-- At every point of a history the documents can be counted, each can be got by its id, a filter
that compiles selects some of them, and a search for a vector of the right length, for which there
is room, finds some and leaves the store as it is, if no document that is read has values that can
stand in no text, and no filter strains the statement. A proper document is got just if it is nested
no more deeply than the reader goes. -/
theorem readable_unless_strained (h : History cs docs s) :
    s.count = .ok docs.length
      ∧ (∀ id, (∃ found, s.get id = .ok found) ∨ ∃ d ∈ docs, d.id = id ∧ ¬d.Fits)
      ∧ (∀ f condition, compileOptional f = .ok condition →
          (∃ found, s.filter f = .ok found) ∨ (∃ d ∈ docs, Filter.admits f d ∧ ¬d.Fits)
            ∨ ∃ g ∈ f, g.Strains .alone 0 docs)
      ∧ (∀ r condition, s.config.dims = some r.vector.length → Store.hasRoomFor r.candidates →
          compileOptional r.filter = .ok condition →
          (∃ hits, s.searchVector r = (some (.ok hits), s))
            ∨ (∃ d ∈ docs, Filter.admits r.filter d ∧ ¬d.Fits)
            ∨ ∃ g ∈ r.filter, g.Strains .window r.otherParameters docs)
      ∧ ∀ d ∈ docs, d.IsProper →
          ((∃ e, s.get d.id = .ok (some e)) ↔ d.nesting ≤ Json.depthLimit) := by
  refine ⟨?_, h.exists_get, fun f condition => h.exists_filter, ?_, fun d => h.exists_get_iff⟩
  · obtain ⟨ds, hds, rfl⟩ := h.keeps.holds
    rw [Store.count, Store.locked_of_not_poisoned h.keeps.lock]
    simp [Except.map, hds.rows, rowsOf, Numbered.documents]
  · exact fun r condition hdims hroom => h.exists_searchVector hdims hroom

end History

/-- A document with the largest double and with containers inside each other. -/
def Document.extreme : Document where
  id := "a"
  dataframe := some (.real 1.7976931348623157e308)
  metadata := [("n", .array [.object [("m", .integer 1)]])]
  embedding := some [2]

theorem Document.fits_extreme : Document.extreme.Fits := by
  refine ⟨.object ?_, ?_⟩
  · simp only [extreme, List.forall_mem_singleton]
    refine .array ?_
    simp only [List.forall_mem_singleton]
    refine .object ?_
    simp only [List.forall_mem_singleton]
    exact .integer _ (by norm_num) (by norm_num)
  · rintro v ⟨⟩
    exact .real _ _

theorem History.readable_unless_strained_extreme :
    ∃ s, History [{ dims := some 1 }] [.extreme] s ∧ s.count = .ok 1
      ∧ (∃ found, s.get "a" = .ok found)
      ∧ (∃ found, s.filter (some (.comparison ⟨"meta.n", .notMember, .array [.array []]⟩))
          = .ok found)
      ∧ ∃ hits, s.searchVector .filtered = (some (.ok hits), s) := by
  have h₀ := @History.created {} { dims := some 1 } _ rfl rfl
  have h := @History.written _ _ [.extreme] _ _ .fail _ h₀ rfl
  have hdocs : ∀ d ∈ [Document.extreme], d.Fits :=
    List.forall_mem_singleton.mpr Document.fits_extreme
  have hflat : ∀ d ∈ [Document.extreme], (Json.object d.metadata).nesting ≤ Node.depthLimit := by
    decide
  have hnone {P : Document → Prop} : ¬∃ d ∈ [Document.extreme], P d ∧ ¬d.Fits :=
    fun ⟨d, hd, _, hfits⟩ => hfits (hdocs d hd)
  obtain ⟨hcount, hget, hfilter, hsearch, -⟩ := h.readable_unless_strained
  refine ⟨_, h, hcount, (hget "a").resolve_right hnone,
    ((hfilter _ _ rfl).resolve_right ?_), (hsearch _ _ rfl (by decide) rfl).resolve_right ?_⟩
  · rintro (hfits | ⟨g, ⟨⟩, hstrains⟩)
    · exact hnone hfits
    · exact Filter.not_strains_comparison (by decide) hflat (by decide) hstrains
  · rintro (hfits | ⟨g, ⟨⟩, hstrains⟩)
    · exact hnone hfits
    · exact Filter.not_strains_comparison (by decide) hflat (by decide) hstrains

def Json.listsAround : ℕ → Json
  | 0 => .array []
  | n + 1 => .array [listsAround n]

theorem Json.nesting_listsAround (n : ℕ) : (listsAround n).nesting = n + 1 := by
  induction n with
  | zero => rfl
  | succ n ih =>
    rw [listsAround, nesting, nestingOfItems, ih]
    rfl

theorem Json.isProper_listsAround (n : ℕ) : (listsAround n).IsProper := by
  induction n with
  | zero => trivial
  | succ n ih => exact ⟨ih, trivial⟩

/-- A document with a number beside 127 lists inside each other. -/
def Document.sunken : Document where
  id := "a"
  metadata := [("deep", .listsAround 126), ("n", .integer 1)]

theorem Document.isProper_sunken : Document.sunken.IsProper where
  metadata := by
    refine ⟨List.pairwise_pair.mpr (by decide), Json.isProper_listsAround 126, ?_, trivial⟩
    exact ⟨by norm_num, by norm_num⟩
  dataframe := nofun

theorem Document.nesting_sunken : (Json.object Document.sunken.metadata).nesting = 128 := by
  simp [sunken, Json.nesting, Json.nestingOfFields, Json.nesting_listsAround]

theorem Document.reread_sunken :
    Document.sunken.reread = .error (.storage (.malformedRecord "a" .metadata)) := by
  rw [Database.reread_eq]
  refine Document.isProper_sunken.toDocument_of_deep ?_
  rw [nesting_sunken]
  decide

/-- The document is written, but neither its id nor the lack of a filter gives it back. A filter can
fail before any document is looked at. -/
theorem History.written_not_read :
    ∃ s c, History [{}] [.sunken] s ∧ s.count = .ok 1
      ∧ s.get "a" = .error (.storage (.malformedRecord "a" .metadata))
      ∧ s.filter none = .error (.storage (.malformedRecord "a" .metadata))
      ∧ Filter.unclear.compile = .ok c ∧ s.filter (some .unclear) = .error .engine := by
  have h₀ := @History.created {} {} _ rfl rfl
  have h := @History.written _ _ [.sunken] _ _ .fail _ h₀ rfl
  refine ⟨_, _, h, rfl, ?_, ?_, rfl, by decide +kernel⟩
  · have hget := h.get_of_mem (d := .sunken) (List.mem_singleton_self _)
    rwa [Document.reread_sunken] at hget
  · rcases h.filter_eq (f := none) rfl with hfilter | ⟨-, g, hg, -⟩
    · rw [hfilter]
      show [Document.sunken].mapM Document.reread = _
      rw [List.mapM_cons, Document.reread_sunken]
      rfl
    · cases hg

end DocumentStore
