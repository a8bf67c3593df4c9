import DocumentStore.Proofs.Lexical.Terms
import DocumentStore.Proofs.Store.Answering
import DocumentStore.Proofs.Store.Narrowing

/-! Text searches whose query is refused. Main statement: a query that is refused is tried again in
its sanitised form, which is always accepted, unless the wording of its fault does not call for
that, or it is in this form already but for white space that no query can have. Then the search
fails. -/
namespace DocumentStore

namespace Lexical

namespace QueryFault

/-- Faults of which the wording does not call for another try, but for what it quotes of the
query. -/
def IsOverlooked : QueryFault → Prop
  | .expectedInteger _ | .stackOverflow | .tooLarge | .unknownDirective _ => True
  | _ => False

theorem occursIn_iff {needle text : List Char} :
    occursIn needle text = true ↔ needle <:+: text := by
  induction text with
  | nil => rw [occursIn, List.isEmpty_iff, List.infix_nil]
  | cons c cs ih =>
    rw [occursIn, Bool.or_eq_true, List.isPrefixOf_iff_prefix, ih, List.infix_cons_iff]

theorem isRetried_of_message {f : QueryFault} {wording rest : String} (hw : wording ∈ retryWordings)
    (h : f.message = wording ++ rest) : f.isRetried = true := by
  refine List.any_eq_true.mpr ⟨wording, hw, occursIn_iff.mpr ?_⟩
  rw [h, String.toList_append]
  exact (List.prefix_append _ _).isInfix

theorem isRetried_syntaxNear (token : String) : (syntaxNear token).isRetried = true := by
  have hmessage : (syntaxNear token).message = "fts5: syntax error near \"" ++ token ++ "\"" := rfl
  have hsplit : "fts5: syntax error near \"" = "fts5: syntax error" ++ " near \"" := by simp
  rw [hsplit, String.append_assoc, String.append_assoc] at hmessage
  exact isRetried_of_message (by decide) hmessage

theorem isRetried_noSuchColumn (name : String) : (noSuchColumn name).isRetried = true := by
  have hmessage : (noSuchColumn name).message = "no such column: " ++ name := rfl
  have hsplit : "no such column: " = "no such column" ++ ": " := by simp
  rw [hsplit, String.append_assoc] at hmessage
  exact isRetried_of_message (by decide) hmessage

theorem isOverlooked_of_not_isRetried {f : QueryFault} (h : f.isRetried = false) :
    f.IsOverlooked := by
  cases f with
  | syntaxNear token => simp [isRetried_syntaxNear] at h
  | unterminated => exact absurd h (by decide)
  | noSuchColumn name => simp [isRetried_noSuchColumn] at h
  | _ => trivial

end QueryFault

/-- Whether a term stands in a query: a run of term characters that is no operator. -/
def HoldsTerm (query : String) : Prop :=
  ∃ t : String, IsRun query.toList t.toList ∧ t ∉ operatorWords

theorem holdsTerm_iff {query : String} : HoldsTerm query ↔ terms query ≠ [] := by
  rw [ne_eq, List.eq_nil_iff_forall_not_mem, not_forall_not]
  exact exists_congr fun t => mem_terms.symm

theorem sanitized_eq_empty_iff {query : String} : sanitized query = "" ↔ ¬HoldsTerm query := by
  rw [sanitized_eq_empty, holdsTerm_iff, not_not]

/-- Whether a query is refused and not tried again in another form. -/
def IsStuck (kind : TokenizerKind) (query : String) : Prop :=
  ∃ fault, readQuery kind query = .error fault
    ∧ (fault.isRetried = false ∨ HoldsTerm query ∧ sanitized query = Text.trim query)

/-- What queries are stuck: those with one of the faults that are overlooked, and those around which
there is white space that is none to the reader of queries. -/
theorem IsStuck.cases {kind : TokenizerKind} {query : String} (h : IsStuck kind query) :
    (∃ fault, readQuery kind query = .error fault ∧ fault.IsOverlooked)
      ∨ '\x0b' ∈ query.toList ∨ '\x0c' ∈ query.toList := by
  obtain ⟨fault, hrefused, hretried | ⟨hterm, hsame⟩⟩ := h
  · exact .inl ⟨fault, hrefused, QueryFault.isOverlooked_of_not_isRetried hretried⟩
  · exact .inr (mem_of_refused (holdsTerm_iff.mp hterm) hsame hrefused)

end Lexical

theorem Placed.mem_of_mem_best {topK : Option ℕ} {ps : List Placed} {p : Placed}
    (h : p ∈ Placed.best topK ps) : p ∈ ps := by
  unfold best upTo at h
  split at h
  · exact List.mem_mergeSort.mp (List.mem_of_mem_take h)
  · exact List.mem_mergeSort.mp h

namespace Database

section

variable {db : Database} {ds : Numbered} {r : LexicalRequest} {condition : Option Condition}
  {i : Lexical.Index} (hread : ∀ d ∈ ds.documents, Filter.admits r.filter d → ∃ e, d.reread = .ok e)
  (hf : compileOptional r.filter = .ok condition)

include hread hf

theorem rank_places {ps : List Placed} (hps : ds.Places ps) :
    (∃ hits, rank .found condition r.topK (ps.map Placed.ranked) = .ok hits)
      ∨ rank .found condition r.topK (ps.map Placed.ranked) = .error .engine
        ∧ ∃ f ∈ r.filter, f.Strains .found r.otherParameters ds.documents := by
  rcases rank_ranked (fun p hp => settles_meets hf .found r.otherParameters (hps.mem p hp))
    r.topK with hrank | hstrains
  · rw [hrank]
    refine .inl (exists_mapM_eq_ok fun p hp => ?_)
    obtain ⟨hp, hadmits⟩ := List.mem_filter.mp (Placed.mem_of_mem_best hp)
    obtain ⟨e, he⟩ := hread p.document (List.mem_map_of_mem (hps.mem p hp)) hadmits
    exact ⟨_, by rw [Placed.hit, he]; rfl⟩
  · exact .inr hstrains

theorem Holds.searchOnce_of_readQuery (h : db.Holds ds) (hlexical : db.lexical = some i)
    {text : String} {q : Option Lexical.Query} (hquery : Lexical.readQuery i.kind text = .ok q) :
    (∃ hits, db.searchOnce condition r text = .ok hits)
      ∨ db.searchOnce condition r text = .error (.store .engine)
        ∧ ∃ f ∈ r.filter, f.Strains .found r.otherParameters ds.documents := by
  rcases h.begins_cases hf .found r.otherParameters with
    hbegins | ⟨hbegins, -⟩ | ⟨hbegins, hstrains⟩
  · cases q with
    | none => exact .inl ⟨[], (searchOnce_eq_ok hbegins).mpr ⟨i, hlexical, .inl ⟨hquery, rfl⟩⟩⟩
    | some q =>
      obtain ⟨ps, hrows, hps⟩ := h.rankedRows_search hlexical r q
      rcases rank_places hread hf hps with ⟨hits, hhits⟩ | ⟨hbroken, hstrains⟩
      · rw [← hrows] at hhits
        exact .inl ⟨hits, (searchOnce_eq_ok hbegins).mpr ⟨i, hlexical, .inr ⟨q, hquery, hhits⟩⟩⟩
      · rw [← hrows] at hbroken
        refine .inr ⟨?_, hstrains⟩
        unfold searchOnce
        simp only [r.length_parameters, hbegins, hlexical, hquery, hbroken]
  · exact .inl ⟨[], searchOnce_of_begins_false hlexical hbegins text⟩
  · exact .inr ⟨searchOnce_of_begins_none hbegins text, hstrains⟩

theorem Holds.searchText_of_refused (h : db.Holds ds) (hlexical : db.lexical = some i)
    {fault : Lexical.QueryFault}
    (hfirst : db.searchOnce condition r r.query = .error (.query fault))
    (hretried : fault.isRetried = true) (hterm : Lexical.HoldsTerm r.query)
    (hchanged : Lexical.sanitized r.query ≠ Text.trim r.query) :
    (∃ hits, db.searchText condition r = .ok hits)
      ∨ db.searchText condition r = .error .engine
        ∧ ∃ f ∈ r.filter, f.Strains .found r.otherParameters ds.documents := by
  have hne : Lexical.sanitized r.query ≠ "" := fun hempty =>
    Lexical.sanitized_eq_empty_iff.mp hempty hterm
  have hunsanitized : Lexical.isUnsanitized r.query = true := bne_iff_ne.mpr hchanged
  obtain ⟨q, hq⟩ := Lexical.readQuery_sanitized (Lexical.holdsTerm_iff.mp hterm) i.kind
  rcases h.searchOnce_of_readQuery hread hf hlexical hq with ⟨hits, hhits⟩ | ⟨hbroken, hstrains⟩
  · exact .inl ⟨hits,
      searchText_eq_ok.mpr (.inr ⟨fault, hfirst, ⟨hretried, hne, hunsanitized⟩, hhits⟩)⟩
  · refine .inr ⟨?_, hstrains⟩
    simp only [searchText, hfirst, hretried, hne, hunsanitized, hbroken, Bool.not_true,
      Bool.false_eq_true, if_false]

/-- A query that is not stuck is answered, by hits or because no term stands in it, unless its
filter breaks this off. -/
theorem Holds.searchText_of_not_isStuck (h : db.Holds ds) (hlexical : db.lexical = some i)
    (hstuck : ¬Lexical.IsStuck i.kind r.query) :
    ((∃ hits, db.searchText condition r = .ok hits)
        ∨ ¬Lexical.HoldsTerm r.query
          ∧ db.searchText condition r = .error (.validation .emptyQuery))
      ∨ db.searchText condition r = .error .engine
        ∧ ∃ f ∈ r.filter, f.Strains .found r.otherParameters ds.documents := by
  rcases h.begins_cases hf .found r.otherParameters with
    hbegins | ⟨hbegins, -⟩ | ⟨hbegins, hstrains⟩
  · cases hquery : Lexical.readQuery i.kind r.query with
    | ok q =>
      rcases h.searchOnce_of_readQuery hread hf hlexical hquery with
        ⟨hits, hhits⟩ | ⟨hbroken, hstrains⟩
      · exact .inl (.inl ⟨hits, searchText_eq_ok.mpr (.inl hhits)⟩)
      · exact .inr ⟨searchText_of_store hbroken, hstrains⟩
    | error fault =>
      have hfirst : db.searchOnce condition r r.query = .error (.query fault) :=
        (searchOnce_eq_query hbegins).mpr ⟨i, hlexical, hquery⟩
      have hretried : fault.isRetried = true := by
        by_contra hnot
        exact hstuck ⟨fault, hquery, .inl (Bool.eq_false_iff.mpr hnot)⟩
      by_cases hterm : Lexical.HoldsTerm r.query
      · have hchanged : Lexical.sanitized r.query ≠ Text.trim r.query := fun hsame =>
          hstuck ⟨fault, hquery, .inr ⟨hterm, hsame⟩⟩
        exact (h.searchText_of_refused hread hf hlexical hfirst hretried hterm hchanged).imp_left
          .inl
      · have hempty : Lexical.sanitized r.query = "" := Lexical.sanitized_eq_empty_iff.mpr hterm
        refine .inl (.inr ⟨hterm, ?_⟩)
        simp only [searchText, hfirst, hretried, hempty, Bool.not_true, Bool.false_eq_true,
          if_false, if_true]
  · have hempty := searchOnce_of_begins_false hlexical hbegins
    exact .inl (.inl ⟨[], searchText_eq_ok.mpr (.inl (hempty r.query))⟩)
  · exact .inr ⟨searchText_of_begins_none hbegins, hstrains⟩

end

theorem searchText_of_isStuck {db : Database} {condition : Option Condition} {r : LexicalRequest}
    {i : Lexical.Index} (hlexical : db.lexical = some i)
    (hbegins : db.begins .found r.otherParameters condition = some true)
    (hstuck : Lexical.IsStuck i.kind r.query) : db.searchText condition r = .error .engine := by
  obtain ⟨fault, hrefused, hfault⟩ := hstuck
  have hfirst : db.searchOnce condition r r.query = .error (.query fault) :=
    (searchOnce_eq_query hbegins).mpr ⟨i, hlexical, hrefused⟩
  simp only [searchText, hfirst]
  rcases hfault with hretried | ⟨hterm, hsame⟩
  · rw [hretried]
    rfl
  · have hne : Lexical.sanitized r.query ≠ "" := fun hempty =>
      Lexical.sanitized_eq_empty_iff.mp hempty hterm
    have hunchanged : Lexical.isUnsanitized r.query = false := by
      rw [Lexical.isUnsanitized, hsame, bne_self_eq_false]
    cases fault.isRetried <;> simp [hne, hunchanged]

end Database

/-- Whether a text search is answered: by hits, or by telling that no term stands in the query. -/
def Store.Answers (s : Store) (r : LexicalRequest) : Prop :=
  (∃ hits, s.searchText r = .ok hits)
    ∨ ¬Lexical.HoldsTerm r.query ∧ s.searchText r = .error (.validation .emptyQuery)

/-- At every point of a history a text search is answered, unless its query is stuck, its filter
strains the search, or a document that its filter admits cannot be read. A query that is stuck fails
the search, but for one with a filter that is true in no document, which may find this out first. It
has a fault that is overlooked, or white space around it that the reader of queries does not
know. -/
theorem History.answers_unless_stuck {cs : List Config} {docs : List Document} {s : Store}
    (h : History cs docs s) (hlexical : s.config.lexical = true) {r : LexicalRequest}
    {condition : Option Condition} (hf : compileOptional r.filter = .ok condition) :
    ∃ i, s.database.lexical = some i
      ∧ (¬Lexical.IsStuck i.kind r.query →
        s.Answers r ∨ (∃ d ∈ docs, Filter.admits r.filter d ∧ ¬d.Fits)
          ∨ s.searchText r = .error .engine
            ∧ ∃ f ∈ r.filter, f.Strains .found r.otherParameters docs)
      ∧ (Lexical.IsStuck i.kind r.query →
        s.searchText r = .error .engine
          ∨ s.searchText r = .ok [] ∧ ∃ f ∈ r.filter, ∀ d ∈ docs, f.truth d ≠ .yes)
      ∧ (Lexical.IsStuck i.kind r.query →
        (∃ fault, Lexical.readQuery i.kind r.query = .error fault ∧ fault.IsOverlooked)
          ∨ '\x0b' ∈ r.query.toList ∨ '\x0c' ∈ r.query.toList) := by
  have hk := h.keeps
  obtain ⟨ds, hds, rfl⟩ := hk.holds
  obtain ⟨i, hi⟩ := Option.isSome_iff_exists.mp
    (hk.lexical.mpr ⟨s.config, h.config_mem, hlexical⟩)
  have hsearch := Store.searchText_eq hk.lock hlexical hf
  refine ⟨i, hi, fun hstuck => ?_, fun hstuck => ?_, fun hstuck => hstuck.cases⟩
  · by_cases hfits : ∃ d ∈ ds.documents, Filter.admits r.filter d ∧ ¬d.Fits
    · exact .inr (.inl hfits)
    · push Not at hfits
      rw [Store.Answers, hsearch]
      have hread : ∀ d ∈ ds.documents, Filter.admits r.filter d → ∃ e, d.reread = .ok e :=
        fun d hd hadmits => h.exists_reread hd (hfits d hd hadmits)
      exact (hds.searchText_of_not_isStuck hread hf hi hstuck).imp_right .inr
  · rw [hsearch]
    rcases hds.begins_cases hf .found r.otherParameters with
      hbegins | ⟨hbegins, hnone⟩ | ⟨hbegins, -⟩
    · exact .inl (Database.searchText_of_isStuck hi hbegins hstuck)
    · have hempty : s.database.searchText condition r = .ok [] :=
        Database.searchText_eq_ok.mpr (.inl (Database.searchOnce_of_begins_false hi hbegins _))
      cases hfilter : r.filter with
      | none =>
        rw [hfilter] at hf
        cases hf
        cases hbegins
      | some f =>
        rw [hfilter] at hnone
        exact .inr ⟨hempty, f, rfl, fun d hd => by simpa [Filter.admits] using hnone d hd⟩
    · exact .inl (Database.searchText_of_begins_none hbegins)

def LexicalRequest.plain (query : String) (h : Text.blank query = false) : LexicalRequest where
  query := query
  query_nonblank := h
  topK_pos := unbounded_ne_zero

/-- A quote that is not closed does not keep a query from being answered. -/
theorem History.answers_unless_stuck_unterminated :
    ∃ s, History [{}] [{ id := "a", content := some "a fox" }] s
      ∧ s.Answers (.plain "\"fox" (by decide)) := by
  have h₀ := @History.created {} {} _ rfl rfl
  have h := @History.written _ _ [{ id := "a", content := some "a fox" }] _ _ .fail _ h₀ rfl
  have hdocs : ∀ d ∈ [({ id := "a", content := some "a fox" } : Document)], d.Fits :=
    List.forall_mem_singleton.mpr ⟨.object (by simp), by simp⟩
  obtain ⟨i, hi, hanswers, -⟩ := h.answers_unless_stuck rfl (r := .plain "\"fox" (by decide)) rfl
  refine ⟨_, h, (hanswers ?_).resolve_right ?_⟩
  swap
  · rintro (⟨d, hd, -, hfits⟩ | ⟨-, _, hf, -⟩)
    · exact hfits (hdocs d hd)
    · cases hf
  cases hi
  have hquery : Lexical.readQuery .trigram "\"fox" = .error .unterminated := by cbv
  rintro ⟨fault, hrefused, hfault⟩
  cases hquery.symm.trans hrefused
  rcases hfault with hretried | ⟨-, hsame⟩
  · exact absurd hretried (by decide)
  · exact absurd hsame (by decide)

/-- Two queries that hold a term and are not answered: one that the engine takes for a directive,
and a phrase after a vertical tab. -/
theorem History.not_answers_directive :
    ∃ s, History [{}] [] s ∧ s.config.lexical = true
      ∧ Lexical.HoldsTerm "*fox" ∧ ¬s.Answers (.plain "*fox" (by decide))
      ∧ Lexical.HoldsTerm "\x0b\"fox\"" ∧ ¬s.Answers (.plain "\x0b\"fox\"" (by decide)) := by
  have hanswers {s : Store} {r : LexicalRequest} (h : s.searchText r = .error .engine) :
      ¬s.Answers r := by
    rintro (⟨hits, hhits⟩ | ⟨-, hempty⟩)
    · rw [h] at hhits
      cases hhits
    · rw [h] at hempty
      cases hempty
  have hdirective : Lexical.HoldsTerm "*fox" := Lexical.holdsTerm_iff.mpr (by decide)
  have htab : Lexical.HoldsTerm "\x0b\"fox\"" := Lexical.holdsTerm_iff.mpr (by decide)
  have hquery : Lexical.readQuery .trigram "\x0b\"fox\"" = .error (.syntaxNear "\x0b") := by cbv
  have hstuck : Lexical.IsStuck .trigram "\x0b\"fox\"" :=
    ⟨_, hquery, .inr ⟨htab, by decide⟩⟩
  have h := @History.created {} {} _ rfl rfl
  refine ⟨_, h, rfl, hdirective, hanswers rfl, htab, hanswers ?_⟩
  exact (Store.searchText_eq h.keeps.lock rfl rfl).trans
    (Database.searchText_of_isStuck rfl rfl hstuck)

end DocumentStore
