import DocumentStore.Proofs.Filter.WireFormat
import DocumentStore.Proofs.Text.Characters
import DocumentStore.Retrieval.Retriever

/-! Runs of retrievers. Main statement: a run settles its arguments, checks them in turn, and asks
its store just once if all checks pass; if one does not, the run ends with its error and the store
is not asked at all. -/
namespace DocumentStore

/-- A check of a run, with the error of a run that does not pass it. -/
structure Check where
  passes : Bool
  error : ValidationError

namespace Check

/-- The errors of the checks that are not passed, in the order of the checks. -/
def faults (checks : List Check) : List StoreError :=
  (checks.filter fun c => !c.passes).map fun c => .validation c.error

theorem faults_append (checks checks' : List Check) :
    faults (checks ++ checks') = faults checks ++ faults checks' := by
  rw [faults, List.filter_append, List.map_append]
  rfl

theorem faults_eq_nil {checks : List Check} :
    faults checks = [] ↔ ∀ c ∈ checks, c.passes = true := by
  simp [faults, List.filter_eq_nil_iff]

theorem head?_faults {before after : List Check} {c : Check}
    (hbefore : ∀ b ∈ before, b.passes = true) (hc : c.passes = false) :
    (faults (before ++ c :: after)).head? = some (.validation c.error) := by
  rw [faults_append, faults_eq_nil.mpr hbefore]
  simp [faults, hc]

def count (n : ℤ) (refuse : ℤ → ValidationError) : Check := ⟨decide (0 < n), refuse n⟩

theorem findsFirst_positive (refuse : ℤ → ValidationError) (n : ℤ) :
    FindsFirst (positive refuse n) (faults [count n refuse]) := by
  by_cases hn : 0 < n <;> simp [FindsFirst, positive, faults, count, hn]

def query (s : String) : Check := ⟨s.toList.any fun c => !Text.isBlank c, .emptyQuery⟩

theorem query_eq (s : String) : query s = ⟨!Text.blank s, .emptyQuery⟩ := by
  rw [query, Check.mk.injEq]
  refine ⟨?_, rfl⟩
  rw [Bool.eq_iff_iff, Bool.not_eq_true', Text.blank_eq_false]
  simp

theorem findsFirst_query (s : String) :
    FindsFirst (lift .validation (LexicalRequest.ofQuery s)) (faults [query s]) := by
  rw [query_eq]
  by_cases hs : Text.blank s = false <;>
    simp [FindsFirst, lift, faults, LexicalRequest.ofQuery, hs]

/-- The checks that a query vector has entries, and finite ones only. -/
def vector (v : List Float32) : List Check :=
  [⟨!v.isEmpty, .emptyQueryVector⟩, ⟨v.all Float32.isFinite, .nonFiniteEmbedding "<query>"⟩]

theorem findsFirst_vector (v : List Float32) :
    FindsFirst (lift .validation (VectorRequest.ofVector v)) (faults (vector v)) := by
  by_cases hv : v = []
  · simp [FindsFirst, lift, faults, vector, VectorRequest.ofVector, hv]
  · cases hfinite : v.all Float32.isFinite <;>
      simp [FindsFirst, lift, faults, vector, VectorRequest.ofVector, hv, hfinite]

end Check

theorem positive_eq_ok {refuse : ℤ → ValidationError} {n : ℤ} {k : ℕ}
    (h : positive refuse n = .ok k) : k ≠ 0 ∧ (k : ℤ) = n := by
  unfold positive at h
  split at h
  · have hk : n.toNat = k := Except.ok.inj h
    omega
  · cases h

theorem LexicalRequest.ofQuery_eq_ok {query : String} {q : LexicalRequest}
    (h : ofQuery query = .ok q) : ∃ hquery, q = { query := query, query_nonblank := hquery } := by
  unfold ofQuery at h
  split at h
  · rename_i hquery
    exact ⟨hquery, (Except.ok.inj h).symm⟩
  · cases h

theorem LexicalRequest.withTopK_eq_ok {k : Option ℕ} {q q' : LexicalRequest}
    (h : q.withTopK k = .ok q') : ∃ hk, q' = { q with topK := k, topK_pos := hk } := by
  unfold withTopK at h
  split at h
  · cases h
  · rename_i hk
    exact ⟨hk, (Except.ok.inj h).symm⟩

theorem VectorRequest.ofVector_eq_ok {vector : List Float32} {q : VectorRequest}
    (h : ofVector vector = .ok q) :
    ∃ hvector hfinite,
      q = { vector := vector, vector_nonempty := hvector, vector_finite := hfinite } := by
  unfold ofVector at h
  split at h
  · cases h
  · split at h
    · rename_i hvector hfinite
      exact ⟨hvector, hfinite, (Except.ok.inj h).symm⟩
    · cases h

theorem VectorRequest.withTopK_eq_ok {k : Option ℕ} {q q' : VectorRequest}
    (h : q.withTopK k = .ok q') : ∃ hk, q' = { q with topK := k, topK_pos := hk } := by
  unfold withTopK at h
  split at h
  · cases h
  · rename_i hk
    exact ⟨hk, (Except.ok.inj h).symm⟩

theorem VectorRequest.withCandidates_eq_ok {n : ℕ} {q q' : VectorRequest}
    (h : q.withCandidates n = .ok q') :
    ∃ hn, q' = { q with candidates := n, candidates_pos := hn } := by
  unfold withCandidates at h
  split at h
  · rename_i hn
    exact ⟨hn, (Except.ok.inj h).symm⟩
  · cases h

namespace LexicalRetriever

variable (r : LexicalRetriever) (a : Arguments)

def checks : List Check :=
  [.count (a.topK.getD r.topK) .invalidTopK, .query a.query]

/-- What a run asks for: each argument as it is given, or else as the retriever has it. -/
structure IsAsked (q : LexicalRequest) : Prop where
  query : q.query = a.query
  filter : q.filter = a.filter.or r.filter
  topK : ∃ k : ℕ, q.topK = some k ∧ (k : ℤ) = a.topK.getD r.topK
  snippet : q.snippet = r.snippet
  highlight : q.highlight = r.highlight

theorem findsFirst_request : FindsFirst (r.request a) (Check.faults (r.checks a)) := by
  have hsplit : r.checks a
      = [.count (a.topK.getD r.topK) .invalidTopK] ++ ([.query a.query] ++ []) := rfl
  rw [hsplit, Check.faults_append, Check.faults_append]
  refine (Check.findsFirst_positive _ _).bind fun k hk => ?_
  refine (Check.findsFirst_query _).bind fun q hq => ?_
  have hk := (positive_eq_ok hk).1
  simp [FindsFirst, LexicalRequest.withTopK, hk, lift, bind, Except.bind, pure, Except.pure,
    Check.faults]

theorem isAsked_of_request {q : LexicalRequest} (h : r.request a = .ok q) : r.IsAsked a q := by
  obtain ⟨k, hk, h⟩ := bind_eq_ok h
  obtain ⟨q₀, hq₀, h⟩ := bind_eq_ok h
  obtain ⟨q₁, hq₁, h⟩ := bind_eq_ok h
  obtain ⟨_, rfl⟩ := LexicalRequest.ofQuery_eq_ok (lift_eq_ok hq₀)
  obtain ⟨_, rfl⟩ := LexicalRequest.withTopK_eq_ok (lift_eq_ok hq₁)
  cases h
  exact ⟨rfl, rfl, ⟨k, rfl, (positive_eq_ok hk).2⟩, rfl, rfl⟩

end LexicalRetriever

namespace VectorRetriever

variable (r : VectorRetriever) (a : Arguments)

def checks : List Check :=
  .count (a.topK.getD r.topK) .invalidTopK
    :: .count (a.candidates.getD r.candidates) .invalidNumCandidates :: Check.vector a.vector

/-- What a run asks for: each argument as it is given, or else as the retriever has it. -/
structure IsAsked (q : VectorRequest) : Prop where
  vector : q.vector = a.vector
  filter : q.filter = a.filter.or r.filter
  topK : ∃ k : ℕ, q.topK = some k ∧ (k : ℤ) = a.topK.getD r.topK
  candidates : (q.candidates : ℤ) = a.candidates.getD r.candidates

theorem findsFirst_request : FindsFirst (r.request a) (Check.faults (r.checks a)) := by
  have hsplit : r.checks a = [.count (a.topK.getD r.topK) .invalidTopK]
      ++ ([.count (a.candidates.getD r.candidates) .invalidNumCandidates]
        ++ (Check.vector a.vector ++ [])) := by
    simp [checks]
  rw [hsplit, Check.faults_append, Check.faults_append, Check.faults_append]
  refine (Check.findsFirst_positive _ _).bind fun k hk => ?_
  refine (Check.findsFirst_positive _ _).bind fun n hn => ?_
  refine (Check.findsFirst_vector _).bind fun q hq => ?_
  have hk := (positive_eq_ok hk).1
  have hn := Nat.pos_of_ne_zero (positive_eq_ok hn).1
  simp [FindsFirst, VectorRequest.withTopK, VectorRequest.withCandidates, hk, hn, lift, bind,
    Except.bind, Check.faults]

theorem isAsked_of_request {q : VectorRequest} (h : r.request a = .ok q) : r.IsAsked a q := by
  obtain ⟨k, hk, h⟩ := bind_eq_ok h
  obtain ⟨n, hn, h⟩ := bind_eq_ok h
  obtain ⟨q₀, hq₀, h⟩ := bind_eq_ok h
  obtain ⟨q₁, hq₁, hq⟩ := bind_eq_ok h
  obtain ⟨_, _, rfl⟩ := VectorRequest.ofVector_eq_ok (lift_eq_ok hq₀)
  obtain ⟨_, rfl⟩ := VectorRequest.withTopK_eq_ok (lift_eq_ok hq₁)
  obtain ⟨_, rfl⟩ := VectorRequest.withCandidates_eq_ok (lift_eq_ok hq)
  exact ⟨rfl, rfl, ⟨k, rfl, (positive_eq_ok hk).2⟩, (positive_eq_ok hn).2⟩

end VectorRetriever

abbrev Answer : Type := Except StoreError (List Hit)

/-- A store that writes down the requests that it is asked. -/
def recording {m : Type → Type} [Monad m] {Request : Type} (ask : Request → m Answer)
    (q : Request) : StateT (List Request) m Answer := do
  modify (· ++ [q])
  ask q

/-- How a hit is presented: with its score squashed, if it has one and scores are to be squashed,
and with all else as it was found. -/
structure Hit.IsPresented (squashes : Bool) (found shown : Hit) : Prop where
  score : shown.score = if squashes then found.score.map squash else found.score
  document : shown.document = { found.document with score := shown.score }
  excerpts : shown.excerpts = found.excerpts

/-- What it is for a run to ask a store once if all checks pass, and not at all if one does not. -/
structure AsksOnce {Request : Type} (checks : List Check) (IsAsked : Request → Prop)
    (IsPresented : Hit → Hit → Prop)
    (run : ∀ (m : Type → Type) [Monad m], (Request → m Answer) → m Answer) : Prop where
  /-- If all checks pass, the store is asked for one request. Its error is passed on, and so are its
  hits, one for one. -/
  asked : (∀ c ∈ checks, c.passes = true) →
    ∃ (q : Request) (present : List Hit → List Hit),
      IsAsked q ∧ (∀ hits, List.Forall₂ IsPresented hits (present hits))
        ∧ ∀ (m : Type → Type) [Monad m] [LawfulMonad m] (ask : Request → m Answer) earlier,
          (run _ (recording ask)).run earlier
            = (fun answer => (answer.map present, earlier ++ [q])) <$> ask q
  /-- The first check that does not pass gives the error, and the store is left alone. -/
  refused : ∀ before c after, checks = before ++ c :: after → (∀ b ∈ before, b.passes = true) →
    c.passes = false →
      ∀ (m : Type → Type) [Monad m] [LawfulMonad m] (ask : Request → m Answer) earlier,
        (run _ (recording ask)).run earlier = pure (.error (.validation c.error), earlier)
  /-- A store of any kind of state is asked just if all checks pass. -/
  asked_iff : ∀ {σ : Type} (ask : Request → StateM σ Answer) (s : σ),
    (((run _ (recording ask)).run []).run s).1.2 ≠ [] ↔ ∀ c ∈ checks, c.passes = true

section

variable {Request : Type} {checks : List Check} {IsAsked : Request → Prop}
  {IsPresented : Hit → Hit → Prop}
  {run : ∀ (m : Type → Type) [Monad m], (Request → m Answer) → m Answer}
  {request : Except StoreError Request} {present : List Hit → List Hit}

/-- A run asks once if it makes its request first, and then asks a store for it. -/
theorem asksOnce (hchecks : FindsFirst request (Check.faults checks))
    (hasked : ∀ q, request = .ok q → IsAsked q)
    (hpresented : ∀ hits, List.Forall₂ IsPresented hits (present hits))
    (hok : ∀ q, request = .ok q → ∀ (m : Type → Type) [Monad m] [LawfulMonad m]
      (ask : Request → m Answer), run m ask = (fun answer => answer.map present) <$> ask q)
    (herror : ∀ e, request = .error e → ∀ (m : Type → Type) [Monad m] [LawfulMonad m]
      (ask : Request → m Answer), run m ask = pure (.error e)) :
    AsksOnce checks IsAsked IsPresented run := by
  have hrun {q : Request} (hq : request = .ok q) (m : Type → Type) [Monad m] [LawfulMonad m]
      (ask : Request → m Answer) (earlier : List Request) :
      (run _ (recording ask)).run earlier
        = (fun answer => (answer.map present, earlier ++ [q])) <$> ask q := by
    rw [hok q hq]
    simp [recording]
  have hrefused {e : StoreError} (he : request = .error e) (m : Type → Type) [Monad m]
      [LawfulMonad m] (ask : Request → m Answer) (earlier : List Request) :
      (run _ (recording ask)).run earlier = pure (.error e, earlier) := by
    rw [herror e he]
    simp
  refine ⟨fun hpass => ?_, fun before c after hsplit hbefore hc m _ _ ask earlier => ?_,
    fun ask s => ?_⟩
  · obtain ⟨q, hq⟩ := hchecks.exists_ok_iff.mpr (Check.faults_eq_nil.mpr hpass)
    exact ⟨q, present, hasked q hq, hpresented, fun m _ _ => hrun hq m⟩
  · have he := (hchecks.error_iff (.validation c.error)).mpr
      (by rw [hsplit]; exact Check.head?_faults hbefore hc)
    exact hrefused he m ask earlier
  · rw [← Check.faults_eq_nil, ← hchecks.exists_ok_iff]
    cases hrequest : request with
    | ok q =>
      rw [hrun hrequest]
      simp
    | error e =>
      rw [hrefused hrequest]
      exact iff_of_false (fun h => h rfl) (by simp)

end

theorem Hit.eq_of_isPresented {found shown : Hit} (h : Hit.IsPresented false found shown) :
    found = shown := by
  have hdocument : shown.document = found.document := by
    have hscore : shown.score = found.score := h.score
    rw [h.document, hscore]
    rfl
  have hexcerpts := h.excerpts
  cases found
  cases shown
  simp_all

theorem Hit.isPresented_shown (squashes : Bool) (hits : List Hit) :
    List.Forall₂ (Hit.IsPresented squashes) hits
      (if squashes then hits.map Hit.squashed else hits) := by
  cases squashes with
  | true => exact List.forall₂_map_right_iff.mpr (List.forall₂_same.mpr fun h _ => ⟨rfl, rfl, rfl⟩)
  | false => exact List.forall₂_same.mpr fun h _ => ⟨rfl, rfl, rfl⟩

/-- Retrievers settle their arguments, check them in turn, and ask their store just once if all
checks pass. What the store answers is passed on, with its scores squashed if a text search is to
squash them. -/
theorem retrievers_ask_once :
    (∀ (r : LexicalRetriever) (a : LexicalRetriever.Arguments),
        AsksOnce (r.checks a) (r.IsAsked a) (Hit.IsPresented (a.squashScores.getD r.squashScores))
          fun _ _ ask => r.run ask a)
      ∧ ∀ (r : VectorRetriever) (a : VectorRetriever.Arguments),
        AsksOnce (r.checks a) (r.IsAsked a) Eq fun _ _ ask => r.run ask a := by
  constructor
  · intro r a
    refine asksOnce (r.findsFirst_request a) (fun q => r.isAsked_of_request a)
      (Hit.isPresented_shown (a.squashScores.getD r.squashScores)) ?_ ?_
    · intro q hq m _ _ ask
      simp [LexicalRetriever.run, hq]
    · intro e he m _ _ ask
      simp [LexicalRetriever.run, he]
  · intro r a
    refine asksOnce (r.findsFirst_request a) (fun q => r.isAsked_of_request a)
      (fun hits => List.forall₂_refl hits) ?_ ?_
    · intro q hq m _ _ ask
      have hsame : (fun answer : Answer => answer.map fun hits => hits) = id := by
        funext answer
        cases answer <;> rfl
      simp [VectorRetriever.run, hq, hsame]
    · intro e he m _ _ ask
      simp [VectorRetriever.run, he]

/-- A store that counts its searches, and finds one document by every query. -/
def countingStore (_ : LexicalRequest) : StateM ℕ Answer := fun n =>
  (.ok [{ document := { id := "a", score := some (-1) } }], n + 1)

/-- What is given explicitly wins over what the retriever has, and a bound below zero is refused
before a blank query is. -/
theorem retrievers_ask_once_explicit :
    ((LexicalRetriever.run (recording countingStore) { topK := 5, squashScores := true }
        { query := "fox", topK := some 2, squashScores := some false }).run []).run 0
      = ((.ok [{ document := { id := "a", score := some (-1) } }],
          [{ query := "fox", topK := some 2, query_nonblank := by decide }]), 1)
      ∧ ((LexicalRetriever.run (recording countingStore) {} { query := " ", topK := some (-3) }).run
        []).run 0 = ((.error (.validation (.invalidTopK (-3))), []), 0) := by
  constructor
  · obtain ⟨q, present, hq, hpresent, hrun⟩ := (retrievers_ask_once.1
      { topK := 5, squashScores := true }
      { query := "fox", topK := some 2, squashScores := some false }).asked (by decide)
    obtain ⟨k, htopK, hk⟩ := hq.topK
    obtain rfl : k = 2 := Int.ofNat.inj hk
    have hq : q = { query := "fox", topK := some 2, query_nonblank := by decide } := by
      obtain ⟨hquery, hfilter, -, hsnippet, hhighlight⟩ := hq
      cases q
      simp_all
    have hpresent (hits : List Hit) : present hits = hits := by
      have hall := (hpresent hits).imp fun _ _ => Hit.eq_of_isPresented
      rw [List.forall₂_eq_eq_eq] at hall
      exact hall.symm
    rw [hrun, hq]
    show ((Except.ok (present _), _), _) = _
    rw [hpresent]
    rfl
  · have hrefused := (retrievers_ask_once.1 {} { query := " ", topK := some (-3) }).refused
      [] _ _ rfl (by simp) (by decide) (StateM ℕ) countingStore []
    exact congrArg (fun x => x.run 0) hrefused

end DocumentStore
