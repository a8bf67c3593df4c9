import DocumentStore.Proofs.Store.History

/-! When a batch is refused. A faulty embedding anywhere in it comes before every clash of ids, and
among faults and among clashes the first one counts. A refused batch leaves nothing behind. -/
namespace DocumentStore

open OrderedMap

/-- What is wrong with the embedding of a document. Its numbers come before their count. -/
inductive EmbeddingFault (dims : Option Nat) (d : Document) : ValidationError → Prop where
  | nonFinite {xs : List Float32} (hx : d.embedding = some xs)
      (hf : ∃ x ∈ xs, x.isFinite = false) : EmbeddingFault dims d (.nonFiniteEmbedding d.id)
  | misfit {xs : List Float32} {n : Nat} (hx : d.embedding = some xs)
      (hf : ∀ x ∈ xs, x.isFinite = true) (hd : dims = some n) (hn : xs.length ≠ n) :
      EmbeddingFault dims d (.dimensionMismatch n xs.length)

/-- Why a batch is refused by a store that holds `docs`. -/
inductive Refusal (dims : Option Nat) (policy : DuplicatePolicy) (docs batch : List Document) :
    StoreError → Prop where
  | embedding {before after : List Document} {d : Document} {e : ValidationError}
      (hb : batch = before ++ d :: after)
      (hfirst : ∀ b ∈ before, ∀ e, ¬EmbeddingFault dims b e) (he : EmbeddingFault dims d e) :
      Refusal dims policy docs batch (.validation e)
  /-- No id before the clashing one is taken or repeated. -/
  | duplicate {before after : List Document} {d : Document}
      (hsound : ∀ b ∈ batch, ∀ e, ¬EmbeddingFault dims b e)
      (hp : policy = .fail ∨ policy = .none) (hb : batch = before ++ d :: after)
      (hfirst : (idsOf docs ++ idsOf before).Nodup) (hd : d.id ∈ idsOf docs ++ idsOf before) :
      Refusal dims policy docs batch (.duplicateDocument d.id)

theorem embeddingFault?_eq_some {dims : Option Nat} {d : Document} {e : ValidationError} :
    embeddingFault? dims d = some e ↔ EmbeddingFault dims d e := by
  constructor
  · intro h
    unfold embeddingFault? at h
    cases hx : d.embedding with
    | none => simp [hx] at h
    | some xs =>
      rw [hx] at h
      dsimp only at h
      split at h
      · rename_i hf
        cases h
        exact .nonFinite hx (by simpa using hf)
      · rename_i hf
        have hf : ∀ x ∈ xs, x.isFinite = true := by simpa using hf
        split at h
        · rename_i n
          split at h
          · cases h
          · rename_i hn
            cases h
            exact .misfit hx hf rfl hn
        · cases h
  · intro h
    cases h with
    | @nonFinite xs hx hf =>
      have hall : (!xs.all Float32.isFinite) = true := by simpa using hf
      simp only [embeddingFault?, hx, hall, if_true]
    | @misfit xs n hx hf hd hn =>
      have hall : (!xs.all Float32.isFinite) = false := by simpa using hf
      simp only [embeddingFault?, hx, hall, hd, hn, Bool.false_eq_true, if_false]

theorem embeddingFault?_eq_none {dims : Option Nat} {d : Document} :
    embeddingFault? dims d = none ↔ ∀ e, ¬EmbeddingFault dims d e := by
  simp only [← embeddingFault?_eq_some]
  cases embeddingFault? dims d <;> simp

theorem validateEmbeddings_first {dims : Option Nat} {before after : List Document} {d : Document}
    {e : ValidationError} (hfirst : ∀ b ∈ before, ∀ e, ¬EmbeddingFault dims b e)
    (he : EmbeddingFault dims d e) :
    validateEmbeddings dims (before ++ d :: after) = .error (.validation e) := by
  have hf : (before ++ d :: after).findSome? (embeddingFault? dims) = some e := by
    rw [List.findSome?_eq_some_iff]
    exact ⟨before, d, after, rfl, embeddingFault?_eq_some.mpr he,
      fun b hb => embeddingFault?_eq_none.mpr (hfirst b hb)⟩
  rw [validateEmbeddings, hf]

theorem validateEmbeddings_sound {dims : Option Nat} {batch : List Document}
    (hsound : ∀ b ∈ batch, ∀ e, ¬EmbeddingFault dims b e) :
    validateEmbeddings dims batch = .ok () := by
  have hf : batch.findSome? (embeddingFault? dims) = none := by
    rw [List.findSome?_eq_none_iff]
    exact fun b hb => embeddingFault?_eq_none.mpr (hsound b hb)
  rw [validateEmbeddings, hf]

theorem exists_first_fault (dims : Option Nat) (batch : List Document) :
    (∃ before d after e, batch = before ++ d :: after
        ∧ (∀ b ∈ before, ∀ e, ¬EmbeddingFault dims b e) ∧ EmbeddingFault dims d e)
      ∨ ∀ b ∈ batch, ∀ e, ¬EmbeddingFault dims b e := by
  cases hf : batch.findSome? (embeddingFault? dims) with
  | none =>
    right
    intro b hb
    exact embeddingFault?_eq_none.mp (List.findSome?_eq_none_iff.mp hf b hb)
  | some e =>
    left
    obtain ⟨before, d, after, hb, he, hfirst⟩ := List.findSome?_eq_some_iff.mp hf
    exact ⟨before, d, after, e, hb, fun b hb => embeddingFault?_eq_none.mp (hfirst b hb),
      embeddingFault?_eq_some.mp he⟩

theorem DuplicatePolicy.resolve_eq_fail {policy : DuplicatePolicy} :
    policy.resolve = .fail ↔ policy = .fail ∨ policy = .none := by
  cases policy <;> simp [resolve]

namespace Store

variable {s : Store} {ds : Numbered} {policy : DuplicatePolicy} {batch : List Document}

theorem write_refused (hlock : s.isPoisoned = false) (hds : s.database.Holds ds) {e : StoreError}
    (h : Refusal s.config.dims policy ds.documents batch e) : (s.write batch policy).1 = .error e := by
  rw [write_eq hlock]
  cases h with
  | embedding hb hfirst he =>
    rw [hb, validateEmbeddings_first hfirst he]
    rfl
  | @duplicate before after d hsound hp hb hfirst hd =>
    have hw : s.database.write policy batch = .error (.duplicateDocument d.id) := by
      rw [hb]
      exact hds.write_refused (DuplicatePolicy.resolve_eq_fail.mpr hp) hfirst hd
    rw [validateEmbeddings_sound hsound]
    simp only [bind, Except.bind, hw, commit]

theorem write_refused_or_ok (hlock : s.isPoisoned = false) (hds : s.database.Holds ds) :
    (∃ e, Refusal s.config.dims policy ds.documents batch e) ∨ ∃ n, (s.write batch policy).1 = .ok n := by
  rcases exists_first_fault s.config.dims batch with ⟨before, d, after, e, hb, hfirst, he⟩ | hsound
  · exact .inl ⟨_, .embedding hb hfirst he⟩
  · by_cases hp : policy.resolve = .fail → (idsOf ds.documents ++ idsOf batch).Nodup
    · right
      obtain ⟨db, _, hw, -, -⟩ := hds.write_taken hp
      refine ⟨changed policy ds.documents batch, ?_⟩
      rw [write_eq hlock, validateEmbeddings_sound hsound]
      simp only [bind, Except.bind, hw, commit]
    · left
      obtain ⟨hp, hn⟩ := Classical.not_imp.mp hp
      have hids : (idsOf ds.documents).Nodup := by
        rw [Numbered.idsOf_documents]
        exact hds.ids
      obtain ⟨before, d, after, hb, hfirst, hd⟩ := exists_first_clash hids hn
      exact ⟨_, .duplicate hsound (DuplicatePolicy.resolve_eq_fail.mp hp) hb hfirst hd⟩

end Store

/-- A write fails exactly for one of the reasons of refusal, with its error, and after a failure the
store is as it was: its documents with their keys and their order, and both indexes. -/
theorem History.write_error_iff {cs : List Config} {docs : List Document} {s : Store}
    (h : History cs docs s) (batch : List Document) (policy : DuplicatePolicy) :
    (∀ e, (s.write batch policy).1 = .error e ↔ Refusal s.config.dims policy docs batch e)
      ∧ ((∃ e, (s.write batch policy).1 = .error e) → (s.write batch policy).2 = s) := by
  have hk := h.keeps
  obtain ⟨ds, hds, rfl⟩ := hk.holds
  constructor
  · intro e
    constructor
    · intro he
      rcases Store.write_refused_or_ok hk.lock hds with ⟨e', hr⟩ | ⟨n, hn⟩
      · have he' := Store.write_refused hk.lock hds hr
        rw [he] at he'
        cases he'
        exact hr
      · rw [he] at hn
        cases hn
    · exact Store.write_refused hk.lock hds
  · rintro ⟨e, he⟩
    exact Store.commit_eq_error (Prod.ext he rfl)

/-- The third document clashes with the first one of its own batch, of which nothing is kept. -/
theorem History.write_error_iff_repeated :
    ∃ s, History [{}] [{ id := "z" }] s
      ∧ Refusal none .fail [{ id := "z" }] [{ id := "a" }, { id := "b" }, { id := "a" }]
          (.duplicateDocument "a")
      ∧ (s.write [{ id := "a" }, { id := "b" }, { id := "a" }] .fail).1
          = .error (.duplicateDocument "a")
      ∧ (s.write [{ id := "a" }, { id := "b" }, { id := "a" }] .fail).2 = s := by
  have h₀ := @History.created {} {} _ rfl rfl
  have h := @History.written _ _ [{ id := "z" }] _ _ .fail _ h₀ rfl
  obtain ⟨hiff, hsame⟩ := h.write_error_iff [{ id := "a" }, { id := "b" }, { id := "a" }] .fail
  exact ⟨_, h, (hiff _).mp rfl, rfl, hsame ⟨_, rfl⟩⟩

end DocumentStore
