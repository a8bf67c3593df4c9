import DocumentStore.Proofs.Document.Building
import DocumentStore.Proofs.Document.Identity
import DocumentStore.Proofs.Store.Hits

/-! Generated ids of stored documents. Main statement: a document that was stored under the digest
of its contents is given back under the digest of its contents just if all its numbers are given
back by their texts and its dataframe is not null, unless two contents have the same digest. -/
namespace DocumentStore

namespace Document

variable {d : Document}

theorem sameContents_readBack_iff (hp : d.IsProper) :
    d.SameContents d.readBack ↔ d.readBack = d := by
  refine ⟨fun h => ?_, fun h => ?_⟩
  · have hmetadata : d.readBack.metadata = d.metadata := by
      have hreread : (Json.object d.metadata).reread = .object d.metadata :=
        Json.reread_eq_self_of_text (Json.IsProper.isFinite_reals _ hp.metadata) h.metadata.symm
      rw [Json.reread] at hreread
      exact Json.object.inj hreread
    have hdataframe : d.readBack.dataframe = d.dataframe := by
      have htexts := h.dataframe
      rw [readBack] at htexts ⊢
      cases hframe : d.dataframe with
      | none => rfl
      | some v =>
        rw [hframe, Option.map_some, Option.map_some] at htexts
        by_cases hnull : v.reread = .null
        · simp [hnull, Option.filter] at htexts
        · simp only [Option.filter, hnull, ne_eq, not_false_eq_true, decide_true, if_true,
            Option.map_some, Option.some.injEq] at htexts ⊢
          exact Json.reread_eq_self_of_text
            (Json.IsProper.isFinite_reals v (hp.dataframe v hframe)) htexts.symm
    have hembedding : d.readBack.embedding = d.embedding := by
      have hbits : Function.Injective (Option.map (List.map Float32.toBits)) :=
        Option.map_injective (List.map_injective_iff.mpr fun _ _ => Float32.toBits_inj.mp)
      exact (hbits h.embedding).symm
    calc d.readBack
        = { d with
            metadata := d.readBack.metadata
            dataframe := d.readBack.dataframe
            embedding := d.readBack.embedding } := rfl
      _ = d := by rw [hmetadata, hdataframe, hembedding]
  · rw [h]
    exact ⟨rfl, rfl, rfl, rfl, rfl⟩

end Document

def Blake3.Collide (a b : Bytes) : Prop := a ≠ b ∧ hex a = hex b

/-- What it is for a store to give a document back: by its id, under a filter, or in a hit. -/
inductive Store.Gives (s : Store) : Document → Prop where
  | got {id : String} {e : Document} (h : s.get id = .ok (some e)) : s.Gives e
  | filtered {f : Option Filter} {found : List Document} (h : s.filter f = .ok found) {e : Document}
      (he : e ∈ found) : s.Gives e
  | matched {r : LexicalRequest} {hits : List Hit} (h : s.searchText r = .ok hits) {hit : Hit}
      (hhit : hit ∈ hits) : s.Gives hit.document
  | near {r : VectorRequest} {hits : List Hit} (h : (s.searchVector r).1 = some (.ok hits))
      {hit : Hit} (hhit : hit ∈ hits) : s.Gives hit.document

namespace History

variable {cs : List Config} {docs : List Document} {s : Store} {d e : Document}

theorem reread_of_get (h : History cs docs s) {id : String} (hget : s.get id = .ok (some e)) :
    ∃ d ∈ docs, d.reread = .ok e := by
  rw [h.get_eq] at hget
  cases hfind : docs.find? fun d => d.id == id with
  | none =>
    rw [hfind] at hget
    cases hget
  | some d =>
    rw [hfind] at hget
    obtain ⟨e', he', hsome⟩ := map_eq_ok (x := d.reread) hget
    cases hsome
    exact ⟨d, List.mem_of_find?_eq_some hfind, he'⟩

theorem reread_of_filter (h : History cs docs s) {f : Option Filter} {found : List Document}
    (hfilter : s.filter f = .ok found) (he : e ∈ found) : ∃ d ∈ docs, d.reread = .ok e := by
  obtain ⟨db, -, hcompiled⟩ := bind_eq_ok hfilter
  obtain ⟨condition, hf, -⟩ := bind_eq_ok hcompiled
  rcases h.filter_eq hf with hselected | ⟨hfailed, -⟩
  · obtain ⟨d, hd, hread⟩ := exists_of_mem_mapM (hselected.symm.trans hfilter) he
    exact ⟨d, (List.mem_filter.mp hd).1, hread⟩
  · cases hfailed.symm.trans hfilter

/-- What a store gives back is one of its documents as it is read back, under some score. -/
theorem reread_of_gives (h : History cs docs s) (he : s.Gives e) :
    ∃ d ∈ docs, ∃ e', d.reread = .ok e' ∧ e = { e' with score := e.score } := by
  have hhit {score : ℤ × Document → Float → Prop} {names : List String} {hits : List Hit}
      {ds : Numbered} (hds : ds.documents = docs) (hall : Hit.AreRanked s ds score names hits)
      {hit : Hit} (hmem : hit ∈ hits) :
      ∃ d ∈ docs, ∃ e', d.reread = .ok e'
        ∧ hit.document = { e' with score := hit.document.score } := by
    obtain ⟨-, p, -, x, -, hcarries⟩ := hall.carried hit hmem
    obtain ⟨d, hd, hread⟩ := h.reread_of_get hcarries.got
    exact ⟨d, hd, _, hread, rfl⟩
  obtain ⟨ds, hds, hdocs⟩ := h.keeps.holds
  subst hdocs
  cases he with
  | got hget =>
    obtain ⟨d, hd, hread⟩ := h.reread_of_get hget
    exact ⟨d, hd, _, hread, rfl⟩
  | filtered hfilter he =>
    obtain ⟨d, hd, hread⟩ := h.reread_of_filter hfilter he
    exact ⟨d, hd, _, hread, rfl⟩
  | matched hsearch hmem => exact hhit rfl (h.areRanked_of_searchText hds hsearch) hmem
  | near hsearch hmem => exact hhit rfl (h.areRanked_of_searchVector hds hsearch) hmem

/-- What is given back under the id of a document that a caller can hold, is what its texts say. -/
theorem eq_readBack_of_gives (h : History cs docs s) (hd : d ∈ docs) (hp : d.IsProper)
    (he : s.Gives e) (hid : e.id = d.id) : e = { d.readBack with score := e.score } := by
  obtain ⟨d', hd', e', hread, heq⟩ := h.reread_of_gives he
  have hsame : d'.id = d.id := by
    rw [← Document.id_of_reread hread, ← hid, heq]
  obtain rfl := List.inj_on_of_nodup_map h.ids_nodup hd' hd hsame
  rw [heq, Document.eq_readBack_of_reread hp hread]

/-- At every point of a history, let a document in the store have the digest of its contents for its
id, and let the store give back a document under this id. If all numbers of the stored document are
given back by their texts, and its dataframe is not null, it is given back with the same contents,
and its id is still the digest of them and follows every builder. Otherwise the id is no longer the
digest of the contents, and every builder takes it for one that was chosen, unless the contents
before and after have the same digest. -/
theorem stays_generated (h : History cs docs s) (hd : d ∈ docs) (hp : d.IsProper)
    (hgenerated : d.id = d.contentId) (he : s.Gives e) (hid : e.id = d.id) :
    (d.KeepsNumbers ∧ d.dataframe ≠ some .null →
        e = { d with score := e.score } ∧ e.id = e.contentId
          ∧ ∀ a, (e.build a).id = (e.build a).contentId)
      ∧ (¬(d.KeepsNumbers ∧ d.dataframe ≠ some .null) → d.HasShortFields → e.HasShortFields →
        e.id ≠ e.contentId ∧ (∀ a, (e.build a).id = e.id)
          ∨ Blake3.Collide d.contentBytes e.contentBytes) := by
  have heq := h.eq_readBack_of_gives hd hp he hid
  have hsame := Document.readBack_eq_self_iff (h.finite_embedding d hd)
  refine ⟨fun hkeeps => ?_, fun hloses hshort hshort' => ?_⟩
  · rw [hsame.mpr hkeeps] at heq
    have hstill : e.id = e.contentId := by
      rw [hid, hgenerated, heq]
      rfl
    exact ⟨heq, hstill, fun a => Document.id_build (.inr hstill)⟩
  · have hbytes : d.contentBytes ≠ e.contentBytes := by
      intro hbytes
      rw [Document.contentBytes_eq, Document.contentBytes_eq] at hbytes
      have hframed : d.framed = e.framed := frames_inj rfl hshort hshort' hbytes
      have hread : e.framed = d.readBack.framed := by
        rw [heq]
        rfl
      have hcontents := Document.framed_eq_iff.mp (hframed.trans hread)
      exact hloses (hsame.mp ((Document.sameContents_readBack_iff hp).mp hcontents))
    by_cases hdigest : e.id = e.contentId
    · exact .inr ⟨hbytes, hgenerated.symm.trans (hid.symm.trans hdigest)⟩
    · have hne : e.id ≠ "" := by
        rw [hid, hgenerated]
        exact (Document.ne_contentId (by decide) d).symm
      exact .inl ⟨hdigest, fun a => Document.id_build_of_chosen hne hdigest⟩

end History

/-- A document with a number behind a key, under its digest. -/
def Document.numbered (x : Float) : Document :=
  ({ content := some "a fox", metadata := [("n", .real x)] } : Document).withContentId

namespace Document

variable {x : Float}

@[simp] theorem metadata_numbered : (numbered x).metadata = [("n", .real x)] := rfl

@[simp] theorem dataframe_numbered : (numbered x).dataframe = none := rfl

@[simp] theorem embedding_numbered : (numbered x).embedding = none := rfl

theorem reread_numbered (x : Float) : (numbered x).reread = .ok (numbered x).readBack := by
  have hfits : (numbered x).Fits := ⟨.object (by simpa using .real _ x), by simp⟩
  have hsorted : (numbered x).IsSorted :=
    ⟨.object (by simp) (by simpa using .scalar trivial), by simp⟩
  rw [Database.reread_eq]
  exact (Record.toDocument_readBack (hfits.readsBack hsorted) _).1 (by simp [HasFiniteEmbedding])

end Document

theorem History.numbered (x : Float) :
    ∃ s, History [{}] [Document.numbered x] s
      ∧ s.get (Document.numbered x).id = .ok (some (Document.numbered x).readBack) := by
  have h₀ := @History.created {} {} _ rfl rfl
  have h := @History.written _ _ [Document.numbered x] _ _ .fail _ h₀ rfl
  refine ⟨_, h, ?_⟩
  rw [h.get_of_mem (List.mem_singleton_self _), Document.reread_numbered]
  rfl

/-- A half is stored and given back as it is. -/
theorem History.stays_generated_half :
    ∃ s e, History [{}] [Document.numbered 0.5] s ∧ s.get (Document.numbered 0.5).id = .ok (some e)
      ∧ e.id = e.contentId ∧ ∀ a, (e.build a).id = (e.build a).contentId := by
  obtain ⟨s, h, hget⟩ := History.numbered 0.5
  have hproper : (Document.numbered 0.5).IsProper := by
    have hhalf : (0.5 : Float).isFinite = true := by decide +kernel
    exact ⟨⟨by simp, by simp [Json.IsProper, Json.AreProperFields, hhalf]⟩, by simp⟩
  have hkeeps : (Document.numbered 0.5).KeepsNumbers :=
    ⟨by rw [Document.metadata_numbered]; decide +kernel, by simp, by simp⟩
  obtain ⟨hgenerated, -⟩ :=
    h.stays_generated (List.mem_singleton_self _) hproper rfl (.got hget) rfl
  obtain ⟨-, hid, hbuild⟩ := hgenerated ⟨hkeeps, by simp⟩
  exact ⟨s, _, h, hget, hid, hbuild⟩

theorem Blake3.hex_of_short {bytes : Bytes} (h : bytes.length ≤ chunkBytes) :
    hex bytes = String.ofList (((chunk 0 bytes).root.toList.flatMap bytesOf).flatMap hexByte) := by
  rw [hex, chunks, dif_pos h]
  simp only [joinAll]

/-- A number that is not read from its text as it was gives the document another digest than its
id. -/
theorem History.not_generated_inexact :
    ∃ (s : Store) (d e : Document), History [{}] [d] s ∧ d.id = d.contentId
      ∧ s.get d.id = .ok (some e) ∧ e.id ≠ e.contentId ∧ ∀ a, (e.build a).id = e.id := by
  obtain ⟨s, h, hget⟩ := History.numbered 1e-23
  have hid :
      (Document.numbered 1e-23).readBack.id ≠ (Document.numbered 1e-23).readBack.contentId := by
    change Blake3.hex _ ≠ Blake3.hex _
    -- Both contents fit a chunk, so that no recursion over chunks is in the way of the evaluation.
    rw [Blake3.hex_of_short (by decide +kernel), Blake3.hex_of_short (by decide +kernel)]
    decide +kernel
  have hne : (Document.numbered 1e-23).readBack.id ≠ "" :=
    (Document.ne_contentId (by decide) (Document.numbered 1e-23)).symm
  exact ⟨s, _, _, h, rfl, hget, hid, fun a => Document.id_build_of_chosen hne hid⟩

end DocumentStore
