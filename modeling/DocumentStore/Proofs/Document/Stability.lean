import DocumentStore.Proofs.Document.Readable
import DocumentStore.Proofs.Json.Rereading

/-! Documents that are stored again. Main statement: a document that is read from any record, and
stored once more, can be read just if its embedding is finite, and is then the same just if all its
numbers are given back by their texts. Blanks, nulls and the order of fields are settled by the
first reading. -/
namespace DocumentStore

namespace Json

theorem numberOfNumeral_ne_null (negative : Bool) (n : Number.Numeral) :
    numberOfNumeral negative n ≠ some .null := by
  have hmap {o : Option Float} {g : Float → Float} :
      (o.map fun x => Json.real (g x)) ≠ some .null := by
    cases o <;> simp
  unfold numberOfNumeral
  simp only
  split
  · split
    · exact hmap
    · split
      · simp
      · split <;> simp
  · split
    · exact hmap
    · split
      · exact hmap
      · split <;> simp

theorem eq_null_of_readValue {depth : ℕ} {cs r : List Char}
    (h : readValue depth cs = some (.null, r)) : cs = ['n', 'u', 'l', 'l'] ++ r := by
  have hscalar {cs : List Char} (h : readScalar cs = some (.null, r)) :
      cs = ['n', 'u', 'l', 'l'] ++ r := by
    unfold readScalar at h
    split at h
    · cases h
      rfl
    · cases h
    · cases h
    · obtain ⟨p, -, hp⟩ := Option.map_eq_some_iff.mp h
      cases hp
    · obtain ⟨p, -, hp⟩ := Option.bind_eq_some_iff.mp h
      simp only at hp
      split at hp
      · cases hp
      · obtain ⟨w, hw, heq⟩ := Option.map_eq_some_iff.mp hp
        cases heq
        exact absurd hw (numberOfNumeral_ne_null _ _)
  cases depth with
  | zero =>
    simp only [readValue] at h
    split at h
    · cases h
    · exact hscalar h
  | succ depth =>
    simp only [readValue] at h
    split at h
    · split at h
      · cases h
      · obtain ⟨p, -, hp⟩ := Option.map_eq_some_iff.mp h
        cases hp
    · split at h
      · cases h
      · obtain ⟨p, -, hp⟩ := Option.map_eq_some_iff.mp h
        cases hp
    · exact hscalar h

theorem trim_of_read_null {s : String} (h : read s = some .null) : Text.trim s = "null" := by
  have hblank {c : Char} (hc : isSpace c = true) : Text.isBlank c = true := by
    simp only [isSpace, Bool.or_eq_true, decide_eq_true_eq] at hc
    rcases hc with ((rfl | rfl) | rfl) | rfl <;> decide
  unfold read readFront at h
  split at h
  · rename_i v r hfront
    split at h
    · rename_i hrest
      cases h
      have hspace : ∀ c ∈ s.toList.takeWhile isSpace, Text.isBlank c = true :=
        fun c hc => hblank (List.mem_takeWhile_imp hc)
      have hafter : ∀ c ∈ r, Text.isBlank c = true := by
        rw [skipSpace, List.isEmpty_iff, List.dropWhile_eq_nil_iff] at hrest
        exact fun c hc => hblank (hrest c hc)
      have hs : s.toList = s.toList.takeWhile isSpace ++ (['n', 'u', 'l', 'l'] ++ r) := by
        rw [← eq_null_of_readValue hfront, skipSpace, List.takeWhile_append_dropWhile]
      rw [Text.trim, hs, Text.trimChars_append hspace hafter (a := 'n') (b := 'l') (by decide)
        (by decide) rfl rfl]
    · cases h
  · cases h

theorem reread_eq_null_iff (v : Json) : v.reread = .null ↔ v.text = "null" := by
  have hnode {w : Json} (hw : Node.ofJson w ≠ .null) : w.text ≠ "null" :=
    fun h => hw (ofJson_eq_of_text (w := .null) h)
  cases v with
  | null => simp [reread, text, chars]
  | real x =>
    rcases Node.realChars_cases x with ⟨hfinite, negative, n, hn, hchars, -⟩ | ⟨-, hchars⟩
    · have htext : (Json.real x).text ≠ "null" := hnode (by simp [Node.ofJson, hfinite])
      obtain ⟨w, hw⟩ := exists_reads_realChars x depthLimit
      have hread := hw.read_eq
      have hne : w ≠ .null := by
        rw [hchars, read_signedChars hn] at hread
        rintro rfl
        exact numberOfNumeral_ne_null _ _ hread
      have hreread : (Json.real x).reread = w := by rw [reread, text, chars, hw.read_eq]; rfl
      simp [hreread, hne, htext]
    · have htext : (Json.real x).text = "null" := by rw [text, chars, hchars]
      simp only [reread, htext, iff_true]
      rfl
  | bool b => simp [reread, hnode (w := .bool b) (by simp [Node.ofJson])]
  | integer n => simp [reread, hnode (w := .integer n) (by simp [Node.ofJson])]
  | string s => simp [reread, hnode (w := .string s) (by simp [Node.ofJson])]
  | array items => simp [reread, hnode (w := .array items) (by simp [Node.ofJson])]
  | object fields => simp [reread, hnode (w := .object fields) (by simp [Node.ofJson])]

end Json

/-- What is read of a document that was stored. -/
def Document.readBack (d : Document) : Document :=
  { d with
    metadata := Json.rereadFields d.metadata
    dataframe := (d.dataframe.map Json.reread).filter (· ≠ .null)
    embedding := d.embedding.map (·.map Json.rereadSingle) }

/-- Whether the objects in a document have their fields in the order of their keys. -/
structure Document.IsSorted (d : Document) : Prop where
  metadata : (Json.object d.metadata).IsSorted
  dataframe : ∀ v ∈ d.dataframe, v.IsSorted

/-- Whether every number of a document is given back by its text. -/
structure Document.KeepsNumbers (d : Document) : Prop where
  metadata : ∀ x ∈ (Json.object d.metadata).reals, Json.IsLegible x
  dataframe : ∀ v ∈ d.dataframe, ∀ x ∈ v.reals, Json.IsLegible x
  embedding : ∀ xs ∈ d.embedding, ∀ x ∈ xs, Json.IsLegibleSingle x

/-- Whether the texts of a document are read as its values, save for their numbers. -/
structure Document.ReadsBack (d : Document) : Prop where
  metadata : Json.read (Json.object d.metadata).text = some (Json.object d.metadata).reread
  dataframe : ∀ v ∈ d.dataframe, Json.read v.text = some v.reread

theorem Document.Fits.readsBack {d : Document} (h : d.Fits) (hsorted : d.IsSorted) :
    d.ReadsBack where
  metadata := Json.read_text_eq_reread h.metadata hsorted.metadata
  dataframe v hv := Json.read_text_eq_reread (h.dataframe v hv) (hsorted.dataframe v hv)

namespace Record

variable {d : Document}

theorem present?_of_text_ne_null {v : Json} (h : v.text ≠ "null") : present? v.text = some v.text := by
  refine present?_of_trim (Json.trim_text v) (fun hempty => ?_) h
  obtain ⟨c, t, hchars, -⟩ := Node.chars_isFront v Number.stops_nil
  have hnil : v.chars = [] := String.ofList_injective hempty
  rw [hnil] at hchars
  cases hchars

/-- A document that a caller can hold and that can be read after it was stored, reads back, however
deeply its values are nested. -/
theorem readsBack_of_toDocument {e : Document} {score : Option Float} (hp : d.IsProper)
    (h : toDocument { ofDocument d with score := score } = .ok e) : d.ReadsBack := by
  have hmetadata := (isReadAs h).metadata
  have hdataframe := (isReadAs h).dataframe
  constructor
  · have hnull : (Json.object d.metadata).text ≠ "null" := fun hnull => by
      rw [← Json.reread_eq_null_iff, Json.reread] at hnull
      cases hnull
    simp only [readMetadata, ofDocument, present?_of_text_ne_null hnull] at hmetadata
    cases hread : Json.read (Json.object d.metadata).text with
    | none => simp [hread] at hmetadata
    | some w => rw [hp.metadata.eq_reread_of_read hread]
  · intro v hframe
    by_cases hnull : v.text = "null"
    · rw [hnull, (Json.reread_eq_null_iff v).mpr hnull]
      rfl
    · have hv : v ≠ .null := by
        rintro rfl
        exact hnull rfl
      have hstored : (ofDocument d).dataframe = some v.text := by
        rw [Option.mem_def] at hframe
        simp [ofDocument, hframe]
      rw [hstored, readPresent_some (present?_of_text_ne_null hnull)] at hdataframe
      cases hread : Json.read v.text with
      | none => simp [hread] at hdataframe
      | some w => rw [(hp.dataframe v hframe).eq_reread_of_read hread]

theorem readMetadata_readBack (h : d.ReadsBack) :
    readMetadata (ofDocument d).metadata = .ok d.readBack.metadata := by
  have hread : Json.read (Json.object d.metadata).text = some (.object d.readBack.metadata) := by
    rw [h.metadata, Json.reread]
    rfl
  simp only [readMetadata, ofDocument, present?_text hread (by simp), hread]

theorem readDataframe_readBack (h : d.ReadsBack) :
    readPresent Json.read .dataframe (ofDocument d).dataframe = .ok d.readBack.dataframe := by
  cases hframe : d.dataframe with
  | none => simp [readPresent, ofDocument, Document.readBack, hframe]
  | some v =>
    have hread : Json.read v.text = some v.reread := h.dataframe v hframe
    by_cases hnull : v.reread = .null
    · have htext : v.text = "null" := (Json.reread_eq_null_iff v).mp hnull
      have habsent : present? "null" = none := rfl
      have hstored : (ofDocument d).dataframe = none ∨ (ofDocument d).dataframe = some "null" := by
        by_cases hv : v = .null <;> simp [ofDocument, hframe, hv, htext]
      rcases hstored with hstored | hstored <;>
        simp [readPresent, hstored, Document.readBack, hframe, hnull, habsent, Option.filter]
    · have hv : v ≠ .null := by
        rintro rfl
        exact hnull rfl
      have hstored : (ofDocument d).dataframe = some v.text := by simp [ofDocument, hframe]
      rw [hstored, readPresent_some (present?_text hread hnull), hread]
      simp [Document.readBack, hframe, hnull, Option.filter]

theorem readEmbedding_readBack :
    (d.HasFiniteEmbedding →
        readPresent vector? .embedding (ofDocument d).embedding = .ok d.readBack.embedding)
      ∧ (¬d.HasFiniteEmbedding →
        readPresent vector? .embedding (ofDocument d).embedding = .error .embedding) :=
  readEmbedding_map fun xs _ => Json.vector?_singlesText_eq xs

/-- What is stored of a document is read back if its embedding is finite, and refused otherwise. -/
theorem toDocument_readBack (h : d.ReadsBack) (score : Option Float) :
    (d.HasFiniteEmbedding →
        toDocument { ofDocument d with score := score } = .ok { d.readBack with score := score })
      ∧ (¬d.HasFiniteEmbedding → toDocument { ofDocument d with score := score }
        = .error (.storage (.malformedRecord d.id .embedding))) := by
  have hmetadata := readMetadata_readBack h
  have hdataframe := readDataframe_readBack h
  have hembedding := readEmbedding_readBack (d := d)
  constructor <;> intro hfinite
  · simp only [toDocument, readFields, hmetadata, hdataframe, hembedding.1 hfinite]
    rfl
  · simp only [toDocument, readFields, hmetadata, hdataframe, hembedding.2 hfinite]
    rfl

/-- A document that a caller can hold and that can be read after it was stored, is then what its
texts say. -/
theorem eq_readBack {e : Document} {score : Option Float} (hp : d.IsProper)
    (h : toDocument { ofDocument d with score := score } = .ok e) :
    e = { d.readBack with score := score } := by
  obtain ⟨hok, herror⟩ := toDocument_readBack (readsBack_of_toDocument hp h) score
  by_cases hfinite : d.HasFiniteEmbedding
  · exact Except.ok.inj (h.symm.trans (hok hfinite))
  · cases h.symm.trans (herror hfinite)

end Record

namespace Document

variable {d : Document}

/-- What a store gives back of a document that a caller can hold. A score that is no number is
lost. -/
theorem eq_readBack_of_reread {e : Document} (hp : d.IsProper) (h : d.reread = .ok e) :
    e = { d.readBack with score := d.score.filter (!·.isNaN) } := by
  rw [Database.reread_eq] at h
  exact Record.eq_readBack hp h

theorem KeepsNumbers.hasFiniteEmbedding (h : d.KeepsNumbers) : d.HasFiniteEmbedding :=
  fun xs hxs x hx => (Json.isLegibleSingle_iff.mp (h.embedding xs hxs x hx)).1

theorem readBack_metadata_eq_self_iff : d.readBack.metadata = d.metadata
    ↔ ∀ x ∈ (Json.object d.metadata).reals, Json.IsLegible x :=
  Json.rereadFields_eq_self_iff d.metadata

theorem readBack_dataframe_eq_self_iff : d.readBack.dataframe = d.dataframe
    ↔ d.dataframe ≠ some .null ∧ ∀ v ∈ d.dataframe, ∀ x ∈ v.reals, Json.IsLegible x := by
  rw [readBack]
  cases d.dataframe with
  | none => simp
  | some v =>
    simp only [Option.map_some, Option.filter, Option.mem_some_iff, forall_eq',
      ← v.reread_eq_self_iff]
    by_cases hnull : v.reread = .null
    · have hne : ¬(v ≠ .null ∧ v.reread = v) := fun h => h.1 (h.2.symm.trans hnull)
      simpa [hnull] using hne
    · have hne : v.reread = v → v ≠ .null := fun h hv => hnull (h.trans hv)
      simpa [hnull] using hne

theorem readBack_embedding_eq_self_iff (h : d.HasFiniteEmbedding) :
    d.readBack.embedding = d.embedding
      ↔ ∀ xs ∈ d.embedding, ∀ x ∈ xs, Json.IsLegibleSingle x := by
  rw [readBack]
  cases hembedding : d.embedding with
  | none => simp
  | some xs =>
    have hfinite := h xs hembedding
    have hmap : xs.map Json.rereadSingle = xs ↔ ∀ x ∈ xs, Json.rereadSingle x = x := by
      conv_lhs => rhs; rw [← List.map_id xs]
      exact List.map_inj_left
    simp only [Option.map_some, Option.some.injEq, Option.mem_some_iff, forall_eq', hmap]
    refine forall₂_congr fun x hx => ?_
    rw [Json.isLegibleSingle_iff, and_iff_right (hfinite x hx)]

/-- A document is the same when it is read back just if all its numbers are given back and its
dataframe is not null. -/
theorem readBack_eq_self_iff (h : d.HasFiniteEmbedding) :
    d.readBack = d ↔ d.KeepsNumbers ∧ d.dataframe ≠ some .null := by
  have hparts : d.readBack = d ↔ d.readBack.dataframe = d.dataframe
      ∧ d.readBack.metadata = d.metadata ∧ d.readBack.embedding = d.embedding := by
    obtain ⟨id, content, dataframe, blob, metadata, score, embedding⟩ := d
    simp [readBack]
  rw [hparts, readBack_dataframe_eq_self_iff, readBack_metadata_eq_self_iff,
    readBack_embedding_eq_self_iff h]
  constructor
  · exact fun ⟨⟨hnull, hdataframe⟩, hmetadata, hembedding⟩ =>
      ⟨⟨hmetadata, hdataframe, hembedding⟩, hnull⟩
  · exact fun ⟨hkeeps, hnull⟩ => ⟨⟨hnull, hkeeps.dataframe⟩, hkeeps.metadata, hkeeps.embedding⟩

end Document

namespace Record

variable {r : Record} {e : Document}

theorem readMetadata_spec {s : String} {fields : Json.Fields} (h : readMetadata s = .ok fields) :
    Json.Fits Json.depthLimit (.object fields) ∧ (Json.object fields).IsSorted := by
  unfold readMetadata at h
  split at h
  · cases h
    exact ⟨.object (by simp), .object .nil (by simp)⟩
  · split at h <;> cases h
    rename_i hread
    exact ⟨Json.fits_of_read hread, Json.isSorted_of_read hread⟩

theorem readDataframe_spec {s : Option String} {frame : Option Json} {fault : RecordFault}
    (h : readPresent Json.read fault s = .ok frame) :
    ∀ v ∈ frame, Json.Fits Json.depthLimit v ∧ v.IsSorted ∧ v ≠ .null := by
  unfold readPresent at h
  split at h
  · cases h
    simp
  · rename_i t ht
    split at h <;> cases h
    rename_i v hread
    rintro _ ⟨⟩
    refine ⟨Json.fits_of_read hread, Json.isSorted_of_read hread, ?_⟩
    rintro rfl
    obtain ⟨u, -, hu⟩ := Option.bind_eq_some_iff.mp ht
    unfold present? at hu
    simp only at hu
    split at hu <;> cases hu
    rename_i hpresent
    refine hpresent (.inr ?_)
    rw [← Text.trim_trim]
    exact Json.trim_of_read_null hread

/-- What a document is like that is read from a record, whatever stands in that. -/
theorem toDocument_spec (h : r.toDocument = .ok e) :
    e.Fits ∧ e.IsSorted ∧ e.dataframe ≠ some .null := by
  have hfields := readMetadata_spec (isReadAs h).metadata
  have hframe := readDataframe_spec (isReadAs h).dataframe
  exact ⟨⟨hfields.1, fun v hv => (hframe v hv).1⟩, ⟨hfields.2, fun v hv => (hframe v hv).2.1⟩,
    fun hnull => (hframe .null hnull).2.2 rfl⟩

/-- A document that is read from a record, whatever texts stand in that, is stored and read once
more. This gives the same document just if each of its numbers is given back by its text; as far as
it is not the same, only numbers differ. It gives no document just if a number of the embedding is
not finite. -/
theorem toDocument_again (h : r.toDocument = .ok e) :
    ((ofDocument e).toDocument = .ok e ↔ e.KeepsNumbers)
      ∧ ((∃ e', (ofDocument e).toDocument = .ok e') ↔ e.HasFiniteEmbedding)
      ∧ (e.HasFiniteEmbedding → (ofDocument e).toDocument = .ok e.readBack)
      ∧ (¬e.HasFiniteEmbedding →
        (ofDocument e).toDocument = .error (.storage (.malformedRecord e.id .embedding))) := by
  obtain ⟨hfits, hsorted, hframe⟩ := toDocument_spec h
  obtain ⟨hok, herror⟩ := toDocument_readBack (hfits.readsBack hsorted) e.score
  refine ⟨⟨fun hsame => ?_, fun hkeeps => ?_⟩, ⟨?_, fun hfinite => ⟨_, hok hfinite⟩⟩, hok, herror⟩
  · have hfinite : e.HasFiniteEmbedding := by
      by_contra hnot
      cases hsame.symm.trans (herror hnot)
    have hread : e.readBack = e := Except.ok.inj ((hok hfinite).symm.trans hsame)
    exact ((Document.readBack_eq_self_iff hfinite).mp hread).1
  · have hfinite := hkeeps.hasFiniteEmbedding
    have hread := (Document.readBack_eq_self_iff hfinite).mpr ⟨hkeeps, hframe⟩
    exact (hok hfinite).trans (congrArg Except.ok hread)
  · rintro ⟨e', he'⟩
    by_contra hnot
    cases he'.symm.trans (herror hnot)

/-- A record with blanks, a null, and fields out of order, one of them twice. -/
def loose : Record where
  id := "a"
  content := none
  dataframe := some " null "
  blob := none
  metadata := "\t\x7b \"b\": 1, \"a\": 0.50, \"b\": 2 \x7d "
  score := none
  embedding := some "[1, 1.5e0]\n"

theorem toDocument_again_loose :
    ∃ e, loose.toDocument = .ok e ∧ ofDocument e ≠ loose ∧ (ofDocument e).toDocument = .ok e := by
  let settled : Document :=
    { id := "a", metadata := [("a", .real 0.5), ("b", .integer 2)], embedding := some [1, 1.5] }
  have hread : loose.toDocument = .ok settled := by decide +kernel
  have hkeeps : settled.KeepsNumbers := by
    refine ⟨by decide +kernel, by simp [settled], ?_⟩
    rintro xs ⟨⟩
    decide +kernel
  exact ⟨settled, hread, by decide +kernel, (toDocument_again hread).1.mpr hkeeps⟩

/-- A number beyond the range of single precision is read as infinite, and cannot be read once more;
a number that is read inexactly is another one each time. -/
theorem toDocument_unstable :
    (∃ (r : Record) (e : Document), r.embedding = some "[1e39]" ∧ r.toDocument = .ok e
        ∧ (ofDocument e).toDocument = .error (.storage (.malformedRecord r.id .embedding)))
      ∧ ∃ (r : Record) (e e' : Document), r.metadata = "\x7b\"n\":1.0e-23\x7d" ∧ r.toDocument = .ok e
        ∧ (ofDocument e).toDocument = .ok e' ∧ e' ≠ e := by
  refine ⟨⟨⟨"a", none, none, none, "", none, some "[1e39]"⟩,
      { id := "a", embedding := some [Float32.ofBits 0x7f800000] }, rfl, ?_, ?_⟩,
    ⟨⟨"a", none, none, none, "\x7b\"n\":1.0e-23\x7d", none, none⟩,
      { id := "a", metadata := [("n", .real 1e-23)] },
      { id := "a", metadata := [("n", .real 1.0000000000000001e-23)] }, rfl, ?_, ?_, ?_⟩⟩ <;>
    decide +kernel

end Record
end DocumentStore
