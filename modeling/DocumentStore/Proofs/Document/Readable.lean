import DocumentStore.Proofs.Document.RoundTrip
import DocumentStore.Proofs.Json.Rereading
import DocumentStore.Proofs.Store.Ranking

/-! Documents that can be read again. Main statement: a document whose values stand in some text can
be read after it was stored, if its embedding is finite; one that is nested too deeply cannot. -/
namespace DocumentStore

/-- Whether the values in a document can stand in texts of their own. -/
structure Document.Fits (d : Document) : Prop where
  metadata : Json.Fits Json.depthLimit (.object d.metadata)
  dataframe : ∀ v ∈ d.dataframe, Json.Fits Json.depthLimit v

namespace Record

theorem exists_readPresent {α : Type} {s : String} (htrim : Text.trim s = s)
    {read : String → Option α} (hread : ∃ a, read s = some a) (fault : RecordFault) :
    ∃ o, readPresent read fault (some s) = .ok o := by
  obtain ⟨a, ha⟩ := hread
  by_cases habsent : s = "" ∨ s = "null"
  · exact ⟨none, by simp [readPresent, present?, htrim, habsent]⟩
  · exact ⟨some a, by simp [readPresent, present?, htrim, habsent, ha]⟩

theorem exists_readMetadata {d : Document} (h : d.Fits) :
    ∃ fields, readMetadata (ofDocument d).metadata = .ok fields := by
  obtain ⟨fields, hfields⟩ := h.metadata.exists_read_object
  by_cases habsent : (Json.object d.metadata).text = "" ∨ (Json.object d.metadata).text = "null"
  · exact ⟨[], by simp [readMetadata, ofDocument, present?, Json.trim_text, habsent]⟩
  · exact ⟨fields, by simp [readMetadata, ofDocument, present?, Json.trim_text, habsent, hfields]⟩

theorem exists_readDataframe {d : Document} (h : d.Fits) :
    ∃ o, readPresent Json.read .dataframe (ofDocument d).dataframe = .ok o := by
  simp only [ofDocument]
  split
  · exact ⟨none, rfl⟩
  · exact ⟨none, rfl⟩
  · rename_i v _ hv
    exact exists_readPresent (Json.trim_text v) (h.dataframe v hv).exists_read _

theorem exists_readEmbedding {d : Document} (h : d.HasFiniteEmbedding) :
    ∃ o, readPresent vector? .embedding (ofDocument d).embedding = .ok o := by
  cases hxs : d.embedding with
  | none => exact ⟨none, by simp [ofDocument, hxs, readPresent]⟩
  | some xs =>
    have hvector : Record.vector? (Json.singlesText xs) = some (xs.map Json.rereadSingle) := by
      rw [Json.vector?_singlesText_eq, if_pos (List.all_eq_true.mpr (h xs hxs))]
    have hread := exists_readPresent (Json.trim_singlesText xs) ⟨_, hvector⟩ .embedding
    simpa [ofDocument, hxs] using hread

/-- What is stored of a document whose embedding is finite can be read, whatever its score. -/
theorem exists_toDocument {d : Document} (h : d.Fits) (hfinite : d.HasFiniteEmbedding)
    (score : Option Float) : ∃ e, toDocument { ofDocument d with score := score } = .ok e := by
  obtain ⟨fields, hfields⟩ := exists_readMetadata h
  obtain ⟨frame, hframe⟩ := exists_readDataframe h
  obtain ⟨vector, hvector⟩ := exists_readEmbedding hfinite
  simp only [toDocument, readFields, hfields, hframe, hvector]
  exact ⟨_, rfl⟩

end Record

/-- The text of a value that is nested more deeply than the reader goes stands for a value, which is
not read. -/
theorem Json.IsProper.unread_of_deep {v : Json} (hv : v.IsProper) (hdeep : depthLimit < v.nesting) :
    Record.present? v.text = some v.text ∧ read v.text = none := by
  have hunread : read v.text = none := by
    cases hread : read v.text with
    | none => rfl
    | some w => exact absurd (hv.nesting_le_of_read hread) (Nat.not_le_of_lt hdeep)
  refine ⟨Record.present?_of_trim (trim_text v) ?_ ?_, hunread⟩
  · intro htext
    obtain ⟨hfits, hsorted⟩ := IsProper.stands v hv le_rfl
    obtain ⟨⟨c, t, hchars, -⟩, -⟩ := hfits.reads_reread hsorted
    have hnil : v.chars = [] := by simpa [text] using htext
    rw [hnil] at hchars
    cases hchars
  · intro htext
    rw [htext] at hunread
    cases hunread

namespace Document.IsProper

variable {d : Document} (hp : d.IsProper) {score : Option Float}

include hp

/-- The record of a document is refused if its metadata is nested more deeply than the reader
goes. -/
theorem toDocument_of_deep (hdeep : Json.depthLimit < (Json.object d.metadata).nesting) :
    Record.toDocument { Record.ofDocument d with score := score }
      = .error (.storage (.malformedRecord d.id .metadata)) := by
  obtain ⟨hpresent, hunread⟩ := hp.metadata.unread_of_deep hdeep
  have hmetadata : Record.readMetadata (Json.object d.metadata).text = .error .metadata := by
    simp only [Record.readMetadata, hpresent, hunread]
  simp only [Record.toDocument, Record.readFields, Record.ofDocument, hmetadata]
  rfl

/-- A document that is read from its record is nested no more deeply than the reader goes. -/
theorem nesting_le_of_toDocument {e : Document}
    (h : Record.toDocument { Record.ofDocument d with score := score } = .ok e) :
    d.nesting ≤ Json.depthLimit := by
  refine max_le ?_ ?_
  · by_contra hdeep
    rw [hp.toDocument_of_deep (not_le.mp hdeep)] at h
    cases h
  · cases hdataframe : d.dataframe with
    | none => exact Nat.zero_le _
    | some v =>
      by_contra hdeep
      have hv : v ≠ .null := by
        rintro rfl
        exact hdeep (Nat.zero_le _)
      obtain ⟨hpresent, hunread⟩ := (hp.dataframe v hdataframe).unread_of_deep (not_le.mp hdeep)
      have hstored : (Record.ofDocument d).dataframe = some v.text := by
        simp [Record.ofDocument, hdataframe]
      have hframe := (Record.isReadAs h).dataframe
      rw [hstored, Record.readPresent_some hpresent, hunread] at hframe
      cases hframe

end Document.IsProper

theorem Document.Fits.exists_reread {d : Document} (h : d.Fits) (hfinite : d.HasFiniteEmbedding) :
    ∃ e, d.reread = .ok e := by
  rw [Database.reread_eq]
  exact Record.exists_toDocument h hfinite _

theorem Document.IsProper.fits {d : Document} (hp : d.IsProper)
    (hd : d.nesting ≤ Json.depthLimit) : d.Fits where
  metadata := (Json.IsProper.stands _ hp.metadata ((le_max_left _ _).trans hd)).1
  dataframe := by
    intro v hv
    refine (Json.IsProper.stands v (hp.dataframe v hv) (le_trans ?_ hd)).1
    rw [nesting, Option.mem_def.mp hv]
    exact le_max_right _ _

/-- A document whose embedding is finite can be read after it was stored just if it is nested no
more deeply than the reader goes. -/
theorem Document.IsProper.exists_reread_iff {d : Document} (hp : d.IsProper)
    (hfinite : d.HasFiniteEmbedding) : (∃ e, d.reread = .ok e) ↔ d.nesting ≤ Json.depthLimit := by
  refine ⟨fun ⟨e, he⟩ => ?_, fun hd => (hp.fits hd).exists_reread hfinite⟩
  rw [Database.reread_eq] at he
  exact hp.nesting_le_of_toDocument he

end DocumentStore
