import DocumentStore.Proofs.Json.SinglesText
import DocumentStore.Proofs.Outcome
import DocumentStore.Proofs.Text.Characters

/-! Stored documents are read as they were written. Main statement: the record of a document can be
read just if all numbers of its embedding are finite, and then it gives the same document, save that
a dataframe that is null counts as absent. -/
namespace DocumentStore

namespace Number.Numeral

open Text (isBlank isBlank_of_isDigit)

theorem Strict.not_blank {n : Numeral} (h : n.Strict) (negative : Bool) :
    ∀ c ∈ n.signedChars negative, isBlank c = false := by
  have hwhole : ∀ c ∈ n.whole, isBlank c = false := fun c hc => isBlank_of_isDigit (h.whole c hc)
  have hpoint : ∀ c ∈ n.pointChars, isBlank c = false := by
    intro c hc
    cases hp : n.places with
    | none => simp [pointChars, hp] at hc
    | some ds =>
      simp only [pointChars, hp, List.mem_cons] at hc
      rcases hc with rfl | hc
      · decide
      · exact isBlank_of_isDigit ((h.places ds hp).2 c hc)
  have hexponent : ∀ c ∈ n.exponentChars, isBlank c = false := by
    intro c hc
    cases he : n.exponent with
    | none => simp [exponentChars, he] at hc
    | some e =>
      have hstrict := h.exponent e he
      simp only [exponentChars, he, Option.map_some, Option.getD_some, Exponent.chars,
        List.mem_cons, List.mem_append, Option.mem_toList] at hc
      rcases hc with rfl | hc | hc
      · rcases hstrict.letter with hl | hl <;> rw [hl] <;> decide
      · rcases hstrict.sign c hc with rfl | rfl <;> decide
      · exact isBlank_of_isDigit (hstrict.digits c hc)
  intro c hc
  rw [signedChars, h.chars_eq, List.mem_append, List.mem_append, List.mem_append] at hc
  rcases hc with hc | hc | hc | hc
  · cases negative with
    | true =>
      rw [List.mem_singleton.mp hc]
      decide
    | false => simp at hc
  · exact hwhole c hc
  · exact hpoint c hc
  · exact hexponent c hc

end Number.Numeral

namespace Json

open Text (isBlank)

theorem getLast?_itemChars (vs : List Json) : (itemChars vs).getLast? = some ']' := by
  induction vs with
  | nil => rfl
  | cons v vs ih => simp [itemChars, List.getLast?_cons, List.getLast?_append, ih]

theorem getLast?_fieldChars (fs : Fields) : (fieldChars fs).getLast? = some '\x7d' := by
  induction fs with
  | nil => rfl
  | cons f fs ih => simp [fieldChars, List.getLast?_cons, List.getLast?_append, ih]

theorem trimChars_chars (v : Json) : Text.trimChars v.chars = v.chars := by
  have hends {cs : List Char} (h : ∀ c ∈ cs, isBlank c = false) : Text.trimChars cs = cs :=
    Text.trimChars_eq (fun c hc => h c (List.mem_of_mem_head? hc))
      fun c hc => h c (List.mem_of_mem_getLast? hc)
  cases v with
  | null => rfl
  | bool b => cases b <;> rfl
  | integer n =>
    rw [chars, Number.integerChars_eq]
    exact hends ((Number.wholeNumeral_strict _).not_blank _)
  | real x =>
    rw [chars]
    rcases Node.realChars_cases x with ⟨-, negative, n, hn, hchars, -⟩ | ⟨-, hchars⟩
    · rw [hchars]
      exact hends (hn.not_blank negative)
    · rw [hchars]
      rfl
  | string s =>
    refine Text.trimChars_of_ends (a := '"') (b := '"') (by decide) (by decide) rfl ?_
    simp [chars, quotedChars, List.getLast?_cons]
  | array items =>
    refine Text.trimChars_of_ends (a := '[') (b := ']') (by decide) (by decide)
      (by rw [chars_array]; rfl) ?_
    cases items with
    | nil => rfl
    | cons v vs => simp [chars, List.getLast?_cons, List.getLast?_append, getLast?_itemChars]
  | object fields =>
    refine Text.trimChars_of_ends (a := '\x7b') (b := '\x7d') (by decide) (by decide)
      (by rw [chars_object]; rfl) ?_
    cases fields with
    | nil => rfl
    | cons f fs => simp [chars, List.getLast?_cons, List.getLast?_append, getLast?_fieldChars]

theorem trim_text (v : Json) : Text.trim v.text = v.text := by
  rw [Text.trim, text, String.toList_ofList, trimChars_chars]

theorem trim_singlesText (xs : List Float32) :
    Text.trim (singlesText xs) = singlesText xs := by
  have hchars : Text.trimChars (singlesText xs).toList = (singlesText xs).toList := by
    rw [singlesText, String.toList_ofList]
    exact Text.trimChars_of_ends (a := '[') (b := ']') (by decide) (by decide) rfl
      List.getLast?_concat
  rw [Text.trim, hchars, String.ofList_toList]

end Json

namespace Document

/-- Whether metadata and dataframe are values that a document can hold. -/
structure IsProper (d : Document) : Prop where
  metadata : (Json.object d.metadata).IsProper
  dataframe : ∀ v ∈ d.dataframe, v.IsProper

/-- How many containers lie inside each other in a document's values. -/
def nesting (d : Document) : ℕ :=
  max (Json.object d.metadata).nesting ((d.dataframe.map Json.nesting).getD 0)

/-- Whether every finite number of a document is read from its text as it was. -/
structure HasLegibleNumbers (d : Document) : Prop where
  metadata : ∀ x ∈ (Json.object d.metadata).reals, x.isFinite = true → Json.IsLegible x
  dataframe : ∀ v ∈ d.dataframe, ∀ x ∈ v.reals, x.isFinite = true → Json.IsLegible x
  embedding : ∀ xs ∈ d.embedding, ∀ x ∈ xs, x.isFinite = true → Json.IsLegibleSingle x

def HasFiniteEmbedding (d : Document) : Prop :=
  ∀ xs ∈ d.embedding, ∀ x ∈ xs, x.isFinite = true

/-- A document whose dataframe is absent where it was null. -/
def withoutNullDataframe (d : Document) : Document :=
  { d with dataframe := d.dataframe.filter (· ≠ .null) }

end Document

namespace Record

variable {d : Document}

theorem present?_of_trim {s : String} (htrim : Text.trim s = s) (hempty : s ≠ "")
    (hnull : s ≠ "null") : present? s = some s := by
  simp [present?, htrim, hempty, hnull]

theorem present?_text {v w : Json} (hread : Json.read v.text = some w) (hw : w ≠ .null) :
    present? v.text = some v.text := by
  refine present?_of_trim (Json.trim_text v) ?_ ?_
  · intro h
    rw [h] at hread
    cases hread
  · intro h
    rw [h] at hread
    exact hw (Option.some.inj hread).symm

theorem present?_singlesText (xs : List Float32) :
    present? (Json.singlesText xs) = some (Json.singlesText xs) := by
  have hne {s : String} (h : s.toList.head? ≠ some '[') : Json.singlesText xs ≠ s := by
    rintro rfl
    exact h (by rw [Json.singlesText, String.toList_ofList]; rfl)
  exact present?_of_trim (Json.trim_singlesText xs) (hne (by decide)) (hne (by decide))

theorem readPresent_some {α : Type} {s : String} (h : present? s = some s)
    (read : String → Option α) (fault : RecordFault) :
    readPresent read fault (some s)
      = (read s).elim (.error fault) fun a => .ok (some a) := by
  rw [readPresent, Option.bind_some, h]
  cases hread : read s <;> simp [hread]

theorem readMetadata_ofDocument (hp : d.IsProper) (hd : d.nesting ≤ Json.depthLimit)
    (hl : d.HasLegibleNumbers) : readMetadata (ofDocument d).metadata = .ok d.metadata := by
  have hread : Json.read (Json.object d.metadata).text = some (.object d.metadata) :=
    Json.read_text hp.metadata hl.metadata ((le_max_left _ _).trans hd)
  simp only [readMetadata, ofDocument, present?_text hread (by simp), hread]

theorem readDataframe_ofDocument (hp : d.IsProper) (hd : d.nesting ≤ Json.depthLimit)
    (hl : d.HasLegibleNumbers) :
    readPresent Json.read .dataframe (ofDocument d).dataframe
      = .ok d.withoutNullDataframe.dataframe := by
  cases hframe : d.dataframe with
  | none => simp [readPresent, ofDocument, Document.withoutNullDataframe, hframe]
  | some v =>
    by_cases hv : v = .null
    · simp [readPresent, ofDocument, Document.withoutNullDataframe, hframe, hv, Option.filter]
    · have hnesting : v.nesting ≤ Json.depthLimit := by
        have hle : v.nesting ≤ d.nesting := by
          rw [Document.nesting, hframe]
          exact le_max_right _ _
        exact hle.trans hd
      have hread : Json.read v.text = some v :=
        Json.read_text (hp.dataframe v hframe) (hl.dataframe v hframe) hnesting
      have hstored : (ofDocument d).dataframe = some v.text := by simp [ofDocument, hframe]
      rw [hstored, readPresent_some (present?_text hread hv), hread]
      simp [Document.withoutNullDataframe, hframe, hv, Option.filter]

/-- An embedding is read number by number if it is finite, and refused otherwise. -/
theorem readEmbedding_map {f : Float32 → Float32}
    (hf : ∀ xs ∈ d.embedding, vector? (Json.singlesText xs)
      = if xs.all Float32.isFinite then some (xs.map f) else none) :
    (d.HasFiniteEmbedding →
        readPresent vector? .embedding (ofDocument d).embedding
          = .ok (d.embedding.map fun xs => xs.map f))
      ∧ (¬d.HasFiniteEmbedding →
        readPresent vector? .embedding (ofDocument d).embedding = .error .embedding) := by
  cases hembedding : d.embedding with
  | none => simp [readPresent, ofDocument, Document.HasFiniteEmbedding, hembedding]
  | some xs =>
    have hfinite : d.HasFiniteEmbedding ↔ xs.all Float32.isFinite = true := by
      simp [Document.HasFiniteEmbedding, hembedding]
    have hstored : (ofDocument d).embedding = some (Json.singlesText xs) := by
      simp [ofDocument, hembedding]
    rw [hstored, readPresent_some (present?_singlesText xs), hf xs hembedding, hfinite]
    constructor <;> intro h
    · rw [if_pos h]
      rfl
    · rw [if_neg h]
      rfl

theorem readEmbedding_ofDocument (hl : d.HasLegibleNumbers) :
    (d.HasFiniteEmbedding →
        readPresent vector? .embedding (ofDocument d).embedding = .ok d.embedding)
      ∧ (¬d.HasFiniteEmbedding →
        readPresent vector? .embedding (ofDocument d).embedding = .error .embedding) := by
  have hsame := readEmbedding_map (f := fun x => x) fun xs hxs => by
    rw [Json.vector?_singlesText (hl.embedding xs hxs), List.map_id']
  simpa using hsame

/-- What it is for a document to be read from a record, field by field. -/
structure IsReadAs (r : Record) (e : Document) : Prop where
  id_eq : e.id = r.id
  content_eq : e.content = r.content
  blob_eq : e.blob = r.blob
  score_eq : e.score = r.score
  metadata : readMetadata r.metadata = .ok e.metadata
  dataframe : readPresent Json.read .dataframe r.dataframe = .ok e.dataframe
  embedding : readPresent vector? .embedding r.embedding = .ok e.embedding

theorem isReadAs {r : Record} {e : Document} (h : r.toDocument = .ok e) : r.IsReadAs e := by
  obtain ⟨metadata, hmetadata, h⟩ := bind_eq_ok (lift_eq_ok h)
  obtain ⟨dataframe, hdataframe, h⟩ := bind_eq_ok h
  obtain ⟨embedding, hembedding, h⟩ := bind_eq_ok h
  cases h
  exact ⟨rfl, rfl, rfl, rfl, hmetadata, hdataframe, hembedding⟩

theorem toDocument_of_finite (hp : d.IsProper) (hd : d.nesting ≤ Json.depthLimit)
    (hl : d.HasLegibleNumbers) (hfinite : d.HasFiniteEmbedding) (score : Option Float) :
    toDocument { ofDocument d with score := score }
      = .ok { d.withoutNullDataframe with score := score } := by
  have hmetadata := readMetadata_ofDocument hp hd hl
  have hdataframe := readDataframe_ofDocument hp hd hl
  have hembedding := (readEmbedding_ofDocument hl).1 hfinite
  simp only [toDocument, readFields, hmetadata, hdataframe, hembedding]
  rfl

/-- A stored document is read just if its embedding is finite. Then every field is as it was, except
that a null dataframe is absent. -/
theorem toDocument_ofDocument (hp : d.IsProper) (hd : d.nesting ≤ Json.depthLimit)
    (hl : d.HasLegibleNumbers) :
    ((∃ e, (ofDocument d).toDocument = .ok e) ↔ d.HasFiniteEmbedding)
      ∧ (d.HasFiniteEmbedding → (ofDocument d).toDocument = .ok d.withoutNullDataframe)
      ∧ (¬d.HasFiniteEmbedding →
        (ofDocument d).toDocument = .error (.storage (.malformedRecord d.id .embedding))) := by
  have hok (h : d.HasFiniteEmbedding) :
      (ofDocument d).toDocument = .ok d.withoutNullDataframe :=
    toDocument_of_finite hp hd hl h d.score
  have herror (h : ¬d.HasFiniteEmbedding) :
      (ofDocument d).toDocument = .error (.storage (.malformedRecord d.id .embedding)) := by
    have hmetadata := readMetadata_ofDocument hp hd hl
    have hdataframe := readDataframe_ofDocument hp hd hl
    simp only [toDocument, readFields, hmetadata, hdataframe, (readEmbedding_ofDocument hl).2 h]
    rfl
  refine ⟨⟨?_, fun h => ⟨_, hok h⟩⟩, hok, herror⟩
  rintro ⟨e, he⟩
  by_contra h
  rw [herror h] at he
  cases he

/-- A document with every kind of number, and with content and blob that are empty. -/
def reading : Document where
  id := "reading"
  content := some ""
  dataframe := some (.array [.integer 2, .real 2.0])
  blob := some []
  metadata := [("at", .object [("line", .integer (-3))]), ("ratio", .real 1.5)]
  embedding := some [0.5, -1]

theorem toDocument_reading :
    reading.IsProper ∧ reading.nesting ≤ Json.depthLimit ∧ reading.HasLegibleNumbers
      ∧ (ofDocument reading).toDocument = .ok reading := by
  have hreal : (1.5 : Float).isFinite = true ∧ (2.0 : Float).isFinite = true := by
    decide +kernel
  have hp : reading.IsProper := by
    refine ⟨⟨?_, ⟨by simp, by simp [Json.IsProper, Json.AreProperFields]⟩, hreal.1, trivial⟩, ?_⟩
    · decide
    · rintro v ⟨⟩
      exact ⟨by simp [Json.IsProper], hreal.2, trivial⟩
  have hd : reading.nesting ≤ Json.depthLimit := by decide
  have hl : reading.HasLegibleNumbers := by
    refine ⟨by decide +kernel, ?_, ?_⟩
    · rintro v ⟨⟩
      decide +kernel
    · rintro xs ⟨⟩
      decide +kernel
  have hfinite : reading.HasFiniteEmbedding := by
    rintro xs ⟨⟩
    decide +kernel
  exact ⟨hp, hd, hl, (toDocument_ofDocument hp hd hl).2.1 hfinite⟩

end Record
end DocumentStore
