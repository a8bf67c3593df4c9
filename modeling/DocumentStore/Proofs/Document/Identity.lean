import DocumentStore.Document.Identity
import Mathlib

/-! The bytes that a document is identified by. Main statement: two documents have the same bytes
just if they agree in content, dataframe, blob, metadata and embedding. Each field can be read off
the front of what follows it, even if its own bytes look like another field. -/
namespace DocumentStore

@[simp] theorem length_littleEndian (n k : ℕ) : (littleEndian n k).length = n := by
  induction n generalizing k with
  | zero => rfl
  | succ n ih => simp [littleEndian, ih]

theorem littleEndian_inj {n a b : ℕ} (ha : a < 256 ^ n) (hb : b < 256 ^ n)
    (h : littleEndian n a = littleEndian n b) : a = b := by
  induction n generalizing a b with
  | zero => omega
  | succ n ih =>
    obtain ⟨hlow, hrest⟩ := List.cons.inj h
    have hlow' : a % 256 = b % 256 := by
      have hmod := congrArg UInt8.toNat hlow
      simpa using hmod
    have hhigh : a / 256 = b / 256 :=
      ih (by rw [pow_succ] at ha; omega) (by rw [pow_succ] at hb; omega) hrest
    omega

/-- The bytes of an array come in their order, though they are gathered in reverse. -/
theorem byteArray_toList (b : ByteArray) : b.toList = b.data.toList := by
  have hloop (i : ℕ) (r : Bytes) :
      ByteArray.toList.loop b i r = r.reverse ++ b.data.toList.drop i := by
    induction i, r using ByteArray.toList.loop.induct b with
    | case1 i r hi ih =>
      have hnext : b.data.toList.drop i = b.get! i :: b.data.toList.drop (i + 1) := by
        rw [List.drop_eq_getElem_cons (by simpa using hi)]
        simp [ByteArray.get!, hi]
      rw [ByteArray.toList.loop, if_pos hi, ih, hnext, List.reverse_cons, List.append_assoc]
      rfl
    | case2 i r hi =>
      rw [ByteArray.toList.loop, if_neg hi, List.drop_of_length_le (by simpa using hi),
        List.append_nil]
  exact hloop 0 []

theorem length_utf8 (s : String) : (utf8 s).length = s.utf8ByteSize := by
  rw [utf8, byteArray_toList]
  rfl

theorem utf8_injective : Function.Injective utf8 := by
  intro s t h
  rw [utf8, utf8, byteArray_toList, byteArray_toList] at h
  exact String.toByteArray_inj.mp (ByteArray.ext (Array.toList_inj.mp h))

/-- Whether a field is absent or so short that eight bytes hold its length. -/
def IsShort (field : Option Bytes) : Prop := ∀ bytes ∈ field, bytes.length < 256 ^ 8

theorem frame_append_inj {name : String} {a b : Option Bytes} (ha : IsShort a) (hb : IsShort b)
    {r s : Bytes} (h : frame name a ++ r = frame name b ++ s) : a = b ∧ r = s := by
  cases a with
  | none =>
    cases b with
    | none => exact ⟨rfl, by simpa [frame] using h⟩
    | some y => simp [frame] at h
  | some x =>
    cases b with
    | none => simp [frame] at h
    | some y =>
      simp only [frame, List.append_assoc, List.append_cancel_left_eq, List.cons_append,
        List.cons.injEq, true_and] at h
      obtain ⟨hlength, hrest⟩ := List.append_inj h (by simp)
      have hxy : x.length = y.length := littleEndian_inj (ha x rfl) (hb y rfl) hlength
      obtain ⟨rfl, hrs⟩ := List.append_inj hrest hxy
      exact ⟨rfl, hrs⟩

def frames (fields : List (String × Option Bytes)) : Bytes :=
  fields.flatMap fun f => frame f.1 f.2

theorem frames_inj {fs gs : List (String × Option Bytes)} (hnames : fs.map (·.1) = gs.map (·.1))
    (hfs : ∀ f ∈ fs, IsShort f.2) (hgs : ∀ g ∈ gs, IsShort g.2) (h : frames fs = frames gs) :
    fs = gs := by
  induction fs generalizing gs with
  | nil => exact (List.map_eq_nil_iff.mp hnames.symm).symm
  | cons f fs ih =>
    cases gs with
    | nil => cases hnames
    | cons g gs =>
      obtain ⟨name, a⟩ := f
      obtain ⟨name', b⟩ := g
      obtain ⟨rfl, htail⟩ := List.cons.inj hnames
      simp only [List.forall_mem_cons] at hfs hgs
      obtain ⟨rfl, hrest⟩ := frame_append_inj hfs.1 hgs.1 h
      rw [ih htail hfs.2 hgs.2 hrest]

namespace Document

/-- The fields that tell the contents of documents apart. -/
def framed (d : Document) : List (String × Option Bytes) := [
  ("content", d.content.map utf8),
  ("dataframe", d.dataframe.map fun v => utf8 v.text),
  ("blob", d.blob),
  ("meta", some (utf8 (Json.object d.metadata).text)),
  ("embedding", d.embedding.map vectorBytes)]

theorem contentBytes_eq (d : Document) : d.contentBytes = frames d.framed := by
  simp [contentBytes, frames, framed]

theorem vectorBytes_inj {xs ys : List Float32} :
    vectorBytes xs = vectorBytes ys ↔ xs.map Float32.toBits = ys.map Float32.toBits := by
  refine ⟨fun h => ?_, fun h => ?_⟩
  · induction xs generalizing ys with
    | nil =>
      cases ys with
      | nil => rfl
      | cons y ys => cases h
    | cons x xs ih =>
      cases ys with
      | nil => cases h
      | cons y ys =>
        obtain ⟨hfirst, hrest⟩ := List.append_inj (show littleEndian 4 x.toBits.toNat ++ vectorBytes xs
          = littleEndian 4 y.toBits.toNat ++ vectorBytes ys from h) (by simp)
        have hbits := littleEndian_inj x.toBits.toNat_lt y.toBits.toNat_lt hfirst
        rw [List.map_cons, List.map_cons, UInt32.toNat_inj.mp hbits, ih hrest]
  · have hflat (zs : List Float32) : vectorBytes zs
        = (zs.map Float32.toBits).flatMap fun b => littleEndian 4 b.toNat := by
      rw [vectorBytes, List.flatMap_map]
    rw [hflat, hflat, h]

/-- Whether two documents agree in everything but id and score. An absent value differs from an
empty one; values agree if their compact texts do, and vectors if their bits do. -/
structure SameContents (d e : Document) : Prop where
  content : d.content = e.content
  dataframe : d.dataframe.map Json.text = e.dataframe.map Json.text
  blob : d.blob = e.blob
  metadata : (Json.object d.metadata).text = (Json.object e.metadata).text
  embedding : d.embedding.map (·.map Float32.toBits) = e.embedding.map (·.map Float32.toBits)

theorem framed_eq_iff {d e : Document} : d.framed = e.framed ↔ d.SameContents e := by
  have htext {a b : Option Json} : (a.map fun v => utf8 v.text) = (b.map fun v => utf8 v.text)
      ↔ a.map Json.text = b.map Json.text := by
    rw [← (Option.map_injective utf8_injective).eq_iff, Option.map_map, Option.map_map]
    rfl
  have hbits {a b : Option (List Float32)} : a.map vectorBytes = b.map vectorBytes
      ↔ a.map (·.map Float32.toBits) = b.map (·.map Float32.toBits) := by
    cases a <;> cases b <;> simp [vectorBytes_inj]
  simp only [framed, List.cons.injEq, Prod.mk.injEq, true_and, and_true, Option.some.injEq, htext,
    hbits, (Option.map_injective utf8_injective).eq_iff, utf8_injective.eq_iff]
  exact ⟨fun ⟨h₁, h₂, h₃, h₄, h₅⟩ => ⟨h₁, h₂, h₃, h₄, h₅⟩,
    fun h => ⟨h.content, h.dataframe, h.blob, h.metadata, h.embedding⟩⟩

/-- Whether eight bytes hold the length of each field, as they do for all that lies in memory. -/
def HasShortFields (d : Document) : Prop := ∀ f ∈ d.framed, IsShort f.2

/-- The bytes of two documents are the same just if their contents are: no byte of a field can be
taken for one of the next. Neither id nor score has a part in them. -/
theorem contentBytes_eq_iff {d e : Document} (hd : d.HasShortFields) (he : e.HasShortFields) :
    (d.contentBytes = e.contentBytes ↔ d.SameContents e)
      ∧ ∀ id score, ({ d with id := id, score := score } : Document).contentBytes = d.contentBytes := by
  refine ⟨?_, fun _ _ => rfl⟩
  rw [contentBytes_eq, contentBytes_eq, ← framed_eq_iff]
  exact ⟨frames_inj rfl hd he, congrArg frames⟩

/-- A content that goes on like an absent dataframe and an empty blob is not mistaken for them. -/
theorem contentBytes_imitating :
    ∃ d e : Document, d = { content := some "a", blob := some [] }
      ∧ e = { content := some "adataframe\x00blob\x01\x00\x00\x00\x00\x00\x00\x00\x00" }
      ∧ d.HasShortFields ∧ e.HasShortFields ∧ d.contentBytes ≠ e.contentBytes := by
  have hshort {s : String} {blob : Option Bytes} (hs : s.utf8ByteSize < 256 ^ 8)
      (hblob : IsShort blob) : ({ content := some s, blob := blob } : Document).HasShortFields := by
    have hmetadata : (Json.object []).text.utf8ByteSize < 256 ^ 8 := by decide
    simpa [HasShortFields, framed, IsShort, length_utf8] using ⟨hs, hblob, hmetadata⟩
  have hd := @hshort "a" (some []) (by decide) (by simp [IsShort])
  have he := @hshort "adataframe\x00blob\x01\x00\x00\x00\x00\x00\x00\x00\x00" none (by decide)
    (by simp [IsShort])
  refine ⟨_, _, rfl, rfl, hd, he, fun h => ?_⟩
  have hsame := (contentBytes_eq_iff hd he).1.mp h
  exact absurd hsame.content (by decide)

end Document
end DocumentStore
