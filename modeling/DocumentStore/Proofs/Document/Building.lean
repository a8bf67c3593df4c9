import DocumentStore.Document.Identity
import DocumentStore.Proofs.Component

/-! Documents that are built step by step. Main statement: after each step a generated id is the
digest of the document as it then is, a chosen id stays, and the document holds what the assignments
alone make of it. -/
namespace DocumentStore

namespace Blake3

theorem length_compress (chain block : Words) (counter : ℕ) (length flags : UInt32) :
    (compress chain block counter length flags).toList.length = 8 := by
  simp [compress]

theorem length_digits {root : Words} (h : root.toList.length = 8) :
    ((root.toList.flatMap bytesOf).flatMap hexByte).length = 64 := by
  have hbytes : (root.toList.flatMap bytesOf).length = 32 := by
    have hword : ∀ w ∈ root.toList, (bytesOf w).length = 4 := fun _ _ => rfl
    rw [List.length_flatMap, List.map_congr_left hword]
    simpa using congrArg (· * 4) h
  have hdigits : ∀ b ∈ root.toList.flatMap bytesOf, (hexByte b).length = 2 := fun _ _ => rfl
  rw [List.length_flatMap, List.map_congr_left hdigits]
  simpa using congrArg (· * 2) hbytes

theorem exists_root (bytes : Bytes) :
    ∃ p : Pending, hex bytes = String.ofList ((p.root.toList.flatMap bytesOf).flatMap hexByte) := by
  obtain ⟨p, ps, hchunks⟩ : ∃ p ps, chunks 0 bytes = p :: ps := by
    unfold chunks
    split
    · exact ⟨_, _, rfl⟩
    · exact ⟨_, _, rfl⟩
  exact ⟨joinAll p ps, by rw [hex, hchunks]⟩

theorem length_hex (bytes : Bytes) : (hex bytes).length = 64 := by
  obtain ⟨p, hp⟩ := exists_root bytes
  rw [hp, String.length_ofList]
  exact length_digits (length_compress _ _ _ _ _)

end Blake3

namespace Document

theorem length_contentId (d : Document) : d.contentId.length = 64 := Blake3.length_hex _

theorem ne_contentId {id : String} (h : id.length ≠ 64) (d : Document) : id ≠ d.contentId :=
  fun heq => h (heq ▸ d.length_contentId)

end Document

/-- What a builder assigns. -/
inductive Assignment where
  | metadata (fields : Json.Fields)
  | entry (key : String) (value : Json)
  | embedding (xs : List Float32)
  | dataframe (v : Json)
  | blob (bytes : Bytes)

/-- What a document holds, with its metadata as a function of their keys. -/
@[ext] structure Contents where
  content : Option String
  dataframe : Option Json
  blob : Option Bytes
  embedding : Option (List Float32)
  metadata : String → Option Json

/-- An assignment on its own: it replaces one part and leaves the others as they are. -/
def Contents.assign (c : Contents) : Assignment → Contents
  | .metadata fields => { c with metadata := fun key => fields.lookup key }
  | .entry key value => { c with metadata := Function.update c.metadata key (some value) }
  | .embedding xs => { c with embedding := some xs }
  | .dataframe v => { c with dataframe := some v }
  | .blob bytes => { c with blob := some bytes }

namespace Document

def contents (d : Document) : Contents where
  content := d.content
  dataframe := d.dataframe
  blob := d.blob
  embedding := d.embedding
  metadata key := d.metadata.lookup key

def assign (a : Assignment) (d : Document) : Document :=
  match a with
  | .metadata fields => { d with metadata := fields }
  | .entry key value => { d with metadata := Json.insertField key value d.metadata }
  | .embedding xs => { d with embedding := some xs }
  | .dataframe v => { d with dataframe := some v }
  | .blob bytes => { d with blob := some bytes }

def build (d : Document) : Assignment → Document
  | .metadata fields => d.withMetadata fields
  | .entry key value => d.withEntry key value
  | .embedding xs => d.withEmbedding xs
  | .dataframe v => d.withDataframe v
  | .blob bytes => d.withBlob bytes

/-- The document after each of some builders. -/
def stages (d : Document) : List Assignment → List Document
  | [] => []
  | a :: as => d.build a :: (d.build a).stages as

variable {d : Document} {a : Assignment}

@[simp] theorem id_assign : (d.assign a).id = d.id := by cases a <;> rfl

@[simp] theorem score_assign : (d.assign a).score = d.score := by cases a <;> rfl

theorem contents_assign : (d.assign a).contents = d.contents.assign a := by
  cases a with
  | entry key value =>
    have hlookup : (fun k => (Json.insertField key value d.metadata).lookup k)
        = Function.update (fun k => d.metadata.lookup k) key (some value) := by
      funext k
      by_cases hk : k = key
      · rw [hk, Json.lookup_insertField, Function.update_self]
      · rw [Json.lookup_insertField_of_ne hk, Function.update_of_ne hk]
    exact congrArg (fun f => { d.contents with metadata := f }) hlookup
  | _ => rfl

theorem build_eq_modify (d : Document) (a : Assignment) : d.build a = d.modify (assign a) := by
  cases a <;> rfl

theorem build_of_generated (h : d.id = "" ∨ d.id = d.contentId) :
    d.build a = (d.assign a).withContentId := by
  rw [build_eq_modify, modify, if_pos (by simpa [hasGeneratedId] using h)]

theorem build_of_chosen (h : d.id ≠ "") (hid : d.id ≠ d.contentId) : d.build a = d.assign a := by
  rw [build_eq_modify, modify, if_neg (by simpa [hasGeneratedId] using ⟨h, hid⟩)]

theorem contentId_withContentId (d : Document) : d.withContentId.contentId = d.contentId := rfl

theorem id_build (h : d.id = "" ∨ d.id = d.contentId) : (d.build a).id = (d.build a).contentId := by
  rw [build_of_generated h, contentId_withContentId]
  rfl

theorem id_build_of_chosen (h : d.id ≠ "") (hid : d.id ≠ d.contentId) : (d.build a).id = d.id := by
  rw [build_of_chosen h hid, id_assign]

theorem contents_build (d : Document) (a : Assignment) :
    (d.build a).contents = d.contents.assign a := by
  rw [build_eq_modify, modify]
  split <;> exact contents_assign

theorem score_build (d : Document) (a : Assignment) : (d.build a).score = d.score := by
  rw [build_eq_modify, modify]
  split <;> exact score_assign

theorem id_of_mem_stages {as : List Assignment} (h : d.id = "" ∨ d.id = d.contentId) :
    ∀ e ∈ d.stages as, e.id = e.contentId := by
  induction as generalizing d with
  | nil => simp [stages]
  | cons a as ih => exact List.forall_mem_cons.mpr ⟨id_build h, ih (.inr (id_build h))⟩

theorem id_foldl_build {as : List Assignment} (h : d.id ≠ "")
    (hid : ∀ e ∈ (d :: d.stages as).dropLast, d.id ≠ e.contentId) :
    (as.foldl build d).id = d.id := by
  induction as generalizing d with
  | nil => rfl
  | cons a as ih =>
    rw [stages, List.dropLast_cons_cons, List.forall_mem_cons] at hid
    have hstep : (d.build a).id = d.id := id_build_of_chosen h hid.1
    rw [List.foldl_cons, ih (hstep ▸ h) (hstep ▸ hid.2), hstep]

theorem contents_foldl_build (d : Document) (as : List Assignment) :
    (as.foldl build d).contents = as.foldl Contents.assign d.contents := by
  induction as generalizing d with
  | nil => rfl
  | cons a as ih => rw [List.foldl_cons, List.foldl_cons, ih, contents_build]

theorem score_foldl_build (d : Document) (as : List Assignment) :
    (as.foldl build d).score = d.score := by
  induction as generalizing d with
  | nil => rfl
  | cons a as ih => rw [List.foldl_cons, ih, score_build]

/-- After each of some builders a generated id is the digest of the document as it then is, and an
id that is no digest of the document before any of them stays as it was chosen. In the end the
document holds what the assignments alone make of what it held, under the same score. -/
theorem foldl_build (d : Document) (as : List Assignment) :
    (d.id = "" ∨ d.id = d.contentId → ∀ e ∈ d.stages as, e.id = e.contentId)
      ∧ (d.id ≠ "" → (∀ e ∈ (d :: d.stages as).dropLast, d.id ≠ e.contentId) →
        (as.foldl build d).id = d.id)
      ∧ (as.foldl build d).contents = as.foldl Contents.assign d.contents
      ∧ (as.foldl build d).score = d.score :=
  ⟨id_of_mem_stages, id_foldl_build, contents_foldl_build d as, score_foldl_build d as⟩

/-- Both kinds of id under the same builders, one of which is given twice. -/
theorem foldl_build_text :
    ∃ (as : List Assignment) (d : Document),
      as = [.entry "lang" (.string "en"), .entry "lang" (.string "en"), .embedding [0.5]]
        ∧ d = { content := some "text" }
        ∧ (∀ e ∈ (Document.ofContent "text").stages as, e.id = e.contentId)
        ∧ (∀ e ∈ d.stages as, e.id = e.contentId)
        ∧ (as.foldl build (d.withId "fixed")).id = "fixed" := by
  refine ⟨_, _, rfl, rfl, (foldl_build _ _).1 (.inr rfl), (foldl_build _ _).1 (.inl rfl), ?_⟩
  exact (foldl_build _ _).2.1 (by decide) fun e _ => ne_contentId (by decide) e

end Document
end DocumentStore
