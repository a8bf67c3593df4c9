import DocumentStore.Proofs.Store.History

/-! Reading the documents that a database holds. A document comes back as the codec makes it from
what it stored, which does not depend on its key. -/
namespace DocumentStore

/-- What a document is when it is written and read again. -/
def Document.reread (d : Document) : Except StoreError Document := (Row.ofDocument 0 d).document

@[simp] theorem Row.ofDocument_document (key : Int) (d : Document) :
    (Row.ofDocument key d).document = d.reread := rfl

namespace Database

variable {db : Database} {ds : Numbered}

/-- The documents that a condition selects are read in their order. Only a row of which it is not
known whether it meets the condition can break this off. -/
theorem documentsOf_rowsOf {condition : Option Condition} {p : Document → Bool} {reason : Prop}
    (h : ∀ e ∈ ds, Settles reason ((Row.ofDocument e.1 e.2).meets .alone condition) (p e.2)) :
    documentsOf condition (rowsOf ds) = (ds.documents.filter p).mapM Document.reread
      ∨ documentsOf condition (rowsOf ds) = .error .engine ∧ reason := by
  induction ds with
  | nil => exact .inl rfl
  | cons e ds ih =>
    have hrest := ih fun f hf => h f (by simp [hf])
    simp only [rowsOf, Numbered.documents, List.map_cons, documentsOf] at hrest ⊢
    rcases h e (by simp) with hmeets | ⟨hmeets, hreason⟩
    · rw [hmeets]
      cases hp : p e.2 with
      | false => simpa [hp] using hrest
      | true =>
        rw [List.filter_cons_of_pos hp, List.mapM_cons]
        simp only [Row.ofDocument_document]
        cases e.2.reread with
        | error fault => exact .inl rfl
        | ok d =>
          rcases hrest with hrest | ⟨hrest, hreason⟩
          · exact .inl (by rw [hrest])
          · exact .inr ⟨by rw [hrest]; rfl, hreason⟩
    · exact .inr ⟨by rw [hmeets], hreason⟩

theorem Holds.filter_none (h : db.Holds ds) :
    db.filter none = ds.documents.mapM Document.reread := by
  have hall : ∀ e ∈ ds, Settles False ((Row.ofDocument e.1 e.2).meets .alone none) true :=
    fun _ _ => .inl rfl
  have hread := documentsOf_rowsOf (p := fun _ => true) hall
  show documentsOf none db.rows = _
  rw [h.rows]
  simpa using hread

theorem Holds.get (h : db.Holds ds) (id : String) :
    db.get id = (ds.documents.find? fun d => d.id == id).mapM Document.reread := by
  rw [Database.get, h.findId?_eq, Numbered.documents, List.find?_map]
  have hp : ((fun d : Document => d.id == id) ∘ Prod.snd) = fun e : Int × Document => e.2.id == id := rfl
  rw [hp]
  cases ds.find? fun e => e.2.id == id with
  | none => rfl
  | some e => rfl

end Database

open OrderedMap

/-- A database is an ordered map from ids to documents: it lists them in the order of the map,
counts them, finds each by its id, and tells of a batch how many documents it has changed. -/
theorem History.reads_ordered_map {cs : List Config} {docs : List Document} {s : Store}
    (h : History cs docs s) :
    s.filter none = docs.mapM Document.reread
      ∧ (idsOf docs).Nodup
      ∧ s.count = .ok docs.length
      ∧ (∀ id, s.get id = (docs.find? fun d => d.id == id).mapM Document.reread)
      ∧ ∀ batch policy n s', s.write batch policy = (.ok n, s') → n = changed policy docs batch := by
  have hk := h.keeps
  have hlocked := Store.locked_of_not_poisoned hk.lock
  obtain ⟨ds, hds, rfl⟩ := hk.holds
  refine ⟨?_, ?_, ?_, ?_, ?_⟩
  · rw [← hds.filter_none, Store.filter, hlocked]
    rfl
  · rw [Numbered.idsOf_documents]
    exact hds.ids
  · rw [Store.count, hlocked]
    simp [Except.map, hds.rows, rowsOf, Numbered.documents]
  · intro id
    rw [← hds.get, Store.get, hlocked]
    rfl
  · intro batch policy n s' hw
    obtain ⟨db, hdb, -⟩ := Store.write_ok hk.lock hw
    exact (hds.write_ok hdb).1

/-- One document is replaced where it stands, and another one is appended. -/
theorem History.reads_ordered_map_overwrite :
    ∃ s docs, History [{}] docs s
      ∧ docs = [{ id := "a", content := some "new" }, { id := "b" }, { id := "c" }]
      ∧ s.filter none = docs.mapM Document.reread ∧ docs.mapM Document.reread = .ok docs
      ∧ s.count = .ok 3 ∧ s.get "b" = .ok (some { id := "b" }) := by
  have h₀ := @History.created {} {} _ rfl rfl
  have h₁ := @History.written _ _ [{ id := "a" }, { id := "b" }] _ _ .fail _ h₀ rfl
  have h₂ := @History.written _ _ [{ id := "a", content := some "new" }, { id := "c" }] _ _
    .overwrite _ h₁ rfl
  obtain ⟨hfilter, -, hcount, hget, -⟩ := h₂.reads_ordered_map
  exact ⟨_, _, h₂, rfl, hfilter, rfl, hcount, hget "b"⟩

end DocumentStore
