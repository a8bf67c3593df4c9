import Mathlib.Data.List.Nodup
import DocumentStore.Proofs.Store.Keyed
import DocumentStore.Store.Write

/-! What a database holds: numbered documents, one to a row, with keys that grow and ids that are
all different, and two indexes that are what the rows would give if they were derived anew. Every
change of a database keeps this, and changes the documents in one simple way. -/
namespace DocumentStore

def Row.ofDocument (key : Int) (d : Document) : Row := .ofRecord key (.ofDocument d)

@[simp] theorem Row.ofDocument_key (key : Int) (d : Document) : (Row.ofDocument key d).key = key := rfl

@[simp] theorem Row.ofDocument_id (key : Int) (d : Document) : (Row.ofDocument key d).id = d.id := rfl

@[simp] theorem Row.ofDocument_embedding (key : Int) (d : Document) :
    (Row.ofDocument key d).embedding = d.embedding.map Json.singlesText := rfl

@[simp] theorem Row.ofDocument_content (key : Int) (d : Document) :
    (Row.ofDocument key d).content = d.content := rfl

abbrev Numbered := List (Int × Document)

def rowsOf (ds : Numbered) : List Row := ds.map fun e => Row.ofDocument e.1 e.2

@[simp] theorem rowsOf_append (ds es : Numbered) : rowsOf (ds ++ es) = rowsOf ds ++ rowsOf es := by
  simp [rowsOf]

def Numbered.exchange (key : Int) (d : Document) (ds : Numbered) : Numbered :=
  ds.map fun e => if e.1 = key then (key, d) else e

def Numbered.without (key : Int) (ds : Numbered) : Numbered := ds.filter fun e => e.1 != key

theorem rowsOf_exchange (key : Int) (d : Document) (ds : Numbered) :
    rowsOf (ds.exchange key d) = DocumentStore.exchange (Row.ofDocument key d) (rowsOf ds) := by
  simp only [rowsOf, Numbered.exchange, DocumentStore.exchange, List.map_map]
  apply List.map_congr_left
  intro e _
  by_cases h : e.1 = key <;> simp [h]

theorem rowsOf_without (key : Int) (ds : Numbered) :
    rowsOf (ds.without key) = (rowsOf ds).filter fun r => r.key != key := by
  simp only [rowsOf, Numbered.without, List.filter_map]
  rfl

theorem Numbered.keys_nodup {ds : Numbered} (h : ds.Pairwise fun e f => e.1 < f.1) :
    (ds.map Prod.fst).Nodup := by
  rw [List.Nodup, List.pairwise_map]
  exact h.imp Int.ne_of_lt

structure Database.Holds (db : Database) (ds : Numbered) : Prop where
  version : db.version = schemaVersion
  rows : db.rows = rowsOf ds
  keys : ds.Pairwise fun e f => e.1 < f.1
  ids : (ds.map fun e => e.2.id).Nodup
  lexical : ∀ i, db.lexical = some i → i.entries = lexicalEntries db.rows
  vectors : ∀ l, db.vectors = some l → l = vectorEntries db.rows

namespace Database

theorem holds_empty : ({} : Database).migrate.Holds [] where
  version := rfl
  rows := rfl
  keys := .nil
  ids := .nil
  lexical _ h := nomatch h
  vectors _ h := nomatch h

variable {db : Database} {ds : Numbered}

theorem Holds.rows_sorted (h : db.Holds ds) : db.rows.Pairwise fun p q => p.key < q.key := by
  rw [h.rows, rowsOf, List.pairwise_map]
  exact h.keys

theorem Holds.eq_of_key (h : db.Holds ds) {e f : Int × Document} (he : e ∈ ds) (hf : f ∈ ds)
    (hk : e.1 = f.1) : e = f :=
  List.inj_on_of_nodup_map (Numbered.keys_nodup h.keys) he hf hk

theorem Holds.eq_of_id (h : db.Holds ds) {e f : Int × Document} (he : e ∈ ds) (hf : f ∈ ds)
    (hi : e.2.id = f.2.id) : e = f :=
  List.inj_on_of_nodup_map h.ids he hf hi

theorem Holds.findId?_eq (h : db.Holds ds) (id : String) :
    db.findId? id = (ds.find? fun e => e.2.id == id).map fun e => Row.ofDocument e.1 e.2 := by
  rw [findId?, h.rows, rowsOf, List.find?_map]
  rfl

theorem Holds.findId?_eq_none (h : db.Holds ds) {id : String} :
    db.findId? id = none ↔ id ∉ ds.map fun e => e.2.id := by
  rw [h.findId?_eq, Option.map_eq_none_iff, List.find?_eq_none]
  simp

theorem Holds.exists_of_findId? (h : db.Holds ds) {id : String} {r : Row}
    (hr : db.findId? id = some r) :
    ∃ e ∈ ds, e.2.id = id ∧ r = Row.ofDocument e.1 e.2 := by
  rw [h.findId?_eq] at hr
  obtain ⟨e, he, rfl⟩ := Option.map_eq_some_iff.mp hr
  exact ⟨e, List.mem_of_find?_eq_some he, by simpa using List.find?_some he, rfl⟩

theorem le_foldl_max (rows : List Row) (n : Int) :
    n ≤ rows.foldl (fun n r => max n r.key) n
      ∧ ∀ r ∈ rows, r.key ≤ rows.foldl (fun n r => max n r.key) n := by
  induction rows generalizing n with
  | nil => simp
  | cons q rows ih =>
    obtain ⟨hn, hall⟩ := ih (max n q.key)
    refine ⟨by simp only [List.foldl_cons]; omega, ?_⟩
    intro r hr
    rcases List.mem_cons.mp hr with rfl | hr
    · simp only [List.foldl_cons]; omega
    · exact hall r hr

theorem key_lt_nextKey {r : Row} (hr : r ∈ db.rows) : r.key < db.nextKey := by
  have := (le_foldl_max db.rows 0).2 r hr
  unfold nextKey
  omega

theorem lexical_index (r : Row) (rows rows' : List Row)
    (h : ∀ i, db.lexical = some i → i.entries = lexicalEntries rows)
    (hd : putDerived r.key (some r.content) (derived (fun r => some r.content) rows)
      = derived (fun r => some r.content) rows') :
    ∀ i, (index r db).lexical = some i → i.entries = lexicalEntries rows' := by
  intro i hi
  obtain ⟨j, hj, rfl⟩ := Option.map_eq_some_iff.mp hi
  show putKey r.key r.content j.entries = lexicalEntries rows'
  rw [h j hj, lexicalEntries_eq_derived, lexicalEntries_eq_derived, ← hd]
  rfl

theorem vectors_index (r : Row) (rows rows' : List Row)
    (h : ∀ l, db.vectors = some l → l = vectorEntries rows)
    (hd : putDerived r.key r.embedding (derived Row.embedding rows) = derived Row.embedding rows') :
    ∀ l, (index r db).vectors = some l → l = vectorEntries rows' := by
  intro l hl
  obtain ⟨k, hk, rfl⟩ := Option.map_eq_some_iff.mp hl
  rw [putVector_eq_putDerived, h k hk, vectorEntries_eq_derived, hd]
  rfl

theorem Holds.append (h : db.Holds ds) {d : Document} (hd : d.id ∉ ds.map fun e => e.2.id) :
    (db.append (.ofDocument d)).Holds (ds ++ [(db.nextKey, d)]) := by
  have hlt : ∀ q ∈ db.rows, q.key < (Row.ofDocument db.nextKey d).key := fun q hq => key_lt_nextKey hq
  refine ⟨h.version, ?_, ?_, ?_, ?_, ?_⟩
  · show db.rows ++ [Row.ofDocument db.nextKey d] = _
    rw [rowsOf_append, h.rows]
    rfl
  · rw [List.pairwise_append]
    refine ⟨h.keys, List.pairwise_singleton _ _, ?_⟩
    intro e he f hf
    obtain rfl := List.mem_singleton.mp hf
    apply key_lt_nextKey (r := Row.ofDocument e.1 e.2)
    rw [h.rows]
    exact List.mem_map_of_mem he
  · rw [List.map_append, List.nodup_append]
    refine ⟨h.ids, by simp, ?_⟩
    intro a ha b hb hab
    simp only [List.map_cons, List.map_nil, List.mem_singleton] at hb
    exact hd (hb ▸ hab ▸ ha)
  · exact lexical_index _ _ _ h.lexical (putDerived_append (f := fun r => some r.content) hlt)
  · exact vectors_index _ _ _ h.vectors (putDerived_append hlt)

/-- A document is put in the place of another one with the same id, under its key. -/
theorem Holds.replace (h : db.Holds ds) {e : Int × Document} {d : Document} (he : e ∈ ds)
    (hd : d.id = e.2.id) :
    (db.replace (Row.ofDocument e.1 d)).Holds (ds.exchange e.1 d) := by
  have hmem : ∃ q ∈ db.rows, q.key = (Row.ofDocument e.1 d).key := by
    refine ⟨Row.ofDocument e.1 e.2, ?_, rfl⟩
    rw [h.rows]
    exact List.mem_map_of_mem he
  refine ⟨h.version, ?_, ?_, ?_, ?_, ?_⟩
  · show exchange (Row.ofDocument e.1 d) db.rows = _
    rw [rowsOf_exchange, h.rows]
  · rw [Numbered.exchange, List.pairwise_map]
    apply h.keys.imp
    intro f g hfg
    by_cases hf : f.1 = e.1 <;> by_cases hg : g.1 = e.1 <;> simp_all
  · have hids : (ds.exchange e.1 d).map (fun f => f.2.id) = ds.map fun f => f.2.id := by
      rw [Numbered.exchange, List.map_map]
      apply List.map_congr_left
      intro f hf
      by_cases hk : f.1 = e.1
      · simp [hd, h.eq_of_key hf he hk]
      · simp [hk]
    rw [hids]
    exact h.ids
  · exact lexical_index _ _ _ h.lexical
      (putDerived_exchange (f := fun r => some r.content) h.rows_sorted hmem)
  · exact vectors_index _ _ _ h.vectors (putDerived_exchange h.rows_sorted hmem)

theorem Holds.erase (h : db.Holds ds) (key : Int) : (db.erase key).Holds (ds.without key) := by
  refine ⟨h.version, ?_, h.keys.filter _, ?_, ?_, ?_⟩
  · show db.rows.filter (fun r => r.key != key) = _
    rw [rowsOf_without, h.rows]
  · exact h.ids.sublist (List.filter_sublist.map _)
  · intro i hi
    obtain ⟨j, hj, rfl⟩ := Option.map_eq_some_iff.mp hi
    show eraseKey key j.entries = lexicalEntries (db.rows.filter fun r => r.key != key)
    rw [h.lexical j hj, lexicalEntries_eq_derived, lexicalEntries_eq_derived, eraseKey_derived]
  · intro l hl
    obtain ⟨k, hk, rfl⟩ := Option.map_eq_some_iff.mp hl
    show eraseKey key k = vectorEntries (db.rows.filter fun r => r.key != key)
    rw [h.vectors k hk, vectorEntries_eq_derived, vectorEntries_eq_derived, eraseKey_derived]

end Database
end DocumentStore
