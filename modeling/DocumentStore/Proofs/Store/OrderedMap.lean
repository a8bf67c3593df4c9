import DocumentStore.Proofs.Filter.Meaning

/-! Documents as an ordered map from ids: a new id goes to the end, a taken id keeps its place. What
a database holds after a batch or a deletion is what the map says. -/
namespace DocumentStore
namespace OrderedMap

def idsOf (docs : List Document) : List String := docs.map (·.id)

@[simp] theorem idsOf_append (docs es : List Document) :
    idsOf (docs ++ es) = idsOf docs ++ idsOf es := by
  simp [idsOf]

@[simp] theorem idsOf_nil : idsOf [] = [] := rfl

@[simp] theorem idsOf_cons (d : Document) (docs : List Document) :
    idsOf (d :: docs) = d.id :: idsOf docs :=
  rfl

/-- Takes in one document. Only under `overwrite` does it replace the one that has its id. -/
def put (policy : DuplicatePolicy) (docs : List Document) (d : Document) : List Document :=
  if d.id ∉ idsOf docs then docs ++ [d]
  else if policy = .overwrite then docs.map fun e => if e.id = d.id then d else e
  else docs

theorem put_new {policy : DuplicatePolicy} {docs : List Document} {d : Document}
    (hd : d.id ∉ idsOf docs) : put policy docs d = docs ++ [d] :=
  if_pos hd

def putAll (policy : DuplicatePolicy) (docs batch : List Document) : List Document :=
  batch.foldl (put policy) docs

/-- How many documents of a batch are appended or replace another one. -/
def changed (policy : DuplicatePolicy) (docs : List Document) : List Document → Nat
  | [] => 0
  | d :: batch =>
    (if d.id ∉ idsOf docs ∨ policy = .overwrite then 1 else 0) + changed policy (put policy docs d) batch

def remove (gone : List String) (docs : List Document) : List Document :=
  docs.filter fun d => d.id ∉ gone

/-- A batch that names an id twice, or one that is taken, has a first document that does. -/
theorem exists_first_clash {taken : List String} {batch : List Document} (ht : taken.Nodup)
    (h : ¬(taken ++ idsOf batch).Nodup) :
    ∃ before d after, batch = before ++ d :: after ∧ (taken ++ idsOf before).Nodup
      ∧ d.id ∈ taken ++ idsOf before := by
  induction batch generalizing taken with
  | nil => exact absurd (by simpa [idsOf] using ht) h
  | cons d batch ih =>
    by_cases hd : d.id ∈ taken
    · exact ⟨[], d, batch, rfl, by simpa [idsOf] using ht, by simpa [idsOf] using hd⟩
    · have ht' : (taken ++ [d.id]).Nodup := by
        rw [List.nodup_append]
        refine ⟨ht, by simp, ?_⟩
        intro a ha b hb hab
        obtain rfl := List.mem_singleton.mp hb
        exact hd (hab ▸ ha)
      have h' : ¬((taken ++ [d.id]) ++ idsOf batch).Nodup := by simpa using h
      obtain ⟨before, e, after, rfl, hn, he⟩ := ih ht' h'
      exact ⟨d :: before, e, after, rfl, by simpa using hn, by simpa using he⟩

end OrderedMap

open OrderedMap

def Numbered.documents (ds : Numbered) : List Document := ds.map Prod.snd

theorem Numbered.idsOf_documents (ds : Numbered) : idsOf ds.documents = ds.map fun e => e.2.id := by
  simp [idsOf, documents]

namespace Database

variable {db : Database} {ds : Numbered} {policy : DuplicatePolicy} {d : Document}

theorem Holds.documents_exchange (h : db.Holds ds) {e : Int × Document} (he : e ∈ ds)
    (hd : d.id = e.2.id) :
    (ds.exchange e.1 d).documents = ds.documents.map fun f => if f.id = d.id then d else f := by
  simp only [Numbered.documents, Numbered.exchange, List.map_map]
  apply List.map_congr_left
  intro f hf
  by_cases hk : f.1 = e.1
  · simp [h.eq_of_key hf he hk, hd]
  · have hi : f.2.id ≠ d.id := by
      intro hi
      exact hk (congrArg Prod.fst (h.eq_of_id hf he (hi.trans hd)))
    simp [hk, hi]

theorem Holds.writeOne_refused (h : db.Holds ds) (hp : policy.resolve = .fail)
    (hd : d.id ∈ idsOf ds.documents) : db.writeOne policy d = .error (.duplicateDocument d.id) := by
  rw [Numbered.idsOf_documents] at hd
  cases hf : db.findId? d.id with
  | none => exact absurd hd (h.findId?_eq_none.mp hf)
  | some r => simp [writeOne, hf, hp]

theorem Holds.writeOne_taken (h : db.Holds ds)
    (hp : policy.resolve = .fail → d.id ∉ idsOf ds.documents) :
    ∃ db' ds', db.writeOne policy d
        = .ok (db', if d.id ∉ idsOf ds.documents ∨ policy = .overwrite then 1 else 0)
      ∧ db'.Holds ds' ∧ ds'.documents = put policy ds.documents d := by
  cases hf : db.findId? d.id with
  | none =>
    have hd := h.findId?_eq_none.mp hf
    have hn : d.id ∉ idsOf ds.documents := by rwa [Numbered.idsOf_documents]
    refine ⟨_, _, ?_, h.append hd, ?_⟩
    · simp [writeOne, hf, hn]
    · rw [put_new hn]
      simp [Numbered.documents]
  | some r =>
    obtain ⟨e, he, hi, rfl⟩ := h.exists_of_findId? hf
    have hn : d.id ∈ idsOf ds.documents := by
      rw [Numbered.idsOf_documents, ← hi]
      exact List.mem_map_of_mem he
    cases policy with
    | none => exact absurd hn (hp rfl)
    | fail => exact absurd hn (hp rfl)
    | skip => exact ⟨db, ds, by simp [writeOne, hf, hn, DuplicatePolicy.resolve], h, by simp [put, hn]⟩
    | overwrite =>
      refine ⟨_, _, ?_, h.replace he hi.symm, ?_⟩
      · simp only [writeOne, hf, DuplicatePolicy.resolve, or_true, if_true]
        rfl
      · simp [put, hn, h.documents_exchange he hi.symm]

/-- A batch that repeats no id and names none that is taken, or whose policy allows for that, is
taken in as a whole. -/
theorem Holds.write_taken {batch : List Document} (h : db.Holds ds)
    (hp : policy.resolve = .fail → (idsOf ds.documents ++ idsOf batch).Nodup) :
    ∃ db' ds', db.write policy batch = .ok (db', changed policy ds.documents batch)
      ∧ db'.Holds ds' ∧ ds'.documents = putAll policy ds.documents batch := by
  induction batch generalizing db ds with
  | nil => exact ⟨db, ds, rfl, h, rfl⟩
  | cons d batch ih =>
    have hd : policy.resolve = .fail → d.id ∉ idsOf ds.documents := by
      intro hf hmem
      exact (List.nodup_append.mp (hp hf)).2.2 _ hmem _ (by simp) rfl
    obtain ⟨db₁, ds₁, hw, h₁, hds₁⟩ := h.writeOne_taken hd
    have hp₁ : policy.resolve = .fail → (idsOf ds₁.documents ++ idsOf batch).Nodup := by
      intro hf
      rw [hds₁, put_new (hd hf)]
      simpa using hp hf
    obtain ⟨db₂, ds₂, hws, h₂, hds₂⟩ := ih h₁ hp₁
    refine ⟨db₂, ds₂, ?_, h₂, ?_⟩
    · simp only [write, hw, hws, hds₁, changed, bind, Except.bind, pure, Except.pure]
    · rw [hds₂, hds₁, putAll, putAll, List.foldl_cons]

theorem Holds.write_refused {before after : List Document} (h : db.Holds ds)
    (hp : policy.resolve = .fail) (hn : (idsOf ds.documents ++ idsOf before).Nodup)
    (hd : d.id ∈ idsOf ds.documents ++ idsOf before) :
    db.write policy (before ++ d :: after) = .error (.duplicateDocument d.id) := by
  induction before generalizing db ds with
  | nil =>
    have hd' : d.id ∈ idsOf ds.documents := by simpa [idsOf] using hd
    simp [write, h.writeOne_refused hp hd', bind, Except.bind]
  | cons e before ih =>
    have he : e.id ∉ idsOf ds.documents := by
      intro hmem
      exact (List.nodup_append.mp hn).2.2 _ hmem _ (by simp) rfl
    have ht : policy.resolve = .fail → e.id ∉ idsOf ds.documents := fun _ => he
    obtain ⟨db₁, ds₁, hw, h₁, hds₁⟩ := h.writeOne_taken ht
    have hput : idsOf ds₁.documents = idsOf ds.documents ++ [e.id] := by
      simp [hds₁, put_new he]
    have hrest := ih h₁ (by simpa [hput] using hn) (by simpa [hput] using hd)
    simp [write, hw, hrest, bind, Except.bind]

/-- A batch that is not stopped is taken in as the ordered map takes it. -/
theorem Holds.write_ok {batch : List Document} {db' : Database} {n : Nat} (h : db.Holds ds)
    (hw : db.write policy batch = .ok (db', n)) :
    n = changed policy ds.documents batch
      ∧ ∃ ds', db'.Holds ds' ∧ ds'.documents = putAll policy ds.documents batch := by
  have hids : (idsOf ds.documents).Nodup := by
    rw [Numbered.idsOf_documents]
    exact h.ids
  have hp : policy.resolve = .fail → (idsOf ds.documents ++ idsOf batch).Nodup := by
    intro hf
    refine Decidable.byContradiction fun hn => ?_
    obtain ⟨before, d, after, rfl, hb, hd⟩ := exists_first_clash hids hn
    rw [h.write_refused hf hb hd] at hw
    cases hw
  obtain ⟨db₁, ds₁, hw₁, h₁, hds₁⟩ := h.write_taken hp
  rw [hw₁] at hw
  cases hw
  exact ⟨rfl, ds₁, h₁, hds₁⟩

theorem Holds.foldl_erase (h : db.Holds ds) (keys : List Int) :
    (keys.foldl (fun db key => db.erase key) db).Holds (ds.filter fun e => e.1 ∉ keys) := by
  induction keys generalizing db ds with
  | nil => simpa using h
  | cons key keys ih =>
    have hrest := ih (h.erase key)
    have hds : (ds.without key).filter (fun e => e.1 ∉ keys)
        = ds.filter fun e => e.1 ∉ key :: keys := by
      rw [Numbered.without, List.filter_filter]
      apply List.filter_congr
      intro e _
      by_cases hk : e.1 = key <;> simp [hk]
    rw [hds] at hrest
    exact hrest

theorem Holds.eraseRows (h : db.Holds ds) (gone : List String) :
    ∃ ds', (db.eraseRows fun r => gone.contains r.id).Holds ds'
      ∧ ds'.documents = remove gone ds.documents := by
  have hdel := h.foldl_erase ((db.rows.filter fun r => gone.contains r.id).map (·.key))
  refine ⟨_, hdel, ?_⟩
  rw [Numbered.documents, remove, Numbered.documents, List.filter_map]
  congr 1
  apply List.filter_congr
  intro e he
  have hiff : e.1 ∈ (db.rows.filter fun r => gone.contains r.id).map (·.key) ↔ e.2.id ∈ gone := by
    rw [h.rows, rowsOf, List.filter_map, List.map_map, List.mem_map]
    constructor
    · rintro ⟨f, hf, hk⟩
      obtain ⟨hf, hg⟩ := List.mem_filter.mp hf
      rw [← h.eq_of_key hf he hk]
      exact List.contains_iff_mem.mp hg
    · intro hg
      exact ⟨e, List.mem_filter.mpr ⟨he, List.contains_iff_mem.mpr hg⟩, rfl⟩
  exact decide_eq_decide.mpr (not_congr hiff)

theorem memberOf_texts {ids : List String} (hne : ids ≠ []) (id : String) :
    (memberOf (.text id) (ids.map Cell.text) == .yes) = ids.contains id := by
  have hany : (ids.map Cell.text).any (fun m => !m.isNull && ((Cell.text id).compare m).isEq)
      = ids.contains id := by
    rw [List.any_map, List.contains_eq_any_beq]
    congr 1
    funext s
    show (Ord.compare id s).isEq = (id == s)
    by_cases hs : id = s
    · simp [hs]
    · have hcompare : Ord.compare id s ≠ .eq := fun heq => hs (compare_eq_iff_eq.mp heq)
      rw [beq_eq_false_iff_ne.mpr hs]
      cases ho : Ord.compare id s with
      | eq => exact absurd ho hcompare
      | lt | gt => rfl
  have hnulls : (ids.map Cell.text).any Cell.isNull = false := by
    rw [List.any_map, List.any_eq_false]
    exact fun s _ => Bool.false_ne_true
  have hnonempty : (ids.map Cell.text).isEmpty = false := by simpa using hne
  rw [memberOf, hnonempty, hany, hnulls]
  cases ids.contains id <;> rfl

theorem nestingOfItems_strings (ids : List String) :
    Json.nestingOfItems (ids.map .string) = 0 := by
  induction ids with
  | nil => rfl
  | cons id ids ih => simp [Json.nestingOfItems, Json.nesting, ih]

/-- The list of the ids is read as it was handed over, so that just their rows are deleted. -/
theorem delete_eq (gone : List String) (db : Database) :
    db.delete gone = .ok (db.eraseRows fun r => gone.contains r.id) := by
  cases gone with
  | nil =>
    show Except.ok db = .ok (db.eraseRows fun _ => false)
    simp [Database.eraseRows]
  | cons id ids =>
    have hdepth : (Json.array ((id :: ids).map .string)).nesting ≤ Node.depthLimit := by
      rw [Json.nesting, nestingOfItems_strings]
      decide
    have hmembers : (Json.array ((id :: ids).map .string)).members = (id :: ids).map Cell.text := by
      rw [Json.members, List.map_map]
      rfl
    rw [Database.delete, listMembers_text, if_pos hdepth, hmembers]
    simp only [memberOf_texts (List.cons_ne_nil id ids)]
    rfl

end Database
end DocumentStore
