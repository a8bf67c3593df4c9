import DocumentStore.Store.Database

/-! Entries that are derived from rows: at most one for each row, under the key of the row. Putting
or erasing the entry of one row keeps them the entries that the changed rows would give. -/
namespace DocumentStore

variable {α : Type}

def derived (f : Row → Option α) (rows : List Row) : List (Int × α) :=
  rows.filterMap fun r => (f r).map fun a => (r.key, a)

/-- Puts a value under a key, or erases what is there. -/
def putDerived (key : Int) (a : Option α) (l : List (Int × α)) : List (Int × α) :=
  match a with
  | some a => putKey key a l
  | none => eraseKey key l

theorem lexicalEntries_eq_derived (rows : List Row) :
    Database.lexicalEntries rows = derived (fun r => some r.content) rows := by
  simp [Database.lexicalEntries, derived]

theorem vectorEntries_eq_derived (rows : List Row) :
    Database.vectorEntries rows = derived Row.embedding rows := rfl

theorem putVector_eq_putDerived (r : Row) (l : List (Int × String)) :
    Database.putVector r l = putDerived r.key r.embedding l := by
  unfold Database.putVector putDerived
  cases r.embedding <;> rfl

@[simp] theorem derived_nil (f : Row → Option α) : derived f [] = [] := rfl

theorem derived_cons (f : Row → Option α) (r : Row) (rows : List Row) :
    derived f (r :: rows) = ((f r).map fun a => (r.key, a)).toList ++ derived f rows := by
  cases h : f r <;> simp [derived, h]

theorem derived_append (f : Row → Option α) (rows rest : List Row) :
    derived f (rows ++ rest) = derived f rows ++ derived f rest := by
  simp [derived, List.filterMap_append]

theorem exists_of_mem_derived {f : Row → Option α} {rows : List Row} {e : Int × α}
    (h : e ∈ derived f rows) : ∃ r ∈ rows, r.key = e.1 := by
  obtain ⟨r, hr, he⟩ := List.mem_filterMap.mp h
  obtain ⟨a, -, rfl⟩ := Option.map_eq_some_iff.mp he
  exact ⟨r, hr, rfl⟩

theorem putKey_of_forall_lt {key : Int} {a : α} {l : List (Int × α)}
    (h : ∀ e ∈ l, e.1 < key) : putKey key a l = l ++ [(key, a)] := by
  induction l with
  | nil => rfl
  | cons e l ih =>
    have he : e.1 < key := h e (by simp)
    have hne : key ≠ e.1 := by omega
    have hnot : ¬key < e.1 := by omega
    simp [putKey, hne, hnot, ih fun x hx => h x (by simp [hx])]

theorem putKey_of_forall_gt {key : Int} {a : α} {l : List (Int × α)}
    (h : ∀ e ∈ l, key < e.1) : putKey key a l = (key, a) :: l := by
  cases l with
  | nil => rfl
  | cons e l =>
    have he : key < e.1 := h e (by simp)
    have hne : key ≠ e.1 := by omega
    simp [putKey, hne, he]

theorem eraseKey_of_forall_ne {key : Int} {l : List (Int × α)} (h : ∀ e ∈ l, e.1 ≠ key) :
    eraseKey key l = l := by
  simpa [eraseKey, List.filter_eq_self] using fun k a hm => h (k, a) hm

theorem putDerived_append {f : Row → Option α} {rows : List Row} {r : Row}
    (h : ∀ q ∈ rows, q.key < r.key) :
    putDerived r.key (f r) (derived f rows) = derived f (rows ++ [r]) := by
  have hlt : ∀ e ∈ derived f rows, e.1 < r.key := by
    intro e he
    obtain ⟨q, hq, hk⟩ := exists_of_mem_derived he
    simpa [hk] using h q hq
  rw [derived_append, derived_cons]
  cases hf : f r with
  | some a => simp [putDerived, putKey_of_forall_lt hlt]
  | none => simp [putDerived, eraseKey_of_forall_ne fun e he => Int.ne_of_lt (hlt e he)]

theorem eraseKey_derived (f : Row → Option α) (key : Int) (rows : List Row) :
    eraseKey key (derived f rows) = derived f (rows.filter fun r => r.key != key) := by
  induction rows with
  | nil => rfl
  | cons r rows ih =>
    rw [derived_cons, List.filter_cons]
    by_cases hk : r.key = key <;> cases hf : f r <;>
      simp_all [eraseKey, derived_cons]

def exchange (r : Row) (rows : List Row) : List Row :=
  rows.map fun q => if q.key = r.key then r else q

theorem exchange_of_forall_ne {r : Row} {rows : List Row} (h : ∀ q ∈ rows, q.key ≠ r.key) :
    exchange r rows = rows := by
  induction rows with
  | nil => rfl
  | cons q rows ih =>
    have hq : q.key ≠ r.key := h q (by simp)
    have ht := ih fun p hp => h p (by simp [hp])
    simpa [exchange, hq] using ht

/-- Replacing the row of a key replaces its entry, which may appear or disappear. -/
theorem putDerived_exchange {f : Row → Option α} {rows : List Row} {r : Row}
    (hs : rows.Pairwise fun p q => p.key < q.key) (hr : ∃ q ∈ rows, q.key = r.key) :
    putDerived r.key (f r) (derived f rows) = derived f (exchange r rows) := by
  induction rows with
  | nil => simp at hr
  | cons q rows ih =>
    obtain ⟨hq, hs⟩ := List.pairwise_cons.mp hs
    by_cases hk : q.key = r.key
    · -- The keys behind the replaced row are all larger.
      have hgt : ∀ e ∈ derived f rows, r.key < e.1 := by
        intro e he
        obtain ⟨p, hp, hpk⟩ := exists_of_mem_derived he
        rw [← hk, ← hpk]
        exact hq p hp
      have herase := eraseKey_of_forall_ne fun e he => Int.ne_of_gt (hgt e he)
      have hrest : exchange r rows = rows := by
        apply exchange_of_forall_ne
        intro p hp
        have := hq p hp
        omega
      have hcons : exchange r (q :: rows) = r :: rows := by
        show (if q.key = r.key then r else q) :: exchange r rows = r :: rows
        rw [if_pos hk, hrest]
      rw [hcons, derived_cons, derived_cons, hk]
      cases hf : f r with
      | none => cases f q <;> simpa [putDerived, eraseKey] using herase
      | some a => cases f q <;> simp [putDerived, putKey, putKey_of_forall_gt hgt]
    · -- The replaced row lies behind this one, whose entry has a smaller key.
      obtain ⟨p, hp, hpk⟩ := hr
      have hp : p ∈ rows := by
        rcases List.mem_cons.mp hp with rfl | hp
        · exact absurd hpk hk
        · exact hp
      have hlt : q.key < r.key := hpk ▸ hq p hp
      have hne : r.key ≠ q.key := by omega
      have hnot : ¬r.key < q.key := by omega
      have hcons : exchange r (q :: rows) = q :: exchange r rows := by simp [exchange, hk]
      rw [hcons, derived_cons, derived_cons, ← ih hs ⟨p, hp, hpk⟩]
      cases hf : f r <;> cases f q <;> simp [putDerived, putKey, eraseKey, hne, hnot, hk]

end DocumentStore
