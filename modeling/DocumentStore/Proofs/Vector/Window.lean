import DocumentStore.Vector.Window
import DocumentStore.Proofs.Number.Order
import DocumentStore.Proofs.Sorting

/-! The window of the nearest entries. Main statement: taking the entries in one by one, and putting
the farthest one out whenever there are too many, leaves the first ones of all entries in their
order. -/
namespace DocumentStore.Vector

def Candidate.place (c : Candidate) : ℤ ×ₗ ℤ := toLex (Number.totalKey c.distance, c.key)

/-- Whether a candidate comes before another one or is the same. -/
def Candidate.le (a b : Candidate) : Bool := (a.compare b).isLE

theorem Candidate.le_iff : ComparesBy Candidate.place Candidate.le := by
  intro a b
  rw [le, compare, compare_then_iff rfl rfl, place, place, Prod.Lex.toLex_le_toLex,
    Std.isLE_compare]

theorem Candidate.place_injective : Function.Injective Candidate.place := by
  intro a b h
  obtain ⟨da, ka⟩ := a
  obtain ⟨db, kb⟩ := b
  have hpair := toLex.injective h
  simp only [Prod.mk.injEq] at hpair
  rw [Number.totalKey_injective hpair.1, hpair.2]

theorem Candidate.isLT_compare (a b : Candidate) :
    (a.compare b).isLT = true ↔ a.place < b.place := by
  rw [compare, compare_then_iff rfl rfl, place, place, Prod.Lex.toLex_lt_toLex,
    Ordering.isLT_iff_eq_lt, compare_lt_iff_lt]

variable {c : Candidate} {cs ds : List Candidate} {limit : ℕ}

theorem insert_perm (c : Candidate) (ds : List Candidate) : (insert c ds).Perm (c :: ds) := by
  induction ds with
  | nil => exact .refl _
  | cons d ds ih =>
    rw [insert]
    split
    · exact .refl _
    · exact (ih.cons d).trans (.swap c d ds)

theorem pairwise_insert (h : ds.Pairwise fun a b => a.place ≤ b.place) (c : Candidate) :
    (insert c ds).Pairwise fun a b => a.place ≤ b.place := by
  induction ds with
  | nil => exact List.pairwise_singleton _ _
  | cons d ds ih =>
    obtain ⟨hd, hds⟩ := List.pairwise_cons.mp h
    rw [insert]
    split
    · rename_i hlt
      have hcd : c.place ≤ d.place := ((Candidate.isLT_compare c d).mp hlt).le
      refine List.pairwise_cons.mpr ⟨?_, h⟩
      intro e he
      rcases List.mem_cons.mp he with rfl | he
      · exact hcd
      · exact hcd.trans (hd e he)
    · rename_i hlt
      have hdc : d.place ≤ c.place :=
        not_lt.mp fun h => hlt ((Candidate.isLT_compare c d).mpr h)
      refine List.pairwise_cons.mpr ⟨?_, ih hds⟩
      intro e he
      rcases List.mem_cons.mp ((insert_perm c ds).mem_iff.mp he) with rfl | he
      · exact hdc
      · exact hd e he

/-- What lies behind the window does not matter to what is taken in. -/
theorem takeIn_take (limit : ℕ) (c : Candidate) (ds : List Candidate) :
    takeIn limit (ds.take limit) c = (insert c ds).take limit := by
  unfold takeIn
  induction ds generalizing limit with
  | nil => simp
  | cons d ds ih =>
    cases limit with
    | zero => simp
    | succ limit =>
      rw [List.take_succ_cons, insert, insert]
      split
      · have hd : d :: ds.take limit = (d :: ds).take (limit + 1) := rfl
        rw [hd, List.take_succ_cons (a := c), List.take_succ_cons (a := c), List.take_take,
          min_eq_left (Nat.le_succ limit)]
      · rw [List.take_succ_cons, List.take_succ_cons, ih]

theorem foldl_takeIn (limit : ℕ) (cs ds : List Candidate) :
    cs.foldl (takeIn limit) (ds.take limit)
      = (cs.foldl (fun ds c => insert c ds) ds).take limit := by
  induction cs generalizing ds with
  | nil => rfl
  | cons c cs ih => rw [List.foldl_cons, List.foldl_cons, takeIn_take, ih]

theorem foldl_insert (cs ds : List Candidate) (h : ds.Pairwise fun a b => a.place ≤ b.place) :
    cs.foldl (fun ds c => insert c ds) ds = (ds ++ cs).mergeSort Candidate.le := by
  induction cs generalizing ds with
  | nil =>
    rw [List.append_nil]
    exact (Candidate.le_iff.mergeSort_eq (fun a _ b _ h => Candidate.place_injective h) h
      (.refl _)).symm
  | cons c cs ih =>
    have hperm : (insert c ds ++ cs).Perm (ds ++ c :: cs) :=
      ((insert_perm c ds).append_right cs).trans List.perm_middle.symm
    rw [List.foldl_cons, ih _ (pairwise_insert h c)]
    exact Candidate.le_iff.mergeSort_eq (fun a _ b _ h => Candidate.place_injective h)
      (Candidate.le_iff.pairwise_mergeSort _) ((List.mergeSort_perm _ _).trans hperm.symm)

theorem nearest_eq (s : Similarity) (query : List Float32) (limit : ℕ)
    (entries : List (ℤ × String)) :
    nearest s query limit entries
      = ((entries.filterMap (candidate? s query)).mergeSort Candidate.le).take limit := by
  have hfold := foldl_takeIn limit (entries.filterMap (candidate? s query)) []
  rw [List.take_nil, foldl_insert _ _ .nil, List.nil_append] at hfold
  exact hfold

theorem candidate?_eq_some {s : Similarity} {query : List Float32} {entry : ℤ × String}
    {c : Candidate} :
    candidate? s query entry = some c ↔ c.key = entry.1 ∧ ∃ v, Record.vector? entry.2 = some v
      ∧ v.length = query.length ∧ c.distance = distance s query v ∧ c.distance.isFinite = true := by
  obtain ⟨d, key⟩ := c
  unfold candidate?
  cases Record.vector? entry.2 with
  | none => simp
  | some v =>
    by_cases hlength : v.length = query.length
    · by_cases hfinite : (distance s query v).isFinite = true
      · simp only [hlength, hfinite, if_true, Option.some.injEq, Candidate.mk.injEq, true_and,
          exists_eq_left']
        constructor
        · rintro ⟨rfl, rfl⟩
          exact ⟨rfl, rfl, hfinite⟩
        · rintro ⟨hkey, hdistance, -⟩
          exact ⟨hdistance.symm, hkey.symm⟩
      · have hnot : ¬(d = distance s query v ∧ d.isFinite = true) := fun h => hfinite (h.1 ▸ h.2)
        simp [hlength, hfinite, hnot]
    · simp [hlength]

theorem isFinite_of_mem_nearest {s : Similarity} {query : List Float32} {limit : ℕ}
    {entries : List (ℤ × String)} {c : Candidate} (h : c ∈ nearest s query limit entries) :
    c.distance.isFinite = true := by
  rw [nearest_eq] at h
  obtain ⟨entry, -, hc⟩ :=
    List.mem_filterMap.mp (List.mem_mergeSort.mp (List.mem_of_mem_take h))
  obtain ⟨-, v, -, -, -, hfinite⟩ := candidate?_eq_some.mp hc
  exact hfinite

end DocumentStore.Vector
