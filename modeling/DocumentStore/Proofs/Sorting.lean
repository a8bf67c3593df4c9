import Mathlib.Data.List.Sort
import Mathlib.Data.Prod.Lex

/-! Lists sorted by a key in a linear order. Where a key belongs to one entry only, a list sorted by
it is determined by its entries, so that sorting may be done before or after a selection. -/
namespace DocumentStore

variable {α β : Type} [LinearOrder β] {key : α → β} {le : α → α → Bool} {l l' : List α}

theorem compare_then_iff {below : Ordering → Bool} (hlt : below .lt = true)
    (hgt : below .gt = false) (x y : β) (o : Ordering) :
    below ((Ord.compare x y).then o) = true ↔ x < y ∨ x = y ∧ below o = true := by
  rcases lt_trichotomy x y with h | rfl | h
  · simp [compare_lt_iff_lt.mpr h, h, hlt]
  · simp
  · simp [compare_gt_iff_gt.mpr h, h.not_gt, h.ne', hgt]

/-- Whether entries are compared by a key. -/
def ComparesBy (key : α → β) (le : α → α → Bool) : Prop := ∀ a b, le a b = true ↔ key a ≤ key b

theorem ComparesBy.pairwise_mergeSort (h : ComparesBy key le) (l : List α) :
    (l.mergeSort le).Pairwise fun a b => key a ≤ key b := by
  have htrans : ∀ a b c, le a b = true → le b c = true → le a c = true := by
    intro a b c hab hbc
    rw [h] at hab hbc ⊢
    exact hab.trans hbc
  have htotal : ∀ a b, (le a b || le b a) = true := by
    intro a b
    rw [Bool.or_eq_true, h, h]
    exact le_total _ _
  exact (List.pairwise_mergeSort htrans htotal l).imp fun {a b} hab => (h a b).mp hab

theorem eq_of_sorted (hinj : ∀ a ∈ l, ∀ b ∈ l, key a = key b → a = b)
    (hl : l.Pairwise fun a b => key a ≤ key b) (hl' : l'.Pairwise fun a b => key a ≤ key b)
    (hperm : l.Perm l') : l = l' := by
  refine hperm.eq_of_pairwise ?_ hl hl'
  intro a b ha hb hab hba
  exact hinj a ha b (hperm.mem_iff.mpr hb) (hab.antisymm hba)

theorem ComparesBy.mergeSort_eq (h : ComparesBy key le)
    (hinj : ∀ a ∈ l, ∀ b ∈ l, key a = key b → a = b)
    (hl : l.Pairwise fun a b => key a ≤ key b) (hperm : l.Perm l') : l'.mergeSort le = l :=
  (eq_of_sorted hinj hl (h.pairwise_mergeSort l')
    (hperm.trans (List.mergeSort_perm l' le).symm)).symm

theorem ComparesBy.mergeSort_pair (h : ComparesBy key le) {a b : α} (hlt : key b < key a) :
    [a, b].mergeSort le = [b, a] := by
  refine h.mergeSort_eq ?_ ?_ (.swap _ _ _)
  · simp [hlt.ne, hlt.ne']
  · simpa using hlt.le

/-- Sorting does not disturb a selection. -/
theorem ComparesBy.filter_mergeSort (h : ComparesBy key le)
    (hinj : ∀ a ∈ l, ∀ b ∈ l, key a = key b → a = b) (p : α → Bool) :
    (l.mergeSort le).filter p = (l.filter p).mergeSort le := by
  have hmem : ∀ a ∈ (l.mergeSort le).filter p, a ∈ l := fun a ha =>
    List.mem_mergeSort.mp (List.mem_filter.mp ha).1
  refine (h.mergeSort_eq (fun a ha b hb => hinj a (hmem a ha) b (hmem b hb)) ?_ ?_).symm
  · exact (h.pairwise_mergeSort l).filter p
  · exact (List.mergeSort_perm l le).filter p

end DocumentStore
