import DocumentStore.Proofs.Vector.Window
import DocumentStore.Proofs.Number.Zeros
import DocumentStore.Proofs.Store.History

/-! The loop over the vector index with a heap. Main statement: pushing the entries one by one onto
a heap, and popping the farthest one whenever there are too many, leaves the first ones of all
entries that can be ranked, whatever heap it is and in whatever order the entries come. -/
namespace DocumentStore.Vector

/-- A heap that gives out the farthest candidate first: its operations, and what they do to the
candidates held. -/
structure Heap where
  Carrier : Type
  empty : Carrier
  push : Candidate → Carrier → Carrier
  pop : Carrier → Carrier
  toSorted : Carrier → List Candidate
  held : Carrier → Multiset Candidate
  held_empty : held empty = 0
  held_push : ∀ c h, held (push c h) = c ::ₘ held h
  held_pop : ∀ h, held h ≠ 0 →
    ∃ farthest, held h = farthest ::ₘ held (pop h) ∧ ∀ c ∈ held h, c.le farthest = true
  held_toSorted : ∀ h, (toSorted h : Multiset Candidate) = held h
  pairwise_toSorted : ∀ h, (toSorted h).Pairwise fun a b => a.le b = true

namespace Heap

section

variable (heap : Heap) (s : Similarity) (query : List Float32) (limit : ℕ)

def size (h : heap.Carrier) : ℕ := (heap.held h).card

/-- Pushes a candidate, and pops the farthest one if there are more than `limit`. -/
def takeIn (h : heap.Carrier) (c : Candidate) : heap.Carrier :=
  if limit < heap.size (heap.push c h) then heap.pop (heap.push c h) else heap.push c h

/-- Takes in an entry if it is a candidate, and skips it otherwise. -/
def scan (h : heap.Carrier) (entry : ℤ × String) : heap.Carrier :=
  match candidate? s query entry with
  | none => h
  | some c => heap.takeIn limit h c

def loop (entries : List (ℤ × String)) : heap.Carrier :=
  entries.foldl (heap.scan s query limit) heap.empty

end

end Heap

section

variable {window : List Candidate}

theorem coe_eq_cons_dropLast (hne : window ≠ []) :
    (window : Multiset Candidate)
      = window.getLast hne ::ₘ (window.dropLast : Multiset Candidate) := by
  conv_lhs => rw [← List.dropLast_concat_getLast hne]
  exact Multiset.coe_eq_coe.mpr (List.perm_append_singleton _ _)

theorem place_le_getLast (hordered : window.Pairwise fun a b => a.place ≤ b.place)
    (hne : window ≠ []) : ∀ c ∈ window, c.place ≤ (window.getLast hne).place :=
  fun _ hc => hordered.rel_getLast_of_rel_getLast_getLast hc le_rfl

theorem eq_dropLast_of_farthest (hordered : window.Pairwise fun a b => a.place ≤ b.place)
    {farthest : Candidate} {rest : Multiset Candidate}
    (hwindow : (window : Multiset Candidate) = farthest ::ₘ rest)
    (hfarthest : ∀ c ∈ window, c.place ≤ farthest.place) :
    rest = (window.dropLast : Multiset Candidate) := by
  have hmem : farthest ∈ window := by
    rw [← Multiset.mem_coe, hwindow]
    exact Multiset.mem_cons_self _ _
  have hne : window ≠ [] := List.ne_nil_of_mem hmem
  have hlast : farthest = window.getLast hne := by
    apply Candidate.place_injective
    exact (place_le_getLast hordered hne _ hmem).antisymm (hfarthest _ (List.getLast_mem hne))
  rw [coe_eq_cons_dropLast hne, ← hlast] at hwindow
  exact ((Multiset.cons_inj_right _).mp hwindow).symm

end

/-- Candidates kept in their order are a heap. -/
def Heap.ordered : Heap where
  Carrier := { window : List Candidate // window.Pairwise fun a b => a.place ≤ b.place }
  empty := ⟨[], .nil⟩
  push c h := ⟨insert c h, pairwise_insert h.property c⟩
  pop h := ⟨h.val.dropLast, h.property.sublist (List.dropLast_sublist _)⟩
  toSorted h := h
  held h := h.val
  held_empty := rfl
  held_push c h := Multiset.coe_eq_coe.mpr (insert_perm c h)
  held_pop := by
    rintro ⟨window, hordered⟩ hne
    have hwindow : window ≠ [] := fun h => hne (by simp [h])
    refine ⟨window.getLast hwindow, coe_eq_cons_dropLast hwindow, ?_⟩
    intro c hc
    exact (Candidate.le_iff c _).mpr (place_le_getLast hordered hwindow c hc)
  held_toSorted _ := rfl
  pairwise_toSorted h := h.property.imp fun {a b} hab => (Candidate.le_iff a b).mpr hab

namespace Heap

variable {heap : Heap} {h : heap.Carrier} {window : List Candidate} {limit : ℕ}

/-- Whether a heap holds just the candidates of a window that is in order and not too long. -/
structure Holds (heap : Heap) (limit : ℕ) (h : heap.Carrier) (window : List Candidate) : Prop where
  held : heap.held h = window
  ordered : window.Pairwise fun a b => a.place ≤ b.place
  length_le : window.length ≤ limit

theorem Holds.held_push (hw : heap.Holds limit h window) (c : Candidate) :
    heap.held (heap.push c h) = (insert c window : Multiset Candidate) := by
  rw [heap.held_push, hw.held]
  exact Multiset.coe_eq_coe.mpr (insert_perm c window).symm

theorem Holds.size_push (hw : heap.Holds limit h window) (c : Candidate) :
    heap.size (heap.push c h) = window.length + 1 := by
  rw [Heap.size, heap.held_push, hw.held, Multiset.card_cons, Multiset.coe_card]

theorem Holds.takeIn (hw : heap.Holds limit h window) (c : Candidate) :
    heap.Holds limit (heap.takeIn limit h c) (Vector.takeIn limit window c) := by
  have hinsert := pairwise_insert hw.ordered c
  have hlength : (insert c window).length = window.length + 1 := (insert_perm c window).length_eq
  refine ⟨?_, hinsert.sublist (List.take_sublist _ _), List.length_take_le _ _⟩
  rw [Heap.takeIn, Vector.takeIn, hw.size_push]
  -- Only above the limit is anything popped, and then it is the one that the window cuts off.
  by_cases hfull : limit < window.length + 1
  · rw [if_pos hfull]
    have hwindow := hw.length_le
    obtain ⟨farthest, hpop, hfarthest⟩ := heap.held_pop (heap.push c h) (by simp [heap.held_push])
    have hplace : ∀ d ∈ insert c window, d.place ≤ farthest.place := by
      intro d hd
      rw [hw.held_push] at hfarthest
      exact (Candidate.le_iff d farthest).mp (hfarthest d hd)
    rw [hw.held_push] at hpop
    rw [eq_dropLast_of_farthest hinsert hpop hplace, List.dropLast_eq_take, hlength]
    congr 2
    omega
  · rw [if_neg hfull, hw.held_push, List.take_of_length_le (by omega)]

variable (s : Similarity) (query : List Float32)

theorem Holds.foldl (hw : heap.Holds limit h window) (entries : List (ℤ × String)) :
    heap.Holds limit (entries.foldl (heap.scan s query limit) h)
      ((entries.filterMap (candidate? s query)).foldl (Vector.takeIn limit) window) := by
  induction entries generalizing h window with
  | nil => exact hw
  | cons entry entries ih =>
    rw [List.foldl_cons, List.filterMap_cons, scan]
    cases candidate? s query entry with
    | none => exact ih hw
    | some c => exact ih (hw.takeIn c)

theorem holds_empty (heap : Heap) (limit : ℕ) : heap.Holds limit heap.empty [] :=
  ⟨heap.held_empty, .nil, Nat.zero_le _⟩

/-- The loop keeps the heap and the window together. -/
theorem holds_loop (heap : Heap) (limit : ℕ) (entries : List (ℤ × String)) :
    heap.Holds limit (heap.loop s query limit entries) (nearest s query limit entries) :=
  (holds_empty heap limit).foldl s query entries

theorem toSorted_loop (heap : Heap) (limit : ℕ) (entries : List (ℤ × String)) :
    heap.toSorted (heap.loop s query limit entries) = nearest s query limit entries := by
  have hw := heap.holds_loop s query limit entries
  apply eq_of_sorted (fun a _ b _ hab => Candidate.place_injective hab) ?_ hw.ordered
  · rw [← Multiset.coe_eq_coe, heap.held_toSorted, hw.held]
  · exact (heap.pairwise_toSorted _).imp fun {a b} hab => (Candidate.le_iff a b).mp hab

theorem size_loop_le (heap : Heap) (limit : ℕ) (entries : List (ℤ × String)) :
    heap.size (heap.loop s query limit entries) ≤ limit := by
  have hw := heap.holds_loop s query limit entries
  rw [size, hw.held]
  exact hw.length_le

theorem size_push_loop_le (heap : Heap) (limit : ℕ) (entries : List (ℤ × String)) (c : Candidate) :
    heap.size (heap.push c (heap.loop s query limit entries)) ≤ limit + 1 := by
  have hw := heap.holds_loop s query limit entries
  rw [hw.size_push]
  exact Nat.succ_le_succ hw.length_le

end Heap

/-- Of finite distances the smaller number is nearer, negative zero being nearer than zero; and of
two candidates at the same distance the one with the smaller key comes first. -/
def Candidate.Nearer (a b : Candidate) : Prop :=
  (Number.doubleDatum a.distance).value < (Number.doubleDatum b.distance).value
    ∨ a.distance = -0.0 ∧ b.distance = 0.0
    ∨ a.distance = b.distance ∧ a.key < b.key

theorem Candidate.nearer_of_place_lt {a b : Candidate} (ha : a.distance.isFinite = true)
    (hb : b.distance.isFinite = true) (h : a.place < b.place) : a.Nearer b := by
  rw [place, place, Prod.Lex.toLex_lt_toLex] at h
  rcases h with hkey | ⟨hkey, hlt⟩
  · rcases Number.value_lt_of_totalKey_lt ha hb hkey with hvalue | hzeros
    · exact .inl hvalue
    · exact .inr (.inl hzeros)
  · exact .inr (.inr ⟨Number.totalKey_injective hkey, hlt⟩)

section

variable (s : Similarity) (query : List Float32) (entries : List (ℤ × String))

/-- Whether a candidate is one of the entries: its text is a vector of the query's length, and the
distance between the two is finite. -/
structure IsRanked (c : Candidate) : Prop where
  entry : ∃ text v, (c.key, text) ∈ entries ∧ Record.vector? text = some v
    ∧ v.length = query.length ∧ c.distance = distance s query v
  isFinite : c.distance.isFinite = true

/-- Whether candidates are those of the entries, in the total order of their distances and, at the
same distance, in the order of their keys. -/
structure IsRanking (ranking : List Candidate) : Prop where
  mem_iff : ∀ c, c ∈ ranking ↔ IsRanked s query entries c
  ordered : ranking.Pairwise fun a b => a.place < b.place

end

section

variable {s : Similarity} {query : List Float32} {entries entries' : List (ℤ × String)}
  {ranking ranking' : List Candidate}

theorem mem_candidates {c : Candidate} :
    c ∈ entries.filterMap (candidate? s query) ↔ IsRanked s query entries c := by
  simp only [List.mem_filterMap, candidate?_eq_some]
  constructor
  · rintro ⟨⟨key, text⟩, hentry, rfl, v, hv, hlength, hdistance, hfinite⟩
    exact ⟨⟨text, v, hentry, hv, hlength, hdistance⟩, hfinite⟩
  · rintro ⟨⟨text, v, hentry, hv, hlength, hdistance⟩, hfinite⟩
    exact ⟨_, hentry, rfl, v, hv, hlength, hdistance, hfinite⟩

theorem nodup_candidates (s : Similarity) (query : List Float32)
    (hkeys : (entries.map Prod.fst).Nodup) : (entries.filterMap (candidate? s query)).Nodup := by
  rw [List.Nodup, List.pairwise_filterMap]
  refine (List.pairwise_map.mp hkeys).imp ?_
  rintro e e' hne c hc c' hc' rfl
  exact hne ((candidate?_eq_some.mp hc).1.symm.trans (candidate?_eq_some.mp hc').1)

namespace IsRanking

theorem nodup (h : IsRanking s query entries ranking) : ranking.Nodup :=
  h.ordered.imp fun hab heq => (heq ▸ hab).false

theorem eq (h : IsRanking s query entries ranking) (h' : IsRanking s query entries ranking') :
    ranking = ranking' := by
  apply eq_of_sorted (fun a _ b _ hab => Candidate.place_injective hab)
    (h.ordered.imp le_of_lt) (h'.ordered.imp le_of_lt)
  rw [List.perm_ext_iff_of_nodup h.nodup h'.nodup]
  intro c
  rw [h.mem_iff, h'.mem_iff]

theorem of_perm (h : IsRanking s query entries ranking) (hperm : entries'.Perm entries) :
    IsRanking s query entries' ranking := by
  refine ⟨fun c => ?_, h.ordered⟩
  rw [h.mem_iff, ← mem_candidates, ← mem_candidates]
  exact (hperm.symm.filterMap _).mem_iff

theorem pairwise_nearer (h : IsRanking s query entries ranking) :
    ranking.Pairwise Candidate.Nearer := by
  have hfinite : ∀ c ∈ ranking, c.distance.isFinite = true :=
    fun c hc => ((h.mem_iff c).mp hc).isFinite
  refine h.ordered.imp_of_mem ?_
  intro a b ha hb hab
  exact Candidate.nearer_of_place_lt (hfinite a ha) (hfinite b hb) hab

end IsRanking

/-- Entries with different keys are ranked by sorting them. -/
theorem isRanking_mergeSort (s : Similarity) (query : List Float32)
    (hkeys : (entries.map Prod.fst).Nodup) :
    IsRanking s query entries
      ((entries.filterMap (candidate? s query)).mergeSort Candidate.le) := by
  constructor
  · intro c
    rw [List.mem_mergeSort, mem_candidates]
  · have hnodup := (List.mergeSort_perm _ Candidate.le).nodup_iff.mpr
      (nodup_candidates s query hkeys)
    have hordered := Candidate.le_iff.pairwise_mergeSort (entries.filterMap (candidate? s query))
    refine (hordered.and hnodup).imp ?_
    rintro a b ⟨hle, hne⟩
    exact hle.lt_of_ne fun hplace => hne (Candidate.place_injective hplace)

theorem IsRanking.nearest_eq_take (h : IsRanking s query entries ranking)
    (hkeys : (entries.map Prod.fst).Nodup) (limit : ℕ) :
    nearest s query limit entries = ranking.take limit := by
  rw [nearest_eq, (isRanking_mergeSort s query hkeys).eq h]

theorem length_insert_nearest_le (limit : ℕ) (before : List (ℤ × String)) (c : Candidate) :
    (insert c (nearest s query limit before)).length ≤ limit + 1 := by
  have hw := Heap.ordered.holds_loop s query limit before
  rw [(insert_perm c _).length_eq, List.length_cons]
  exact Nat.succ_le_succ hw.length_le

end

/-- Whether the first part of a ranking is what is left of the entries: of a window that takes them
in one by one and of every heap that does, neither of which ever has more than one candidate above
the limit. -/
structure IsWindow (s : Similarity) (query : List Float32) (limit : ℕ)
    (entries : List (ℤ × String)) (ranking : List Candidate) : Prop where
  nearest : nearest s query limit entries = ranking.take limit
  length_le : ∀ before, before <+: entries → ∀ c,
    (insert c (Vector.nearest s query limit before)).length ≤ limit + 1
  heap : ∀ heap : Heap, heap.toSorted (heap.loop s query limit entries) = ranking.take limit
  size_le : ∀ (heap : Heap) (before : List (ℤ × String)), before <+: entries →
    heap.size (heap.loop s query limit before) ≤ limit
      ∧ ∀ c, heap.size (heap.push c (heap.loop s query limit before)) ≤ limit + 1

theorem IsRanking.isWindow {s : Similarity} {query : List Float32} {entries : List (ℤ × String)}
    {ranking : List Candidate} (h : IsRanking s query entries ranking)
    (hkeys : (entries.map Prod.fst).Nodup) (limit : ℕ) :
    IsWindow s query limit entries ranking where
  nearest := h.nearest_eq_take hkeys limit
  length_le before _ c := length_insert_nearest_le limit before c
  heap heap := by rw [heap.toSorted_loop, h.nearest_eq_take hkeys limit]
  size_le heap before _ := ⟨heap.size_loop_le s query limit before,
    heap.size_push_loop_le s query limit before⟩

/-- For entries with different keys there is one ranking, and its first part is the window, in
whatever order the entries are scanned, and the answer of a store that has them. -/
theorem nearest_is_sorted_prefix (s : Similarity) (query : List Float32) (limit : ℕ)
    (entries : List (ℤ × String)) (hkeys : (entries.map Prod.fst).Nodup) :
    ∃ ranking, (∀ other, IsRanking s query entries other ↔ other = ranking)
      ∧ ranking.Pairwise Candidate.Nearer
      ∧ (∀ scanned : List (ℤ × String), scanned.Perm entries →
        IsWindow s query limit scanned ranking)
      ∧ ∀ store : Store, store.isPoisoned = false → store.database.vectors = some entries →
        Store.hasRoomFor limit = true →
          store.nearest s query limit = (some (.ok (ranking.take limit)), store) := by
  have hranking := isRanking_mergeSort s query hkeys
  refine ⟨_, fun other => ⟨fun hother => hother.eq hranking, fun h => h ▸ hranking⟩,
    hranking.pairwise_nearer, ?_, ?_⟩
  · intro scanned hperm
    exact (hranking.of_perm hperm).isWindow ((hperm.map Prod.fst).nodup_iff.mpr hkeys) limit
  · intro store hlock hvectors hroom
    rw [Store.nearest, Store.locked_of_not_poisoned hlock, ← hranking.nearest_eq_take hkeys limit]
    simp only [Database.nearest, hvectors, if_pos hroom]

/-- Two entries at the same distance, a nearer and a farther one, and two that are not ranked. -/
def sixEntries : List (ℤ × String) :=
  [(7, "[3.0]"), (9, "[1]"), (5, "no numbers"), (2, "[1]"), (4, "[4, 0]"), (1, "[0.5]")]

/-- The two nearest ones are found in every order, also by a store. -/
theorem nearest_two_of_six :
    (∀ scanned : List (ℤ × String), scanned.Perm sixEntries →
      nearest .dotProduct [1] 2 scanned = [⟨-3, 7⟩, ⟨-1, 2⟩]
        ∧ Heap.ordered.toSorted (Heap.ordered.loop .dotProduct [1] 2 scanned)
          = [⟨-3, 7⟩, ⟨-1, 2⟩])
      ∧ ∀ store : Store, store.isPoisoned = false → store.database.vectors = some sixEntries →
        store.nearest .dotProduct [1] 2 = (some (.ok [⟨-3, 7⟩, ⟨-1, 2⟩]), store) := by
  obtain ⟨ranking, -, -, hwindow, hstore⟩ :=
    nearest_is_sorted_prefix .dotProduct [1] 2 sixEntries (by decide)
  have hfirst : ranking.take 2 = [⟨-3, 7⟩, ⟨-1, 2⟩] := by
    rw [← (hwindow sixEntries (.refl _)).nearest]
    decide +kernel
  rw [hfirst] at hstore
  refine ⟨?_, fun store hlock hvectors => hstore store hlock hvectors (by decide)⟩
  intro scanned hperm
  have hw := hwindow scanned hperm
  rw [← hfirst]
  exact ⟨hw.nearest, hw.heap .ordered⟩

end DocumentStore.Vector
