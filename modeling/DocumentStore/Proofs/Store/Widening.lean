import DocumentStore.Proofs.Number.Zeros
import DocumentStore.Proofs.Store.Answering
import DocumentStore.Proofs.Store.Narrowing

/-! Widening the window of candidates. Main statement: a search without a filter has the same hits
however many candidates it takes, as long as no document at distance zero stands before one at
distance negative zero. These two are equal where hits are ranked, but not where candidates are
chosen. -/
namespace DocumentStore

/-- A list in which some entries stand before all others is made of these and the others. -/
theorem eq_filter_append {α : Type} {p : α → Bool} {l : List α}
    (h : l.Pairwise fun a b => p b = true → p a = true) :
    l = l.filter p ++ l.filter fun a => !p a := by
  induction l with
  | nil => rfl
  | cons a l ih =>
    obtain ⟨ha, hl⟩ := List.pairwise_cons.mp h
    cases hp : p a with
    | true => simpa [hp] using ih hl
    | false =>
      have hnone : ∀ b ∈ l, p b = false := fun b hb =>
        Bool.eq_false_iff.mpr fun hb' => Bool.false_ne_true (hp.symm.trans (ha b hb hb'))
      have hempty : l.filter p = [] := by simpa [List.filter_eq_nil_iff] using hnone
      simpa [hp, hempty] using ih hl

/-- Lists that agree in what they are sorted by, and in the entries off a value, agree but for the
entries at that value. -/
theorem forall₂_of_filter {α β : Type} [DecidableEq β] {v : α → β} {z : β} {l l' : List α}
    (hmap : l.map v = l'.map v)
    (hfilter : (l.filter fun a => v a ≠ z) = l'.filter fun a => v a ≠ z) :
    List.Forall₂ (fun a b => a = b ∨ v a = z ∧ v b = z) l l' := by
  induction l generalizing l' with
  | nil =>
    cases l' with
    | nil => exact .nil
    | cons b l' => cases hmap
  | cons a l ih =>
    cases l' with
    | nil => cases hmap
    | cons b l' =>
      obtain ⟨hv, hmap⟩ := List.cons.inj hmap
      by_cases hz : v a = z
      · have hz' : v b = z := hv ▸ hz
        simp only [List.filter_cons, hz, hz', ne_eq, not_true_eq_false, decide_false,
          Bool.false_eq_true, if_false] at hfilter
        exact .cons (.inr ⟨hz, hz'⟩) (ih hmap hfilter)
      · have hz' : v b ≠ z := hv ▸ hz
        simp only [List.filter_cons, hz, hz', ne_eq, not_false_eq_true, decide_true, if_true,
          List.cons.injEq] at hfilter
        exact .cons (.inl hfilter.1) (ih hmap hfilter.2)

theorem mem_take_of_key_lt {α β : Type} [LinearOrder β] {key : α → β} {l : List α} {a b : α}
    (hl : l.Pairwise fun a b => key a ≤ key b) (ha : a ∈ l) (hab : key a < key b) {n : ℕ}
    (hb : b ∈ l.take n) : a ∈ l.take n := by
  induction l generalizing n with
  | nil => cases ha
  | cons c l ih =>
    obtain ⟨hc, hl⟩ := List.pairwise_cons.mp hl
    cases n with
    | zero => cases hb
    | succ n =>
      rw [List.take_succ_cons, List.mem_cons] at hb ⊢
      rcases List.mem_cons.mp ha with rfl | htail
      · exact .inl rfl
      · rcases hb with rfl | hb
        · exact absurd (hc a htail) hab.not_ge
        · exact .inr (ih hl htail hb)

namespace Placed

def value (p : Placed) : ℚ := (Number.doubleDatum p.score).value

def IsZero (p : Placed) : Prop := p.score = 0.0 ∨ p.score = -0.0

/-- Whether two places are the same, or both at distance zero. -/
def Alike (a b : Placed) : Prop := a = b ∨ a.IsZero ∧ b.IsZero

variable {a b : Placed}

theorem place_le_iff (ha : a.score.isFinite = true) (hb : b.score.isFinite = true) :
    a.place ≤ b.place ↔ a.value < b.value ∨ a.value = b.value ∧ a.key ≤ b.key := by
  simp [place, value, Prod.Lex.toLex_le_toLex, Number.rank_of_isFinite ha,
    Number.rank_of_isFinite hb]

theorem place_le_or_zeros (ha : a.score.isFinite = true) (hb : b.score.isFinite = true)
    (h : a.candidate.place ≤ b.candidate.place) :
    a.place ≤ b.place ∨ a.score = -0.0 ∧ b.score = 0.0 := by
  rw [place_le_iff ha hb]
  rw [Vector.Candidate.place, Vector.Candidate.place, Prod.Lex.toLex_le_toLex] at h
  rcases h with hlt | ⟨heq, hkey⟩
  · rcases Number.value_lt_of_totalKey_lt ha hb hlt with hvalue | hzeros
    · exact .inl (.inl hvalue)
    · exact .inr hzeros
  · have hscore : a.score = b.score := Number.totalKey_injective heq
    exact .inl (.inr ⟨by rw [value, value, hscore], hkey⟩)

theorem isZero_iff (ha : a.score.isFinite = true) : a.IsZero ↔ a.value = 0 :=
  (Number.value_eq_zero_iff ha).symm

theorem value_eq_of_zeros (ha : a.score.isFinite = true) (hb : b.score.isFinite = true)
    (hneg : a.score = -0.0) (hpos : b.score = 0.0) : a.value = b.value :=
  ((isZero_iff ha).mp (.inr hneg)).trans ((isZero_iff hb).mp (.inl hpos)).symm

/-- Candidates in their order, as a window holds them. -/
structure AreCandidates (ps : List Placed) : Prop where
  sorted : ps.Pairwise fun a b => a.candidate.place ≤ b.candidate.place
  finite : ∀ p ∈ ps, p.score.isFinite = true
  keys : (ps.map key).Nodup

variable {ps : List Placed}

/-- Candidates are ranked as they stand, if their keys go the right way where they cross zero. -/
theorem AreCandidates.mergeSort_eq (h : AreCandidates ps)
    (hzeros : ∀ a ∈ ps, ∀ b ∈ ps, a.score = -0.0 → b.score = 0.0 → a.key ≤ b.key) :
    ps.mergeSort le = ps := by
  refine le_iff.mergeSort_eq (eq_of_place h.keys) (h.sorted.imp_of_mem ?_) (.refl _)
  intro a b ha hb hab
  rcases place_le_or_zeros (h.finite a ha) (h.finite b hb) hab with hplace | ⟨hneg, hpos⟩
  · exact hplace
  · rw [place_le_iff (h.finite a ha) (h.finite b hb)]
    exact .inr ⟨value_eq_of_zeros (h.finite a ha) (h.finite b hb) hneg hpos,
      hzeros a ha b hb hneg hpos⟩

theorem AreCandidates.filter (h : AreCandidates ps) (p : Placed → Bool) :
    AreCandidates (ps.filter p) where
  sorted := h.sorted.filter p
  finite a ha := h.finite a (List.mem_filter.mp ha).1
  keys := h.keys.sublist (List.filter_sublist.map _)

theorem value_le_of_place_le (ha : a.score.isFinite = true) (hb : b.score.isFinite = true)
    (h : a.place ≤ b.place) : a.value ≤ b.value := by
  rcases (place_le_iff ha hb).mp h with hlt | ⟨heq, -⟩
  · exact hlt.le
  · exact heq.le

theorem AreCandidates.finite_mergeSort (h : AreCandidates ps) :
    ∀ p ∈ ps.mergeSort le, p.score.isFinite = true :=
  fun p hp => h.finite p (List.mem_mergeSort.mp hp)

theorem AreCandidates.values_mergeSort (h : AreCandidates ps) :
    (ps.mergeSort le).map value = ps.map value := by
  refine ((List.mergeSort_perm ps le).map value).eq_of_pairwise
    (fun _ _ _ _ => le_antisymm) ?_ ?_
  · refine List.pairwise_map.mpr ((le_iff.pairwise_mergeSort ps).imp_of_mem ?_)
    exact fun ha hb => value_le_of_place_le (h.finite_mergeSort _ ha) (h.finite_mergeSort _ hb)
  · refine List.pairwise_map.mpr (h.sorted.imp_of_mem ?_)
    intro a b ha hb hab
    rcases place_le_or_zeros (h.finite a ha) (h.finite b hb) hab with hplace | ⟨hneg, hpos⟩
    · exact value_le_of_place_le (h.finite a ha) (h.finite b hb) hplace
    · exact (value_eq_of_zeros (h.finite a ha) (h.finite b hb) hneg hpos).le

theorem AreCandidates.filter_mergeSort (h : AreCandidates ps) :
    ((ps.mergeSort le).filter fun p => value p ≠ 0) = ps.filter fun p => value p ≠ 0 := by
  rw [le_iff.filter_mergeSort (eq_of_place h.keys)]
  refine (h.filter _).mergeSort_eq fun a ha b _ hneg _ => ?_
  obtain ⟨hmem, hne⟩ := List.mem_filter.mp ha
  rw [decide_eq_true_iff] at hne
  exact absurd ((isZero_iff (h.finite a hmem)).mp (.inr hneg)) hne

theorem AreCandidates.alike_mergeSort (h : AreCandidates ps) :
    List.Forall₂ Alike (ps.mergeSort le) ps := by
  have hvalues := forall₂_of_filter h.values_mergeSort h.filter_mergeSort
  have hleft := (List.forall₂_and_left _ _).mpr ⟨h.finite_mergeSort, hvalues⟩
  have hboth := (List.forall₂_and_left _ _).mpr ⟨h.finite, hleft.flip⟩
  refine hboth.flip.imp fun a b ⟨hb, ha, hab⟩ => hab.imp_right ?_
  rw [isZero_iff ha, isZero_iff hb]
  exact id

/-- A candidate at distance zero under a smaller key than one at distance negative zero is ranked
before it, but stands behind it. -/
theorem AreCandidates.exists_take (h : AreCandidates ps) (ha : a ∈ ps) (hb : b ∈ ps)
    (hpos : a.score = 0.0) (hneg : b.score = -0.0) (hkey : a.key < b.key) :
    ∃ n ≤ ps.length, b ∈ ps.take n ∧ a ∉ ps.take n
      ∧ (b ∈ (ps.mergeSort le).take n → a ∈ (ps.mergeSort le).take n) := by
  -- The window to choose ends where the negative scores do, with negative zero the last of them.
  let isNegative : Placed → Bool := fun p => Number.totalKey p.score < 0
  have hsplit : ps = ps.filter isNegative ++ ps.filter fun p => !isNegative p := by
    refine eq_filter_append (h.sorted.imp ?_)
    intro p q hpq hq
    rw [decide_eq_true_iff] at hq ⊢
    rw [Vector.Candidate.place, Vector.Candidate.place, Prod.Lex.toLex_le_toLex] at hpq
    rcases hpq with hlt | ⟨heq, -⟩
    · exact hlt.trans hq
    · exact heq.trans_lt hq
  have htake : ps.take (ps.filter isNegative).length = ps.filter isNegative :=
    (List.prefix_iff_eq_take.mp ⟨_, hsplit.symm⟩).symm
  refine ⟨(ps.filter isNegative).length, List.length_filter_le _ _, ?_, ?_, ?_⟩
  · rw [htake]
    refine List.mem_filter.mpr ⟨hb, decide_eq_true ?_⟩
    rw [hneg]
    decide +kernel
  · rw [htake]
    intro hmem
    have hlt := of_decide_eq_true (List.mem_filter.mp hmem).2
    rw [hpos] at hlt
    revert hlt
    decide +kernel
  · intro hmem
    have hvalue := value_eq_of_zeros (h.finite b hb) (h.finite a ha) hneg hpos
    have hplace : a.place < b.place := by
      rw [lt_iff_not_ge, place_le_iff (h.finite b hb) (h.finite a ha)]
      rintro (hlt | ⟨-, hle⟩)
      · exact absurd hvalue hlt.ne
      · exact absurd hle hkey.not_ge
    exact mem_take_of_key_lt (le_iff.pairwise_mergeSort ps) (List.mem_mergeSort.mpr ha) hplace hmem

end Placed

/-- The distance at which a document is found, if it is found at all. -/
def Document.distance? (similarity : Similarity) (query : List Float32) (d : Document) :
    Option Float :=
  (d.neighbour? similarity query 0).map Placed.score

/-- Whether no document at distance zero stands before one at distance negative zero. -/
def ZerosInOrder (similarity : Similarity) (query : List Float32) (docs : List Document) : Prop :=
  docs.Pairwise fun d e => d.distance? similarity query = some 0.0 →
    e.distance? similarity query ≠ some (-0.0)

instance (similarity : Similarity) (query : List Float32) (docs : List Document) :
    Decidable (ZerosInOrder similarity query docs) :=
  inferInstanceAs (Decidable (List.Pairwise _ _))

section

variable {similarity : Similarity} {query : List Float32} {ds : Numbered} {n : ℕ}

theorem Document.neighbour?_eq (key : ℤ) (d : Document) :
    d.neighbour? similarity query key
      = (d.distance? similarity query).map fun x => ⟨key, d, x, []⟩ := by
  unfold distance? neighbour?
  cases d.vector? with
  | none => rfl
  | some v =>
    simp only [Option.bind_some]
    split <;> rfl

theorem Document.distance?_eq_some {d : Document} {x : Float}
    (h : d.distance? similarity query = some x) :
    ∃ v, d.vector? = some v ∧ x = Vector.distance similarity query v ∧ x.isFinite = true := by
  obtain ⟨p, hp, rfl⟩ := Option.map_eq_some_iff.mp h
  obtain ⟨v, hv, hfound⟩ := Option.bind_eq_some_iff.mp hp
  split at hfound
  · rename_i hfinite
    obtain rfl := Option.some.inj hfound
    exact ⟨v, hv, rfl, hfinite.2⟩
  · cases hfound

/-- The cosine leaves no negative zero, as it is taken from one. -/
theorem zerosInOrder_cosine (query : List Float32) (docs : List Document) :
    ZerosInOrder .cosine query docs := by
  refine List.pairwise_of_forall fun d e _ he => ?_
  obtain ⟨v, -, hdistance, -⟩ := Document.distance?_eq_some he
  exact Number.one_sub_ne_negative_zero _ hdistance.symm

theorem Numbered.mem_window {limit : ℕ} {p : Placed} (h : p ∈ ds.window similarity query limit) :
    (p.key, p.document) ∈ ds ∧ p.document.distance? similarity query = some p.score := by
  obtain ⟨e, he, hp⟩ := List.mem_filterMap.mp
    (List.mem_mergeSort.mp (List.mem_of_mem_take h))
  rw [Document.neighbour?_eq] at hp
  obtain ⟨x, hx, rfl⟩ := Option.map_eq_some_iff.mp hp
  exact ⟨he, hx⟩

theorem Numbered.exists_mem_window {e : ℤ × Document} (he : e ∈ ds) {x : Float}
    (hx : e.2.distance? similarity query = some x) :
    ∃ p ∈ ds.window similarity query ds.length, p.key = e.1 ∧ p.score = x := by
  refine ⟨⟨e.1, e.2, x, []⟩, ?_, rfl, rfl⟩
  rw [window, List.take_of_length_le]
  · refine List.mem_mergeSort.mpr (List.mem_filterMap.mpr ⟨e, he, ?_⟩)
    rw [Document.neighbour?_eq, hx, Option.map_some]
  · rw [List.length_mergeSort]
    exact List.length_filterMap_le _ _

theorem Numbered.window_take {m : ℕ} (h : n ≤ m) :
    (ds.window similarity query m).take n = ds.window similarity query n := by
  rw [window, window, List.take_take, min_eq_left h]

theorem Numbered.areCandidates_window (h : ds.Pairwise fun e f => e.1 < f.1) (limit : ℕ) :
    Placed.AreCandidates (ds.window similarity query limit) where
  sorted := (Placed.nearer_iff.pairwise_mergeSort _).sublist (List.take_sublist _ _)
  finite p hp := by
    obtain ⟨v, -, -, hfinite⟩ := Document.distance?_eq_some (mem_window hp).2
    exact hfinite
  keys := (Numbered.places_window h similarity query limit).keys

/-- What holds of documents that stand in their order holds of documents whose keys do. -/
theorem Numbered.pairwise_documents {R : Document → Document → Prop}
    (h : ds.Pairwise fun e f => e.1 < f.1) :
    ds.documents.Pairwise R ↔ ∀ e ∈ ds, ∀ f ∈ ds, e.1 < f.1 → R e.2 f.2 := by
  rw [documents, List.pairwise_map]
  constructor
  · intro hR e he f hf
    have hsame : ∀ e ∈ ds, e.1 < e.1 → R e.2 e.2 := fun e _ hlt => absurd hlt (lt_irrefl _)
    have hright : ds.Pairwise fun e f => e.1 < f.1 → R e.2 f.2 := by
      refine hR.imp ?_
      intro e f hef _
      exact hef
    have hleft : ds.Pairwise fun e f => f.1 < e.1 → R f.2 e.2 :=
      h.imp fun hlt hgt => absurd hgt hlt.not_gt
    exact hright.forall_of_forall_of_flip hsame hleft he hf
  · exact fun hR => h.imp_of_mem fun he hf hlt => hR _ he _ hf hlt

/-- Where the zeros are in order, candidates at distance zero stand in the order of their keys. -/
theorem Numbered.zeros_window (h : ds.Pairwise fun e f => e.1 < f.1)
    (hzeros : ZerosInOrder similarity query ds.documents) (limit : ℕ) :
    ∀ a ∈ ds.window similarity query limit, ∀ b ∈ ds.window similarity query limit,
      a.score = -0.0 → b.score = 0.0 → a.key ≤ b.key := by
  intro a ha b hb hneg hpos
  obtain ⟨hmema, hxa⟩ := mem_window ha
  obtain ⟨hmemb, hxb⟩ := mem_window hb
  by_contra hlt
  refine (pairwise_documents h).mp hzeros _ hmemb _ hmema (not_le.mp hlt) ?_ ?_
  · exact hxb.trans (congrArg some hpos)
  · exact hxa.trans (congrArg some hneg)

end

/-- Asks for the nearest `k` documents, whatever they hold, out of `n` candidates. -/
def VectorRequest.nearest (r : VectorRequest) {k n : ℕ} (hk : 0 < k) (hn : k ≤ n) :
    VectorRequest where
  vector := r.vector
  topK := some k
  candidates := n
  vector_nonempty := r.vector_nonempty
  vector_finite := r.vector_finite
  topK_pos := by simpa using hk.ne'
  candidates_pos := hk.trans_le hn

namespace Numbered

variable {similarity : Similarity} {r : VectorRequest} {ds : Numbered} {k n : ℕ} (hk : 0 < k)
  (hn : k ≤ n)

theorem found_nearest : ds.found similarity (r.nearest hk hn)
    = ((ds.window similarity r.vector n).mergeSort Placed.le).take k := by
  have hall : ((ds.window similarity r.vector n).filter fun p =>
      Filter.admits (r.nearest hk hn).filter p.document) = ds.window similarity r.vector n :=
    List.filter_eq_self.mpr fun _ _ => rfl
  exact congrArg (fun ps => (ps.mergeSort Placed.le).take k) hall

/-- What is found are the nearest documents, but for those at distance zero. -/
theorem alike_found (h : ds.Pairwise fun e f => e.1 < f.1) :
    List.Forall₂ Placed.Alike (ds.found similarity (r.nearest hk hn))
      (ds.window similarity r.vector k) := by
  rw [found_nearest, ← window_take hn]
  exact List.forall₂_take k (areCandidates_window h n).alike_mergeSort

theorem found_of_zeros (h : ds.Pairwise fun e f => e.1 < f.1)
    (hzeros : ZerosInOrder similarity r.vector ds.documents) :
    ds.found similarity (r.nearest hk hn) = ds.window similarity r.vector k := by
  rw [found_nearest, (areCandidates_window h n).mergeSort_eq (zeros_window h hzeros n),
    window_take hn]

theorem mem_of_id (h : ds.Pairwise fun e f => e.1 < f.1)
    (hids : (ds.map fun e => e.2.id).Nodup) {query : List Float32} {limit : ℕ} {ps : List Placed}
    {p : Placed} (hps : ps ⊆ ds.window similarity query limit)
    (hp : p ∈ ds.window similarity query limit) :
    p.document.id ∈ ps.map (·.document.id) ↔ p ∈ ps := by
  constructor
  · intro hid
    obtain ⟨q, hq, hsame⟩ := List.mem_map.mp hid
    have hentry := List.inj_on_of_nodup_map hids (mem_window (hps hq)).1 (mem_window hp).1 hsame
    obtain rfl := List.inj_on_of_nodup_map (areCandidates_window h limit).keys (hps hq) hp
      (congrArg Prod.fst hentry)
    exact hq
  · exact fun hp => List.mem_map_of_mem hp

/-- Where the zeros are out of order, some window leaves out a document that is ranked within it. -/
theorem exists_found_ne (h : ds.Pairwise fun e f => e.1 < f.1)
    (hids : (ds.map fun e => e.2.id).Nodup)
    (hzeros : ¬ZerosInOrder similarity r.vector ds.documents) :
    ∃ (n : ℕ) (hn : 0 < n) (hm : n ≤ ds.length),
      (ds.found similarity (r.nearest hn hm)).map (·.document.id)
        ≠ (ds.found similarity (r.nearest hn le_rfl)).map (·.document.id) := by
  obtain ⟨e, he, f, hf, hlt, hpos, hneg⟩ : ∃ e ∈ ds, ∃ f ∈ ds, e.1 < f.1
      ∧ e.2.distance? similarity r.vector = some 0.0
      ∧ f.2.distance? similarity r.vector = some (-0.0) := by
    simpa [ZerosInOrder, pairwise_documents h] using hzeros
  obtain ⟨a, ha, hkeya, hscorea⟩ := exists_mem_window he hpos
  obtain ⟨b, hb, hkeyb, hscoreb⟩ := exists_mem_window hf hneg
  have hkeys : a.key < b.key := by rwa [hkeya, hkeyb]
  obtain ⟨n, hle, hnear, hfar, hrank⟩ :=
    (areCandidates_window h ds.length).exists_take ha hb hscorea hscoreb hkeys
  have hn : 0 < n := by
    by_contra hzero
    obtain rfl : n = 0 := by omega
    exact List.not_mem_nil hnear
  have hm : n ≤ ds.length := hle.trans (places_window h _ _ _).length_le
  -- If both searches found the same ids, the wide one would find just the first n candidates.
  refine ⟨n, hn, hm, fun hequal => ?_⟩
  have hwide : ds.found similarity (r.nearest hn hm) ⊆ ds.window similarity r.vector ds.length := by
    rw [found_nearest]
    exact fun p hp => List.mem_mergeSort.mp (List.mem_of_mem_take hp)
  have hnarrow : ∀ p, p ∈ ds.found similarity (r.nearest hn le_rfl)
      ↔ p ∈ (ds.window similarity r.vector ds.length).take n := by
    intro p
    rw [found_nearest, window_take hm, List.take_of_length_le, List.mem_mergeSort]
    rw [List.length_mergeSort]
    exact List.length_take_le _ _
  have hsame : ∀ p ∈ ds.window similarity r.vector ds.length,
      p ∈ ds.found similarity (r.nearest hn hm)
        ↔ p ∈ (ds.window similarity r.vector ds.length).take n := by
    intro p hp
    rw [← mem_of_id h hids hwide hp, hequal, mem_of_id h hids ?_ hp, hnarrow]
    exact fun q hq => List.mem_of_mem_take ((hnarrow q).mp hq)
  rw [found_nearest] at hsame
  exact hfar ((hsame a ha).mp (hrank ((hsame b hb).mpr hnear)))

end Numbered

theorem Placed.ids_of_hits {ps : List Placed} {hits : List Hit} (h : ps.mapM hit = .ok hits) :
    hits.map (·.document.id) = ps.map (·.document.id) := by
  rw [← List.forall₂_eq_eq_eq, List.forall₂_map_left_iff, List.forall₂_map_right_iff]
  exact (mapM_eq_ok.mp h).flip.imp fun _ _ => id_of_hit

theorem Store.hasRoomFor_mono {n m : ℕ} (hm : hasRoomFor m) (h : n ≤ m) : hasRoomFor n := by
  simp only [hasRoomFor, decide_eq_true_eq] at hm ⊢
  omega

namespace History

variable {cs : List Config} {docs : List Document} {s : Store} {r : VectorRequest}

theorem searchVector_eq_found (h : History cs docs s)
    (hdims : s.config.dims = some r.vector.length) :
    ∃ ds : Numbered, ds.documents = docs ∧ s.database.Holds ds
      ∧ ∀ (k n : ℕ) (hk : 0 < k) (hn : k ≤ n), Store.hasRoomFor n →
        s.searchVector (r.nearest hk hn)
          = (some ((ds.found s.config.similarity (r.nearest hk hn)).mapM Placed.hit), s) := by
  have hkeeps := h.keeps
  obtain ⟨ds, hds, hdocs⟩ := hkeeps.holds
  have hvectors : s.database.vectors.isSome :=
    hkeeps.vectors.mpr ⟨s.config, h.config_mem, by simp [Config.hasVectors, hdims]⟩
  obtain ⟨entries, hentries⟩ := Option.isSome_iff_exists.mp hvectors
  obtain rfl := hds.mirrors.vectors entries hentries
  refine ⟨ds, hdocs, hds, ?_⟩
  intro k n hk hn hroom
  rw [Store.searchVector_eq (r := r.nearest hk hn) hkeeps.lock hdims hentries rfl hroom]
  rcases hds.searchWindow s.config.similarity (r := r.nearest hk hn) rfl hroom with
    hfound | ⟨-, f, hf, -⟩
  · rw [hfound]
  · cases hf

/-- At every point of a history, a search for the nearest documents without a filter finds the first
ones of them, in their order but for those at distance zero, however many candidates it takes. Its
hits are the same for any number of candidates if no document at distance zero stands before one at
distance negative zero, as is always so with the cosine. If one does, and the documents can be read,
there are two numbers of candidates for which the hits differ. -/
theorem searchVector_widens (h : History cs docs s)
    (hdims : s.config.dims = some r.vector.length) :
    (∃ ds : Numbered, ds.documents = docs ∧ s.database.Mirrors ds
        ∧ ∀ (k n : ℕ) (hk : 0 < k) (hn : k ≤ n), Store.hasRoomFor n →
          ∃ ps, s.searchVector (r.nearest hk hn) = (some (ps.mapM Placed.hit), s)
            ∧ List.Forall₂ Placed.Alike ps (ds.window s.config.similarity r.vector k))
      ∧ (ZerosInOrder s.config.similarity r.vector docs →
          ∀ (k n m : ℕ) (hk : 0 < k) (hn : k ≤ n) (hm : n ≤ m), Store.hasRoomFor m →
            s.searchVector (r.nearest hk (hn.trans hm)) = s.searchVector (r.nearest hk hn))
      ∧ (s.config.similarity = .cosine → ZerosInOrder s.config.similarity r.vector docs)
      ∧ ((∀ d ∈ docs, d.Fits) → Store.hasRoomFor docs.length →
          ¬ZerosInOrder s.config.similarity r.vector docs →
          ∃ (k n m : ℕ) (hk : 0 < k) (hn : k ≤ n) (hm : n ≤ m), Store.hasRoomFor m
            ∧ (s.searchVector (r.nearest hk (hn.trans hm))).1
              ≠ (s.searchVector (r.nearest hk hn)).1) := by
  obtain ⟨ds, rfl, hds, hfound⟩ := h.searchVector_eq_found hdims
  refine ⟨⟨ds, rfl, hds.mirrors, ?_⟩, ?_, ?_, ?_⟩
  · intro k n hk hn hroom
    exact ⟨_, hfound k n hk hn hroom, Numbered.alike_found hk hn hds.keys⟩
  · intro hzeros k n m hk hn hm hroom
    rw [hfound k m hk (hn.trans hm) hroom, hfound k n hk hn (Store.hasRoomFor_mono hroom hm),
      Numbered.found_of_zeros hk _ hds.keys hzeros, Numbered.found_of_zeros hk _ hds.keys hzeros]
  · intro hcosine
    rw [hcosine]
    exact zerosInOrder_cosine _ _
  · intro hfits hroom hzeros
    have hhits : ∀ q, ∃ hits, (ds.found s.config.similarity q).mapM Placed.hit = .ok hits := by
      refine fun q => exists_mapM_eq_ok fun p hp => ?_
      have hd : p.document ∈ ds.documents := List.mem_map_of_mem (Numbered.mem_of_mem_found hp).1
      obtain ⟨e, he⟩ := h.exists_reread hd (hfits _ hd)
      exact ⟨_, by rw [Placed.hit, he]; rfl⟩
    obtain ⟨n, hn, hm, hne⟩ := Numbered.exists_found_ne hds.keys hds.ids hzeros
    have hlength : ds.documents.length = ds.length := List.length_map _
    rw [hlength] at hroom
    refine ⟨n, n, ds.length, hn, le_rfl, hm, hroom, fun hsame => hne ?_⟩
    rw [hfound _ _ _ _ hroom, hfound _ _ _ _ (Store.hasRoomFor_mono hroom hm)] at hsame
    obtain ⟨hits, hwide⟩ := hhits (r.nearest hn hm)
    have hnarrow := (Option.some.inj hsame).symm.trans hwide
    rw [← Placed.ids_of_hits hwide, ← Placed.ids_of_hits hnarrow]

end History

/-- Two documents at right angles to the diagonal: the distance of one is zero, that of the other
negative zero. -/
def Numbered.level : Numbered :=
  [(1, { id := "a", embedding := some [0, 0] }), (2, { id := "b", embedding := some [1, -1] })]

def VectorRequest.diagonal : VectorRequest where
  vector := [-1, -1]
  candidates := 1
  vector_nonempty := by simp
  vector_finite := by decide +kernel
  topK_pos := unbounded_ne_zero

/-- Whether the window matters to the documents depends on the order in which they were written. -/
theorem History.searchVector_widens_level :
    ∃ s s', History [{ dims := some 2 }] Numbered.level.documents s
      ∧ History [{ dims := some 2 }] Numbered.level.documents.reverse s'
      ∧ (∃ (k n m : ℕ) (hk : 0 < k) (hn : k ≤ n) (hm : n ≤ m),
          (s.searchVector (VectorRequest.diagonal.nearest hk (hn.trans hm))).1
            ≠ (s.searchVector (VectorRequest.diagonal.nearest hk hn)).1)
      ∧ ∀ (k n m : ℕ) (hk : 0 < k) (hn : k ≤ n) (hm : n ≤ m), Store.hasRoomFor m →
          s'.searchVector (VectorRequest.diagonal.nearest hk (hn.trans hm))
            = s'.searchVector (VectorRequest.diagonal.nearest hk hn) := by
  have h₀ := @History.created {} { dims := some 2 } _ rfl rfl
  have h := @History.written _ _ Numbered.level.documents _ _ .fail _ h₀ rfl
  have h' := @History.written _ _ Numbered.level.documents.reverse _ _ .fail _ h₀ rfl
  obtain ⟨-, -, -, hchanged⟩ := h.searchVector_widens (r := .diagonal) rfl
  obtain ⟨-, hsame, -, -⟩ := h'.searchVector_widens (r := .diagonal) rfl
  have hfits : ∀ d ∈ Numbered.level.documents, d.Fits := by
    intro d hd
    fin_cases hd <;> exact ⟨.object (by simp), by simp⟩
  obtain ⟨k, n, m, hk, hn, hm, -, hne⟩ := hchanged hfits (by decide) (by decide +kernel)
  exact ⟨_, _, h, h', ⟨k, n, m, hk, hn, hm, hne⟩, hsame (by decide +kernel)⟩

/-- The one candidate is the document at negative zero, but of both candidates the other is the
best. -/
theorem History.second_candidate_first :
    ∃ s, History [{ dims := some 2 }] Numbered.level.documents s
      ∧ ((s.searchVector (VectorRequest.diagonal.nearest (k := 1) (n := 1) one_pos le_rfl)).1
          |>.bind Except.toOption |>.map (List.map (·.document.id))) = some ["b"]
      ∧ ((s.searchVector (VectorRequest.diagonal.nearest (k := 1) (n := 2) one_pos (by decide))).1
          |>.bind Except.toOption |>.map (List.map (·.document.id))) = some ["a"] := by
  have h₀ := @History.created {} { dims := some 2 } _ rfl rfl
  have h := @History.written _ _ Numbered.level.documents _ _ .fail _ h₀ rfl
  obtain ⟨ds, hdocs, hds, hfound⟩ := h.searchVector_eq_found (r := .diagonal) rfl
  have hkeys : ds.map Prod.fst = [1, 2] := by
    have hrows := congrArg (List.map Row.key) hds.rows
    rw [rowsOf, List.map_map] at hrows
    exact hrows.symm
  obtain rfl : ds = .level := List.zip_of_prod hkeys hdocs
  refine ⟨_, h, by decide +kernel, ?_⟩
  let a : Placed := ⟨1, { id := "a", embedding := some [0, 0] }, 0.0, []⟩
  let b : Placed := ⟨2, { id := "b", embedding := some [1, -1] }, -0.0, []⟩
  have hneighbours : (Numbered.level.filterMap fun e => e.2.neighbour? .dotProduct [-1, -1] e.1)
      = [a, b] := by
    have ha : a.document.distance? .dotProduct [-1, -1] = some 0.0 := by decide +kernel
    have hb : b.document.distance? .dotProduct [-1, -1] = some (-0.0) := by decide +kernel
    simp only [Document.neighbour?_eq]
    change (([(1, a.document), (2, b.document)] : Numbered).filterMap _) = _
    simp [ha, hb, a, b]
  have hwindow : Numbered.level.window .dotProduct [-1, -1] 2 = [b, a] := by
    rw [Numbered.window, hneighbours, Placed.nearer_iff.mergeSort_pair (by decide +kernel)]
    rfl
  rw [hfound 1 2 one_pos (by decide) (by decide), Numbered.found_nearest]
  change (((((Numbered.level.window .dotProduct [-1, -1] 2).mergeSort Placed.le).take 1).mapM
    Placed.hit).toOption.map (List.map (·.document.id))) = _
  rw [hwindow, Placed.le_iff.mergeSort_pair (by decide +kernel)]
  decide +kernel

end DocumentStore
