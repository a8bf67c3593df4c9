import DocumentStore.Proofs.Filter.CellOrder
import DocumentStore.Proofs.Filter.Meaning
import DocumentStore.Filter.Terms

/-! The terms of a condition. Main statement: a condition is certainly true just if all its terms
are, and where it is true one of the tests holds by which rows are looked up. -/
namespace DocumentStore

variable {cells : Column → Cell} {deep : Prop}

namespace Condition

theorem thenAlso_assoc (a b c : Option Bool) :
    thenAlso (thenAlso a b) c = thenAlso a (thenAlso b c) := by
  rcases a with _ | _ | _ <;> rfl

theorem thenAlso_true (a : Option Bool) : thenAlso a (some true) = a := by
  rcases a with _ | _ | _ <;> rfl

theorem elseAlso_false (a : Option Bool) : elseAlso a (some false) = a := by
  rcases a with _ | _ | _ <;> rfl

theorem allTrue_append (cs ds : List Condition) :
    allTrue cells (cs ++ ds) = thenAlso (allTrue cells cs) (allTrue cells ds) := by
  induction cs with
  | nil => rfl
  | cons c cs ih => rw [List.cons_append, allTrue, allTrue, ih, thenAlso_assoc]

mutual

theorem allTrue_terms (c : Condition) : allTrue cells c.terms = c.isTrue cells := by
  match c with
  | .test field t => simp [terms, allTrue, thenAlso_true]
  | .all c cs => rw [terms, allTrue_append, allTrue_terms c, allTrue_termsOf cs, isTrue]
  | .any c [] => rw [terms, allTrue_terms c, isTrue, anyTrue, elseAlso_false]
  | .any c (c' :: cs) => simp [terms, allTrue, thenAlso_true]
  | .notAll c cs => simp [terms, allTrue, thenAlso_true]

theorem allTrue_termsOf (cs : List Condition) : allTrue cells (termsOf cs) = allTrue cells cs := by
  match cs with
  | [] => rfl
  | c :: cs => rw [termsOf, allTrue_append, allTrue_terms c, allTrue_termsOf cs, allTrue]

end

mutual

theorem mem_leaves_of_terms {c u : Condition} (hu : u ∈ c.terms) {p : Field × Test}
    (hp : p ∈ u.leaves) : p ∈ c.leaves := by
  match c with
  | .test field t =>
    obtain rfl := List.mem_singleton.mp hu
    exact hp
  | .all c cs =>
    rw [leaves, List.mem_append]
    rcases List.mem_append.mp hu with hu | hu
    · exact .inl (mem_leaves_of_terms hu hp)
    · exact .inr (mem_leavesOf_of_termsOf hu hp)
  | .any c [] =>
    rw [terms] at hu
    rw [leaves, List.mem_append]
    exact .inl (mem_leaves_of_terms hu hp)
  | .any c (c' :: cs) =>
    obtain rfl := List.mem_singleton.mp hu
    exact hp
  | .notAll c cs =>
    obtain rfl := List.mem_singleton.mp hu
    exact hp

theorem mem_leavesOf_of_termsOf {cs : List Condition} {u : Condition} (hu : u ∈ termsOf cs)
    {p : Field × Test} (hp : p ∈ u.leaves) : p ∈ leavesOf cs := by
  match cs with
  | [] => cases hu
  | c :: cs =>
    rw [leavesOf, List.mem_append]
    rcases List.mem_append.mp hu with hu | hu
    · exact .inl (mem_leaves_of_terms hu hp)
    · exact .inr (mem_leavesOf_of_termsOf hu hp)

end

mutual

theorem Means.terms {c : Condition} {t : Truth} (h : Means deep cells c t) {u : Condition}
    (hu : u ∈ c.terms) : ∃ s, Means deep cells u s ∧ (t = .yes → s = .yes) := by
  match c, h with
  | .test field t, h =>
    obtain rfl := List.mem_singleton.mp hu
    exact ⟨_, h, id⟩
  | .all c cs, .all h hs =>
    rcases List.mem_append.mp hu with hu | hu
    · obtain ⟨r, hr, hyes⟩ := h.terms hu
      exact ⟨r, hr, fun hand => hyes (Truth.of_and_eq_yes hand).1⟩
    · obtain ⟨r, hr, hyes⟩ := hs.termsOf hu
      exact ⟨r, hr, fun hand => hyes (Truth.of_and_eq_yes hand).2⟩
  | .any c [], .any (s := s) h .nil =>
    rw [Condition.terms] at hu
    obtain ⟨r, hr, hyes⟩ := h.terms hu
    refine ⟨r, hr, fun hor => hyes ?_⟩
    cases s <;> first | rfl | cases hor
  | .any c (c' :: cs), h =>
    obtain rfl := List.mem_singleton.mp hu
    exact ⟨_, h, id⟩
  | .notAll c cs, h =>
    obtain rfl := List.mem_singleton.mp hu
    exact ⟨_, h, id⟩

theorem MeansOf.termsOf {cs : List Condition} {t r : Truth} (h : MeansOf deep cells cs t r)
    {u : Condition} (hu : u ∈ termsOf cs) : ∃ s, Means deep cells u s ∧ (t = .yes → s = .yes) := by
  match cs, h with
  | [], .nil => cases hu
  | c :: cs, .cons h hs =>
    rcases List.mem_append.mp hu with hu | hu
    · obtain ⟨r, hr, hyes⟩ := h.terms hu
      exact ⟨r, hr, fun hand => hyes (Truth.of_and_eq_yes hand).1⟩
    · obtain ⟨r, hr, hyes⟩ := hs.termsOf hu
      exact ⟨r, hr, fun hand => hyes (Truth.of_and_eq_yes hand).2⟩

end

mutual

theorem exists_means (c : Condition)
    (h : ∀ p ∈ c.leaves, testTruth cells p.1 p.2 = none → deep) : ∃ t, Means deep cells c t := by
  match c with
  | .test field t =>
    cases htruth : testTruth cells field t with
    | none => exact ⟨.unknown, .test (.inr ⟨htruth, h (field, t) (by simp [leaves]) htruth⟩)⟩
    | some s => exact ⟨s, .test (.inl htruth)⟩
  | .all c cs =>
    simp only [leaves, List.mem_append] at h
    obtain ⟨s, hs⟩ := exists_means c fun p hp => h p (.inl hp)
    obtain ⟨t, u, htu⟩ := exists_meansOf cs fun p hp => h p (.inr hp)
    exact ⟨_, .all hs htu⟩
  | .any c cs =>
    simp only [leaves, List.mem_append] at h
    obtain ⟨s, hs⟩ := exists_means c fun p hp => h p (.inl hp)
    obtain ⟨t, u, htu⟩ := exists_meansOf cs fun p hp => h p (.inr hp)
    exact ⟨_, .any hs htu⟩
  | .notAll c cs =>
    simp only [leaves, List.mem_append] at h
    obtain ⟨s, hs⟩ := exists_means c fun p hp => h p (.inl hp)
    obtain ⟨t, u, htu⟩ := exists_meansOf cs fun p hp => h p (.inr hp)
    exact ⟨_, .notAll hs htu⟩

theorem exists_meansOf (cs : List Condition)
    (h : ∀ p ∈ leavesOf cs, testTruth cells p.1 p.2 = none → deep) :
    ∃ t u, MeansOf deep cells cs t u := by
  match cs with
  | [] => exact ⟨.yes, .no, .nil⟩
  | c :: cs =>
    simp only [leavesOf, List.mem_append] at h
    obtain ⟨s, hs⟩ := exists_means c fun p hp => h p (.inl hp)
    obtain ⟨t, u, htu⟩ := exists_meansOf cs fun p hp => h p (.inr hp)
    exact ⟨_, _, .cons hs htu⟩

end

theorem exists_leaf_of_isTrue {c : Condition} (h : c.isTrue cells = none) :
    ∃ p ∈ c.leaves, testTruth cells p.1 p.2 = none := by
  have hleaf : ∀ p ∈ c.leaves, testTruth cells p.1 p.2 = none →
      ∃ q ∈ c.leaves, testTruth cells q.1 q.2 = none := fun p hp hnone => ⟨p, hp, hnone⟩
  obtain ⟨t, ht⟩ := exists_means c hleaf
  rcases ht.isTrue with hsome | ⟨-, hleaf⟩
  · rw [h] at hsome
    cases hsome
  · exact hleaf

section

variable {cells' : Column → Cell}

mutual

theorem isTrue_congr (c : Condition)
    (h : ∀ p ∈ c.leaves, testTruth cells p.1 p.2 = testTruth cells' p.1 p.2) :
    c.isTrue cells = c.isTrue cells' ∧ c.isFalse cells = c.isFalse cells' := by
  match c with
  | .test field t =>
    have htruth := h (field, t) (by simp [leaves])
    simp only [isTrue, isFalse, htruth, and_self]
  | .all c cs | .any c cs | .notAll c cs =>
    simp only [leaves, List.mem_append] at h
    obtain ⟨htrue, hfalse⟩ := isTrue_congr c fun p hp => h p (.inl hp)
    obtain ⟨hall, hany, hall', hany'⟩ := allTrue_congr cs fun p hp => h p (.inr hp)
    simp only [isTrue, isFalse, htrue, hfalse, hall, hany, hall', hany', and_self]

theorem allTrue_congr (cs : List Condition)
    (h : ∀ p ∈ leavesOf cs, testTruth cells p.1 p.2 = testTruth cells' p.1 p.2) :
    allTrue cells cs = allTrue cells' cs ∧ anyTrue cells cs = anyTrue cells' cs
      ∧ allFalse cells cs = allFalse cells' cs ∧ anyFalse cells cs = anyFalse cells' cs := by
  match cs with
  | [] => exact ⟨rfl, rfl, rfl, rfl⟩
  | c :: cs =>
    simp only [leavesOf, List.mem_append] at h
    obtain ⟨htrue, hfalse⟩ := isTrue_congr c fun p hp => h p (.inl hp)
    obtain ⟨hall, hany, hall', hany'⟩ := allTrue_congr cs fun p hp => h p (.inr hp)
    simp only [allTrue, anyTrue, allFalse, anyFalse, htrue, hfalse, hall, hany, hall', hany',
      and_self]

end

end

end Condition

/-- What a row in which a condition is true does not fail. -/
structure Passes (reason : Prop) (answer : Option Bool) (t : Truth) : Prop where
  reason_of_none : answer = none → reason
  ne_false : t = .yes → answer ≠ some false

namespace Passes

variable {reason : Prop} {a b : Option Bool} {s t : Truth}

theorem of_settles (h : Settles reason a (t == .yes)) : Passes reason a t where
  reason_of_none hnone := by
    rcases h with hsome | ⟨-, hreason⟩
    · rw [hnone] at hsome
      cases hsome
    · exact hreason
  ne_false ht hfalse := by
    rcases h with hsome | ⟨hnone, -⟩
    · rw [hfalse, ht] at hsome
      cases hsome
    · rw [hfalse] at hnone
      cases hnone

theorem of_imp (h : Passes reason a s) (hst : t = .yes → s = .yes) : Passes reason a t where
  reason_of_none := h.reason_of_none
  ne_false ht := h.ne_false (hst ht)

theorem elseAlso (ha : Passes reason a s) (hb : Passes reason b t) :
    Passes reason (Condition.elseAlso a b) (s.or t) where
  reason_of_none h := by
    rcases a with _ | _ | _
    · exact ha.reason_of_none rfl
    · exact hb.reason_of_none h
    · cases h
  ne_false h hfalse := by
    rcases a with _ | _ | _
    · cases hfalse
    · have hs : s ≠ .yes := fun hs => ha.ne_false hs rfl
      have ht : t = .yes := by cases s <;> cases t <;> first | rfl | exact absurd rfl hs | cases h
      exact hb.ne_false ht hfalse
    · cases hfalse

theorem thenAlso (ha : Passes reason a t) (hb : Settles reason b (t == .yes)) :
    Settles reason (Condition.thenAlso a b) (t == .yes) := by
  rcases a with _ | _ | _
  · exact .inr ⟨rfl, ha.reason_of_none rfl⟩
  · have ht : t ≠ .yes := fun ht => ha.ne_false ht rfl
    exact .inl (congrArg some (beq_eq_false_iff_ne.mpr ht).symm)
  · exact hb

end Passes

namespace Condition

theorem anyTrue_append (cs ds : List Condition) :
    anyTrue cells (cs ++ ds) = elseAlso (anyTrue cells cs) (anyTrue cells ds) := by
  induction cs with
  | nil => rfl
  | cons c cs ih =>
    rw [List.cons_append, anyTrue, anyTrue, ih]
    rcases c.isTrue cells with _ | _ | _ <;> rfl

theorem idTest?_eq_some {c : Condition} {t : Test} (h : idTest? c = some t) :
    c = .test (.column .id) t := by
  match c with
  | .test (.column .id) t' =>
    match t' with
    | .compare .equal v | .among list => cases h; rfl
    | .compare .greater v | .compare .greaterOrEqual v | .compare .less v
    | .compare .lessOrEqual v | .isNull | .isNot v | .notAmong list => cases h

-- Of a conjunction one part gives the tests, of a disjunction every part does.
mutual

theorem Means.idTests? {c : Condition} {t : Truth} (h : Means deep cells c t) {ts : List Test}
    (hts : c.idTests? = some ts) :
    Passes deep (anyTrue cells (ts.map (.test (.column .id)))) t := by
  match c, h with
  | .test field q, .test h =>
    obtain ⟨q', htest, rfl⟩ := Option.map_eq_some_iff.mp hts
    cases idTest?_eq_some htest
    rw [List.map_singleton, anyTrue, anyTrue, elseAlso_false, isTrue]
    exact .of_settles (h.map (· == .yes))
  | .all c cs, .all h hs =>
    rcases Option.or_eq_some_iff.mp hts with hts | ⟨-, hts⟩
    · exact (h.idTests? hts).of_imp fun hand => (Truth.of_and_eq_yes hand).1
    · exact (hs.firstIdTests? hts).of_imp fun hand => (Truth.of_and_eq_yes hand).2
  | .any c cs, .any h hs =>
    obtain ⟨ts₁, hts₁, hts⟩ := Option.bind_eq_some_iff.mp hts
    obtain ⟨ts₂, hts₂, rfl⟩ := Option.map_eq_some_iff.mp hts
    rw [List.map_append, anyTrue_append]
    exact (h.idTests? hts₁).elseAlso (hs.allIdTests? hts₂)
  | .notAll c cs, _ => cases hts

theorem MeansOf.firstIdTests? {cs : List Condition} {t u : Truth} (h : MeansOf deep cells cs t u)
    {ts : List Test} (hts : firstIdTests? cs = some ts) :
    Passes deep (anyTrue cells (ts.map (.test (.column .id)))) t := by
  match cs, h with
  | c :: cs, .cons h hs =>
    rcases Option.or_eq_some_iff.mp hts with hts | ⟨-, hts⟩
    · exact (h.idTests? hts).of_imp fun hand => (Truth.of_and_eq_yes hand).1
    · exact (hs.firstIdTests? hts).of_imp fun hand => (Truth.of_and_eq_yes hand).2

theorem MeansOf.allIdTests? {cs : List Condition} {t u : Truth} (h : MeansOf deep cells cs t u)
    {ts : List Test} (hts : allIdTests? cs = some ts) :
    Passes deep (anyTrue cells (ts.map (.test (.column .id)))) u := by
  match cs, h with
  | [], .nil =>
    cases hts
    exact .of_settles (.inl rfl)
  | c :: cs, .cons h hs =>
    obtain ⟨ts₁, hts₁, hts⟩ := Option.bind_eq_some_iff.mp hts
    obtain ⟨ts₂, hts₂, rfl⟩ := Option.map_eq_some_iff.mp hts
    rw [List.map_append, anyTrue_append]
    exact (h.idTests? hts₁).elseAlso (hs.allIdTests? hts₂)

end

end Condition

theorem memberOf_congr {x y : Cell} (h : x.compare y = .eq) (ms : List Cell) :
    memberOf x ms = memberOf y ms := by
  simp only [memberOf, Cell.isNull_congr h, Cell.compare_congr h]

theorem Test.truth_congr {x y : Cell} (h : x.compare y = .eq) (a : Affinity) (t : Test) :
    t.truth a x = t.truth a y := by
  cases t <;> simp only [truth, Cell.isNull_congr h, Cell.compare_congr h, memberOf_congr h]

theorem Field.value_path_of_rank {cells : Column → Cell} (h : (cells .metadata).rank ≠ 2)
    (keys : List String) : Field.value cells (.path keys) = some .null := by
  rw [Field.value]
  split
  · rename_i hcell
    rw [hcell] at h
    exact absurd rfl h
  · rfl

theorem Condition.testTruth_congr {cells' : Column → Cell}
    (h : ∀ c, (cells c).compare (cells' c) = .eq) (field : Field) (t : Test) :
    testTruth cells field t = testTruth cells' field t := by
  cases field with
  | column c => exact Test.truth_congr (h c) _ t
  | path keys =>
    have hvalue : Field.value cells (.path keys) = Field.value cells' (.path keys) := by
      by_cases hrank : (cells .metadata).rank = 1
      · rw [Field.value_path_of_rank (by omega), Field.value_path_of_rank]
        rw [← Cell.rank_eq_of_compare (h .metadata)]
        omega
      · rw [Field.value, Field.value, Cell.eq_of_compare hrank (h .metadata)]
    rw [testTruth, testTruth, hvalue]

end DocumentStore
