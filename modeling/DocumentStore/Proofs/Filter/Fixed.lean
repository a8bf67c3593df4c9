import DocumentStore.Proofs.Filter.Terms

/-! Terms in which columns are fixed. Main statement: a row meets a condition just if the condition
is true in it, whatever is fixed and looked up, unless it is fixed that the metadata is a text that
is not read. -/
namespace DocumentStore

variable {cells : Column → Cell} {deep : Prop}

/-- A cell that equals what it is compared with equals what its column keeps of this. -/
theorem Affinity.compare_keep {a : Affinity} {x v : Cell} (hx : a = .real → ∀ n, x ≠ .integer n)
    (h : x.compare (a.convert v) = .eq) : x.compare (a.keep v) = .eq := by
  cases a with
  | text => exact h
  | none => exact h
  | real =>
    rw [Affinity.keep, Cell.toReal]
    rw [Affinity.convert] at h
    split
    · rename_i n hn
      rw [hn] at h
      cases x with
      | integer m => exact absurd rfl (hx rfl m)
      | real y =>
        rw [Cell.compare_of_datum? rfl rfl, compare_eq_iff_eq] at h ⊢
        rw [Cell.place_ofInt] at h
        exact (Number.place_doubleOfInt h).symm
      | _ => cases h
    · exact h

namespace Condition

theorem fixes?_eq_some {u : Condition} {c : Column} {v : Cell} (h : u.fixes? = some (c, v)) :
    ∃ w, u = .test (.column c) (.compare .equal w) ∧ v = c.affinity.keep w := by
  unfold fixes? at h
  split at h
  · rename_i c' w
    cases h
    exact ⟨w, rfl, rfl⟩
  · cases h

theorem fixed_cons (u : Condition) (us : List Condition) (c : Column) :
    fixed (u :: us) c = (fixed us c).or (u.fixes?.toList.lookup c) := by
  rw [fixed, List.reverse_cons, List.filterMap_append, List.lookup_append, fixed]
  cases hu : u.fixes? <;> simp [hu]

theorem isSome_fixed {us : List Condition} {u : Condition} (hu : u ∈ us) {c : Column} {v : Cell}
    (h : u.fixes? = some (c, v)) : (fixed us c).isSome := by
  rw [fixed, List.lookup_isSome_iff]
  refine ⟨(c, v), ?_, by simp⟩
  exact List.mem_filterMap.mpr ⟨u, List.mem_reverse.mpr hu, h⟩

theorem exists_decider (all : Column → Option Cell) {us : List Condition} {c : Column} {v : Cell}
    (h : fixed us c = some v) :
    ∃ u, ⟨u, fun _ => none⟩ ∈ askedFrom all us ∧ u.fixes? = some (c, v) := by
  induction us with
  | nil => cases h
  | cons u us ih =>
    rw [fixed_cons] at h
    cases hus : fixed us c with
    | some w =>
      rw [hus] at h
      cases h
      obtain ⟨u', hu', hfixes⟩ := ih hus
      exact ⟨u', List.mem_cons_of_mem _ hu', hfixes⟩
    | none =>
      rw [hus] at h
      cases hu : u.fixes? with
      | none =>
        rw [hu] at h
        cases h
      | some p =>
        obtain ⟨c', w⟩ := p
        by_cases hc : c = c'
        · subst hc
          obtain rfl : w = v := by simpa [hu] using h
          refine ⟨u, ?_, hu⟩
          simp [askedFrom, hu, hus]
        · have hne : (c == c') = false := beq_eq_false_iff_ne.mpr hc
          simp [hu, List.lookup, hne] at h

theorem mem_askedFrom {all : Column → Option Cell} {us : List Condition} {t : Term}
    (ht : t ∈ askedFrom all us) : t.condition ∈ us ∧ (t.fixed = all ∨ t.fixed = fun _ => none) := by
  induction us with
  | nil => cases ht
  | cons u us ih =>
    rcases List.mem_cons.mp ht with rfl | ht
    · refine ⟨List.mem_cons_self, ?_⟩
      dsimp only
      split
      · exact .inr rfl
      · exact .inl rfl
    · obtain ⟨hmem, hfixed⟩ := ih ht
      exact ⟨List.mem_cons_of_mem _ hmem, hfixed⟩

theorem map_condition_askedFrom (all : Column → Option Cell) (us : List Condition) :
    (askedFrom all us).map Term.condition = us := by
  induction us with
  | nil => rfl
  | cons u us ih => rw [askedFrom, List.map_cons, ih]

/-- Whether a row has what the terms of a condition fix. -/
def HasFixed (cells : Column → Cell) (us : List Condition) : Prop :=
  ∀ u ∈ us, u.fixes?.isSome → u.isTrue cells = some true

/-- A column that is equal to a value in a row is equal to it in the comparison of their cells. -/
theorem compare_of_isTrue {c : Column} {w : Cell}
    (h : (test (.column c) (.compare .equal w)).isTrue cells = some true) :
    (cells c).compare (c.affinity.convert w) = .eq := by
  have h : some ((if (cells c).isNull || (c.affinity.convert w).isNull then Truth.unknown
      else .ofBool (Relation.equal.admits ((cells c).compare (c.affinity.convert w)))) == .yes)
        = some true := h
  by_cases hnull : ((cells c).isNull || (c.affinity.convert w).isNull) = true
  · rw [if_pos hnull] at h
    cases h
  · rw [if_neg hnull] at h
    cases ho : (cells c).compare (c.affinity.convert w) with
    | eq => rfl
    | lt | gt =>
      rw [ho] at h
      cases h

end Condition

namespace Term

variable {cells' : Column → Cell}

theorem cells_congr {t : Term} {c : Column} (h : (t.fixed c).isSome) :
    t.cells cells c = t.cells cells' c := by
  obtain ⟨v, hv⟩ := Option.isSome_iff_exists.mp h
  rw [Term.cells, Term.cells, hv]
  rfl

theorem allTrue_append (ts us : List Term) :
    allTrue cells (ts ++ us) = Condition.thenAlso (allTrue cells ts) (allTrue cells us) := by
  induction ts with
  | nil => rfl
  | cons t ts ih => rw [List.cons_append, allTrue, allTrue, ih, Condition.thenAlso_assoc]

theorem exists_of_allTrue {ts : List Term} (h : allTrue cells ts ≠ some true) :
    ∃ t ∈ ts, t.isTrue cells = allTrue cells ts := by
  induction ts with
  | nil => exact absurd rfl h
  | cons t ts ih =>
    rw [allTrue] at h ⊢
    cases ht : t.isTrue cells with
    | none => exact ⟨t, List.mem_cons_self, ht⟩
    | some b =>
      cases b with
      | false => exact ⟨t, List.mem_cons_self, ht⟩
      | true =>
        rw [ht] at h
        obtain ⟨u, hu, hanswer⟩ := ih h
        exact ⟨u, List.mem_cons_of_mem _ hu, hanswer⟩

theorem isTrue_of_allTrue {ts : List Term} (h : allTrue cells ts = some true) {t : Term}
    (ht : t ∈ ts) : t.isTrue cells = some true := by
  induction ts with
  | nil => cases ht
  | cons u ts ih =>
    rw [allTrue] at h
    cases hu : u.isTrue cells with
    | none =>
      rw [hu] at h
      cases h
    | some b =>
      cases b with
      | false =>
        rw [hu] at h
        cases h
      | true =>
        rw [hu] at h
        rcases List.mem_cons.mp ht with rfl | ht
        · exact hu
        · exact ih h ht

theorem allTrue_congr {ts : List Term} (h : ∀ t ∈ ts, t.isTrue cells = t.isTrue cells') :
    allTrue cells ts = allTrue cells' ts := by
  induction ts with
  | nil => rfl
  | cons t ts ih =>
    rw [allTrue, allTrue, h t List.mem_cons_self, ih fun u hu => h u (List.mem_cons_of_mem _ hu)]

end Term

namespace Condition

section

variable {c : Condition} {reason : Prop}

theorem condition_mem_terms {t : Term} (ht : t ∈ c.asked) : t.condition ∈ c.terms :=
  (mem_askedFrom ht).1

theorem exists_of_lookup? {join : Join} {ts : List Test} (h : c.lookup? join = some ts) :
    ∃ u ∈ c.terms, u.idTests? = some ts := by
  rw [lookup?] at h
  split at h
  · rename_i q hq
    obtain ⟨u, hu, hid⟩ := List.exists_of_findSome?_eq_some hq
    split at h
    · cases h
      obtain rfl := idTest?_eq_some hid
      exact ⟨_, hu, congrArg (Option.map fun q => [q]) hid⟩
    · cases h
  · obtain ⟨u, hu, hfilter⟩ := List.exists_of_findSome?_eq_some h
    exact ⟨u, hu, (Option.filter_eq_some_iff.mp hfilter).1⟩

theorem exists_isTrue_of_fixes {u : Condition} {p : Column × Cell} (h : u.fixes? = some p)
    (cells : Column → Cell) : ∃ b, u.isTrue cells = some b := by
  obtain ⟨w, rfl, -⟩ := fixes?_eq_some h
  exact ⟨_, rfl⟩

theorem Means.hasFixed (h : Means deep cells c .yes) : HasFixed cells c.terms := by
  intro u hu hfixes
  obtain ⟨p, hp⟩ := Option.isSome_iff_exists.mp hfixes
  obtain ⟨s, hs, hyes⟩ := h.terms hu
  obtain ⟨b, hb⟩ := exists_isTrue_of_fixes hp cells
  obtain rfl := hyes rfl
  rcases hs.isTrue with htrue | ⟨hnone, -⟩
  · exact htrue
  · rw [hb] at hnone
    cases hnone

section

variable (hscore : ∀ n, cells .score ≠ .integer n)

include hscore

/-- What is fixed by a term that is true compares as equal to the cell of the row. -/
theorem compare_of_fixes {u : Condition} {col : Column} {v : Cell}
    (h : u.fixes? = some (col, v)) (htrue : u.isTrue cells = some true) :
    (cells col).compare v = .eq := by
  obtain ⟨w, rfl, rfl⟩ := fixes?_eq_some h
  refine Affinity.compare_keep ?_ (compare_of_isTrue htrue)
  intro hreal n hn
  cases col with
  | score => exact hscore n hn
  | _ => cases hreal

/-- In a row that has what is fixed, a term sees cells that compare as those of the row. -/
theorem HasFixed.compare_cells (h : HasFixed cells c.terms) {t : Term} (ht : t ∈ c.asked)
    (col : Column) : (cells col).compare (t.cells cells col) = .eq := by
  rw [Term.cells]
  cases hv : t.fixed col with
  | none => exact Cell.compare_self _
  | some v =>
    have hfixed : fixed c.terms col = some v := by
      rcases (mem_askedFrom ht).2 with hall | hnone
      · rwa [← hall]
      · rw [hnone] at hv
        cases hv
    obtain ⟨u, hu, hfixes⟩ := exists_decider (fixed c.terms) hfixed
    exact compare_of_fixes hscore hfixes (h u (mem_askedFrom hu).1 (by rw [hfixes]; rfl))

theorem HasFixed.isTrue_eq (h : HasFixed cells c.terms) {t : Term} (ht : t ∈ c.asked) :
    t.isTrue cells = t.condition.isTrue cells := by
  rw [Term.isTrue]
  refine (isTrue_congr t.condition fun p _ => ?_).1.symm
  exact testTruth_congr (h.compare_cells hscore ht) p.1 p.2

theorem HasFixed.allTrue_asked (h : HasFixed cells c.terms) :
    Term.allTrue cells c.asked = c.isTrue cells := by
  have hterms : ∀ ts : List Term, (∀ t ∈ ts, t ∈ c.asked) →
      Term.allTrue cells ts = allTrue cells (ts.map Term.condition) := by
    intro ts hts
    induction ts with
    | nil => rfl
    | cons t ts ih =>
      rw [List.map_cons, Term.allTrue, allTrue, h.isTrue_eq hscore (hts t List.mem_cons_self),
        ih fun u hu => hts u (List.mem_cons_of_mem _ hu)]
  rw [hterms c.asked fun t ht => ht, asked, map_condition_askedFrom, allTrue_terms]

/-- A row of which all that is asked holds has what is fixed: what decides about a column is asked
of the row, and what else fixes it is asked of the same cell. -/
theorem hasFixed_of_allTrue (h : Term.allTrue cells c.asked = some true) :
    HasFixed cells c.terms := by
  intro u hu hfixes
  obtain ⟨⟨col, v⟩, hp⟩ := Option.isSome_iff_exists.mp hfixes
  obtain ⟨v', hv'⟩ := Option.isSome_iff_exists.mp (isSome_fixed hu hp)
  obtain ⟨u', hu', hfixes'⟩ := exists_decider (fixed c.terms) hv'
  have hcell := compare_of_fixes hscore hfixes' (Term.isTrue_of_allTrue h hu')
  rw [← map_condition_askedFrom (fixed c.terms) c.terms] at hu
  obtain ⟨t, ht, rfl⟩ := List.mem_map.mp hu
  have hseen : (cells col).compare (t.cells cells col) = .eq := by
    rw [Term.cells]
    rcases (mem_askedFrom ht).2 with hall | hnone
    · rw [hall, hv']
      exact hcell
    · rw [hnone]
      exact Cell.compare_self _
  have hsame : t.condition.isTrue cells = t.isTrue cells := by
    obtain ⟨w, hw, -⟩ := fixes?_eq_some hp
    have htruth := Test.truth_congr hseen col.affinity (.compare .equal w)
    rw [Term.isTrue, hw, isTrue, isTrue]
    exact congrArg (Option.map (· == .yes)) htruth
  rw [hsame]
  exact Term.isTrue_of_allTrue h ht

variable (hreason : ∀ t ∈ c.asked, t.isTrue cells = none → reason) (hdeep : deep → reason)

include hreason

/-- What is asked of the row, all of it or some, is passed where the condition is true. -/
theorem Means.passes_asked {t : Truth} (h : Means deep cells c t) {ts : List Term}
    (hts : ∀ u ∈ ts, u ∈ c.asked) : Passes reason (Term.allTrue cells ts) t where
  reason_of_none hnone := by
    obtain ⟨u, hu, hanswer⟩ := Term.exists_of_allTrue (by rw [hnone]; decide)
    exact hreason u (hts u hu) (hanswer.trans hnone)
  ne_false ht hfalse := by
    subst ht
    obtain ⟨u, hu, hanswer⟩ := Term.exists_of_allTrue (by rw [hfalse]; decide)
    obtain ⟨s, hs, hyes⟩ := h.terms (condition_mem_terms (hts u hu))
    rw [hfalse, h.hasFixed.isTrue_eq hscore (hts u hu)] at hanswer
    obtain rfl := hyes rfl
    rcases hs.isTrue with htrue | ⟨hnone, -⟩
    · rw [hanswer] at htrue
      cases htrue
    · rw [hanswer] at hnone
      cases hnone

theorem Means.settles_asked {t : Truth} (h : Means deep cells c t) :
    Settles reason (Term.allTrue cells c.asked) (t == .yes) := by
  have hpasses := h.passes_asked hscore hreason fun u hu => hu
  cases hanswer : Term.allTrue cells c.asked with
  | none => exact .inr ⟨rfl, hpasses.reason_of_none hanswer⟩
  | some b =>
    cases b with
    | false =>
      have ht : t ≠ .yes := fun ht => hpasses.ne_false ht hanswer
      exact .inl (congrArg some (beq_eq_false_iff_ne.mpr ht).symm)
    | true =>
      rw [(hasFixed_of_allTrue hscore hanswer).allTrue_asked hscore] at hanswer
      rcases h.isTrue with htrue | ⟨hnone, -⟩
      · exact .inl (hanswer.symm.trans htrue)
      · rw [hanswer] at hnone
        cases hnone

include hdeep

/-- A row meets a condition just if the condition is true in it, however rows are looked up. -/
theorem Means.holds {t : Truth} (h : Means deep cells c t) (join : Join) :
    Settles reason (c.holds join cells) (t == .yes) := by
  have hasked := h.settles_asked hscore hreason
  rw [Condition.holds]
  split
  · rename_i ts hlookup
    obtain ⟨u, hu, hts⟩ := exists_of_lookup? hlookup
    obtain ⟨s, hs, hyes⟩ := h.terms hu
    have hpasses := (hs.idTests? hts).of_imp hyes
    exact (⟨fun hnone => hdeep (hpasses.reason_of_none hnone), hpasses.ne_false⟩ :
      Passes reason _ t).thenAlso hasked
  · dsimp only
    split
    · exact hasked
    · rw [Term.allTrue_append]
      exact (h.passes_asked hscore hreason fun u hu => (List.mem_filter.mp hu).1).thenAlso hasked

end

end

/-- Why a test fails: its list is not read, or the metadata is a text that is not read. -/
theorem testTruth_eq_none {field : Field} {t : Test} (h : testTruth cells field t = none) :
    t.IsUnread ∨ ∃ keys s, field = .path keys ∧ cells .metadata = .text s ∧ Node.read s = none := by
  rcases Option.bind_eq_none_iff.mp h with h
  cases hvalue : field.value cells with
  | none =>
    cases field with
    | column c => cases hvalue
    | path keys =>
      rw [Field.value] at hvalue
      split at hvalue
      · rename_i s hs
        exact .inr ⟨keys, s, rfl, hs, Option.map_eq_none_iff.mp hvalue⟩
      · cases hvalue
  | some x =>
    left
    have htruth := h x hvalue
    cases t with
    | among list => exact ⟨list, .inl rfl, Option.map_eq_none_iff.mp htruth⟩
    | notAmong list =>
      rw [Test.truth] at htruth
      split at htruth
      · cases htruth
      · exact ⟨list, .inr rfl, Option.map_eq_none_iff.mp htruth⟩
    | _ => cases htruth

/-- Whether metadata into which a condition looks is not fixed to a text that is not read. -/
def IsClear (c : Condition) : Prop :=
  ∀ s keys t, fixed c.terms .metadata = some (.text s) → (.path keys, t) ∈ c.leaves →
    (Node.read s).isSome

/-- Why a term fails, if it is clear what is fixed: its list is not read, or the metadata of the row
itself is not read. -/
theorem exists_leaf_of_asked {c : Condition} (hclear : c.IsClear) {t : Term} (ht : t ∈ c.asked)
    (h : t.isTrue cells = none) :
    ∃ p ∈ t.condition.leaves, p.2.IsUnread ∨ ∃ keys s, p.1 = .path keys
      ∧ t.fixed .metadata = none ∧ cells .metadata = .text s ∧ Node.read s = none := by
  obtain ⟨p, hp, hnone⟩ := exists_leaf_of_isTrue h
  refine ⟨p, hp, (testTruth_eq_none hnone).imp_right ?_⟩
  rintro ⟨keys, s, hkeys, hs, hread⟩
  have hleaf : (.path keys, p.2) ∈ c.leaves := by
    rw [← hkeys]
    exact mem_leaves_of_terms (condition_mem_terms ht) hp
  rw [Term.cells] at hs
  cases hfixed : t.fixed .metadata with
  | none =>
    rw [hfixed] at hs
    exact ⟨keys, s, hkeys, rfl, hs, hread⟩
  | some v =>
    rw [hfixed] at hs
    rcases (mem_askedFrom ht).2 with hall | hnone
    · rw [hall] at hfixed
      obtain rfl : v = .text s := hs
      have hsome := hclear s keys p.2 hfixed hleaf
      rw [hread] at hsome
      cases hsome
    · rw [hnone] at hfixed
      cases hfixed

section

variable {c : Condition}

theorem testTruth_noRow {t : Term} {p : Field × Test} (h : Term.isSettledIn t.fixed p)
    (hid : (cells .id).isNull = false) :
    testTruth (t.cells noRow) p.1 p.2 = testTruth (t.cells cells) p.1 p.2 := by
  have hcolumn {col : Column} (hfixed : (t.fixed col).isSome) (test : Test) :
      testTruth (t.cells noRow) (.column col) test
        = testTruth (t.cells cells) (.column col) test := by
    rw [testTruth, testTruth, Field.value, Field.value, Term.cells_congr hfixed]
  obtain ⟨field, test⟩ := p
  cases field with
  | path keys =>
    have hfixed : (t.fixed .metadata).isSome := h
    rw [testTruth, testTruth, Field.value, Field.value, Term.cells_congr hfixed]
  | column col =>
    cases col with
    | id =>
      rcases Bool.or_eq_true_iff.mp h with hfixed | htest
      · exact hcolumn hfixed test
      · obtain rfl : test = .isNull := eq_of_beq htest
        cases hfixed : t.fixed .id with
        | some v => exact hcolumn (by rw [hfixed]; rfl) .isNull
        | none =>
          simp only [testTruth, Field.value, Term.cells, hfixed, Option.getD_none, Option.bind_some,
            Test.truth, hid]
          rfl
    | blob => exact hcolumn (Bool.and_eq_true_iff.mp h).1 test
    | _ => exact hcolumn h test

theorem isTrueAhead_eq (hid : (cells .id).isNull = false) :
    c.isTrueAhead
      = Term.allTrue cells (c.asked.filter fun t => t.isSettled && !t.condition.asksList) := by
  rw [isTrueAhead]
  apply Term.allTrue_congr
  intro t ht
  have hsettled := (Bool.and_eq_true_iff.mp (List.mem_filter.mp ht).2).1
  exact (isTrue_congr t.condition fun p hp =>
    testTruth_noRow (List.all_eq_true.mp hsettled p hp) hid).1

/-- What is asked before there is a row fails only if it is not clear what is fixed. -/
theorem not_isClear_of_isTrueAhead (h : c.isTrueAhead = none) : ¬c.IsClear := by
  intro hclear
  have hfails : c.isTrueAhead ≠ some true := by
    rw [h]
    decide
  obtain ⟨t, ht, hanswer⟩ := Term.exists_of_allTrue hfails
  obtain ⟨htasked, hkind⟩ := List.mem_filter.mp ht
  obtain ⟨hsettled, hlists⟩ := Bool.and_eq_true_iff.mp hkind
  obtain ⟨p, hp, ⟨list, hlist, -⟩ | ⟨keys, s, hkeys, hfixed, -⟩⟩ :=
    exists_leaf_of_asked hclear htasked (hanswer.trans h)
  · have hasks : p.2.asksList = true := by rcases hlist with hlist | hlist <;> rw [hlist] <;> rfl
    have : t.condition.asksList = true := List.any_eq_true.mpr ⟨p, hp, hasks⟩
    rw [this] at hlists
    cases hlists
  · have hsees := List.all_eq_true.mp hsettled p hp
    obtain ⟨field, test⟩ := p
    obtain rfl : field = .path keys := hkeys
    rw [Term.isSettledIn, hfixed] at hsees
    cases hsees

end

end Condition

namespace Filter

mutual

theorem exists_comparison (f : Filter) {c : Condition} (h : f.compile = .ok c) {p : Field × Test}
    (hp : p ∈ c.leaves) :
    ∃ l ∈ f.leaves, Field.ofText l.field = .ok p.1 ∧ compileTest l = .ok p.2 := by
  match f with
  | .comparison l =>
    obtain ⟨field, t, hfield, ht, rfl⟩ := compile_comparison_eq_ok h
    obtain rfl := List.mem_singleton.mp hp
    exact ⟨l, List.mem_singleton_self l, hfield, ht⟩
  | .logical operator f fs =>
    obtain ⟨c', cs, hc, hcs, rfl⟩ := compile_logical_eq_ok h
    have hp : p ∈ c'.leaves ++ Condition.leavesOf cs := by cases operator <;> exact hp
    rw [leaves]
    rcases List.mem_append.mp hp with hp | hp
    · obtain ⟨l, hl, hcompiled⟩ := exists_comparison f hc hp
      exact ⟨l, List.mem_append_left _ hl, hcompiled⟩
    · obtain ⟨l, hl, hcompiled⟩ := exists_comparison_of_items fs hcs hp
      exact ⟨l, List.mem_append_right _ hl, hcompiled⟩

theorem exists_comparison_of_items (fs : List Filter) {cs : List Condition}
    (h : compileItems fs = .ok cs) {p : Field × Test} (hp : p ∈ Condition.leavesOf cs) :
    ∃ l ∈ leavesOf fs, Field.ofText l.field = .ok p.1 ∧ compileTest l = .ok p.2 := by
  match fs with
  | [] =>
    obtain rfl : [] = cs := by simpa [compileItems] using h
    cases hp
  | f :: fs =>
    obtain ⟨c, cs', hc, hcs, rfl⟩ := compileItems_cons_eq_ok h
    rw [leavesOf]
    rcases List.mem_append.mp hp with hp | hp
    · obtain ⟨l, hl, hcompiled⟩ := exists_comparison f hc hp
      exact ⟨l, List.mem_append_left _ hl, hcompiled⟩
    · obtain ⟨l, hl, hcompiled⟩ := exists_comparison_of_items fs hcs hp
      exact ⟨l, List.mem_append_right _ hl, hcompiled⟩

end

section

variable {f : Filter} {c : Condition} (hf : f.compile = .ok c) (key : ℤ) (d : Document)

theorem score_ne_integer (n : ℤ) : (Row.ofDocument key d).cell .score ≠ .integer n := by
  rw [Document.cell_ofDocument, Document.cell]
  cases d.score with
  | none => exact Cell.noConfusion
  | some x =>
    simp only [Option.map_some, Option.getD_some, Row.numberCell]
    split <;> exact Cell.noConfusion

include hf

theorem reason_of_asked {t : Term} (ht : t ∈ c.asked)
    (h : t.isTrue (Row.ofDocument key d).cell = none) : ¬c.IsClear ∨ f.IsTooDeep d := by
  by_cases hclear : c.IsClear
  · right
    obtain ⟨p, hp, hfails⟩ := Condition.exists_leaf_of_asked hclear ht h
    obtain ⟨l, hl, hfield, htest⟩ :=
      exists_comparison f hf (Condition.mem_leaves_of_terms (Condition.condition_mem_terms ht) hp)
    refine ⟨l, hl, ?_⟩
    rcases hfails with hunread | ⟨keys, s, hkeys, -, hs, hread⟩
    · exact .inr (too_deep_of_isUnread htest hunread)
    · left
      refine ⟨⟨keys, by rw [hfield, hkeys]⟩, ?_⟩
      rw [Document.cell_ofDocument, Document.cell] at hs
      obtain rfl := Cell.text.inj hs
      rw [Node.read_text] at hread
      split at hread
      · cases hread
      · rename_i hdepth
        exact Nat.lt_of_not_le hdepth
  · exact .inl hclear

/-- The condition of a filter is met in the row of a document just if the filter is true in the
document. -/
theorem settles_holds (join : Join) :
    Settles (¬c.IsClear ∨ f.IsTooDeep d) (c.holds join (Row.ofDocument key d).cell)
      (f.truth d == .yes) := by
  have hmeans := means_compile f key hf fun l hl hdeep => (⟨l, hl, hdeep⟩ : f.IsTooDeep d)
  exact hmeans.holds (score_ne_integer key d) (fun t => reason_of_asked hf key d) .inr join

theorem truth_ne_yes_of_isTrueAhead (h : c.isTrueAhead = some false) : f.truth d ≠ .yes := by
  intro hyes
  have hmeans := means_compile f 0 hf fun l hl hdeep => (⟨l, hl, hdeep⟩ : f.IsTooDeep d)
  have hasked : ∀ u ∈ c.asked.filter fun t => t.isSettled && !t.condition.asksList, u ∈ c.asked :=
    fun u hu => (List.mem_filter.mp hu).1
  have hpasses :=
    hmeans.passes_asked (score_ne_integer 0 d) (fun t => reason_of_asked hf 0 d) hasked
  rw [← Condition.isTrueAhead_eq rfl] at hpasses
  exact hpasses.ne_false hyes h

end

end Filter
end DocumentStore
