import DocumentStore.Proofs.Store.Answering
import DocumentStore.Proofs.Store.Comparing
import DocumentStore.Proofs.Store.Narrowing

/-! Documents that are found by their own values. Main statement: a document is returned by equality
with the value that it holds at a path and by membership in any list with this value, and difference
from it leaves the document out; equality with null returns a document without a value. -/
namespace DocumentStore

open OrderedMap

theorem Cell.equals_self {x : Cell} (hx : x.isNull = false) : x.equals x = true := by
  simp [equals, hx, compare_self]

section

variable {d : Document} {keys : List String} {v : Json}
  (hv : (Json.object d.metadata).follow keys = some v)

include hv

theorem Document.value_of_follow : d.value (.path keys) = Cell.ofStored v := by
  rw [Document.value, hv]
  rfl

theorem Document.equals_of_follow (hproper : v.IsProper) : d.equals (.path keys) v = true := by
  rw [Document.equals, Document.standing, d.value_of_follow hv, Cell.ofStored_eq_ofJson hproper,
    Cell.isNull_ofJson]
  by_cases hnull : v = .null
  · simp [hnull]
  · have hsame : (Field.path keys).affinity.convert (.ofJson v) = .ofJson v := rfl
    simp [hnull, hsame, Cell.compare_self]

/-- The value that a document holds at a path is among the items of every list that has it. -/
theorem Document.isAmong_of_follow (hproper : v.IsProper) (hnull : v ≠ .null) {items : List Json}
    (hmem : v ∈ items) : (d.value (.path keys)).isAmong items = true := by
  have hcell : (Cell.ofStored v).isNull = false := by
    rw [Cell.ofStored_eq_ofJson hproper, Cell.isNull_ofJson, decide_eq_false hnull]
  rw [Document.value_of_follow hv]
  exact List.any_eq_true.mpr ⟨v, hmem, Cell.equals_self hcell⟩

variable {p : String} (hp : Field.ofText p = .ok (.path keys)) (hproper : v.IsProper)

include hp hproper

theorem Comparison.truth_equal_of_follow :
    (Comparison.truth d ⟨p, .equal, v⟩ == .yes) = true := by
  rw [Comparison.truth_equal d hp]
  exact Document.equals_of_follow hv hproper

theorem Comparison.truth_member_of_follow (hnull : v ≠ .null) {items : List Json}
    (hmem : v ∈ items) :
    (Comparison.truth d ⟨p, .member, .array items⟩ == .yes) = true := by
  rw [Comparison.truth_member hp]
  exact Document.isAmong_of_follow hv hproper hnull hmem

end

theorem Document.idsOf_reread {ds es : List Document}
    (h : List.Forall₂ (fun d e => d.reread = .ok e) ds es) : idsOf es = idsOf ds := by
  induction h with
  | nil => rfl
  | cons hread _ ih => rw [idsOf_cons, idsOf_cons, id_of_reread hread, ih]

namespace Store

/-- A comparison has an answer with a property, unless a document in which it is true cannot stand
in a text, or it goes too deep in a document. -/
def Finds (s : Store) (docs : List Document) (c : Comparison) (P : List Document → Prop) : Prop :=
  (∃ found, s.filter (some (.comparison c)) = .ok found ∧ P found)
    ∨ (∃ fault, s.filter (some (.comparison c)) = .error fault)
      ∧ ∃ e ∈ docs, c.truth e = .yes ∧ ¬e.Fits ∨ c.IsTooDeep e

def Returns (s : Store) (docs : List Document) (c : Comparison) (d : Document) : Prop :=
  s.Finds docs c fun found => ∃ e ∈ found, d.reread = .ok e

/-- A comparison returns no document with the id of the given one. -/
def Omits (s : Store) (docs : List Document) (c : Comparison) (d : Document) : Prop :=
  s.Finds docs c fun found => d.id ∉ idsOf found

theorem Finds.of_fits {s : Store} {docs : List Document} {c : Comparison}
    {P : List Document → Prop} (h : s.Finds docs c P) (hdocs : ∀ d ∈ docs, d.Fits)
    (hvalue : c.value.nesting ≤ Node.depthLimit) :
    ∃ found, s.filter (some (.comparison c)) = .ok found ∧ P found := by
  rcases h with hfound | ⟨-, e, he, ⟨-, hnot⟩ | ⟨-, hdeep⟩ | ⟨-, hdeep⟩⟩
  · exact hfound
  · exact absurd (hdocs e he) hnot
  · have hfits := (hdocs e he).metadata.nesting_le
    have hlimits : Json.depthLimit ≤ Node.depthLimit := by decide
    exact absurd hdeep (Nat.not_lt_of_le (hfits.trans hlimits))
  · exact absurd hdeep (Nat.not_lt_of_le hvalue)

end Store

namespace History

variable {cs : List Config} {docs : List Document} {s : Store} (h : History cs docs s)

include h

variable {c : Comparison} {k : Condition} (hk : Filter.compileComparison c = .ok k)

include hk

/-- The documents in which a comparison is true are its answer, as they are read back. -/
theorem finds {P : List Document → Prop}
    (hP : ∀ found, (docs.filter fun d => c.truth d == .yes).mapM Document.reread = .ok found →
      P found) : s.Finds docs c P := by
  rcases h.selects hk with hselect | ⟨hfault, d, hd, l, hl, hdeep⟩
  · cases hread : (docs.filter fun d => c.truth d == .yes).mapM Document.reread with
    | ok found => exact .inl ⟨found, hselect.trans hread, hP found hread⟩
    | error fault =>
      refine .inr ⟨⟨fault, hselect.trans hread⟩, ?_⟩
      by_contra! hfits
      obtain ⟨found, hfound⟩ := exists_mapM_eq_ok fun d hd =>
        have ⟨hd, htrue⟩ := List.mem_filter.mp hd
        h.exists_reread hd ((hfits d hd).1 (beq_iff_eq.mp htrue))
      rw [hread] at hfound
      cases hfound
  · obtain rfl : l = c := List.mem_singleton.mp hl
    exact .inr ⟨⟨.engine, hfault⟩, d, hd, .inr hdeep⟩

variable {d : Document} (hd : d ∈ docs)

include hd

theorem returns (htrue : (c.truth d == .yes) = true) : s.Returns docs c d := by
  refine h.finds hk fun found hfound => ?_
  exact exists_mem_of_mapM hfound
    (List.mem_filter (p := fun d => c.truth d == .yes).mpr ⟨hd, htrue⟩)

theorem omits (hfalse : (c.truth d == .yes) = false) : s.Omits docs c d := by
  refine h.finds hk fun found hfound hmem => ?_
  rw [Document.idsOf_reread (mapM_eq_ok.mp hfound)] at hmem
  obtain ⟨e, he, hid⟩ := List.mem_map.mp hmem
  obtain ⟨he, htrue⟩ := List.mem_filter.mp he
  obtain rfl : e = d := List.inj_on_of_nodup_map h.ids_nodup he hd hid
  rw [hfalse] at htrue
  cases htrue

/-- A document in which a comparison is true breaks its answer off if it is nested more deeply than
the reader goes. -/
theorem breaks_off (htrue : (c.truth d == .yes) = true) (hproper : d.IsProper)
    (hdeep : Json.depthLimit < d.nesting) :
    ∃ fault, s.filter (some (.comparison c)) = .error fault := by
  rcases h.selects hk with hselect | ⟨hfault, -⟩
  · cases hread : (docs.filter fun d => c.truth d == .yes).mapM Document.reread with
    | error fault => exact ⟨fault, hselect.trans hread⟩
    | ok found =>
      obtain ⟨e, -, he⟩ := exists_mem_of_mapM hread
        (List.mem_filter (p := fun d => c.truth d == .yes).mpr ⟨hd, htrue⟩)
      rw [Database.reread_eq] at he
      exact absurd (hproper.nesting_le_of_toDocument he) (Nat.not_le_of_lt hdeep)
  · exact ⟨.engine, hfault⟩

end History

namespace History

variable {cs : List Config} {docs : List Document} {s : Store}

/-- At every point of a history, each document in the store is found by what it holds at a path.
Unless this is null, it is returned by equality with the value and as a member of every list that
has the value as an item, and it is not returned by difference from the value. If it is null, or
there is nothing at the path, the document is returned by equality with null. But what returns a
document that is nested more deeply than the reader goes has no answer. -/
theorem finds_value (h : History cs docs s) {d : Document} (hd : d ∈ docs) {p : String}
    {keys : List String} (hp : Field.ofText p = .ok (.path keys)) :
    (∀ v, (Json.object d.metadata).follow keys = some v → v.IsProper → v ≠ .null →
        s.Returns docs ⟨p, .equal, v⟩ d ∧ s.Returns docs ⟨p, .member, .array [v]⟩ d
        ∧ (∀ items, v ∈ items → s.Returns docs ⟨p, .member, .array items⟩ d)
        ∧ s.Omits docs ⟨p, .notEqual, v⟩ d)
      ∧ ((∀ v, (Json.object d.metadata).follow keys = some v → v = .null) →
        s.Returns docs ⟨p, .equal, .null⟩ d)
      ∧ (d.IsProper → Json.depthLimit < d.nesting → ∀ v,
        (Json.object d.metadata).follow keys = some v → v.IsProper → v ≠ .null →
          (∃ fault, s.filter (some (.comparison ⟨p, .equal, v⟩)) = .error fault)
          ∧ ∀ items, v ∈ items →
            ∃ fault, s.filter (some (.comparison ⟨p, .member, .array items⟩)) = .error fault) := by
  have hcompiles {o : ComparisonOperator} {v : Json} (ho : o.isOrdering = false)
      (hlist : o = .member ∨ o = .notMember → ∃ items, v = .array items) :=
    Filter.exists_compileComparison (v := v) hp (fun hordering => nomatch ho.symm.trans hordering)
      hlist
  have hequal (v : Json) : ∃ k, Filter.compileComparison ⟨p, .equal, v⟩ = .ok k :=
    hcompiles rfl (by simp)
  have hmember (items : List Json) :
      ∃ k, Filter.compileComparison ⟨p, .member, .array items⟩ = .ok k :=
    hcompiles rfl fun _ => ⟨items, rfl⟩
  refine ⟨fun v hv hproper hnull => ?_, fun hnone => ?_, fun hd' hdeep v hv hproper hnull => ?_⟩
  · have hreturns (items : List Json) (hmem : v ∈ items) :=
      h.returns (hmember items).choose_spec hd
        (Comparison.truth_member_of_follow hv hp hproper hnull hmem)
    obtain ⟨k, hk⟩ := hequal v
    obtain ⟨k', hk'⟩ := hcompiles (o := .notEqual) (v := v) rfl (by simp)
    refine ⟨h.returns hk hd (Comparison.truth_equal_of_follow hv hp hproper),
      hreturns [v] (List.mem_singleton.mpr rfl),
      hreturns, h.omits hk' hd ?_⟩
    rw [Comparison.truth_notEqual d hp, Document.equals_of_follow hv hproper]
    rfl
  · obtain ⟨k, hk⟩ := hequal .null
    refine h.returns hk hd ?_
    rw [Comparison.truth_equal d hp]
    cases hv : (Json.object d.metadata).follow keys with
    | none => simp [Document.equals, Document.value, hv, Cell.isNull]
    | some v =>
      obtain rfl := hnone v hv
      exact Document.equals_of_follow hv trivial
  · obtain ⟨k, hk⟩ := hequal v
    have hisequal := Comparison.truth_equal_of_follow hv hp hproper
    refine ⟨h.breaks_off hk hd hisequal hd' hdeep, fun items hmem => ?_⟩
    obtain ⟨k, hk⟩ := hmember items
    exact h.breaks_off hk hd
        (Comparison.truth_member_of_follow hv hp hproper hnull hmem) hd' hdeep

end History

/-- A document with a list of values of every kind behind two keys. -/
def Document.nested : Document where
  id := "a"
  metadata := [("n", .object [("k", .array [.real 1.5, .bool true, .null, .string "\n"])])]

theorem Document.fits_nested : Document.nested.Fits := by
  refine ⟨.object ?_, by simp [nested]⟩
  simp only [nested, List.forall_mem_singleton]
  refine .object ?_
  simp only [List.forall_mem_singleton]
  refine .array ?_
  simp only [List.forall_mem_cons, List.not_mem_nil, false_implies, implies_true, and_true]
  exact ⟨.real _ _, .bool _ _, .null _, .string _ _⟩

/-- The list is found as a value, in a list after a null, and not by what differs from it; the
document without metadata is found by null. -/
theorem History.finds_value_nested :
    ∃ s, History [{}] [.nested, { id := "b" }] s
      ∧ Field.ofText "meta.n.k" = .ok (.path ["n", "k"])
      ∧ ∃ v, (Json.object Document.nested.metadata).follow ["n", "k"] = some v ∧ v.IsProper
        ∧ (∃ found, s.filter (some (.comparison ⟨"meta.n.k", .equal, v⟩)) = .ok found
          ∧ ∃ e ∈ found, Document.nested.reread = .ok e)
        ∧ (∃ found, s.filter (some (.comparison ⟨"meta.n.k", .member, .array [.null, v]⟩))
            = .ok found
          ∧ ∃ e ∈ found, Document.nested.reread = .ok e)
        ∧ (∃ found, s.filter (some (.comparison ⟨"meta.n.k", .notEqual, v⟩)) = .ok found
          ∧ "a" ∉ idsOf found)
        ∧ ∃ found, s.filter (some (.comparison ⟨"meta.n.k", .equal, .null⟩)) = .ok found
          ∧ ∃ e ∈ found, Document.reread { id := "b" } = .ok e := by
  have h₀ := @History.created {} {} _ rfl rfl
  have h := @History.written _ _ [.nested, { id := "b" }] _ _ .fail _ h₀ rfl
  have hp : Field.ofText "meta.n.k" = .ok (.path ["n", "k"]) := rfl
  have hempty : Document.Fits { id := "b" } := ⟨.object (by simp), by simp⟩
  have hdocs : ∀ d ∈ [Document.nested, { id := "b" }], d.Fits := by
    simpa using ⟨Document.fits_nested, hempty⟩
  have hproper : (Json.array [.real 1.5, .bool true, .null, .string "\n"]).IsProper := by
    have hreal : (1.5 : Float).isFinite = true := by decide +kernel
    simp [Json.IsProper, Json.AreProper, hreal]
  obtain ⟨hvalue, -⟩ := h.finds_value (d := .nested) List.mem_cons_self hp
  obtain ⟨hequal, -, hmember, homits⟩ := hvalue _ rfl hproper (by simp)
  have hb : ({ id := "b" } : Document) ∈ [Document.nested, { id := "b" }] := by simp
  obtain ⟨-, hnothing, -⟩ := h.finds_value hb hp
  have hnull := hnothing (by rintro v ⟨⟩)
  refine ⟨_, h, hp, _, rfl, hproper, ?_, ?_, ?_, ?_⟩
  · exact hequal.of_fits hdocs (by decide)
  · exact (hmember _ (by simp)).of_fits hdocs (by decide)
  · exact homits.of_fits hdocs (by decide)
  · exact hnull.of_fits hdocs (by decide)

theorem History.filter_sunken {s : Store} (h : History [{}] [.sunken] s) {c : Comparison}
    {k : Condition} (hk : Filter.compileComparison c = .ok k)
    (hvalue : c.value.nesting ≤ Node.depthLimit) (htrue : (c.truth .sunken == .yes) = true) :
    s.filter (some (.comparison c)) = .error (.storage (.malformedRecord "a" .metadata)) := by
  have hflat : ∀ d ∈ [Document.sunken], (Json.object d.metadata).nesting ≤ Node.depthLimit := by
    rw [List.forall_mem_singleton, Document.nesting_sunken]
    decide
  have hkept : [Document.sunken].filter (fun d => c.truth d == .yes) = [.sunken] :=
    List.filter_eq_self.mpr (List.forall_mem_singleton.mpr htrue)
  rw [(h.selects hk).filter_eq hflat hvalue, hkept, List.mapM_cons, Document.reread_sunken]
  rfl

/-- The document is written, but neither the number nor the lists find it: it cannot be read. -/
theorem History.value_not_found :
    ∃ s, History [{}] [.sunken] s
      ∧ (Json.object Document.sunken.metadata).follow ["n"] = some (.integer 1)
      ∧ (Json.object Document.sunken.metadata).follow ["deep"] = some (.listsAround 126)
      ∧ s.filter (some (.comparison ⟨"meta.n", .equal, .integer 1⟩))
        = .error (.storage (.malformedRecord "a" .metadata))
      ∧ s.filter (some (.comparison ⟨"meta.n", .member, .array [.integer 1]⟩))
        = .error (.storage (.malformedRecord "a" .metadata))
      ∧ s.filter (some (.comparison ⟨"meta.deep", .equal, .listsAround 126⟩))
        = .error (.storage (.malformedRecord "a" .metadata)) := by
  have h₀ := @History.created {} {} _ rfl rfl
  have h := @History.written _ _ [.sunken] _ _ .fail _ h₀ rfl
  have hn : Field.ofText "meta.n" = .ok (.path ["n"]) := rfl
  have hdeep : Field.ofText "meta.deep" = .ok (.path ["deep"]) := rfl
  have hinteger : (Json.integer 1).IsProper := ⟨by norm_num, by norm_num⟩
  refine ⟨_, h, rfl, rfl, h.filter_sunken rfl (by decide) ?_, h.filter_sunken rfl (by decide) ?_,
    h.filter_sunken rfl ?_ ?_⟩
  · exact Comparison.truth_equal_of_follow rfl hn hinteger
  · exact Comparison.truth_member_of_follow rfl hn hinteger nofun (List.mem_singleton.mpr rfl)
  · rw [Json.nesting_listsAround]
    decide
  · exact Comparison.truth_equal_of_follow rfl hdeep (Json.isProper_listsAround 126)

end DocumentStore
