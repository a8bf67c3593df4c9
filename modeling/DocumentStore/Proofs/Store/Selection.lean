import DocumentStore.Proofs.Filter.Fixed
import DocumentStore.Proofs.Store.Reading

/-! Selecting documents by a filter. Main statement: at every point of a history the documents that
come back are those in which the filter is true, in their order. -/
namespace DocumentStore

open OrderedMap

/-- Why a statement with the condition of a filter may fail: it is too large, it looks into metadata
that it fixes to a text that is not read, or it goes too deep in one of the documents. Beside its
condition the statement has so many parameters. -/
def Filter.Strains (join : Join) (others : ℕ) (docs : List Document) (f : Filter) : Prop :=
  ∃ c, f.compile = .ok c
    ∧ (c.fits join others = false ∨ ¬c.IsClear ∨ ∃ d ∈ docs, f.IsTooDeep d)

namespace Condition

theorem isClear_test (field : Field) (t : Test) : (test field t).IsClear := by
  intro s keys t' hfixed hpath
  obtain ⟨u, hu, hfixes⟩ := exists_decider (fun _ => none) hfixed
  obtain rfl : u = test field t := List.mem_singleton.mp (mem_askedFrom hu).1
  obtain ⟨w, hw, -⟩ := fixes?_eq_some hfixes
  cases hw
  cases List.mem_singleton.mp hpath

theorem fits_test (join : Join) {others : ℕ} (h : others < mostParameters) (field : Field)
    (t : Test) : (test field t).fits join others = true := by
  have hheight : (test field t).height + (test field t).heightAround join ≤ 7 := by
    have hfield : field.height ≤ 2 := by cases field <;> simp [Field.height]
    have htest : t.height field.height ≤ field.height + 3 := by cases t <;> simp [Test.height]
    have haround : (test field t).heightAround join ≤ 2 := by
      unfold heightAround
      cases join with
      | alone =>
        dsimp only
        split <;> decide
      | found => exact le_rfl
      | window => exact Nat.le_succ 1
    rw [height]
    omega
  have hparameters : (test field t).parameters.length ≤ 1 := by
    rw [parameters]
    cases t <;> simp [Test.parameters]
  rw [fits, Bool.and_eq_true, decide_eq_true_iff, decide_eq_true_iff]
  exact ⟨hheight.trans (by decide), by omega⟩

end Condition

theorem Filter.Strains.too_deep {l : Comparison} {join : Join} {others : ℕ} {docs : List Document}
    (h : (Filter.comparison l).Strains join others docs) (hothers : others < mostParameters) :
    ∃ d ∈ docs, (Filter.comparison l).IsTooDeep d := by
  obtain ⟨c, hc, hreason⟩ := h
  obtain ⟨field, t, -, -, rfl⟩ := compile_comparison_eq_ok hc
  rcases hreason with hlarge | hclear | hdeep
  · rw [Condition.fits_test join hothers] at hlarge
    cases hlarge
  · exact absurd (Condition.isClear_test field t) hclear
  · exact hdeep

theorem Filter.not_strains_comparison {l : Comparison} {join : Join} {others : ℕ}
    {docs : List Document} (hothers : others < mostParameters)
    (hdocs : ∀ d ∈ docs, (Json.object d.metadata).nesting ≤ Node.depthLimit)
    (hvalue : l.value.nesting ≤ Node.depthLimit) :
    ¬(Filter.comparison l).Strains join others docs := by
  intro hstrains
  obtain ⟨d, hd, l', hl, ⟨-, hdeep⟩ | ⟨-, hdeep⟩⟩ := hstrains.too_deep hothers
  · exact absurd hdeep (Nat.not_lt_of_le (hdocs d hd))
  · obtain rfl := List.mem_singleton.mp hl
    exact absurd hdeep (Nat.not_lt_of_le hvalue)

section

variable {ds : Numbered} {f : Filter} {c : Condition} (hf : f.compile = .ok c) (join : Join)
  (others : ℕ)

include hf

/-- A row meets the condition of a filter just if the filter is true in its document. -/
theorem Filter.settles_meets {e : ℤ × Document} (he : e ∈ ds) :
    Settles (f.Strains join others ds.documents) ((Row.ofDocument e.1 e.2).meets join (some c))
      (f.truth e.2 == .yes) := by
  refine (settles_holds hf e.1 e.2 join).imp ?_
  rintro (hclear | hdeep)
  · exact ⟨c, hf, .inr (.inl hclear)⟩
  · exact ⟨c, hf, .inr (.inr ⟨e.2, List.mem_map_of_mem he, hdeep⟩)⟩

variable {db : Database} (h : db.Holds ds)

include h

theorem Database.Holds.settles_anyMeets :
    Settles (f.Strains join others ds.documents) (db.anyMeets join c)
      (ds.documents.any fun d => f.truth d == .yes) := by
  have hrows : Settles (f.Strains join others ds.documents)
      (ds.mapM fun e => c.holds join (Row.ofDocument e.1 e.2).cell)
      (ds.map fun e => f.truth e.2 == .yes) :=
    .mapM fun e he => Filter.settles_meets hf join others he
  rw [Database.anyMeets, h.rows, rowsOf, List.mapM_map, Numbered.documents, List.any_map]
  have hany := hrows.map fun answers => answers.any id
  rw [List.any_map] at hany
  exact hany

/-- A statement begins, or finds that its filter is true in no document, or fails. -/
theorem Database.Holds.begins_some :
    db.begins join others (some c) = some true
      ∨ db.begins join others (some c) = some false ∧ (∀ d ∈ ds.documents, f.truth d ≠ .yes)
      ∨ db.begins join others (some c) = none ∧ f.Strains join others ds.documents := by
  rw [Database.begins]
  by_cases hfits : c.fits join others = true
  · rw [hfits]
    cases hahead : c.isTrueAhead with
    | none =>
      have hclear := Condition.not_isClear_of_isTrueAhead hahead
      exact .inr (.inr ⟨rfl, c, hf, .inr (.inl hclear)⟩)
    | some b =>
      cases b with
      | false =>
        exact .inr (.inl ⟨rfl, fun d _ => Filter.truth_ne_yes_of_isTrueAhead hf d hahead⟩)
      | true =>
        show (if _ then db.anyMeets join c else some true) = some true ∨ _
        split
        · rcases h.settles_anyMeets hf join others with hmeets | ⟨hmeets, hstrains⟩
          · cases hany : ds.documents.any fun d => f.truth d == .yes with
            | true => exact .inl (by rw [hmeets, hany])
            | false =>
              refine .inr (.inl ⟨by rw [hmeets, hany]; rfl, ?_⟩)
              intro d hd
              simpa using List.any_eq_false.mp hany d hd
          · exact .inr (.inr ⟨by rw [hmeets]; rfl, hstrains⟩)
        · exact .inl rfl
  · have hlarge : c.fits join others = false := Bool.eq_false_iff.mpr hfits
    rw [hlarge]
    exact .inr (.inr ⟨rfl, c, hf, .inl hlarge⟩)

theorem Database.Holds.filter_some :
    db.filter (some c) = (ds.documents.filter fun d => f.truth d == .yes).mapM Document.reread
      ∨ db.filter (some c) = .error .engine ∧ f.Strains .alone 0 ds.documents := by
  rw [Database.filter]
  rcases h.begins_some hf .alone 0 with hbegins | ⟨hbegins, hnone⟩ | ⟨hbegins, hstrains⟩
  · rw [hbegins, h.rows]
    exact documentsOf_rowsOf fun e he => Filter.settles_meets hf .alone 0 he
  · have hempty : (ds.documents.filter fun d => f.truth d == .yes) = [] :=
      List.filter_eq_nil_iff.mpr fun d hd => by simpa using hnone d hd
    rw [hbegins, hempty]
    exact .inl rfl
  · rw [hbegins]
    exact .inr ⟨rfl, hstrains⟩

end

/-- Whether a filter is true in a document; without a filter every document is admitted. -/
def Filter.admits (f : Option Filter) (d : Document) : Bool :=
  match f with
  | some f => f.truth d == .yes
  | none => true

section

variable {ds : Numbered} {f : Option Filter} {condition : Option Condition}
  (hf : compileOptional f = .ok condition) (join : Join) (others : ℕ)

include hf

/-- A row meets a compiled filter just if the filter admits its document. -/
theorem settles_meets {e : ℤ × Document} (he : e ∈ ds) :
    Settles (∃ g ∈ f, g.Strains join others ds.documents)
      ((Row.ofDocument e.1 e.2).meets join condition) (Filter.admits f e.2) := by
  cases f with
  | none =>
    cases hf
    exact .inl rfl
  | some g =>
    obtain ⟨c, hc, rfl⟩ := map_eq_ok hf
    exact (Filter.settles_meets (lift_eq_ok hc) join others he).imp fun hstrains =>
      ⟨g, rfl, hstrains⟩

theorem Database.Holds.begins_cases {db : Database} (h : db.Holds ds) :
    db.begins join others condition = some true
      ∨ db.begins join others condition = some false
        ∧ (∀ d ∈ ds.documents, Filter.admits f d = false)
      ∨ db.begins join others condition = none ∧ ∃ g ∈ f, g.Strains join others ds.documents := by
  cases f with
  | none =>
    cases hf
    exact .inl rfl
  | some g =>
    obtain ⟨c, hc, rfl⟩ := map_eq_ok hf
    rcases h.begins_some (lift_eq_ok hc) join others with hbegins | ⟨hbegins, hno⟩ | ⟨hbegins, hwhy⟩
    · exact .inl hbegins
    · exact .inr (.inl ⟨hbegins, fun d hd => beq_eq_false_iff_ne.mpr (hno d hd)⟩)
    · exact .inr (.inr ⟨hbegins, g, rfl, hwhy⟩)

end

theorem Store.filter_some {s : Store} (hlock : s.isPoisoned = false) {f : Filter} {c : Condition}
    (hf : f.compile = .ok c) : s.filter (some f) = s.database.filter (some c) := by
  rw [Store.filter, Store.locked_of_not_poisoned hlock, compileOptional, hf]
  rfl

/-- At every point of a history a filter selects, in the order of the ordered map, just the
documents in which it is true, or else the engine fails, and there is a reason. A statement that is
too large always fails. -/
theorem History.filter_selects {cs : List Config} {docs : List Document} {s : Store}
    (h : History cs docs s) {f : Filter} {c : Condition} (hf : f.compile = .ok c) :
    s.filter none = docs.mapM Document.reread ∧ (idsOf docs).Nodup
      ∧ (s.filter (some f) = (docs.filter fun d => f.truth d == .yes).mapM Document.reread
        ∨ s.filter (some f) = .error .engine ∧ f.Strains .alone 0 docs)
      ∧ (c.fits .alone 0 = false → s.filter (some f) = .error .engine) := by
  have hk := h.keeps
  obtain ⟨ds, hds, rfl⟩ := hk.holds
  refine ⟨?_, ?_, ?_, ?_⟩
  · rw [← hds.filter_none, Store.filter, Store.locked_of_not_poisoned hk.lock]
    rfl
  · rw [Numbered.idsOf_documents]
    exact hds.ids
  · rw [Store.filter_some hk.lock hf]
    exact hds.filter_some hf
  · intro hlarge
    rw [Store.filter_some hk.lock hf, Database.filter, Database.begins, hlarge]
    rfl

/-- Whether a number that is not there differs from one is unknown, which a negation leaves as it
is: of three documents only the last one is selected. -/
theorem History.filter_selects_negation :
    ∃ s docs f c, History [{}] docs s ∧ Filter.compile f = .ok c
      ∧ docs = [{ id := "a", metadata := [("n", .integer 1)] }, { id := "b" },
        { id := "c", metadata := [("n", .integer 2)] }]
      ∧ f = .logical .not (.comparison ⟨"meta.n", .equal, .integer 1⟩) []
      ∧ s.filter (some f) = .ok [{ id := "c", metadata := [("n", .integer 2)] }] := by
  have h₀ := @History.created {} {} _ rfl rfl
  have h := @History.written _ _ [{ id := "a", metadata := [("n", .integer 1)] }, { id := "b" },
    { id := "c", metadata := [("n", .integer 2)] }] _ _ .fail _ h₀ rfl
  have hf : Filter.compile (.logical .not (.comparison ⟨"meta.n", .equal, .integer 1⟩) [])
      = .ok (.notAll (.test (.path ["n"]) (.compare .equal (.integer 1))) []) := rfl
  obtain ⟨-, -, hselect | ⟨-, c, hc, hlarge | hclear | ⟨d, hd, l, hl, hdeep⟩⟩, -⟩ :=
    h.filter_selects hf
  · exact ⟨_, _, _, _, h, hf, rfl, rfl, hselect⟩
  · cases hc
    exact absurd hlarge (by decide)
  · cases hc
    exact absurd (fun _ _ _ hfixed => nomatch hfixed) hclear
  · obtain rfl : l = ⟨"meta.n", .equal, .integer 1⟩ := List.mem_singleton.mp hl
    rcases hdeep with ⟨-, hmeta⟩ | ⟨hmember | hmember, -⟩
    · have hflat : ∀ d ∈ ([{ id := "a", metadata := [("n", .integer 1)] }, { id := "b" },
          { id := "c", metadata := [("n", .integer 2)] }] : List Document),
          (Json.object d.metadata).nesting ≤ Node.depthLimit := by decide
      exact absurd (hflat d hd) (Nat.not_le_of_lt hmeta)
    · cases hmember
    · cases hmember

/-- Asks for a metadata text and for a number in the metadata. The text is no JSON. -/
def Filter.unclear : Filter :=
  .logical .and (.comparison ⟨"meta", .equal, .string "x"⟩)
    [.comparison ⟨"meta.n", .equal, .integer 1⟩]

/-- The filter is true in no document, for there is none, but it is not answered. -/
theorem History.unclear_filter_fails :
    ∃ s c, History [{}] [] s ∧ Filter.unclear.compile = .ok c
      ∧ s.filter none = .ok [] ∧ s.filter (some .unclear) = .error .engine := by
  have h := @History.created {} {} _ rfl rfl
  exact ⟨_, _, h, rfl, rfl, by decide +kernel⟩

end DocumentStore
