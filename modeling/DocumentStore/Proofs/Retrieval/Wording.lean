import DocumentStore.Proofs.Filter.Printed
import DocumentStore.Retrieval.Statement

/-! The wording of conditions and statements. Main statement: the text of a condition depends on the
form of its filter alone, and the text of a statement on that of its condition and on which parts
its request has. No value, query, marker, budget, window or limit can change a text. -/
namespace DocumentStore

/-- Whether two comparisons differ in nothing but their values, and both or neither ask for null. -/
structure Comparison.SameForm (a b : Comparison) : Prop where
  field : a.field = b.field
  operator : a.operator = b.operator
  null : a.isNullEquality = b.isNullEquality

namespace Filter

mutual

/-- Whether two filters are the same tree of comparisons that have the same form. -/
inductive SameForm : Filter → Filter → Prop where
  | comparison {a b : Comparison} (h : a.SameForm b) : SameForm (.comparison a) (.comparison b)
  | logical (operator : LogicalOperator) {f g : Filter} {fs gs : List Filter}
      (first : SameForm f g) (rest : SameForms fs gs) :
      SameForm (.logical operator f fs) (.logical operator g gs)

inductive SameForms : List Filter → List Filter → Prop where
  | nil : SameForms [] []
  | cons {f g : Filter} {fs gs : List Filter} (first : SameForm f g) (rest : SameForms fs gs) :
      SameForms (f :: fs) (g :: gs)

end

theorem text_compileTest {a b : Comparison} (h : a.SameForm b) {t u : Test}
    (ha : compileTest a = .ok t) (hb : compileTest b = .ok u) (x : String) : t.text x = u.text x := by
  have hnull := h.null
  unfold compileTest at ha hb
  rw [← h.operator] at hb
  simp only [Comparison.isNullEquality, ← h.operator] at hnull
  cases ho : a.operator with
  | equal =>
    simp only [ho, Except.ok.injEq] at ha hb
    subst ha hb
    by_cases hva : a.value = .null <;> by_cases hvb : b.value = .null <;>
      simp_all [Test.text]
  | notEqual =>
    simp only [ho, Except.ok.injEq] at ha hb
    subst ha hb
    rfl
  | greater | greaterOrEqual | less | lessOrEqual | member | notMember =>
    simp only [ho] at ha hb
    obtain ⟨-, -, rfl⟩ := map_eq_ok ha
    obtain ⟨-, -, rfl⟩ := map_eq_ok hb
    rfl

theorem text_connect {c d : Condition} {cs ds : List Condition} (hfirst : c.text = d.text)
    (hrest : ∀ connective, Condition.textRest connective cs = Condition.textRest connective ds)
    (operator : LogicalOperator) : (connect operator c cs).text = (connect operator d ds).text := by
  cases operator <;> simp only [connect, Condition.text, hfirst, hrest]

mutual

theorem SameForm.text_eq {f g : Filter} {c d : Condition} (h : SameForm f g)
    (hf : f.compile = .ok c) (hg : g.compile = .ok d) : c.text = d.text := by
  match h with
  | .comparison h =>
    obtain ⟨field, t, hfield, ht, rfl⟩ := compile_comparison_eq_ok hf
    obtain ⟨field', u, hfield', hu, rfl⟩ := compile_comparison_eq_ok hg
    obtain rfl : field = field' := Except.ok.inj (hfield.symm.trans (h.field ▸ hfield'))
    exact text_compileTest h ht hu field.text
  | .logical operator first rest =>
    obtain ⟨c, cs, hc, hcs, rfl⟩ := compile_logical_eq_ok hf
    obtain ⟨d, ds, hd, hds, rfl⟩ := compile_logical_eq_ok hg
    exact text_connect (first.text_eq hc hd) (rest.textRest_eq hcs hds) operator

theorem SameForms.textRest_eq {fs gs : List Filter} {cs ds : List Condition} (h : SameForms fs gs)
    (hf : compileItems fs = .ok cs) (hg : compileItems gs = .ok ds) (connective : String) :
    Condition.textRest connective cs = Condition.textRest connective ds := by
  match h with
  | .nil =>
    cases hf
    cases hg
    rfl
  | .cons first rest =>
    obtain ⟨c, cs, hc, hcs, rfl⟩ := compileItems_cons_eq_ok hf
    obtain ⟨d, ds, hd, hds, rfl⟩ := compileItems_cons_eq_ok hg
    rw [Condition.textRest, Condition.textRest, first.text_eq hc hd,
      rest.textRest_eq hcs hds connective]

end

end Filter

/-- Whether two requests for a text have the same parts beside their query and their filter. -/
structure LexicalRequest.SameParts (q r : LexicalRequest) : Prop where
  snippet : q.snippet.isSome = r.snippet.isSome
  highlight : q.highlight.isSome = r.highlight.isSome
  topK : q.topK.isSome = r.topK.isSome

namespace Statement

variable {c d : Option Condition}

/-- A statement is worded after its condition, its candidates and whether it has a limit. -/
theorem text_ranked (hcondition : c.map Condition.text = d.map Condition.text) {s t : Statement}
    (htext : s.text = t.text) (hexcerpts : s.excerpts = t.excerpts) {k l : Option ℕ}
    (hlimit : k.isSome = l.isSome) : (ranked c s k).text = (ranked d t l).text := by
  unfold ranked
  dsimp only
  rw [htext, hexcerpts, hlimit]
  cases c with
  | none =>
    cases d with
    | none => rfl
    | some d => cases hcondition
  | some c =>
    cases d with
    | none => cases hcondition
    | some d =>
      have hwhere : c.text = d.text := Option.some.inj hcondition
      dsimp only
      rw [hwhere]

theorem text_lexicalCandidates {q r : LexicalRequest} (h : q.SameParts r) (x y : String) :
    (lexicalCandidates q x).text = (lexicalCandidates r y).text := by
  unfold lexicalCandidates
  dsimp only
  rw [h.snippet, h.highlight]

theorem excerpts_lexicalCandidates {q r : LexicalRequest} (h : q.SameParts r) (x y : String) :
    (lexicalCandidates q x).excerpts = (lexicalCandidates r y).excerpts := by
  unfold lexicalCandidates
  dsimp only
  rw [h.snippet, h.highlight]

/-- Filters of the same form have conditions of the same text. Where two requests have conditions of
the same text, or none, and the same parts, their statements have the same text, whatever is looked
for in them and whatever their values are. -/
theorem text_independent :
    (∀ f g c d, Filter.SameForm f g → f.compile = .ok c → g.compile = .ok d → c.text = d.text)
      ∧ (∀ (q r : LexicalRequest) c d, compileOptional q.filter = .ok c →
          compileOptional r.filter = .ok d → c.map Condition.text = d.map Condition.text →
          q.SameParts r → ∀ x y, (ranked c (lexicalCandidates q x) q.topK).text
            = (ranked d (lexicalCandidates r y) r.topK).text)
      ∧ ∀ (q r : VectorRequest) c d, compileOptional q.filter = .ok c →
          compileOptional r.filter = .ok d → c.map Condition.text = d.map Condition.text →
          q.topK.isSome = r.topK.isSome → ∀ v w, (ranked c (vectorCandidates v) q.topK).text
            = (ranked d (vectorCandidates w) r.topK).text := by
  refine ⟨?_, ?_, ?_⟩
  · intro f g c d h hf hg
    exact h.text_eq hf hg
  · intro q r c d _ _ hcondition hparts x y
    exact text_ranked hcondition (text_lexicalCandidates hparts x y)
      (excerpts_lexicalCandidates hparts x y) hparts.topK
  · intro q r c d _ _ hcondition hlimit v w
    exact text_ranked hcondition rfl rfl hlimit

end Statement

/-- The filter with the same form as `mixed` whose values try to break out of the text. -/
def Filter.hostile : Filter :=
  .logical .or
    (.logical .not (.comparison ⟨"id", .equal, .null⟩)
      [.comparison ⟨"score", .greater, .bool true⟩])
    [.logical .and (.comparison ⟨"meta.page count", .notMember, .array [.string "?')) OR 1 --"]⟩) []]

theorem Filter.sameForm_hostile : SameForm mixed hostile :=
  .logical .or
    (.logical .not (.comparison ⟨rfl, rfl, rfl⟩) (.cons (.comparison ⟨rfl, rfl, rfl⟩) .nil))
    (.cons (.logical .and (.comparison ⟨rfl, rfl, rfl⟩) .nil) .nil)

def LexicalRequest.mixed : LexicalRequest where
  query := "dog"
  filter := some .mixed
  topK := some 1
  snippet := some {}
  query_nonblank := by decide

def LexicalRequest.hostile : LexicalRequest where
  query := "') --"
  filter := some .hostile
  topK := some 7
  snippet := some { openMarker := "?", ellipsis := "')" }
  query_nonblank := by decide

def VectorRequest.mixed : VectorRequest where
  vector := [1, 2]
  filter := some .mixed
  topK := some 1
  candidates := 3
  vector_nonempty := by simp
  vector_finite := by decide +kernel

def VectorRequest.hostile : VectorRequest :=
  { VectorRequest.mixed with filter := some .hostile, topK := some 7, topK_pos := by simp }

/-- Values that look like a part of the text stay out of it. -/
theorem Statement.text_independent_hostile :
    ∃ c d, Filter.mixed.compile = .ok c ∧ Filter.hostile.compile = .ok d
      ∧ c.parameters ≠ d.parameters ∧ c.text = d.text
      ∧ (ranked (some c) (lexicalCandidates .mixed "dog") (some 1)).text
        = (ranked (some d) (lexicalCandidates .hostile "') --") (some 7)).text
      ∧ (ranked (some c) (vectorCandidates []) (some 1)).text
        = (ranked (some d) (vectorCandidates [(1, 0.5)]) (some 7)).text := by
  obtain ⟨hform, hlexical, hvector⟩ := text_independent
  have hc : Filter.mixed.compile = .ok _ := rfl
  have hd : Filter.hostile.compile = .ok _ := rfl
  have htext := hform _ _ _ _ Filter.sameForm_hostile hc hd
  have hcondition := congrArg some htext
  refine ⟨_, _, hc, hd, by decide, htext, ?_, ?_⟩
  · exact hlexical .mixed .hostile (some _) (some _) rfl rfl hcondition ⟨rfl, rfl, rfl⟩ _ _
  · exact hvector .mixed .hostile (some _) (some _) rfl rfl hcondition rfl _ _

end DocumentStore
