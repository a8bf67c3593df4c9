import DocumentStore.Proofs.Number.Order
import DocumentStore.Proofs.Sorting
import DocumentStore.Proofs.Store.Selection

/-! Ranking documents by a score. Main statement: the documents that meet a condition are sorted by
score and key, cut off and read. -/
namespace DocumentStore

namespace Row

@[simp] theorem text?_textCell (s : Option String) : text? (textCell s) = some s := by
  cases s <;> rfl

/-- Only the blob and the score of a row can be of a wrong kind. -/
theorem record?_eq (r : Row) :
    r.record? = do
      let blob ← blob? r.blob
      let score ← number? r.score
      return {
        id := r.id, content := r.content, dataframe := r.dataframe, blob := blob,
        metadata := r.metadata.getD "", score := score, embedding := r.embedding } := by
  simp [record?, recordAt, readCell, cells, Column.all, cell]
  simp [text?]

theorem recordAt_append (r : Row) (rest : List Cell) :
    recordAt 0 (r.cells ++ rest) = r.record? := rfl

theorem mapM_readCell {α β : Type} (read : Cell → Option α) (f : β → Cell) (g : β → α)
    (hread : ∀ b, read (f b) = some (g b)) (earlier : List Cell) (bs : List β) :
    (List.range bs.length).mapM
        (fun i => readCell read (earlier.length + i) (earlier ++ bs.map f))
      = some (bs.map g) := by
  induction bs generalizing earlier with
  | nil => rfl
  | cons b bs ih =>
    have hrest := ih (earlier ++ [f b])
    simp only [List.length_append, List.length_singleton, List.append_assoc, List.singleton_append,
      Nat.add_assoc, Nat.add_comm 1] at hrest
    rw [List.length_cons, List.range_succ_eq_map, List.mapM_cons, List.mapM_map, List.map_cons,
      Function.comp_def]
    simp only [Nat.succ_eq_add_one, hrest]
    simp [readCell, hread]

end Row

/-- A document under its key, with what it is ranked by. -/
structure Placed where
  key : ℤ
  document : Document
  score : Float
  excerpts : List (String × String) := []

namespace Placed

def row (p : Placed) : Row := Row.ofDocument p.key p.document

def ranked (p : Placed) : Database.Ranked := ⟨p.row, p.score, p.excerpts⟩

/-- By the value of the score, and by key where scores are equal. -/
def le (a b : Placed) : Bool := a.ranked.le b.ranked

def hit (p : Placed) : Except StoreError Hit :=
  p.document.reread.map fun d =>
    { document := { d with score := some p.score }
      excerpts := Json.fieldsOf (p.excerpts.map fun e => (e.1, .string e.2)) }

def place (p : Placed) : ℕ ×ₗ ℚ ×ₗ ℤ :=
  toLex ((Number.doubleDatum p.score).rank, toLex ((Number.doubleDatum p.score).value, p.key))

theorem le_iff : ComparesBy place le := by
  intro a b
  have hthen : le a b = (((Number.doubleDatum a.score).compare (Number.doubleDatum b.score)).then
      (Ord.compare a.key b.key)).isLE := by
    unfold le Database.Ranked.le
    cases hc : (Number.doubleDatum a.score).compare (Number.doubleDatum b.score) with
    | eq =>
      simp only [ranked, hc]
      exact Bool.eq_iff_iff.mpr (decide_eq_true_iff.trans Std.isLE_compare.symm)
    | lt => simp [ranked, hc]
    | gt => simp [ranked, hc]
  rw [hthen, Number.Datum.compare_eq, Ordering.then_assoc, compare_then_iff rfl rfl,
    compare_then_iff rfl rfl, place, place, Prod.Lex.toLex_le_toLex, Prod.Lex.toLex_le_toLex,
    Std.isLE_compare]

theorem eq_of_place {ps : List Placed} (hkeys : (ps.map key).Nodup) :
    ∀ a ∈ ps, ∀ b ∈ ps, a.place = b.place → a = b := by
  intro a ha b hb h
  have hkey : a.key = b.key := congrArg (fun t => (ofLex (ofLex t).2).2) h
  exact List.inj_on_of_nodup_map hkeys ha hb hkey

/-- The first ones of a list, of which no statement asks for more than its limit can say. -/
def upTo {α : Type} (topK : Option ℕ) (l : List α) : List α :=
  match topK with
  | some k => l.take (min k Statement.largestLimit)
  | none => l

def best (topK : Option ℕ) (ps : List Placed) : List Placed := upTo topK (ps.mergeSort le)

end Placed

namespace Database

open Placed

variable {join : Join} {condition : Option Condition} {keep : Placed → Bool} {reason : Prop}
  {ps : List Placed}

theorem keepMeeting_ranked
    (h : ∀ p ∈ ps, Settles reason (p.row.meets join condition) (keep p)) :
    keepMeeting join condition (ps.map ranked) = .ok ((ps.filter keep).map ranked)
      ∨ keepMeeting join condition (ps.map ranked) = .error .engine ∧ reason := by
  induction ps with
  | nil => exact .inl rfl
  | cons p ps ih =>
    have hrest := ih fun q hq => h q (by simp [hq])
    have hrow : p.ranked.row.meets join condition = p.row.meets join condition := rfl
    rw [List.map_cons, keepMeeting, hrow]
    rcases h p (by simp) with hmeets | ⟨hmeets, hreason⟩
    · rw [hmeets]
      rcases hrest with hrest | ⟨hrest, hreason⟩
      · left
        cases hp : keep p <;> simp [hp, hrest]
      · right
        refine ⟨?_, hreason⟩
        simp only [hrest]
        rfl
    · exact .inr ⟨by rw [hmeets], hreason⟩

theorem best_ranked (topK : Option ℕ) (ps : List Placed) :
    Database.best topK (ps.map ranked) = (Placed.best topK ps).map ranked := by
  have hsort : (ps.map ranked).mergeSort Ranked.le = (ps.mergeSort Placed.le).map ranked :=
    (List.map_mergeSort (f := ranked) (r := Placed.le) (s := Ranked.le) fun _ _ _ _ => rfl).symm
  unfold Database.best Placed.best upTo
  rw [hsort]
  cases topK <;> simp [List.map_take]

/-- The row of a document always has a record. A score that is no number is lost. -/
theorem record?_ofDocument (key : ℤ) (d : Document) :
    (Row.ofDocument key d).record?
      = some { Record.ofDocument d with score := d.score.filter (!·.isNaN) } := by
  have hblob : Row.blob? ((d.blob.map Cell.blob).getD .null) = some d.blob := by
    cases d.blob <;> rfl
  have hscore : Row.number? ((d.score.map Row.numberCell).getD .null)
      = some (d.score.filter (!·.isNaN)) := by
    cases d.score with
    | none => rfl
    | some x =>
      rw [Option.map_some, Option.getD_some, Row.numberCell, Option.filter]
      by_cases hx : x.isNaN = true
      · rw [if_pos hx, hx]
        rfl
      · rw [if_neg hx, Bool.eq_false_iff.mpr hx]
        rfl
  rw [Row.record?_eq]
  simp only [Row.ofDocument, Row.ofRecord, Record.ofDocument, hblob, hscore]
  rfl

theorem reread_eq (d : Document) :
    d.reread
      = Record.toDocument { Record.ofDocument d with score := d.score.filter (!·.isNaN) } := by
  rw [Document.reread, Row.document, record?_ofDocument]

/-- The record of a row, its ranking score and its excerpts are read each from its own cells. -/
theorem Ranked.selected_eq (a : Ranked) :
    a.selected = match a.row.record? with
      | some record => .ok ⟨record, a.score, a.excerpts.map fun e => (e.1, some e.2)⟩
      | none => .error .engine := by
  have hrecord : Row.recordAt 0 a.cells = a.row.record? := a.row.recordAt_append _
  have hscore : (Row.readCell Row.number? Column.all.length a.cells).join = some a.score := rfl
  have htexts : (List.range (a.excerpts.map Prod.fst).length).mapM
        (fun i => Row.readCell Row.text? (Column.all.length + 1 + i) a.cells)
      = some (a.excerpts.map fun e => some e.2) := by
    have hmap := Row.mapM_readCell Row.text? (fun e : String × String => .text e.2)
      (fun e => some e.2) (fun _ => rfl) (a.row.cells ++ [.real a.score]) a.excerpts
    rw [List.length_map]
    simpa [cells, Row.cells] using hmap
  rw [selected, Selected.ofCells?, hrecord]
  simp only [hscore, htexts]
  cases a.row.record? with
  | none => rfl
  | some record => simp [List.zip_map']

theorem mapM_selected (ps : List Placed) :
    ∃ rs, (ps.map ranked).mapM Ranked.selected = .ok rs
      ∧ rs.mapM Selected.hit = ps.mapM Placed.hit := by
  induction ps with
  | nil => exact ⟨[], rfl, rfl⟩
  | cons p ps ih =>
    obtain ⟨rs, hrs, hhits⟩ := ih
    obtain ⟨record, hrecord⟩ : ∃ record, p.ranked.row.record? = some record :=
      ⟨_, record?_ofDocument _ _⟩
    obtain ⟨r, hr, hhit⟩ : ∃ r, p.ranked.selected = .ok r ∧ r.hit = p.hit := by
      refine ⟨_, by rw [Ranked.selected_eq, hrecord], ?_⟩
      obtain rfl := Option.some.inj ((record?_ofDocument _ _).symm.trans hrecord)
      rw [Selected.hit, ← reread_eq, hit, List.filterMap_map]
      cases p.document.reread with
      | error e => rfl
      | ok d => simp [ranked, bind, Except.bind, pure, Except.pure, Except.map]
    refine ⟨r :: rs, ?_, ?_⟩
    · rw [List.map_cons, List.mapM_cons, hr, hrs]
      rfl
    · rw [List.mapM_cons, List.mapM_cons, hhits, hhit]

/-- The documents that meet a condition are sorted, cut off and read. Only a row of which it is not
known whether it meets the condition can break this off. -/
theorem rank_ranked (h : ∀ p ∈ ps, Settles reason (p.row.meets join condition) (keep p))
    (topK : Option ℕ) :
    rank join condition topK (ps.map ranked) = (Placed.best topK (ps.filter keep)).mapM Placed.hit
      ∨ rank join condition topK (ps.map ranked) = .error .engine ∧ reason := by
  rcases keepMeeting_ranked h with hkeep | ⟨hkeep, hreason⟩
  · left
    obtain ⟨rs, hselected, hhits⟩ := mapM_selected (Placed.best topK (ps.filter keep))
    rw [rank, hkeep]
    simp only [bind, Except.bind, best_ranked, hselected, ← hhits]
  · right
    refine ⟨?_, hreason⟩
    rw [rank, hkeep]
    rfl

theorem rank_none (join : Join) (ps : List Placed) :
    rank join none none (ps.map ranked) = (ps.mergeSort Placed.le).mapM Placed.hit := by
  have hnone : ∀ p ∈ ps, Settles False (p.row.meets join none) true := fun _ _ => .inl rfl
  rcases rank_ranked hnone none with hrank | ⟨-, hfalse⟩
  · rw [hrank, List.filter_true]
    rfl
  · exact hfalse.elim

/-- A row is found by the key of its document. -/
theorem Holds.findKey?_eq {db : Database} {ds : Numbered} (h : db.Holds ds) {e : ℤ × Document}
    (he : e ∈ ds) : db.findKey? e.1 = some (Row.ofDocument e.1 e.2) := by
  have hfind : (ds.find? fun f => f.1 == e.1) = some e := by
    cases hf : ds.find? fun f => f.1 == e.1 with
    | none =>
      have hne := List.find?_eq_none.mp hf e he
      simp at hne
    | some f =>
      have hkey : f.1 = e.1 := by simpa using List.find?_some hf
      rw [h.eq_of_key (List.mem_of_find?_eq_some hf) he hkey]
  have hrows : ((fun r : Row => r.key == e.1) ∘ fun e : ℤ × Document => Row.ofDocument e.1 e.2)
      = fun f : ℤ × Document => f.1 == e.1 := rfl
  rw [findKey?, h.rows, rowsOf, List.find?_map, hrows, hfind, Option.map_some]

end Database

end DocumentStore
