import DocumentStore.Proofs.Retrieval.Wording

/-! The values of a ranked query in the places where they are bound. Main statement: every question
mark of its text has a parameter of its own; put in their places these are the values of the filter,
then those of the excerpts and the query, or the window, and last the limit; and no excerpt has a
budget and no query has a limit that is out of range. -/
namespace DocumentStore

/-- A character of a statement, or a value in the place of a question mark. -/
inductive Piece where
  | char (c : Char)
  | value (v : Cell)
deriving DecidableEq

/-- Puts values in the place of the question marks of a text, from left to right. There must be a
place for each value and a value for each place. -/
def fill : List Char → List Cell → Option (List Piece)
  | [], vs => if vs.isEmpty then some [] else none
  | c :: cs, vs =>
    if c = '?' then
      match vs with
      | [] => none
      | v :: vs => (fill cs vs).map (.value v :: ·)
    else (fill cs vs).map (.char c :: ·)

@[simp] theorem fill_mark_nil (cs : List Char) : fill ('?' :: cs) [] = none := by simp [fill]

@[simp] theorem fill_mark (cs : List Char) (v : Cell) (vs : List Cell) :
    fill ('?' :: cs) (v :: vs) = (fill cs vs).map (.value v :: ·) := by simp [fill]

theorem fill_char {c : Char} (hc : c ≠ '?') (cs : List Char) (vs : List Cell) :
    fill (c :: cs) vs = (fill cs vs).map (.char c :: ·) := by
  rw [fill.eq_def]
  simp [hc]

namespace Piece

def written : Piece → Char
  | .char c => c
  | .value _ => '?'

def value? : Piece → Option Cell
  | .char _ => none
  | .value v => some v

@[simp] theorem written_char (c : Char) : written (.char c) = c := rfl
@[simp] theorem written_value (v : Cell) : written (.value v) = '?' := rfl
@[simp] theorem value?_char (c : Char) : value? (.char c) = none := rfl
@[simp] theorem value?_value (v : Cell) : value? (.value v) = some v := rfl

def words (s : String) : List Piece := s.toList.map .char

def listed (columns : List (List Piece)) : List Piece := (words ", ").intercalate columns

theorem words_append (s t : String) : words (s ++ t) = words s ++ words t := by
  simp [words]

theorem listed_cons_cons (x y : List Piece) (ys : List (List Piece)) :
    listed (x :: y :: ys) = x ++ words ", " ++ listed (y :: ys) := by
  rw [listed, List.intercalate_cons_cons, ← listed]

theorem listed_cons (x : List Piece) (xs : List (List Piece)) :
    listed (x :: xs) = x ++ xs.flatMap (words ", " ++ ·) := by
  induction xs generalizing x with
  | nil => simp [listed]
  | cons y ys ih => simp [listed_cons_cons, ih y]

theorem listed_append {xs ys : List (List Piece)} (hxs : xs ≠ []) (hys : ys ≠ []) :
    listed (xs ++ ys) = listed xs ++ words ", " ++ listed ys := by
  obtain ⟨y, ys, rfl⟩ := List.exists_cons_of_ne_nil hys
  obtain ⟨x, xs, rfl⟩ := List.exists_cons_of_ne_nil hxs
  simp [listed_cons, List.flatMap_append]

theorem words_commaList (names : List String) :
    words (Statement.commaList names) = listed (names.map words) := by
  cases names with
  | nil => rfl
  | cons x xs =>
    induction xs generalizing x with
    | nil => simp [Statement.commaList, listed]
    | cons y ys ih =>
      have hrest := ih y
      rw [Statement.commaList] at hrest ⊢
      rw [String.intercalate_cons_cons, words_append, words_append, hrest]
      exact (listed_cons_cons _ _ _).symm

theorem words_join (names : List String) : words (String.join names) = names.flatMap words := by
  induction names with
  | nil => rfl
  | cons x xs ih => rw [String.join_cons, words_append, ih, List.flatMap_cons]

end Piece

open Piece (words)

/-- A text is filled with values by pieces that are written as the text and have these values, and
among which no question mark is left. -/
structure Filled (s : String) (vs : List Cell) (ps : List Piece) : Prop where
  written : ps.map Piece.written = s.toList
  values : ps.filterMap Piece.value? = vs
  clean : .char '?' ∉ ps

theorem fill_written {ps : List Piece} (hclean : .char '?' ∉ ps) :
    fill (ps.map Piece.written) (ps.filterMap Piece.value?) = some ps := by
  induction ps with
  | nil => rfl
  | cons p ps ih =>
    have hps := ih fun h => hclean (List.mem_cons_of_mem _ h)
    cases p with
    | char c =>
      have hc : c ≠ '?' := by
        rintro rfl
        simp at hclean
      rw [List.map_cons, List.filterMap_cons_none rfl, Piece.written_char, fill_char hc, hps]
      rfl
    | value v => simp [hps]

theorem written_fill {cs : List Char} {vs : List Cell} {ps : List Piece}
    (h : fill cs vs = some ps) :
    ps.map Piece.written = cs ∧ ps.filterMap Piece.value? = vs ∧ .char '?' ∉ ps := by
  induction cs generalizing vs ps with
  | nil =>
    cases vs with
    | nil =>
      cases h
      simp
    | cons v vs => simp [fill] at h
  | cons c cs ih =>
    by_cases hc : c = '?'
    · subst hc
      cases vs with
      | nil => simp at h
      | cons v vs =>
        rw [fill_mark] at h
        obtain ⟨qs, hqs, rfl⟩ := Option.map_eq_some_iff.mp h
        obtain ⟨hwritten, hvalues, hclean⟩ := ih hqs
        exact ⟨by simp [hwritten], by simp [hvalues], by simpa using hclean⟩
    · rw [fill_char hc] at h
      obtain ⟨qs, hqs, rfl⟩ := Option.map_eq_some_iff.mp h
      obtain ⟨hwritten, hvalues, hclean⟩ := ih hqs
      exact ⟨by simp [hwritten], by rw [List.filterMap_cons_none rfl, hvalues],
        by simpa [Ne.symm hc] using hclean⟩

theorem fill_eq_some_iff {s : String} {vs : List Cell} {ps : List Piece} :
    fill s.toList vs = some ps ↔ Filled s vs ps := by
  constructor
  · intro h
    obtain ⟨hwritten, hvalues, hclean⟩ := written_fill h
    exact ⟨hwritten, hvalues, hclean⟩
  · rintro ⟨hwritten, rfl, hclean⟩
    rw [← hwritten, fill_written hclean]

/-- A text with as many question marks as there are values can be filled with them. -/
theorem exists_fill {cs : List Char} {vs : List Cell} (h : cs.count '?' = vs.length) :
    ∃ ps, fill cs vs = some ps := by
  induction cs generalizing vs with
  | nil =>
    obtain rfl := List.length_eq_zero_iff.mp h.symm
    exact ⟨[], rfl⟩
  | cons c cs ih =>
    by_cases hc : c = '?'
    · subst hc
      rw [List.count_cons_self] at h
      cases vs with
      | nil => simp at h
      | cons v vs =>
        obtain ⟨ps, hps⟩ := ih (by simpa using h)
        exact ⟨.value v :: ps, by simp [hps]⟩
    · rw [List.count_cons_of_ne hc] at h
      obtain ⟨ps, hps⟩ := ih h
      exact ⟨.char c :: ps, by simp [fill_char hc, hps]⟩

namespace Filled

variable {s t : String} {vs ws : List Cell} {ps qs : List Piece}

theorem count (h : Filled s vs ps) : s.toList.count '?' = vs.length := by
  obtain ⟨hwritten, rfl, hclean⟩ := h
  rw [← hwritten]
  clear hwritten
  induction ps with
  | nil => rfl
  | cons p ps ih =>
    have hps := ih fun h => hclean (List.mem_cons_of_mem _ h)
    cases p with
    | char c =>
      have hc : c ≠ '?' := by
        rintro rfl
        simp at hclean
      rw [List.map_cons, List.filterMap_cons_none rfl, Piece.written_char,
        List.count_cons_of_ne hc, hps]
    | value v => simp [hps]

theorem append (hs : Filled s vs ps) (ht : Filled t ws qs) :
    Filled (s ++ t) (vs ++ ws) (ps ++ qs) where
  written := by simp [hs.written, ht.written]
  values := by simp [hs.values, ht.values]
  clean := by simp [hs.clean, ht.clean]

theorem ofWords (h : '?' ∉ s.toList) : Filled s [] (words s) where
  written := by simp [words, Function.comp_def]
  values := by simp [words, List.filterMap_map, Function.comp_def]
  clean := by simpa [words] using h

theorem ofValue (v : Cell) : Filled "?" [v] [.value v] := ⟨rfl, rfl, by simp⟩

theorem andWords (hs : Filled s vs ps) (ht : '?' ∉ t.toList) :
    Filled (s ++ t) vs (ps ++ words t) := by
  simpa using hs.append (ofWords ht)

theorem andValue (hs : Filled s vs ps) (v : Cell) :
    Filled (s ++ "?") (vs ++ [v]) (ps ++ [.value v]) :=
  hs.append (ofValue v)

end Filled

/-- The values of a filter in the order of its comparisons. Equality with null has none. -/
def filterValues : Option Filter → List Cell
  | none => []
  | some f => (f.leaves.filter Comparison.binds).map Comparison.parameter

/-- A limit as it is bound: no larger than 64 bits with a sign can hold. -/
def limitValues : Option ℕ → List Cell
  | none => []
  | some k => [.integer (min k (2 ^ 63 - 1) : ℕ)]

def SnippetOptions.values (s : SnippetOptions) : List Cell :=
  [.text s.openMarker, .text s.closeMarker, .text s.ellipsis, .integer s.maxTokens]

def HighlightOptions.values (h : HighlightOptions) : List Cell :=
  [.text h.openMarker, .text h.closeMarker]

namespace LexicalRequest

/-- The names of the excerpts that a request asks for, the snippet first. -/
def excerptNames (r : LexicalRequest) : List String :=
  (r.snippet.map fun _ => snippetKey).toList ++ (r.highlight.map fun _ => highlightKey).toList

theorem mark_notMem_excerptNames (r : LexicalRequest) : ∀ n ∈ r.excerptNames, '?' ∉ n.toList := by
  have hsnippet : '?' ∉ snippetKey.toList := by decide
  have hhighlight : '?' ∉ highlightKey.toList := by decide
  intro n hn
  simp only [excerptNames, List.mem_append, Option.mem_toList, Option.map_eq_some_iff] at hn
  rcases hn with ⟨-, -, rfl⟩ | ⟨-, -, rfl⟩
  · exact hsnippet
  · exact hhighlight

def excerptValues (r : LexicalRequest) : List Cell :=
  (r.snippet.map SnippetOptions.values).getD [] ++ (r.highlight.map HighlightOptions.values).getD []

end LexicalRequest

namespace Piece

def call (function : String) (arguments : List Cell) (name : String) : List Piece :=
  words (function ++ "(document_fts, 0, ") ++ listed (arguments.map fun v => [.value v])
    ++ words (") AS " ++ name)

/-- The columns of the excerpts, each with the values of its options. -/
def excerpts (r : LexicalRequest) : List (List Piece) :=
  (r.snippet.map fun s => call "snippet" s.values snippetKey).toList
    ++ (r.highlight.map fun h => call "highlight" h.values highlightKey).toList

def lexical (r : LexicalRequest) (query : String) : List Piece :=
  words "SELECT " ++ listed (words "rowid AS pk" :: words "bm25(document_fts) AS score" :: excerpts r)
    ++ words " FROM document_fts WHERE document_fts MATCH " ++ [.value (.text query)]

def vector (window : List (Int × Float)) : List Piece :=
  words "SELECT " ++ listed [words "json_extract(value, '$[0]') AS pk",
      words "json_extract(value, '$[1]') AS score"] ++ words " FROM json_each("
    ++ [.value (.text (Statement.windowText window))] ++ words ")"

def limit : Option ℕ → List Piece
  | none => []
  | some k => words " LIMIT " ++ (limitValues (some k)).map .value

/-- A ranked query with its values: the columns of the documents, the score and then the excerpts
are selected from the documents that meet a condition, joined with the candidates. -/
def ranked (condition candidates : List Piece) (excerpts : List String) (topK : Option ℕ) :
    List Piece :=
  words "SELECT "
    ++ listed (Statement.columnNames.map (fun n => words ("a." ++ n))
      ++ words "b.score" :: excerpts.map fun n => words ("b." ++ n))
    ++ words " FROM (SELECT " ++ listed (words "pk" :: Statement.columnNames.map words)
    ++ words " FROM document" ++ condition
    ++ words ") a INNER JOIN (" ++ candidates ++ words ") b ON a.pk = b.pk"
    ++ words " ORDER BY b.score ASC, a.pk ASC" ++ limit topK

end Piece

namespace Statement

/-- The text of a statement with its values in the place of its question marks. -/
def filled (s : Statement) : Option (List Piece) := fill s.text.toList s.parameters

def filledWhere : Option Condition → Option (List Piece)
  | none => some []
  | some c => (fill c.text.toList c.parameters).map (words " WHERE " ++ ·)

theorem filled_eq_some_iff {s : Statement} {ps : List Piece} :
    s.filled = some ps ↔ Filled s.text s.parameters ps :=
  fill_eq_some_iff

theorem exists_filledWhere {filter : Option Filter} {c : Option Condition}
    (h : compileOptional filter = .ok c) :
    (c.map Condition.parameters).getD [] = filterValues filter
      ∧ ∃ w, filledWhere c = some w := by
  cases filter with
  | none =>
    cases h
    exact ⟨rfl, _, rfl⟩
  | some f =>
    obtain ⟨c, hc, rfl⟩ := map_eq_ok h
    obtain ⟨e, he⟩ := f.readBack_compile (lift_eq_ok hc) 0 0
    obtain ⟨ps, hps⟩ := exists_fill he.placeholders
    exact ⟨he.parameters, _, by rw [filledWhere, hps]; rfl⟩

theorem filled_where (c : Option Condition) {w : List Piece} :
    filledWhere c = some w → Filled (match c with | some c => " WHERE " ++ c.text | none => "")
      (match c with | some c => c.parameters | none => []) w := by
  intro h
  cases c with
  | none =>
    cases h
    exact Filled.ofWords (by simp)
  | some c =>
    obtain ⟨ps, hps, rfl⟩ := Option.map_eq_some_iff.mp h
    exact (Filled.ofWords (s := " WHERE ") (by decide)).append (fill_eq_some_iff.mp hps)

theorem filled_marks (vs : List Cell) :
    Filled (commaList (vs.map fun _ => "?")) vs (Piece.listed (vs.map fun v => [.value v])) := by
  cases vs with
  | nil => exact Filled.ofWords (s := "") (by simp)
  | cons v vs =>
    induction vs generalizing v with
    | nil => exact Filled.ofValue v
    | cons u vs ih =>
      have hcomma := (Filled.ofValue v).andWords (t := ", ") (by decide)
      have hrest := hcomma.append (ih u)
      rw [commaList] at hrest ⊢
      rw [List.map_cons, List.map_cons, String.intercalate_cons_cons, List.map_cons, List.map_cons,
        Piece.listed_cons_cons]
      exact hrest

theorem filled_call {f n : String} (hf : '?' ∉ f.toList) (hn : '?' ∉ n.toList) (vs : List Cell) :
    Filled (f ++ "(document_fts, 0, " ++ commaList (vs.map fun _ => "?") ++ (") AS " ++ n)) vs
      (Piece.call f vs n) := by
  have hopen : '?' ∉ (f ++ "(document_fts, 0, ").toList := by simp [hf]
  have hclose : '?' ∉ (") AS " ++ n).toList := by simp [hn]
  exact ((Filled.ofWords hopen).append (filled_marks vs)).andWords hclose

/-- One more column for an excerpt, as it is worded with a question mark for each of its values. -/
theorem filled_excerpt {s f n : String} {vs : List Cell} (hf : '?' ∉ f.toList) (hn : '?' ∉ n.toList)
    (hs : s = ", " ++ (f ++ "(document_fts, 0, " ++ commaList (vs.map fun _ => "?")
      ++ (") AS " ++ n))) : Filled s vs (words ", " ++ Piece.call f vs n) := by
  have hcomma : Filled ", " [] (words ", ") := Filled.ofWords (by decide)
  rw [hs]
  exact hcomma.append (filled_call hf hn vs)

theorem filled_snippet (s : SnippetOptions) :
    Filled (", snippet(document_fts, 0, ?, ?, ?, ?) AS " ++ snippetKey) s.values
      (words ", " ++ Piece.call "snippet" s.values snippetKey) := by
  have hmarks : (s.values.map fun _ => "?") = ["?", "?", "?", "?"] := rfl
  refine filled_excerpt (by decide) (by decide) ?_
  rw [hmarks]
  decide

theorem filled_highlight (h : HighlightOptions) :
    Filled (", highlight(document_fts, 0, ?, ?) AS " ++ highlightKey) h.values
      (words ", " ++ Piece.call "highlight" h.values highlightKey) := by
  have hmarks : (h.values.map fun _ => "?") = ["?", "?"] := rfl
  refine filled_excerpt (by decide) (by decide) ?_
  rw [hmarks]
  decide

theorem parameters_lexicalCandidates (r : LexicalRequest) (query : String) :
    (lexicalCandidates r query).parameters = r.excerptValues ++ [.text query] := by
  unfold lexicalCandidates LexicalRequest.excerptValues
  cases r.snippet <;> cases r.highlight <;> rfl

theorem excerpts_lexicalCandidates_eq (r : LexicalRequest) (query : String) :
    (lexicalCandidates r query).excerpts = r.excerptNames := by
  unfold lexicalCandidates LexicalRequest.excerptNames
  cases r.snippet <;> cases r.highlight <;> rfl

/-- The values of the excerpts and the query are bound where the candidates ask for them. -/
theorem filled_lexicalCandidates (r : LexicalRequest) (query : String) :
    (lexicalCandidates r query).filled = some (Piece.lexical r query) := by
  have hhead : words "SELECT rowid AS pk, bm25(document_fts) AS score"
      = words "SELECT " ++ words "rowid AS pk" ++ words ", "
        ++ words "bm25(document_fts) AS score" := by
    simp only [← Piece.words_append]
    exact congrArg words (by decide)
  have htail : " FROM document_fts WHERE document_fts MATCH ?"
      = " FROM document_fts WHERE document_fts MATCH " ++ "?" := by decide
  have hselect : Filled "SELECT rowid AS pk, bm25(document_fts) AS score" [] _ :=
    Filled.ofWords (by decide)
  have hsnippet : Filled (if r.snippet.isSome then
        ", snippet(document_fts, 0, ?, ?, ?, ?) AS " ++ snippetKey else "")
      ((r.snippet.map SnippetOptions.values).getD [])
      ((r.snippet.map fun s => Piece.call "snippet" s.values snippetKey).toList.flatMap
        (words ", " ++ ·)) := by
    cases r.snippet with
    | none => exact Filled.ofWords (by simp)
    | some s => simpa using filled_snippet s
  have hhighlight : Filled (if r.highlight.isSome then
        ", highlight(document_fts, 0, ?, ?) AS " ++ highlightKey else "")
      ((r.highlight.map HighlightOptions.values).getD [])
      ((r.highlight.map fun h => Piece.call "highlight" h.values highlightKey).toList.flatMap
        (words ", " ++ ·)) := by
    cases r.highlight with
    | none => exact Filled.ofWords (by simp)
    | some h => simpa using filled_highlight h
  have hmatch : Filled " FROM document_fts WHERE document_fts MATCH ?" [.text query] _ :=
    htail ▸ (Filled.ofWords (by decide)).andValue (.text query)
  have hall := ((hselect.append hsnippet).append hhighlight).append hmatch
  rw [filled_eq_some_iff, parameters_lexicalCandidates, Piece.lexical, Piece.excerpts,
    Piece.listed_cons_cons, Piece.listed_cons, List.flatMap_append]
  rw [hhead] at hall
  simp only [List.append_assoc, List.nil_append, LexicalRequest.excerptValues] at hall ⊢
  exact hall

theorem excerpts_vectorCandidates (window : List (Int × Float)) :
    (vectorCandidates window).excerpts = [] := rfl

theorem filled_vectorCandidates (window : List (Int × Float)) :
    (vectorCandidates window).filled = some (Piece.vector window) := by
  have htail : "FROM json_each(?)" = "FROM json_each(" ++ "?" ++ ")" := by decide +kernel
  have heach : Filled "FROM json_each(?)" [.text (windowText window)] _ :=
    htail ▸ ((Filled.ofWords (by decide +kernel)).andValue _).andWords (by decide +kernel)
  have hselect : Filled "SELECT json_extract(value, '$[0]') AS pk, json_extract(value, '$[1]') AS score "
      [] _ := Filled.ofWords (by decide +kernel)
  have hwords : words "SELECT json_extract(value, '$[0]') AS pk, json_extract(value, '$[1]') AS score "
        ++ words "FROM json_each("
      = words "SELECT " ++ Piece.listed [words "json_extract(value, '$[0]') AS pk",
        words "json_extract(value, '$[1]') AS score"] ++ words " FROM json_each(" := by
    decide +kernel
  have hall := hselect.append heach
  rw [← List.append_assoc, ← List.append_assoc, hwords] at hall
  exact filled_eq_some_iff.mpr hall

theorem filled_limit (k : Option ℕ) :
    Filled (if k.isSome then " LIMIT ?" else "")
      (match k with | some k => [.integer (min k largestLimit : ℕ)] | none => [])
      (Piece.limit k) := by
  cases k with
  | none => exact Filled.ofWords (by simp)
  | some k =>
    have htext : " LIMIT ?" = " LIMIT " ++ "?" := by decide
    rw [Option.isSome_some, if_pos rfl, htext]
    exact (Filled.ofWords (by decide)).andValue _

theorem filled_commaList {names : List String} (h : '?' ∉ (commaList names).toList) :
    Filled (commaList names) [] (Piece.listed (names.map words)) :=
  Piece.words_commaList names ▸ Filled.ofWords h

theorem filled_names {names : List String} (h : ∀ n ∈ names, '?' ∉ n.toList) :
    Filled (String.join (names.map (", b." ++ ·))) []
      ((names.map fun n => words ("b." ++ n)).flatMap (words ", " ++ ·)) := by
  have hname (n : String) : words (", b." ++ n) = words ", " ++ words ("b." ++ n) := by
    rw [← Piece.words_append, ← String.append_assoc]
    rfl
  have hjoin : words (String.join (names.map (", b." ++ ·)))
      = (names.map fun n => words ("b." ++ n)).flatMap (words ", " ++ ·) := by
    rw [Piece.words_join, List.flatMap_map, List.flatMap_map]
    simp only [hname]
  rw [← hjoin]
  exact Filled.ofWords (by simpa using h)

/-- The condition is filled first, then the candidates, and then the limit. -/
theorem filled_ranked {c : Option Condition} {s : Statement} {w q : List Piece}
    (hwhere : filledWhere c = some w) (hs : s.filled = some q)
    (hnames : ∀ n ∈ s.excerpts, '?' ∉ n.toList) (k : Option ℕ) :
    (ranked c s k).filled = some (Piece.ranked w q s.excerpts k) := by
  have houter : Filled (commaList (columnNames.map ("a." ++ ·))) [] _ :=
    filled_commaList (by decide +kernel)
  have hinner : Filled (commaList columnNames) [] _ := filled_commaList (by decide +kernel)
  -- The parts in the order of the text.
  have hcolumns := (Filled.ofWords (s := "SELECT ") (by decide)).append houter
  have hexcerpts := (hcolumns.andWords (t := ", b.score") (by decide)).append (filled_names hnames)
  have hfrom := (hexcerpts.andWords (t := " FROM (SELECT pk, ") (by decide)).append hinner
  have hdocuments := (hfrom.andWords (t := " FROM document") (by decide)).append
    (filled_where c hwhere)
  have hjoined := (hdocuments.andWords (t := ") a INNER JOIN (") (by decide)).append
    (filled_eq_some_iff.mp hs)
  have hordered := (hjoined.andWords (t := ") b ON a.pk = b.pk") (by decide)).andWords
    (t := " ORDER BY b.score ASC, a.pk ASC") (by decide)
  have hall := hordered.append (filled_limit k)
  -- The columns that are selected, as one list each.
  have hscore : words ", b.score" = words ", " ++ words "b.score" := by decide +kernel
  have hselected : Piece.listed (columnNames.map (fun n => words ("a." ++ n))
      ++ words "b.score" :: s.excerpts.map fun n => words ("b." ++ n)) = _ :=
    Piece.listed_append (by decide) (by simp)
  have hpk : words " FROM (SELECT pk, " = words " FROM (SELECT " ++ words "pk" ++ words ", " := by
    decide +kernel
  have hlisted : Piece.listed (words "pk" :: columnNames.map words)
      = words "pk" ++ words ", " ++ Piece.listed (columnNames.map words) := by decide +kernel
  rw [filled_eq_some_iff, Piece.ranked, hselected, Piece.listed_cons, hlisted]
  rw [hscore, hpk, List.map_map] at hall
  unfold ranked
  dsimp only
  simp only [List.append_assoc, List.nil_append] at hall ⊢
  exact hall

theorem parameters_ranked {filter : Option Filter} {c : Option Condition}
    (h : compileOptional filter = .ok c) (s : Statement) (k : Option ℕ) :
    (ranked c s k).parameters = filterValues filter ++ s.parameters ++ limitValues k := by
  rw [← (exists_filledWhere h).1]
  cases c <;> cases k <;> rfl

/-- A statement has a parameter for each question mark. Its parameters, the names of its excerpts
and its text with the parameters in place are as given. -/
structure Binds (s : Statement) (values : List Cell) (names : List String) (pieces : List Piece) :
    Prop where
  count : s.text.toList.count '?' = s.parameters.length
  parameters : s.parameters = values
  excerpts : s.excerpts = names
  filled : s.filled = some pieces

theorem ranked_binds {filter : Option Filter} {c : Option Condition}
    (h : compileOptional filter = .ok c) {s : Statement} {q : List Piece}
    (hs : s.filled = some q) (hnames : ∀ n ∈ s.excerpts, '?' ∉ n.toList) (k : Option ℕ) :
    ∃ w, filledWhere c = some w
      ∧ (ranked c s k).Binds (filterValues filter ++ s.parameters ++ limitValues k) s.excerpts
        (Piece.ranked w q s.excerpts k) := by
  obtain ⟨-, w, hw⟩ := exists_filledWhere h
  have hfilled := filled_ranked hw hs hnames k
  exact ⟨w, hw, (filled_eq_some_iff.mp hfilled).count, parameters_ranked h s k, rfl, hfilled⟩

end Statement

theorem SnippetOptions.exists_ofMaxTokens {n : ℤ} :
    (∃ s, ofMaxTokens n = .ok s ∧ s.maxTokens = n) ↔ 1 ≤ n ∧ n ≤ 64 := by
  have hmax : maxSnippetTokens = 64 := rfl
  constructor
  · rintro ⟨s, -, hs⟩
    have hpos := s.maxTokens_pos
    have hle := s.maxTokens_le
    omega
  · rintro ⟨hpos, hle⟩
    rw [ofMaxTokens, dif_pos (by omega)]
    exact ⟨_, rfl, Int.toNat_of_nonneg (by omega)⟩

theorem LexicalRequest.exists_withTopK {r : LexicalRequest} {k : Option ℕ} :
    (∃ s, r.withTopK k = .ok s ∧ s.topK = k) ↔ k ≠ some 0 := by
  constructor
  · rintro ⟨s, -, rfl⟩
    exact s.topK_pos
  · intro hk
    exact ⟨_, dif_neg hk, rfl⟩

theorem VectorRequest.exists_withTopK {r : VectorRequest} {k : Option ℕ} :
    (∃ s, r.withTopK k = .ok s ∧ s.topK = k) ↔ k ≠ some 0 := by
  constructor
  · rintro ⟨s, -, rfl⟩
    exact s.topK_pos
  · intro hk
    exact ⟨_, dif_neg hk, rfl⟩

theorem one_le_limit {k : Option ℕ} (hk : k ≠ some 0) {v : Cell} (hv : v ∈ limitValues k) :
    ∃ n, k = some n ∧ v = .integer (min n (2 ^ 63 - 1) : ℕ) ∧ 1 ≤ min n (2 ^ 63 - 1) := by
  cases k with
  | none => simp [limitValues] at hv
  | some n =>
    have hn : n ≠ 0 := fun h => hk (congrArg some h)
    exact ⟨n, rfl, by simpa [limitValues] using hv, by omega⟩

namespace Statement

/-- Each question mark of a ranked query has a parameter of its own. From left to right these are
the values of the filter, those of the excerpts and the query, or the window, and the limit; and the
excerpts are selected in order right after the score. Every budget is from 1 to 64 and every limit
at least one, and just such budgets and limits are accepted. -/
theorem binds_in_order :
    (∀ (r : LexicalRequest) c query, compileOptional r.filter = .ok c →
      ∃ w, filledWhere c = some w
        ∧ (ranked c (lexicalCandidates r query) r.topK).Binds
          (filterValues r.filter ++ (r.excerptValues ++ [.text query]) ++ limitValues r.topK)
          r.excerptNames (Piece.ranked w (Piece.lexical r query) r.excerptNames r.topK))
      ∧ (∀ (r : VectorRequest) c window, compileOptional r.filter = .ok c →
        ∃ w, filledWhere c = some w
          ∧ (ranked c (vectorCandidates window) r.topK).Binds
            (filterValues r.filter ++ [.text (windowText window)] ++ limitValues r.topK)
            [] (Piece.ranked w (Piece.vector window) [] r.topK))
      ∧ (∀ r : LexicalRequest, (∀ o ∈ r.snippet, 1 ≤ o.maxTokens ∧ o.maxTokens ≤ 64)
        ∧ ∀ v ∈ limitValues r.topK, ∃ k, r.topK = some k
          ∧ v = .integer (min k (2 ^ 63 - 1) : ℕ) ∧ 1 ≤ min k (2 ^ 63 - 1))
      ∧ (∀ r : VectorRequest, ∀ v ∈ limitValues r.topK, ∃ k, r.topK = some k
        ∧ v = .integer (min k (2 ^ 63 - 1) : ℕ) ∧ 1 ≤ min k (2 ^ 63 - 1))
      ∧ (∀ n : ℤ, (∃ o, SnippetOptions.ofMaxTokens n = .ok o ∧ o.maxTokens = n) ↔ 1 ≤ n ∧ n ≤ 64)
      ∧ (∀ (r : LexicalRequest) k, (∃ s, r.withTopK k = .ok s ∧ s.topK = k) ↔ k ≠ some 0)
      ∧ ∀ (r : VectorRequest) k, (∃ s, r.withTopK k = .ok s ∧ s.topK = k) ↔ k ≠ some 0 := by
  refine ⟨fun r c query hc => ?_, fun r c window hc => ?_, fun r => ⟨fun o _ => ?_, ?_⟩, ?_,
    fun n => SnippetOptions.exists_ofMaxTokens, fun r k => LexicalRequest.exists_withTopK,
    fun r k => VectorRequest.exists_withTopK⟩
  · have hnames := r.mark_notMem_excerptNames
    rw [← excerpts_lexicalCandidates_eq r query] at hnames
    have hbinds := ranked_binds hc (filled_lexicalCandidates r query) hnames r.topK
    rwa [parameters_lexicalCandidates, excerpts_lexicalCandidates_eq] at hbinds
  · have hnames : ∀ n ∈ (vectorCandidates window).excerpts, '?' ∉ n.toList := by
      rw [excerpts_vectorCandidates]
      exact fun n hn => absurd hn List.not_mem_nil
    have hbinds := ranked_binds hc (filled_vectorCandidates window) hnames r.topK
    rwa [excerpts_vectorCandidates] at hbinds
  · exact ⟨o.maxTokens_pos, o.maxTokens_le⟩
  · exact fun v hv => one_le_limit r.topK_pos hv
  · exact fun r v hv => one_le_limit r.topK_pos hv

/-- Values that look like question marks are bound like all others. -/
theorem binds_in_order_hostile :
    ∃ c, compileOptional LexicalRequest.hostile.filter = .ok c
      ∧ (ranked c (lexicalCandidates .hostile "') --") LexicalRequest.hostile.topK).parameters
        = [.integer 1, .text "[\"?')) OR 1 --\"]", .text "?", .text "</b>", .text "')",
          .integer 16, .text "') --", .integer 7]
      ∧ (ranked c (lexicalCandidates .hostile "') --") LexicalRequest.hostile.topK).text.toList.count
        '?' = 8 := by
  obtain ⟨c, hc⟩ : ∃ c, compileOptional LexicalRequest.hostile.filter = .ok c := ⟨_, rfl⟩
  obtain ⟨w, -, hbinds⟩ := binds_in_order.1 .hostile _ "') --" hc
  have hparameters := hbinds.parameters
  have hvalues : filterValues LexicalRequest.hostile.filter
        ++ (LexicalRequest.hostile.excerptValues ++ [.text "') --"])
        ++ limitValues LexicalRequest.hostile.topK
      = [.integer 1, .text "[\"?')) OR 1 --\"]", .text "?", .text "</b>", .text "')",
        .integer 16, .text "') --", .integer 7] := by
    decide +kernel
  rw [hvalues] at hparameters
  refine ⟨c, hc, hparameters, ?_⟩
  rw [hbinds.count, hparameters]
  rfl

end Statement

end DocumentStore
