import DocumentStore.Proofs.Lexical.Terms
import Mathlib.Data.List.Basic

/-! The sanitised form of a query text as a whole. Main statement: it is made of the longest runs of
term characters, in order and operator words aside, each in quotes; if there is any, it is read as
the conjunction of these phrases and of nothing else; and it is its own sanitised form. -/
namespace DocumentStore.Lexical

open Lexeme (OnlyWords)

/-- The longest runs of term characters in a text, in order, with other characters before, between
and after them. -/
inductive Runs : List Char → List (List Char) → Prop
  | nil {gap : List Char} (hgap : ∀ c ∈ gap, isTermChar c = false) : Runs gap []
  | cons {gap run rest : List Char} {runs : List (List Char)}
      (hgap : ∀ c ∈ gap, isTermChar c = false) (hne : run ≠ [])
      (hrun : ∀ c ∈ run, isTermChar c = true) (hrest : ∀ c ∈ rest.head?, isTermChar c = false)
      (h : Runs rest runs) : Runs (gap ++ (run ++ rest)) (run :: runs)

theorem Runs.cons_gap {c : Char} {cs : List Char} {runs : List (List Char)}
    (hc : isTermChar c = false) (h : Runs cs runs) : Runs (c :: cs) runs := by
  cases h with
  | nil hgap => exact .nil (by simpa [hc] using hgap)
  | @cons gap run rest runs hgap hne hrun hrest h =>
    have hgap' : ∀ d ∈ c :: gap, isTermChar d = false := by simpa [hc] using hgap
    exact .cons hgap' hne hrun hrest h

/-- A term character either begins a run of its own or prolongs the one that begins after it. -/
theorem Runs.cons_term {c : Char} {cs : List Char} {runs : List (List Char)}
    (hc : isTermChar c = true) (h : Runs cs runs) : ∃ runs', Runs (c :: cs) runs' := by
  have hself : ∀ d ∈ [c], isTermChar d = true := by simpa using hc
  have hnone : ∀ d ∈ ([] : List Char), isTermChar d = false := by simp
  have hhead {gap rest : List Char} (hgap : ∀ d ∈ gap, isTermChar d = false) (hne : gap ≠ []) :
      ∀ d ∈ (gap ++ rest).head?, isTermChar d = false := by
    cases gap with
    | nil => exact absurd rfl hne
    | cons e gap => simpa using hgap e (by simp)
  by_cases hfront : ∀ d ∈ cs.head?, isTermChar d = false
  · exact ⟨_, .cons hnone (by simp) hself hfront h⟩
  · cases h with
    | nil hgap => exact absurd (fun d hd => hgap d (List.mem_of_head? hd)) hfront
    | @cons gap run rest runs hgap hne hrun hrest h =>
      obtain rfl : gap = [] := by
        by_contra hgapne
        exact hfront (hhead hgap hgapne)
      have hrun' : ∀ d ∈ c :: run, isTermChar d = true := by simpa [hc] using hrun
      exact ⟨_, .cons hnone (by simp) hrun' hrest h⟩

theorem exists_runs (cs : List Char) : ∃ runs, Runs cs runs := by
  induction cs with
  | nil => exact ⟨[], .nil (by simp)⟩
  | cons c cs ih =>
    obtain ⟨runs, h⟩ := ih
    cases hc : isTermChar c with
    | false => exact ⟨runs, h.cons_gap hc⟩
    | true => exact h.cons_term hc

theorem runsFrom_gap {gap : List Char} (hgap : ∀ c ∈ gap, isTermChar c = false) (cs : List Char) :
    runsFrom [] (gap ++ cs) = runsFrom [] cs := by
  induction gap with
  | nil => rfl
  | cons c gap ih =>
    have hc := hgap c (by simp)
    simp [runsFrom, hc, ih fun d hd => hgap d (by simp [hd])]

theorem runsFrom_run {run : List Char} (hne : run ≠ []) (cs : List Char) :
    runsFrom run cs = (run.reverse ++ cs.takeWhile isTermChar)
      :: runsFrom [] (cs.dropWhile isTermChar) := by
  induction cs generalizing run with
  | nil => simp [runsFrom, hne]
  | cons c cs ih =>
    cases hc : isTermChar c with
    | true => simp [runsFrom, hc, ih]
    | false => simp [runsFrom, hc, hne]

theorem Runs.runsFrom_eq {cs : List Char} {runs : List (List Char)} (h : Runs cs runs) :
    runsFrom [] cs = runs := by
  induction h with
  | nil hgap => simpa [runsFrom] using runsFrom_gap hgap []
  | @cons gap run rest runs hgap hne hrun hrest h ih =>
    obtain ⟨c, run, rfl⟩ := List.exists_cons_of_ne_nil hne
    have htail : ∀ d ∈ run, isTermChar d = true := fun d hd => hrun d (by simp [hd])
    have hsplit := Text.takeWhile_append htail hrest
    have hc := hrun c (by simp)
    rw [runsFrom_gap hgap, List.cons_append, runsFrom, if_pos hc, runsFrom_run (by simp),
      hsplit.1, hsplit.2, ih]
    rfl

/-- The scan for runs gives the one list of runs that a text has. -/
theorem runs_iff {cs : List Char} {runs : List (List Char)} :
    Runs cs runs ↔ runs = runsFrom [] cs := by
  refine ⟨fun h => h.runsFrom_eq.symm, ?_⟩
  rintro rfl
  obtain ⟨runs, h⟩ := exists_runs cs
  rwa [h.runsFrom_eq]

/-- A word of term characters that is no operator. -/
structure IsTerm (t : String) : Prop where
  ne_nil : t.toList ≠ []
  chars : ∀ c ∈ t.toList, isTermChar c = true
  no_operator : t ∉ operatorWords

def quotedWords (ts : List String) : String := " ".intercalate (ts.map fun t => "\"" ++ t ++ "\"")

theorem sanitized_eq (query : String) : sanitized query = quotedWords (terms query) := rfl

theorem isTerm_of_mem {query t : String} (h : t ∈ terms query) : IsTerm t := by
  obtain ⟨hrun, hoperator⟩ := mem_terms.mp h
  exact ⟨hrun.1, hrun.2.1, hoperator⟩

@[simp] theorem toList_quotedWords_nil : (quotedWords []).toList = [] := rfl

@[simp] theorem toList_quotedWords_singleton (t : String) :
    (quotedWords [t]).toList = '"' :: (t.toList ++ ['"']) := by
  simp [quotedWords]

@[simp] theorem toList_quotedWords_cons_cons (t u : String) (ts : List String) :
    (quotedWords (t :: u :: ts)).toList
      = '"' :: (t.toList ++ '"' :: ' ' :: (quotedWords (u :: ts)).toList) := by
  simp [quotedWords, String.intercalate_cons_cons]

section

variable {ts : List String} (hts : ∀ t ∈ ts, IsTerm t)

include hts

theorem runs_quotedWords : Runs (quotedWords ts).toList (ts.map String.toList) := by
  have hmark : isTermChar '"' = false := by decide
  have hquote : ∀ c ∈ ['"'], isTermChar c = false := by simpa using hmark
  induction ts with
  | nil => exact .nil (by simp)
  | cons t ts ih =>
    have ht := hts t (by simp)
    have ih := ih fun u hu => hts u (by simp [hu])
    cases ts with
    | nil =>
      rw [toList_quotedWords_singleton]
      exact .cons hquote ht.ne_nil ht.chars (by simpa using hmark) (.nil hquote)
    | cons u ts =>
      rw [toList_quotedWords_cons_cons]
      have hrest := (ih.cons_gap (c := ' ') (by decide)).cons_gap hmark
      exact .cons hquote ht.ne_nil ht.chars (by simpa using hmark) hrest

theorem terms_quotedWords : terms (quotedWords ts) = ts := by
  have hmap : (ts.map String.toList).map String.ofList = ts := by simp [List.map_map]
  have hkept : ts.filter (fun t => !operatorWords.contains t) = ts := by
    refine List.filter_eq_self.mpr fun t ht => ?_
    simpa using (hts t ht).no_operator
  rw [terms, (runs_quotedWords hts).runsFrom_eq, hmap, hkept]

theorem sanitized_quotedWords : sanitized (quotedWords ts) = quotedWords ts := by
  rw [sanitized_eq, terms_quotedWords hts]

end

theorem getLast?_quotedWords (t : String) (ts : List String) :
    (quotedWords (t :: ts)).toList.getLast? = some '"' := by
  induction ts generalizing t with
  | nil => simp [List.getLast?_cons]
  | cons u ts ih => simp [List.getLast?_cons, List.getLast?_append, ih]

theorem trim_quotedWords (ts : List String) : Text.trim (quotedWords ts) = quotedWords ts := by
  cases ts with
  | nil => rfl
  | cons t ts =>
    have hblank : Text.isBlank '"' = false := by decide
    have hhead : (quotedWords (t :: ts)).toList.head? = some '"' := by cases ts <;> simp
    rw [Text.trim, Text.trimChars_of_ends hblank hblank hhead (getLast?_quotedWords t ts),
      String.ofList_toList]

namespace Lexeme

def quoted (t : String) : Lexeme := .word ('"' :: (t.toList ++ ['"'])) t.toList

theorem scan_space (fuel : Nat) (cs : List Char) : scan fuel (' ' :: cs) = scan fuel cs := by
  cases fuel with
  | zero => rfl
  | succ fuel =>
    have hdrop : (' ' :: cs).dropWhile isGap = cs.dropWhile isGap := rfl
    rw [scan, scan, hdrop]

theorem scan_quoted {t : String} {cs : List Char} (ht : ∀ c ∈ t.toList, c ≠ '"' ∧ c ≠ '\x00')
    (hcs : cs.head? ≠ some '"') (fuel : Nat) :
    scan (fuel + 1) ('"' :: (t.toList ++ '"' :: cs)) = quoted t :: scan fuel cs := by
  have hdrop : ('"' :: (t.toList ++ '"' :: cs)).dropWhile isGap = '"' :: (t.toList ++ '"' :: cs) := rfl
  have hmark : mark? '"' = none := rfl
  have hspelling : (t.toList ++ '"' :: cs).take ((t.toList ++ '"' :: cs).length - cs.length)
      = t.toList ++ ['"'] := by
    have hlength : (t.toList ++ '"' :: cs).length - cs.length = (t.toList ++ ['"']).length := by
      simp; omega
    rw [hlength, show t.toList ++ '"' :: cs = (t.toList ++ ['"']) ++ cs by simp, List.take_left]
  rw [scan, hdrop]
  simp only [hmark, readQuoted_plain ht hcs, if_true, hspelling]
  rfl

end Lexeme

section

variable {ts : List String} (hts : ∀ t ∈ ts, IsTerm t)

include hts

theorem scan_quotedWords (fuel : Nat) (hfuel : (quotedWords ts).toList.length < fuel) :
    Lexeme.scan fuel (quotedWords ts).toList = ts.map Lexeme.quoted := by
  induction ts generalizing fuel with
  | nil =>
    cases fuel with
    | zero => rfl
    | succ fuel => rfl
  | cons t ts ih =>
    have ht : ∀ c ∈ t.toList, c ≠ '"' ∧ c ≠ '\x00' :=
      fun c hc => isTermChar_ne ((hts t (by simp)).chars c hc)
    obtain ⟨fuel, rfl⟩ := Nat.exists_eq_succ_of_ne_zero (Nat.ne_zero_of_lt hfuel)
    cases ts with
    | nil =>
      rw [toList_quotedWords_singleton, Nat.succ_eq_add_one, Lexeme.scan_quoted ht (by simp)]
      cases fuel <;> rfl
    | cons u ts =>
      rw [toList_quotedWords_cons_cons] at hfuel ⊢
      have hrest : (quotedWords (u :: ts)).toList.length < fuel := by
        simp only [List.length_cons, List.length_append] at hfuel
        omega
      rw [Nat.succ_eq_add_one, Lexeme.scan_quoted ht (by simp), Lexeme.scan_space,
        ih (fun v hv => hts v (by simp [hv])) fuel hrest]
      rfl

theorem ofText_quotedWords : Lexeme.ofText (quotedWords ts) = ts.map Lexeme.quoted := by
  have hwords : OnlyWords ((quotedWords ts).toList ++ []) :=
    onlyWords_quoted (fun t ht => (hts t ht).chars) .nil (by simp)
  rw [List.append_nil] at hwords
  have hnull : (quotedWords ts).toList.takeWhile (· ≠ '\x00') = (quotedWords ts).toList :=
    List.takeWhile_eq_self_iff.mpr (by simpa using hwords.ne_null)
  rw [Lexeme.ofText, hnull]
  exact scan_quotedWords hts _ (Nat.lt_succ_self _)

end

/-- The terms of a text, each for itself alone and anywhere in the content. -/
def Phrase.ofText (kind : TokenizerKind) (t : String) : Phrase :=
  (tokens kind t.toList).map fun k => ⟨k.term, false, false⟩

theorem phrase_quoted (kind : TokenizerKind) (t : String) :
    (Lexeme.quoted t).phrase kind = Phrase.ofText kind t := by
  have hclosed : ∀ x ∈ Phrase.ofText kind t, x.isOpen = false := by simp [Phrase.ofText]
  rw [Lexeme.quoted, Lexeme.phrase, Grammar.addTerms, List.nil_append, ← Phrase.ofText]
  generalize Phrase.ofText kind t = p at hclosed
  split
  · rename_i x hlast
    have hx : { x with isOpen := false } = x := by rw [← hclosed x (List.mem_of_getLast? hlast)]
    rw [hx]
    exact List.dropLast_append_getLast? x hlast
  · rename_i hlast
    exact (List.getLast?_eq_none_iff.mp hlast).symm

namespace Query

/-- The conjunction of phrases. One without terms is no condition, unless there is no other. -/
def ofPhrases (ps : List Phrase) : Query :=
  match ps.filter (!·.isEmpty) with
  | [] => .near { phrases := [[]] }
  | [p] => .near { phrases := [p] }
  | ps => .and (ps.map fun p => .near { phrases := [p] })

theorem ofPhrases_singleton (p : Phrase) : ofPhrases [p] = .near { phrases := [p] } := by
  cases p <;> rfl

theorem juxtapose_ofPhrases (ps : List Phrase) (p : Phrase) :
    (ofPhrases ps).juxtapose (.near { phrases := [p] }) = ofPhrases (ps ++ [p]) := by
  cases p with
  | nil => simp [ofPhrases, juxtapose, isVoid]
  | cons t p =>
    have hkept : ∀ q ∈ ps.filter (!·.isEmpty), q ≠ [] := by simp
    rw [ofPhrases, ofPhrases, List.filter_append]
    generalize ps.filter (!·.isEmpty) = qs at hkept
    cases qs with
    | nil => simp [juxtapose, isVoid]
    | cons q qs =>
      cases qs with
      | nil => simp [juxtapose, isVoid, hkept, conjunction, conjuncts]
      | cons q' qs => simp [juxtapose, isVoid, conjunction, conjuncts]

theorem withPhrases_ofPhrases (ps qs : List Phrase) :
    (ofPhrases ps).withPhrases qs = ofPhrases (ps ++ qs) := by
  induction qs generalizing ps with
  | nil => simp [withPhrases]
  | cons q qs ih =>
    have hnext := ih (ps ++ [q])
    rw [← juxtapose_ofPhrases, List.append_assoc] at hnext
    exact hnext

theorem covers_of_isAt {p : Phrase} {text : List Bytes} (h : Phrase.isAt p text = true) :
    ∀ t ∈ p, text.any t.covers = true := by
  induction p generalizing text with
  | nil => simp
  | cons t p ih =>
    cases text with
    | nil => cases h
    | cons b text =>
      rw [Phrase.isAt, Bool.and_eq_true] at h
      intro u hu
      rcases List.mem_cons.mp hu with rfl | hu
      · simp [h.1]
      · simp [ih h.2 u hu]

theorem covers_of_occurrences {p : Phrase} {pos : Nat} {text : List Bytes}
    (h : Phrase.occurrencesFrom p pos text ≠ []) : ∀ t ∈ p, text.any t.covers = true := by
  induction text generalizing pos with
  | nil => exact absurd rfl h
  | cons b text ih =>
    rw [Phrase.occurrencesFrom] at h
    split at h
    · rename_i hat
      exact covers_of_isAt (Bool.and_eq_true_iff.mp hat).1
    · intro t ht
      simp [ih h t ht]

theorem holds_phrase {p : Phrase} (hp : p ≠ []) (text : List Bytes) :
    (status text (.near { phrases := [p] })).holds = true ↔ p.occurrences text ≠ [] := by
  by_cases h : p.occurrences text = []
  · cases hpresent : Near.isPresent { phrases := [p] } text
    all_goals simp [status, Near.status, Status.holds, hpresent, h]
  · have hfrom : Phrase.occurrencesFrom p 0 text ≠ [] := by
      simpa [Phrase.occurrences, hp] using h
    have hpresent : Near.isPresent { phrases := [p] } text = true := by
      simpa [Near.isPresent, Near.hasTerms, hp] using covers_of_occurrences hfrom
    simp [status, Near.status, Near.found, hpresent, Status.holds, h]

theorem statuses_eq_map (text : List Bytes) (qs : List Query) :
    statuses text qs = qs.map (status text) := by
  induction qs with
  | nil => rfl
  | cons q qs ih => rw [statuses, ih, List.map_cons]

theorem holds_all {ss : List Status} :
    (Status.all ss).holds = true ↔ ∀ s ∈ ss, s.holds = true := by
  simp [Status.all, Status.holds, forall_and]

/-- A text matches a conjunction of phrases just if each phrase that has a term occurs in it, and
there is such a phrase. -/
theorem holds_ofPhrases {ps : List Phrase} {text : List Bytes} :
    ((ofPhrases ps).status text).holds = true
      ↔ (∃ p ∈ ps, p ≠ []) ∧ ∀ p ∈ ps, p ≠ [] → p.occurrences text ≠ [] := by
  have hmem {p : Phrase} : p ∈ ps.filter (!·.isEmpty) ↔ p ∈ ps ∧ p ≠ [] := by simp
  have hkept : (∃ p ∈ ps, p ≠ []) ∧ (∀ p ∈ ps, p ≠ [] → p.occurrences text ≠ [])
      ↔ ps.filter (!·.isEmpty) ≠ []
        ∧ ∀ p ∈ ps.filter (!·.isEmpty), p.occurrences text ≠ [] := by
    refine and_congr ?_ (by simp only [hmem, and_imp])
    simp [List.filter_eq_nil_iff]
  have hne : ∀ p ∈ ps.filter (!·.isEmpty), p ≠ [] := fun p hp => (hmem.mp hp).2
  rw [hkept, ofPhrases]
  generalize ps.filter (!·.isEmpty) = qs at hne
  cases qs with
  | nil => simp [status, Near.status, Near.isPresent, Near.hasTerms, Status.holds]
  | cons p qs =>
    cases qs with
    | nil => simp [holds_phrase (hne p (by simp))]
    | cons p' qs =>
      have heach : ∀ q ∈ p :: p' :: qs, (status text (.near { phrases := [q] })).holds = true
          ↔ q.occurrences text ≠ [] := fun q hq => holds_phrase (hne q hq) text
      dsimp only
      rw [status, statuses_eq_map, holds_all, List.map_map, List.forall_mem_map]
      simp only [Function.comp_apply, ne_eq, reduceCtorEq, not_false_eq_true, true_and]
      exact forall₂_congr heach

end Query

theorem readQuery_quotedWords {ts : List String} (hts : ∀ t ∈ ts, IsTerm t) (hne : ts ≠ [])
    (kind : TokenizerKind) :
    readQuery kind (quotedWords ts) = .ok (some (.ofPhrases (ts.map (Phrase.ofText kind)))) := by
  obtain ⟨t, ts, rfl⟩ := List.exists_cons_of_ne_nil hne
  have hwords : ∀ l ∈ ts.map Lexeme.quoted, l.IsWord := by
    intro l hl
    obtain ⟨u, -, rfl⟩ := List.mem_map.mp hl
    exact ⟨_, _, rfl⟩
  have hphrases : (ts.map Lexeme.quoted).map (Lexeme.phrase kind) = ts.map (Phrase.ofText kind) := by
    simp [phrase_quoted]
  have hparse : Grammar.parse kind (Lexeme.ofText (quotedWords (t :: ts)))
      = .ok (.ofPhrases ((t :: ts).map (Phrase.ofText kind))) := by
    have hfirst := phrase_quoted kind t
    rw [Lexeme.quoted, Lexeme.phrase] at hfirst
    rw [ofText_quotedWords hts, List.map_cons, Lexeme.quoted, Grammar.parse_words hwords, hphrases,
      hfirst, ← Query.ofPhrases_singleton, Query.withPhrases_ofPhrases]
    rfl
  have hstar : (quotedWords (t :: ts)).toList.head? = some '"' := by cases ts <;> simp
  unfold readQuery
  split
  · rename_i cs hcs
    simp [hcs] at hstar
  · rw [hparse]
    rfl

/-- The sanitised form of any text whatever: the runs of term characters that it has, in order, each
in quotes unless it is an operator. If this is not empty it is nothing but words in quotes, which
are read as one conjunction of phrases; and sanitising it changes nothing. -/
theorem sanitized_exact (query : String) (kind : TokenizerKind) :
    ∃ runs ts, (∀ rs, Runs query.toList rs ↔ rs = runs)
      ∧ ts = (runs.map String.ofList).filter (fun t => t ∉ ["AND", "OR", "NOT", "NEAR"])
      ∧ sanitized query = " ".intercalate (ts.map fun t => "\"" ++ t ++ "\"")
      ∧ (sanitized query ≠ "" → Lexeme.ofText (sanitized query) = ts.map Lexeme.quoted
        ∧ ∃ q, readQuery kind (sanitized query) = .ok (some q)
          ∧ q = .ofPhrases (ts.map (Phrase.ofText kind))
          ∧ ∀ text, (q.status text).holds = true
            ↔ (∃ t ∈ ts, Phrase.ofText kind t ≠ [])
              ∧ ∀ t ∈ ts, Phrase.ofText kind t ≠ [] → (Phrase.ofText kind t).occurrences text ≠ [])
      ∧ sanitized (sanitized query) = sanitized query
      ∧ isUnsanitized (sanitized query) = false
      ∧ (isUnsanitized query = false ↔ Text.trim query = sanitized query) := by
  have hts : ∀ t ∈ terms query, IsTerm t := fun t ht => isTerm_of_mem ht
  have hterms : terms query = ((runsFrom [] query.toList).map String.ofList).filter
      (fun t => t ∉ ["AND", "OR", "NOT", "NEAR"]) := by
    refine List.filter_congr fun t _ => ?_
    change (!operatorWords.contains t) = decide (t ∉ operatorWords)
    simp
  have hread (hne : sanitized query ≠ "") : readQuery kind (sanitized query)
      = .ok (some (.ofPhrases ((terms query).map (Phrase.ofText kind)))) :=
    readQuery_quotedWords hts (mt sanitized_eq_empty.mpr hne) kind
  have htrim : Text.trim (sanitized query) = sanitized query := trim_quotedWords (terms query)
  have hagain : sanitized (sanitized query) = sanitized query := sanitized_quotedWords hts
  refine ⟨runsFrom [] query.toList, terms query, fun rs => runs_iff, hterms, rfl,
    fun hne => ⟨ofText_quotedWords hts, _, hread hne, rfl, fun text => ?_⟩, hagain, ?_, ?_⟩
  · simp [Query.holds_ofPhrases]
  · simp [isUnsanitized, hagain, htrim]
  · rw [isUnsanitized, bne_eq_false_iff_eq, eq_comm]

/-- The columns, stars, groups and operators of a text are gone from its sanitised form. -/
theorem sanitized_exact_hostile :
    let query := "note:fox* OR NEAR(\"DOG, 2) AND -_x"
    sanitized query ≠ ""
      ∧ sanitized query = "\"note\" \"fox\" \"DOG\" \"2\" \"_x\""
      ∧ readQuery .words (sanitized query) = .ok (some
        (.ofPhrases (["note", "fox", "DOG", "2", "_x"].map (Phrase.ofText .words))))
      ∧ isUnsanitized (sanitized query) = false := by
  intro query
  obtain ⟨runs, ts, hruns, hts, htext, hread, -, hsame, -⟩ := sanitized_exact query .words
  obtain rfl : runs = runsFrom [] query.toList := runs_iff.mp ((hruns runs).mpr rfl)
  have hwords : ts = ["note", "fox", "DOG", "2", "_x"] := by
    rw [hts]
    decide +kernel
  subst hwords
  have hne : sanitized query ≠ "" := by
    rw [htext]
    decide +kernel
  obtain ⟨-, q, hq, rfl, -⟩ := hread hne
  exact ⟨hne, by rw [htext]; decide +kernel, hq, hsame⟩

end DocumentStore.Lexical
