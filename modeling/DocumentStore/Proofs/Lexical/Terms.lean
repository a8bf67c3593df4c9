import DocumentStore.Lexical.Sanitize
import DocumentStore.Proofs.Lexical.Words
import DocumentStore.Proofs.Text.Characters

/-! The terms of a query text. Main statement: they are its longest runs of term characters,
operator words aside, and as soon as there is one the sanitised form of the text is accepted; a text
that is its own sanitised form is only refused for vertical tabs or form feeds around it. -/
namespace DocumentStore.Lexical

/-- A longest run of term characters in a text. -/
def IsRun (cs r : List Char) : Prop :=
  r ≠ [] ∧ (∀ c ∈ r, isTermChar c = true) ∧ ∃ before after, cs = before ++ (r ++ after)
    ∧ (∀ c ∈ before.getLast?, isTermChar c = false) ∧ ∀ c ∈ after.head?, isTermChar c = false

section

variable {a cs r : List Char} {c : Char}

theorem isRun_of_all (ha : ∀ c ∈ a, isTermChar c = true) : IsRun a r ↔ r = a ∧ a ≠ [] := by
  constructor
  · rintro ⟨hr, -, before, after, rfl, hbefore, hafter⟩
    have hnil : before = [] := by
      cases h : before.getLast? with
      | none => exact List.getLast?_eq_none_iff.mp h
      | some c =>
        have hc := hbefore c h
        rw [ha c (by simp [List.mem_of_getLast? h])] at hc
        cases hc
    have hnil' : after = [] := by
      cases after with
      | nil => rfl
      | cons c after =>
        have hc := hafter c rfl
        rw [ha c (by simp)] at hc
        cases hc
    subst hnil hnil'
    simp [hr]
  · rintro ⟨rfl, hr⟩
    exact ⟨hr, ha, [], [], by simp⟩

theorem split_at_of_not_mem {before after : List Char} (hnot : c ∉ r)
    (h : a ++ c :: cs = before ++ (r ++ after)) :
    (∃ m, after = m ++ c :: cs ∧ a = before ++ (r ++ m))
      ∨ ∃ m, before = a ++ c :: m ∧ cs = m ++ (r ++ after) := by
  induction before generalizing a with
  | nil =>
    rw [List.nil_append] at h
    rcases List.append_eq_append_iff.mp h with ⟨m, hm, hcs⟩ | ⟨m, ha, hafter⟩
    · cases m with
      | nil => exact .inl ⟨[], by simpa using hcs.symm, by simpa using hm.symm⟩
      | cons d m =>
        obtain ⟨rfl, -⟩ := List.cons.inj hcs
        exact absurd (by simp [hm]) hnot
    · exact .inl ⟨m, hafter, ha⟩
  | cons d before ih =>
    cases a with
    | nil =>
      obtain ⟨rfl, rfl⟩ := List.cons.inj h
      exact .inr ⟨before, rfl, rfl⟩
    | cons e a =>
      obtain ⟨rfl, hrest⟩ := List.cons.inj h
      rcases ih hrest with ⟨m, hafter, rfl⟩ | ⟨m, rfl, hcs⟩
      · exact .inl ⟨m, hafter, rfl⟩
      · exact .inr ⟨m, rfl, hcs⟩

theorem isRun_append_cons (hc : isTermChar c = false) :
    IsRun (a ++ c :: cs) r ↔ IsRun a r ∨ IsRun cs r := by
  constructor
  · rintro ⟨hr, hall, before, after, heq, hbefore, hafter⟩
    have hnot : c ∉ r := fun hmem => by
      rw [hall c hmem] at hc
      cases hc
    rcases split_at_of_not_mem hnot heq with ⟨m, rfl, rfl⟩ | ⟨m, rfl, rfl⟩
    · refine .inl ⟨hr, hall, before, m, rfl, hbefore, ?_⟩
      cases m <;> simp_all
    · refine .inr ⟨hr, hall, m, after, rfl, ?_, hafter⟩
      cases m <;> simp_all [List.getLast?_cons]
  · rintro (⟨hr, hall, before, after, rfl, hbefore, hafter⟩ |
      ⟨hr, hall, before, after, rfl, hbefore, hafter⟩)
    · refine ⟨hr, hall, before, after ++ c :: cs, by simp, hbefore, ?_⟩
      cases after <;> simp_all
    · refine ⟨hr, hall, a ++ c :: before, after, by simp, ?_, hafter⟩
      cases before <;> simp_all [List.getLast?_cons]

end

theorem mem_runsFrom {run cs r : List Char} (hrun : ∀ c ∈ run, isTermChar c = true) :
    r ∈ runsFrom run cs ↔ IsRun (run.reverse ++ cs) r := by
  induction cs generalizing run with
  | nil =>
    rw [runsFrom, List.append_nil, isRun_of_all (by simpa using hrun)]
    cases run <;> simp
  | cons c cs ih =>
    rw [runsFrom]
    split
    · rename_i hc
      rw [ih (by simpa [hc] using hrun), List.reverse_cons, List.append_assoc]
      rfl
    · rename_i hc
      rw [isRun_append_cons (by simpa using hc), isRun_of_all (by simpa using hrun)]
      split
      · rename_i hnil
        simp [ih, List.isEmpty_iff.mp hnil]
      · rename_i hnil
        have hrest := @ih [] (by simp)
        simp only [List.mem_cons, hrest]
        simp_all

theorem mem_terms {query t : String} :
    t ∈ terms query ↔ IsRun query.toList t.toList ∧ t ∉ operatorWords := by
  have hruns (u : List Char) : u ∈ runsFrom [] query.toList ↔ IsRun query.toList u :=
    mem_runsFrom (by simp)
  constructor
  · intro h
    obtain ⟨hmem, hoperator⟩ := List.mem_filter.mp h
    obtain ⟨u, hu, rfl⟩ := List.mem_map.mp hmem
    refine ⟨by simpa using (hruns u).mp hu, by simpa using hoperator⟩
  · rintro ⟨hrun, hoperator⟩
    refine List.mem_filter.mpr ⟨List.mem_map.mpr ⟨_, (hruns _).mpr hrun, String.ofList_toList⟩, ?_⟩
    simpa using hoperator

theorem isTermChar_ne {c : Char} (h : isTermChar c = true) : c ≠ '"' ∧ c ≠ '\x00' := by
  constructor <;> rintro rfl <;> simp [isTermChar, Text.isAlphanumeric] at h

open Lexeme (OnlyWords)

theorem onlyWords_quoted {ts : List String} (hts : ∀ t ∈ ts, ∀ c ∈ t.toList, isTermChar c = true)
    {rest : List Char} (hrest : OnlyWords rest) (hhead : rest.head? ≠ some '"') :
    OnlyWords ((" ".intercalate (ts.map fun t => "\"" ++ t ++ "\"")).toList ++ rest) := by
  induction ts with
  | nil => simpa using hrest
  | cons t ts ih =>
    have ht : ∀ c ∈ t.toList, c ≠ '"' ∧ c ≠ '\x00' := fun c hc => isTermChar_ne (hts t (by simp) c hc)
    have ih := ih fun u hu => hts u (by simp [hu])
    cases ts with
    | nil => simpa using OnlyWords.quoted ht hhead hrest
    | cons u ts =>
      have hword := OnlyWords.quoted ht (by simp) (OnlyWords.gap (c := ' ') rfl ih)
      simpa [String.intercalate_cons_cons] using hword

theorem isTermChar_of_mem_terms {query t : String} (h : t ∈ terms query) :
    ∀ c ∈ t.toList, isTermChar c = true :=
  (mem_terms.mp h).1.2.1

theorem sanitized_eq_empty {query : String} : sanitized query = "" ↔ terms query = [] := by
  rw [sanitized]
  cases terms query with
  | nil => simp
  | cons t ts =>
    cases ts <;> simp [String.intercalate_cons_cons, ← String.toList_inj]

theorem parse_onlyWords {text : String} (h : OnlyWords text.toList) (hquote : '"' ∈ text.toList)
    (kind : TokenizerKind) : ∃ q, Grammar.parse kind (Lexeme.ofText text) = .ok q := by
  have hnull : text.toList.takeWhile (· ≠ '\x00') = text.toList :=
    List.takeWhile_eq_self_iff.mpr (by simpa using h.ne_null)
  rw [Lexeme.ofText, hnull]
  have hwords := Lexeme.scan_onlyWords h (text.toList.length + 1)
  have hne := Lexeme.scan_ne_nil hquote rfl text.toList.length
  generalize Lexeme.scan (text.toList.length + 1) text.toList = ls at hwords hne
  obtain ⟨l, r, rfl⟩ := List.exists_cons_of_ne_nil hne
  obtain ⟨s, t, rfl⟩ := hwords l (by simp)
  exact ⟨_, Grammar.parse_words fun l hl => hwords l (by simp [hl])⟩

theorem readQuery_onlyWords {text : String} (h : OnlyWords text.toList)
    (hquote : '"' ∈ text.toList) (kind : TokenizerKind) :
    ∃ q, readQuery kind text = .ok (some q) := by
  obtain ⟨q, hq⟩ := parse_onlyWords h hquote kind
  refine ⟨q, ?_⟩
  unfold readQuery
  split
  · rename_i cs hcs
    rw [hcs] at h
    cases h with
    | gap hc => cases hc
    | bare hc => exact absurd hc (by decide)
  · rw [hq]
    rfl

theorem quote_mem_sanitized {query : String} (h : terms query ≠ []) :
    '"' ∈ (sanitized query).toList := by
  rw [sanitized]
  obtain ⟨t, ts, hts⟩ := List.exists_cons_of_ne_nil h
  rw [hts]
  cases ts <;> simp [String.intercalate_cons_cons]

theorem readQuery_sanitized {query : String} (h : terms query ≠ []) (kind : TokenizerKind) :
    ∃ q, readQuery kind (sanitized query) = .ok (some q) := by
  have hwords : OnlyWords ((sanitized query).toList ++ []) :=
    onlyWords_quoted (fun t ht => isTermChar_of_mem_terms ht) .nil (by simp)
  rw [List.append_nil] at hwords
  exact readQuery_onlyWords hwords (quote_mem_sanitized h) kind

theorem isGap_or_of_isBlank {c : Char} (hblank : Text.isBlank c = true) (hv : c ≠ '\x0b')
    (hf : c ≠ '\x0c') : Lexeme.isGap c = true ∨ 0x80 ≤ c.toNat := by
  have hne {d : Char} (h : c ≠ d) : c.toNat ≠ d.toNat := fun heq => h (Char.toNat_inj.mp heq)
  by_contra hneither
  simp only [Lexeme.isGap, Bool.or_eq_true, decide_eq_true_eq, not_or, Nat.not_le] at hneither
  obtain ⟨⟨⟨⟨hspace, htab⟩, hnewline⟩, hreturn⟩, hlow⟩ := hneither
  have hcodes := And.intro (hne hv) (And.intro (hne hf) (And.intro (hne hspace)
    (And.intro (hne htab) (And.intro (hne hnewline) (hne hreturn)))))
  simp only [Text.isBlank, Bool.or_eq_true, Bool.and_eq_true, decide_eq_true_eq, beq_iff_eq] at hblank
  simp only [Char.reduceToNat] at hcodes
  omega

theorem onlyWords_blank {blanks cs : List Char}
    (hblanks : ∀ c ∈ blanks, Lexeme.isGap c = true ∨ 0x80 ≤ c.toNat) (h : OnlyWords cs) :
    OnlyWords (blanks ++ cs) := by
  induction blanks with
  | nil => exact h
  | cons c blanks ih =>
    have ih := ih fun d hd => hblanks d (by simp [hd])
    rcases hblanks c (by simp) with hc | hc
    · exact .gap hc ih
    · exact .bare hc ih

/-- A text that is refused although it is its own sanitised form, white space around it aside, has a
vertical tab or a form feed among this white space. -/
theorem mem_of_refused {query : String} {kind : TokenizerKind} {fault : QueryFault}
    (hterms : terms query ≠ []) (hsame : sanitized query = Text.trim query)
    (hrefused : readQuery kind query = .error fault) :
    '\x0b' ∈ query.toList ∨ '\x0c' ∈ query.toList := by
  by_contra hnone
  rw [not_or] at hnone
  obtain ⟨before, after, hquery, hbefore, hafter⟩ := Text.exists_trim query
  rw [← hsame] at hquery
  have hblank {c : Char} (hc : c ∈ query.toList) (h : Text.isBlank c = true) :
      Lexeme.isGap c = true ∨ 0x80 ≤ c.toNat :=
    isGap_or_of_isBlank h (fun hv => hnone.1 (hv ▸ hc)) (fun hf => hnone.2 (hf ▸ hc))
  have hend : OnlyWords (after ++ []) :=
    onlyWords_blank (fun c hc => hblank (by simp [hquery, hc]) (hafter c hc)) .nil
  rw [List.append_nil] at hend
  have hhead : after.head? ≠ some '"' := fun h => by
    have hquote := hafter '"' (List.mem_of_head? h)
    simp [Text.isBlank] at hquote
  have hwords : OnlyWords query.toList := by
    rw [hquery]
    exact onlyWords_blank (fun c hc => hblank (by simp [hquery, hc]) (hbefore c hc))
      (onlyWords_quoted (fun t ht => isTermChar_of_mem_terms ht) hend hhead)
  obtain ⟨q, hq⟩ := readQuery_onlyWords hwords (by simp [hquery, quote_mem_sanitized hterms]) kind
  rw [hq] at hrefused
  cases hrefused

end DocumentStore.Lexical
