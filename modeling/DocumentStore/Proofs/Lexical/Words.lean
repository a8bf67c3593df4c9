import DocumentStore.Lexical.Search
import Mathlib.Data.List.TakeWhile

/-! Query texts that are nothing but words. Main statement: each of them is accepted, and read as
the phrases of its words one after the other. This goes for the sanitised form of a text that has a
term, and for this form with white space around it other than vertical tabs and form feeds. -/
namespace DocumentStore.Lexical

def Lexeme.IsWord (l : Lexeme) : Prop := ∃ s t, l = .word s t

/-- The phrase that a lexeme on its own stands for; only words have terms. -/
def Lexeme.phrase (kind : TokenizerKind) : Lexeme → Phrase
  | .word _ t => Grammar.addTerms kind [] t false
  | _ => []

namespace Query

def withPhrases (q : Query) (ps : List Phrase) : Query :=
  ps.foldl (fun q p => q.juxtapose (.near { phrases := [p] })) q

/-- A single list of phrases, or a conjunction of such lists. -/
def IsFlat : Query → Prop
  | .near _ => True
  | .and qs => ∀ q ∈ qs, ∃ n, q = .near n
  | _ => False

theorem IsFlat.height_le {q : Query} (h : q.IsFlat) : q.height ≤ 1 := by
  match q with
  | .near _ => simp [height]
  | .and qs =>
    have hleaves : ∀ rs : List Query, (∀ r ∈ rs, ∃ n, r = .near n) → heightOf rs = 0 := by
      intro rs hrs
      induction rs with
      | nil => rfl
      | cons r rs ih =>
        obtain ⟨n, rfl⟩ := hrs r (by simp)
        simp [heightOf, height, ih fun q hq => hrs q (by simp [hq])]
    simp [height, hleaves qs h]

theorem IsFlat.checked {q : Query} (h : q.IsFlat) : q.checked = .ok q := by
  have hlimit : ¬heightLimit < q.height := Nat.not_lt_of_le (Nat.le_trans h.height_le (by decide))
  rw [Query.checked, if_neg hlimit]

theorem IsFlat.conjuncts {q : Query} (h : q.IsFlat) : ∀ r ∈ q.conjuncts, ∃ n, r = .near n := by
  match q with
  | .near n => simp [Query.conjuncts]
  | .and qs => exact h

theorem IsFlat.juxtapose {q : Query} (h : q.IsFlat) (n : Near) : (q.juxtapose (.near n)).IsFlat := by
  rw [Query.juxtapose]
  split
  · exact h
  split
  · trivial
  · intro r hr
    rcases List.mem_append.mp hr with hr | hr
    · exact h.conjuncts r hr
    · exact ⟨n, by simpa [Query.conjuncts] using hr⟩

end Query

namespace Grammar

theorem checkStack_ok {symbols : Nat} (h : symbols ≤ symbolLimit) : checkStack symbols = .ok () :=
  if_pos h

section

variable {ls : List Lexeme} (hw : ∀ l ∈ ls, l.IsWord) {kind : TokenizerKind} {h : Nat}

include hw

theorem refuseBad_words : refuseBad ls = .ok () := by
  cases ls with
  | nil => rfl
  | cons l r =>
    obtain ⟨s, t, rfl⟩ := hw l (by simp)
    rfl

theorem readScope_words : readScope h ls = .ok (none, ls) := by
  match ls with
  | [] => rfl
  | [l] =>
    obtain ⟨s, t, rfl⟩ := hw l (by simp)
    rfl
  | l :: l' :: r =>
    obtain ⟨s, t, rfl⟩ := hw l (by simp)
    obtain ⟨s', t', rfl⟩ := hw l' (by simp)
    rfl

theorem readStar_words (hs : h ≤ symbolLimit) : readStar h ls = .ok (false, ls) := by
  have hbad := refuseBad_words hw
  cases ls with
  | nil =>
    rw [readStar, checkStack_ok hs]
    · rfl
    · simp
  | cons l r =>
    obtain ⟨s, t, rfl⟩ := hw l (by simp)
    rw [readStar, checkStack_ok hs]
    · rfl
    · simp

theorem readMore_words (p : Phrase) (fuel : Nat) : readMore kind h p fuel ls = .ok (p, ls) := by
  cases fuel with
  | zero => rfl
  | succ fuel =>
    cases ls with
    | nil => rfl
    | cons l r =>
      obtain ⟨s, t, rfl⟩ := hw l (by simp)
      rfl

end

section

variable {s t : List Char} {ls : List Lexeme} (hw : ∀ l ∈ ls, l.IsWord) {kind : TokenizerKind}
  {h : Nat}

include hw

theorem readNear_words (hs : h + 2 ≤ symbolLimit) :
    readNear kind h (.word s t :: ls) = .ok ({ phrases := [addTerms kind [] t false] }, ls) := by
  have hphrase : readPhrase kind h (.word s t :: ls) = .ok (addTerms kind [] t false, ls) := by
    rw [readPhrase, checkStack_ok (by omega), readStar_words hw hs]
    exact readMore_words hw _ _
  cases ls with
  | nil => rw [readNear, hphrase]; rfl; all_goals simp
  | cons l r =>
    obtain ⟨s', t', rfl⟩ := hw l (by simp)
    rw [readNear, hphrase]; rfl; all_goals simp

theorem readJuxtaposed_words {q : Query} (hq : q.IsFlat) (hs : h + 3 ≤ symbolLimit) (fuel : Nat)
    (hfuel : ls.length ≤ fuel) :
    readJuxtaposed kind h q fuel ls = .ok (q.withPhrases (ls.map (Lexeme.phrase kind)), []) := by
  induction fuel generalizing q ls with
  | zero =>
    obtain rfl := List.length_eq_zero_iff.mp (Nat.le_zero.mp hfuel)
    rfl
  | succ fuel ih =>
    cases ls with
    | nil => rfl
    | cons l r =>
      have hr : ∀ l ∈ r, l.IsWord := fun l hl => hw l (by simp [hl])
      obtain ⟨s, t, rfl⟩ := hw l (by simp)
      have hflat := hq.juxtapose { phrases := [addTerms kind [] t false] }
      have hrest := ih hr hflat (by simpa using hfuel)
      have hnear := @readNear_words s t r hr kind (h + 1) hs
      simp only [readJuxtaposed, readScope_words hw, underScope, inScope, Option.isSome_none,
        reduceCtorEq, Bool.false_eq_true, if_false, hnear, refuseBad_words hr, bind, Except.bind,
        hflat.checked]
      exact hrest

theorem parse_words : parse kind (.word s t :: ls)
    = .ok ((Query.near { phrases := [addTerms kind [] t false] }).withPhrases
        (ls.map (Lexeme.phrase kind))) := by
  have hall : ∀ l ∈ .word s t :: ls, l.IsWord := by
    intro l hl
    rcases List.mem_cons.mp hl with rfl | hl
    · exact ⟨s, t, rfl⟩
    · exact hw l hl
  have hlimit : 0 + 3 ≤ symbolLimit := by decide
  have hnear := @readNear_words s t ls hw kind 0 (by decide)
  have hflat : (Query.near { phrases := [addTerms kind [] t false] }).IsFlat := trivial
  have hrest := @readJuxtaposed_words ls hw kind 0 _ hflat hlimit ls.length (Nat.le_refl _)
  have hoperand (fuel : Nat) : readOperand kind (fuel + 1) 0 (.word s t :: ls)
      = .ok ((Query.near { phrases := [addTerms kind [] t false] }).withPhrases
          (ls.map (Lexeme.phrase kind)), []) := by
    simp only [readOperand, readScope_words hall, underScope, inScope, Option.isSome_none,
      reduceCtorEq, Bool.false_eq_true, if_false, hnear, bind, Except.bind]
    exact hrest
  have hfuel : 3 * (Lexeme.word s t :: ls).length + 3 = 3 * ls.length + 4 + 1 + 1 := by simp; omega
  rw [parse, hfuel, readQuery, hoperand]
  simp [bind, Except.bind, readOperators, pure, Except.pure]

end

end Grammar

namespace Lexeme

/-- Texts of gaps, of characters from 128 on, and of words in quotes with no quote in them. -/
inductive OnlyWords : List Char → Prop
  | nil : OnlyWords []
  | gap {c : Char} {cs : List Char} (hc : isGap c = true) (h : OnlyWords cs) : OnlyWords (c :: cs)
  | bare {c : Char} {cs : List Char} (hc : 0x80 ≤ c.toNat) (h : OnlyWords cs) : OnlyWords (c :: cs)
  | quoted {t cs : List Char} (ht : ∀ c ∈ t, c ≠ '"' ∧ c ≠ '\x00') (hcs : cs.head? ≠ some '"')
    (h : OnlyWords cs) : OnlyWords ('"' :: (t ++ '"' :: cs))

theorem OnlyWords.dropWhile_isGap {cs : List Char} (h : OnlyWords cs) :
    OnlyWords (cs.dropWhile isGap) := by
  induction h with
  | nil => exact .nil
  | gap hc _ ih => rwa [List.dropWhile_cons_of_pos hc]
  | bare hc h ih =>
    rw [List.dropWhile_cons]
    split
    · exact ih
    · exact .bare hc h
  | quoted ht hcs h ih => exact .quoted ht hcs h

theorem OnlyWords.dropWhile_isBareChar {cs : List Char} (h : OnlyWords cs) :
    OnlyWords (cs.dropWhile isBareChar) := by
  induction h with
  | nil => exact .nil
  | gap hc h ih =>
    rw [List.dropWhile_cons]
    split
    · exact ih
    · exact .gap hc h
  | bare hc h ih => rwa [List.dropWhile_cons_of_pos (by simp [isBareChar, hc])]
  | quoted ht hcs h ih => exact .quoted ht hcs h

theorem OnlyWords.ne_null {cs : List Char} (h : OnlyWords cs) : ∀ c ∈ cs, c ≠ '\x00' := by
  induction h with
  | nil => simp
  | gap hc _ ih =>
    rintro c (_ | ⟨_, hmem⟩) rfl
    · simp [isGap] at hc
    · exact ih _ hmem rfl
  | bare hc _ ih =>
    rintro c (_ | ⟨_, hmem⟩) rfl
    · simp at hc
    · exact ih _ hmem rfl
  | quoted ht _ _ ih =>
    intro c hc
    simp only [List.mem_cons, List.mem_append] at hc
    rcases hc with rfl | hc | rfl | hc
    · decide
    · exact (ht c hc).2
    · decide
    · exact ih c hc

theorem readQuoted_plain {t cs : List Char} (ht : ∀ c ∈ t, c ≠ '"' ∧ c ≠ '\x00')
    (hcs : cs.head? ≠ some '"') : readQuoted (t ++ '"' :: cs) = some (t, cs) := by
  induction t with
  | nil =>
    match cs with
    | [] => rfl
    | c :: cs =>
      have hc : c ≠ '"' := by simpa using hcs
      rw [List.nil_append, readQuoted]
      intro r hr
      exact hc (List.cons.inj hr).1
  | cons c t ih =>
    have hc := (ht c (by simp)).1
    rw [List.cons_append, readQuoted, ih fun d hd => ht d (by simp [hd])]
    · rfl
    · exact fun _ hr _ => hc hr
    · exact hc

theorem mark?_of_high {c : Char} (hc : 0x80 ≤ c.toNat) : mark? c = none := by
  unfold mark?
  split <;> first | rfl | exact absurd hc (by decide)

theorem ofBare_of_high {c : Char} (hc : 0x80 ≤ c.toNat) (cs : List Char) :
    ofBare (c :: cs) = .word (c :: cs) (c :: cs) := by
  have hne {d : Char} (hd : d.toNat < 0x80) : c ≠ d := by
    rintro rfl
    omega
  simp [ofBare, hne (d := 'A') (by decide), hne (d := 'O') (by decide), hne (d := 'N') (by decide)]

theorem scan_onlyWords {cs : List Char} (h : OnlyWords cs) (fuel : Nat) :
    ∀ l ∈ scan fuel cs, l.IsWord := by
  induction fuel generalizing cs with
  | zero => simp [scan]
  | succ fuel ih =>
    have hrest := h.dropWhile_isGap
    have hfront := cs.head?_dropWhile_not isGap
    rw [scan]
    generalize cs.dropWhile isGap = ds at hrest hfront
    cases hrest with
    | nil => simp
    | gap hc => simp [hc] at hfront
    | bare hc hds =>
      rename_i c ds
      have hbare : isBareChar c = true := by simp [isBareChar, hc]
      have hquote : c ≠ '"' := by
        rintro rfl
        simp at hc
      simp only [mark?_of_high hc, if_neg hquote, hbare, if_true, List.takeWhile_cons_of_pos,
        ofBare_of_high hc, List.mem_cons]
      rintro l (rfl | hl)
      · exact ⟨_, _, rfl⟩
      · exact ih (OnlyWords.bare hc hds).dropWhile_isBareChar l hl
    | quoted ht hcs hds =>
      rename_i t ds
      have hmark : mark? '"' = none := rfl
      simp only [hmark, readQuoted_plain ht hcs, if_true, List.mem_cons]
      rintro l (rfl | hl)
      · exact ⟨_, _, rfl⟩
      · exact ih hds l hl

theorem scan_ne_nil {cs : List Char} {c : Char} (hc : c ∈ cs) (hgap : isGap c = false)
    (fuel : Nat) : scan (fuel + 1) cs ≠ [] := by
  have hdrop : cs.dropWhile isGap ≠ [] := by
    rw [Ne, List.dropWhile_eq_nil_iff]
    intro h
    rw [h c hc] at hgap
    cases hgap
  rw [scan]
  split
  · contradiction
  · split
    · simp
    · repeat' split
      all_goals simp

end Lexeme

end DocumentStore.Lexical
