import DocumentStore.Text.Blank
import Mathlib.Data.List.DropRight
import Mathlib.Data.List.TakeWhile

/-! Classes of characters, and white space around texts. Main statement: a text is its trimmed form
with white space on both sides, and trimming leaves a text alone that neither begins nor ends with
it. -/
namespace DocumentStore.Text

theorem takeWhile_append {p : Char → Bool} {cs rest : List Char} (hcs : ∀ c ∈ cs, p c = true)
    (hrest : ∀ c ∈ rest.head?, p c = false) :
    (cs ++ rest).takeWhile p = cs ∧ (cs ++ rest).dropWhile p = rest := by
  rw [List.takeWhile_append_of_pos hcs, List.dropWhile_append_of_pos hcs]
  cases rest with
  | nil => simp
  | cons c rest => simp [hrest c rfl]

theorem toNat_of_isDigit {c : Char} (h : c.isDigit = true) : 48 ≤ c.toNat ∧ c.toNat ≤ 57 := by
  simp only [Char.isDigit, Bool.and_eq_true, decide_eq_true_eq, UInt32.le_iff_toNat_le] at h
  exact h

theorem isBlank_of_visible {c : Char} (hlow : 0x21 ≤ c.toNat) (hhigh : c.toNat < 0x7f) :
    isBlank c = false := by
  simp only [isBlank, Bool.or_eq_false_iff, Bool.and_eq_false_iff, beq_eq_false_iff_ne,
    decide_eq_false_iff_not]
  omega

theorem isBlank_of_isDigit {c : Char} (h : c.isDigit = true) : isBlank c = false := by
  have hbounds := toNat_of_isDigit h
  exact isBlank_of_visible (by omega) (by omega)

theorem trimChars_eq {cs : List Char} (hhead : ∀ c ∈ cs.head?, isBlank c = false)
    (hlast : ∀ c ∈ cs.getLast?, isBlank c = false) : trimChars cs = cs := by
  have hdrop {ds : List Char} (h : ∀ c ∈ ds.head?, isBlank c = false) :
      ds.dropWhile isBlank = ds := by
    cases ds with
    | nil => rfl
    | cons d ds => simp [h d rfl]
  rw [trimChars, hdrop hhead, hdrop (by simpa [List.head?_reverse] using hlast),
    List.reverse_reverse]

theorem trimChars_of_ends {cs : List Char} {a b : Char} (ha : isBlank a = false)
    (hb : isBlank b = false) (hhead : cs.head? = some a) (hlast : cs.getLast? = some b) :
    trimChars cs = cs := by
  refine trimChars_eq ?_ ?_
  · rw [hhead]
    rintro _ ⟨⟩
    exact ha
  · rw [hlast]
    rintro _ ⟨⟩
    exact hb

theorem trimChars_ends (cs : List Char) :
    (∀ c ∈ (trimChars cs).head?, isBlank c = false)
      ∧ ∀ c ∈ (trimChars cs).getLast?, isBlank c = false := by
  have hdrop (ds : List Char) : ∀ c ∈ (ds.dropWhile isBlank).head?, isBlank c = false := by
    intro c hc
    have hnot := List.head?_dropWhile_not isBlank ds
    rwa [hc] at hnot
  refine ⟨fun c hc => hdrop cs c ?_, fun c hc => hdrop (cs.dropWhile isBlank).reverse c ?_⟩
  · obtain ⟨rest, hrest⟩ : trimChars cs <+: cs.dropWhile isBlank := List.rdropWhile_prefix isBlank _
    rw [← hrest, List.head?_append, hc]
    rfl
  · rwa [trimChars, List.getLast?_reverse] at hc

theorem trim_trim (s : String) : trim (trim s) = trim s := by
  have hends := trimChars_ends s.toList
  rw [trim, trim, String.toList_ofList, trimChars_eq hends.1 hends.2]

theorem trimChars_eq_nil {cs : List Char} : trimChars cs = [] ↔ ∀ c ∈ cs, isBlank c = true := by
  rw [trimChars, List.reverse_eq_nil_iff, List.dropWhile_eq_nil_iff]
  constructor
  · intro h
    apply List.dropWhile_eq_nil_iff.mp
    by_contra hne
    obtain ⟨d, ds, hds⟩ := List.exists_cons_of_ne_nil hne
    have hnot := List.head?_dropWhile_not isBlank cs
    rw [hds] at hnot
    have hd := h d (by simp [hds])
    simp [hd] at hnot
  · intro h c hc
    rw [List.mem_reverse, List.dropWhile_eq_nil_iff.mpr h] at hc
    cases hc

theorem blank_eq_false {s : String} : blank s = false ↔ ∃ c ∈ s.toList, isBlank c = false := by
  rw [blank, ← Bool.not_eq_true, List.isEmpty_iff, trimChars_eq_nil]
  simp

theorem trimChars_surrounded {before after : List Char} (cs : List Char)
    (hbefore : ∀ c ∈ before, isBlank c = true) (hafter : ∀ c ∈ after, isBlank c = true) :
    trimChars (before ++ (cs ++ after)) = trimChars cs := by
  have hafter' : ∀ c ∈ after.reverse, isBlank c = true := by simpa using hafter
  rw [trimChars, trimChars, List.dropWhile_append_of_pos hbefore, List.dropWhile_append]
  split
  · rename_i hempty
    rw [List.dropWhile_eq_nil_iff.mpr hafter, List.isEmpty_iff.mp hempty]
  · rw [List.reverse_append, List.dropWhile_append_of_pos hafter']

theorem trimChars_append {before cs after : List Char} {a b : Char}
    (hbefore : ∀ c ∈ before, isBlank c = true) (hafter : ∀ c ∈ after, isBlank c = true)
    (ha : isBlank a = false) (hb : isBlank b = false) (hhead : cs.head? = some a)
    (hlast : cs.getLast? = some b) : trimChars (before ++ (cs ++ after)) = cs := by
  rw [trimChars_surrounded cs hbefore hafter, trimChars_of_ends ha hb hhead hlast]

theorem exists_trim (s : String) : ∃ before after,
    s.toList = before ++ ((trim s).toList ++ after)
      ∧ (∀ c ∈ before, isBlank c = true) ∧ ∀ c ∈ after, isBlank c = true := by
  have hends (cs : List Char) : ∀ c ∈ cs.takeWhile isBlank, isBlank c = true :=
    fun c hc => List.mem_takeWhile_imp hc
  let rest := s.toList.dropWhile isBlank
  refine ⟨s.toList.takeWhile isBlank, (rest.reverse.takeWhile isBlank).reverse, ?_,
    hends _, by simpa using hends rest.reverse⟩
  have hrest : (rest.reverse.dropWhile isBlank).reverse
      ++ (rest.reverse.takeWhile isBlank).reverse = rest := by
    rw [← List.reverse_append, List.takeWhile_append_dropWhile, List.reverse_reverse]
  rw [trim, String.toList_ofList, trimChars, hrest, List.takeWhile_append_dropWhile]

end DocumentStore.Text
