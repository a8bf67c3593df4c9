import DocumentStore.Proofs.Filter.Meaning
import DocumentStore.Proofs.Filter.Syntax

/-! How the text of a condition is read piece by piece: paths, tokens, tests of a field, and
operands in parentheses with connectives between them. Each piece is read with whatever may follow
it. -/
namespace DocumentStore

/-- Whether the keys of a path can stand in the text of a statement. -/
def Field.IsPlain : Field → Prop
  | .column _ => True
  | .path keys => ∀ k ∈ keys, ∀ c ∈ k.toList, isKeyChar c = true

namespace Field

theorem text_path (keys : List String) :
    (path keys).text = "json_extract(meta, '" ++ String.ofList (pathChars keys) ++ "')" := rfl

theorem isKeyChar_ne {c d : Char} (hc : isKeyChar c = true) (hd : isKeyChar d = false) : c ≠ d := by
  rintro rfl
  rw [hc] at hd
  cases hd

theorem checkKeys_plain {segments : List (List Char)} {keys : List String}
    (h : checkKeys segments = .ok keys) : (Field.path keys).IsPlain := by
  induction segments generalizing keys with
  | nil =>
    obtain rfl : [] = keys := Except.ok.inj h
    simp [IsPlain]
  | cons s ss ih =>
    rw [checkKeys] at h
    split at h
    · cases h
    · rename_i hfault
      obtain ⟨keys', hkeys, rfl⟩ := map_eq_ok h
      have hchars : ∀ c ∈ s, isKeyChar c = true := by
        unfold keyFault? at hfault
        split at hfault
        · cases hfault
        · simpa using hfault
      intro k hk
      rcases List.mem_cons.mp hk with rfl | hk
      · simpa using hchars
      · exact ih hkeys k hk

theorem plain_of_ofText {s : String} {field : Field} (h : ofText s = .ok field) :
    field.IsPlain := by
  unfold ofText at h
  split at h
  · split at h
    · rename_i hkeys
      cases h
      exact checkKeys_plain hkeys
    · cases h
  · split at h
    · cases h
      trivial
    · cases h

end Field

namespace Syntax

def EndsKey (rest : List Char) : Prop := ∀ c ∈ rest.head?, c = '.'

theorem readSteps_bare {cs rest : List Char} (hcs : ∀ c ∈ cs, c ≠ '.') (hrest : EndsKey rest)
    (k : List Char) :
    readSteps (.bare k) (cs ++ rest)
      = (readSteps .done rest).map (String.ofList (k ++ cs) :: ·) := by
  induction cs generalizing k with
  | nil =>
    cases rest with
    | nil => simp [readSteps]
    | cons c rest =>
      obtain rfl : c = '.' := hrest c rfl
      simp [readSteps]
  | cons c cs ih =>
    have hc : c ≠ '.' := hcs c (by simp)
    simp [readSteps, hc, ih fun d hd => hcs d (by simp [hd])]

theorem readSteps_quoted {cs : List Char} (hcs : ∀ c ∈ cs, c ≠ '"') (k rest : List Char) :
    readSteps (.quoted k) (cs ++ '"' :: rest)
      = (readSteps .done rest).map (String.ofList (k ++ cs) :: ·) := by
  induction cs generalizing k with
  | nil => simp [readSteps]
  | cons c cs ih =>
    have hc : c ≠ '"' := hcs c (by simp)
    simp [readSteps, hc, ih fun d hd => hcs d (by simp [hd])]

theorem stepChars_front (key : String) : ∃ cs, Field.stepChars key = '.' :: cs := by
  unfold Field.stepChars
  split
  · split
    · exact ⟨_, rfl⟩
    · exact ⟨_, rfl⟩
  · exact ⟨_, rfl⟩

theorem readSteps_stepChars {key : String} (hkey : ∀ c ∈ key.toList, Field.isKeyChar c = true)
    {rest : List Char} (hrest : EndsKey rest) :
    readSteps .done (Field.stepChars key ++ rest) = (readSteps .done rest).map (key :: ·) := by
  have hquoted : ∀ c ∈ key.toList, c ≠ '"' := fun c hc =>
    Field.isKeyChar_ne (hkey c hc) (by decide)
  unfold Field.stepChars
  split
  · rename_i c cs hchars
    rw [hchars] at hkey hquoted
    split
    · rename_i hbare
      simp only [Bool.and_eq_true, List.all_eq_true] at hbare
      have hpoint : ∀ d ∈ cs, d ≠ '.' := by
        rintro d hd rfl
        have hd' := hbare.2 '.' (by simp [hd])
        revert hd'
        decide
      have hc : c ≠ '"' := hquoted c (by simp)
      have hkey' : String.ofList (c :: cs) = key := by rw [← hchars, String.ofList_toList]
      have hread := readSteps_bare hpoint hrest [c]
      simpa [readSteps, hc, hkey'] using hread
    · have hread := readSteps_quoted hquoted [] rest
      simpa [readSteps, ← hchars] using hread
  · rename_i hchars
    have hempty : key = "" := by simpa using hchars
    simp [readSteps, hempty]

theorem readPath_pathChars {keys : List String} (h : (Field.path keys).IsPlain) :
    readPath (Field.pathChars keys) = some keys := by
  have hsteps : readSteps .done (keys.flatMap Field.stepChars) = some keys := by
    induction keys with
    | nil => rfl
    | cons k ks ih =>
      have hrest : EndsKey (ks.flatMap Field.stepChars) := by
        cases ks with
        | nil => simp [EndsKey]
        | cons k' ks =>
          obtain ⟨cs, hcs⟩ := stepChars_front k'
          simp [EndsKey, hcs]
      rw [List.flatMap_cons, readSteps_stepChars (h k (by simp)) hrest,
        ih fun k' hk' => h k' (by simp [hk'])]
      rfl
  exact hsteps

section

variable {n m : ℕ} {rest : List Char}

/-- A text that does not go on with a word that stands before it. -/
def EndsWord (rest : List Char) : Prop := ∀ c ∈ rest.head?, Scan.isWordChar c = false

abbrev scan (n : ℕ) (cs : List Char) : List Token := Scan.tokens ⟨n, .between⟩ cs

@[simp] theorem scan_blank (r : List Char) : scan n (' ' :: r) = scan n r := rfl

@[simp] theorem scan_opening (r : List Char) : scan n ('(' :: r) = .opening :: scan n r := rfl

@[simp] theorem scan_closing (r : List Char) : scan n (')' :: r) = .closing :: scan n r := rfl

@[simp] theorem scan_slot (r : List Char) :
    scan n ('?' :: r) = .parameter n :: scan (n + 1) r := rfl

theorem tokens_word (hrest : EndsWord rest) (w : List Char) :
    Scan.tokens ⟨n, .word w⟩ rest = .ofWord w :: scan n rest := by
  cases rest with
  | nil => rfl
  | cons c rest => simp [Scan.tokens, Scan.step, hrest c rfl]

theorem tokens_quoted {cs : List Char} (hcs : ∀ c ∈ cs, c ≠ '\'') (q : List Char) :
    Scan.tokens ⟨n, .quoted q⟩ (cs ++ '\'' :: rest) = .quoted (q ++ cs) :: scan n rest := by
  induction cs generalizing q with
  | nil => simp [Scan.tokens, Scan.step]
  | cons c cs ih =>
    have hc : c ≠ '\'' := hcs c (by simp)
    simp [Scan.tokens, Scan.step, hc, ih fun d hd => hcs d (by simp [hd])]

def fieldTokens : Field → List Token
  | .column c => [.column c]
  | .path keys =>
    [.keyword .jsonExtract, .opening, .column .metadata, .comma, .quoted (Field.pathChars keys),
      .closing]

theorem mem_stepChars {key : String} {c : Char} (hc : c ∈ Field.stepChars key) :
    c = '.' ∨ c = '"' ∨ c ∈ key.toList := by
  unfold Field.stepChars at hc
  split at hc
  · rename_i d cs hchars
    rw [hchars]
    split at hc
    · simp only [List.mem_cons] at hc ⊢
      tauto
    · simp only [List.mem_cons, List.mem_append, List.not_mem_nil, or_false] at hc ⊢
      tauto
  · simp only [List.mem_cons, List.not_mem_nil, or_false] at hc
    tauto

theorem pathChars_ne {keys : List String} (h : (Field.path keys).IsPlain) {d : Char}
    (hd : Field.isKeyChar d = false) (hpunctuation : d ∉ ['$', '.', '"']) :
    ∀ c ∈ Field.pathChars keys, c ≠ d := by
  simp only [List.mem_cons, List.not_mem_nil, or_false, not_or] at hpunctuation
  obtain ⟨hdollar, hpoint, hquote⟩ := hpunctuation
  intro c hc
  rcases List.mem_cons.mp hc with rfl | hc
  · exact Ne.symm hdollar
  · obtain ⟨k, hk, hc⟩ := List.mem_flatMap.mp hc
    rcases mem_stepChars hc with rfl | rfl | hc
    · exact Ne.symm hpoint
    · exact Ne.symm hquote
    · exact Field.isKeyChar_ne (h k hk c hc) hd

theorem tokens_wordChars {cs : List Char} (hcs : ∀ c ∈ cs, Scan.isWordChar c = true)
    (hrest : EndsWord rest) (w : List Char) :
    Scan.tokens ⟨n, .word w⟩ (cs ++ rest) = .ofWord (w ++ cs) :: scan n rest := by
  induction cs generalizing w with
  | nil => simpa using tokens_word hrest w
  | cons c cs ih =>
    have hc : Scan.isWordChar c = true := hcs c (by simp)
    simp [Scan.tokens, Scan.step, hc, ih fun d hd => hcs d (by simp [hd])]

theorem scan_word {w : List Char} (hne : w ≠ []) (hw : w.all Scan.isWordChar = true)
    (hrest : EndsWord rest) : scan n (w ++ rest) = .ofWord w :: scan n rest := by
  obtain ⟨c, cs, rfl⟩ := List.exists_cons_of_ne_nil hne
  simp only [List.all_cons, Bool.and_eq_true, List.all_eq_true] at hw
  simpa [scan, Scan.tokens, Scan.step, Scan.start, hw.1] using tokens_wordChars hw.2 hrest [c]

theorem scan_keyword (k : Keyword) (hrest : EndsWord rest) :
    scan n (k.spelling.toList ++ rest) = .keyword k :: scan n rest := by
  have hne : k.spelling.toList ≠ [] := by cases k <;> decide
  have hw : k.spelling.toList.all Scan.isWordChar = true := by cases k <;> rfl
  have hword : Token.ofWord k.spelling.toList = .keyword k := by cases k <;> rfl
  rw [scan_word hne hw hrest, hword]

theorem scan_keyword_blank (k : Keyword) (r : List Char) :
    scan n (k.spelling.toList ++ ' ' :: r) = .keyword k :: scan n r :=
  scan_keyword k (by rintro _ ⟨⟩; decide)

theorem scan_column (c : Column) (hrest : EndsWord rest) :
    scan n (c.name.toList ++ rest) = .column c :: scan n rest := by
  have hne : c.name.toList ≠ [] := by cases c <;> decide
  have hw : c.name.toList.all Scan.isWordChar = true := by cases c <;> rfl
  have hword : Token.ofWord c.name.toList = .column c := by cases c <;> rfl
  rw [scan_word hne hw hrest, hword]

theorem endsWord_cons {c : Char} (hc : Scan.isWordChar c = false) (cs : List Char) :
    EndsWord (c :: cs) := by
  rintro _ ⟨⟩
  exact hc

theorem scan_field {field : Field} (h : field.IsPlain) :
    scan n (field.text.toList ++ ' ' :: rest) = fieldTokens field ++ scan n rest := by
  cases field with
  | column c => exact scan_column c (endsWord_cons (by decide) rest)
  | path keys =>
    have hquoted : Scan.tokens ⟨n, .quoted []⟩ (Field.pathChars keys ++ '\'' :: ')' :: ' ' :: rest)
        = .quoted ([] ++ Field.pathChars keys) :: scan n (')' :: ' ' :: rest) :=
      tokens_quoted (pathChars_ne h (by decide) (by decide)) []
    have hfront : "json_extract(meta, '".toList = Keyword.jsonExtract.spelling.toList
        ++ '(' :: (Column.metadata.name.toList ++ [',', ' ', '\'']) := by decide
    have hback : "')".toList = ['\'', ')'] := by decide
    have hchars : (Field.path keys).text.toList ++ ' ' :: rest
        = Keyword.jsonExtract.spelling.toList ++ ('(' :: (Column.metadata.name.toList
          ++ (',' :: ' ' :: '\'' :: (Field.pathChars keys ++ '\'' :: ')' :: ' ' :: rest)))) := by
      rw [Field.text_path, String.toList_append, String.toList_append, hfront, hback,
        String.toList_ofList]
      simp only [List.append_assoc, List.cons_append, List.nil_append]
    have hcomma (r : List Char) :
        scan n (',' :: ' ' :: '\'' :: r) = .comma :: Scan.tokens ⟨n, .quoted []⟩ r := rfl
    rw [hchars, scan_keyword _ (endsWord_cons (by decide) _), scan_opening,
      scan_column _ (endsWord_cons (by decide) _), hcomma, hquoted]
    rfl

/-- A piece of a text that is read as an expression, whatever stops it. Its question marks are
numbered from `n`, and those after it from `m`. -/
def Reads (operand : Reader (Expr Atom)) (stop : List Char → Prop) (n m : ℕ) (cs : List Char)
    (e : Expr Atom) : Prop :=
  ∀ rest, stop rest → operand (scan n (cs ++ rest)) = some (e, scan m rest)

/-- The same for pieces one after another. -/
inductive ReadsAll (operand : Reader (Expr Atom)) (stop : List Char → Prop) :
    ℕ → ℕ → List (List Char) → List (Expr Atom) → Prop where
  | nil (n : ℕ) : ReadsAll operand stop n n [] []
  | cons {n l m : ℕ} {cs : List Char} {e : Expr Atom} {css : List (List Char)}
      {es : List (Expr Atom)} (h : Reads operand stop n l cs e)
      (hs : ReadsAll operand stop l m css es) : ReadsAll operand stop n m (cs :: css) (e :: es)

def link (k : Connective) : List Char := ' ' :: (k.keyword.spelling.toList ++ [' '])

def linked (k : Connective) (css : List (List Char)) : List Char := css.flatMap (link k ++ ·)

theorem linked_nil (k : Connective) : linked k [] = [] := rfl

theorem length_linked (k : Connective) (css : List (List Char)) :
    css.length ≤ (linked k css).length ∧ ∀ cs ∈ css, cs.length ≤ (linked k css).length := by
  induction css with
  | nil => simp [linked]
  | cons cs css ih =>
    have hlength : (linked k (cs :: css)).length
        = (link k).length + cs.length + (linked k css).length := by simp [linked, Nat.add_assoc]
    have hlink : 0 < (link k).length := by simp [link]
    rw [hlength]
    refine ⟨by simp only [List.length_cons]; omega, fun ds hds => ?_⟩
    rcases List.mem_cons.mp hds with rfl | hds
    · omega
    · have hle := ih.2 ds hds
      omega

def NoLink (k : Connective) (rest : List Char) : Prop :=
  ∀ n, (scan n rest).head? ≠ some (.keyword k.keyword)

variable {operand : Reader (Expr Atom)} {stop : List Char → Prop} {k : Connective}
  {fuel l : ℕ} {cs : List Char} {css : List (List Char)} {e : Expr Atom} {es : List (Expr Atom)}

theorem endsWord_link (k : Connective) (r : List Char) : EndsWord (link k ++ r) :=
  endsWord_cons (by decide) _

theorem scan_link (k : Connective) (r : List Char) :
    scan n (link k ++ r) = .keyword k.keyword :: scan n r := by
  simp [link, scan_keyword_blank]

theorem ReadsAll.imp {operand' : Reader (Expr Atom)} {stop' : List Char → Prop}
    (h : ReadsAll operand stop n m css es)
    (himp : ∀ {n m cs e}, Reads operand stop n m cs e → Reads operand' stop' n m cs e) :
    ReadsAll operand' stop' n m css es := by
  induction h with
  | nil n => exact .nil n
  | cons h _ ih => exact .cons (himp h) ih

theorem readChain_linked (h : ReadsAll operand stop n m css es) (hfuel : css.length < fuel)
    (hlink : ∀ r, stop (link k ++ r)) (hstop : stop rest) (hend : NoLink k rest) (e : Expr Atom) :
    readChain operand k fuel e (scan n (linked k css ++ rest))
      = some (es.foldl (.join k) e, scan m rest) := by
  induction h generalizing fuel e with
  | nil n =>
    obtain ⟨fuel, rfl⟩ := Nat.exists_eq_add_one_of_ne_zero (Nat.ne_zero_of_lt hfuel)
    have hhead := hend n
    simp [readChain, linked, hhead]
  | @cons n l m cs e' css es hread _ ih =>
    obtain ⟨fuel, rfl⟩ := Nat.exists_eq_add_one_of_ne_zero (Nat.ne_zero_of_lt hfuel)
    have hnext : stop (linked k css ++ rest) := by
      cases css with
      | nil => simpa [linked] using hstop
      | cons cs css => simpa [linked] using hlink _
    have hsplit : linked k (cs :: css) ++ rest = link k ++ (cs ++ (linked k css ++ rest)) := by
      simp [linked]
    rw [hsplit, scan_link]
    simp only [readChain, List.head?_cons, if_true, List.tail_cons, hread _ hnext,
      Option.bind_some, List.foldl_cons]
    exact ih (by simpa using hfuel) _

theorem Reads.joined (h : Reads operand stop n l cs e) (hs : ReadsAll operand stop l m css es)
    (hfuel : css.length < fuel) (hlink : ∀ r, stop (link k ++ r)) :
    Reads (readJoined operand k fuel) (fun r => stop r ∧ NoLink k r) n m (cs ++ linked k css)
      (es.foldl (.join k) e) := by
  rintro rest ⟨hstop, hend⟩
  have hnext : stop (linked k css ++ rest) := by
    cases css with
    | nil => simpa [linked] using hstop
    | cons cs css => simpa [linked] using hlink _
  rw [List.append_assoc, readJoined, h _ hnext]
  exact readChain_linked hs hfuel hlink hstop hend e

def EndsConjunction (rest : List Char) : Prop := EndsWord rest ∧ NoLink .and rest

theorem endsConjunction_or (r : List Char) : EndsConjunction (link .or ++ r) := by
  refine ⟨endsWord_link .or r, fun n => ?_⟩
  rw [scan_link]
  simp [Connective.keyword]

theorem Reads.conjunction (h : Reads operand EndsWord n m cs e) (hfuel : 0 < fuel) :
    Reads (readConjunction operand fuel) EndsConjunction n m cs e := by
  have hjoined := h.joined (k := .and) (.nil m) hfuel (endsWord_link .and)
  rw [linked_nil, List.append_nil] at hjoined
  exact hjoined

theorem Reads.disjunction (h : Reads (readConjunction operand fuel) EndsConjunction n m cs e)
    (hfuel : 0 < fuel) :
    Reads (readDisjunction operand fuel) (fun r => EndsConjunction r ∧ NoLink .or r) n m cs e := by
  have hjoined := h.joined (k := .or) (.nil m) hfuel endsConjunction_or
  rw [linked_nil, List.append_nil] at hjoined
  exact hjoined

theorem Reads.parentheses
    (h : Reads (readDisjunction (readNegation fuel) fuel)
      (fun r => EndsConjunction r ∧ NoLink .or r) n m cs e) :
    Reads (readNegation (fuel + 1)) EndsWord n m ('(' :: (cs ++ [')'])) e := by
  intro rest _
  have hend (k : Connective) : NoLink k (')' :: rest) := by simp [NoLink]
  have hread := h (')' :: rest) ⟨⟨endsWord_cons (by decide) _, hend .and⟩, hend .or⟩
  simp only [List.cons_append, List.append_assoc, List.nil_append, scan_opening, readNegation,
    hread, scan_closing]

theorem Reads.join (h : Reads (readNegation fuel) EndsWord n l cs e)
    (hs : ReadsAll (readNegation fuel) EndsWord l m css es) (hfuel : css.length < fuel) :
    Reads (readNegation (fuel + 1)) EndsWord n m ('(' :: (cs ++ linked k css ++ [')']))
      (es.foldl (.join k) e) := by
  have hpos : 0 < fuel := by omega
  apply Reads.parentheses
  cases k with
  | and => exact (h.joined hs hfuel (endsWord_link .and)).disjunction hpos
  | or =>
    exact (h.conjunction hpos).joined (hs.imp fun h => h.conjunction hpos) hfuel endsConjunction_or

theorem Reads.not (h : Reads (readNegation fuel) EndsWord n m cs e) :
    Reads (readNegation (fuel + 1)) EndsWord n m (Keyword.not.spelling.toList ++ ' ' :: cs)
      (.not e) := by
  intro rest hrest
  rw [List.append_assoc, List.cons_append, scan_keyword_blank, readNegation, h rest hrest]
  rfl

theorem reads_atom {field : Field} (hfield : field.IsPlain) {p : Predicate}
    (h : ∀ rest, EndsWord rest → readPredicate (scan n (cs ++ rest)) = some (p, scan m rest)) :
    Reads (readNegation (fuel + 1)) EndsWord n m (field.text.toList ++ ' ' :: cs)
      (.leaf ⟨field, p⟩) := by
  intro rest hrest
  rw [List.append_assoc, List.cons_append, scan_field hfield]
  have hatom (ts : List Token) : readNegation (fuel + 1) (fieldTokens field ++ ts)
      = (readAtom (fieldTokens field ++ ts)).map fun p => (.leaf p.1, p.2) := by
    cases field <;> rfl
  have hread (ts : List Token) : readField (fieldTokens field ++ ts) = some (field, ts) := by
    cases field with
    | column c => rfl
    | path keys => simp [fieldTokens, readField, readPath_pathChars hfield]
  rw [hatom, readAtom, hread, Option.bind_some, h rest hrest]
  rfl

theorem readPredicate_isNull (hrest : EndsWord rest) :
    readPredicate (scan n ("IS NULL".toList ++ rest)) = some (.isNull, scan n rest) := by
  have hchars : "IS NULL".toList
      = Keyword.is.spelling.toList ++ ' ' :: Keyword.null.spelling.toList := by decide
  rw [hchars, List.append_assoc, List.cons_append, scan_keyword_blank, scan_keyword _ hrest]
  rfl

theorem readPredicate_isNot (rest : List Char) :
    readPredicate (scan n ("IS NOT ?".toList ++ rest))
      = some (.isNot n, scan (n + 1) rest) := by
  have hchars : "IS NOT ?".toList
      = Keyword.is.spelling.toList ++ ' ' :: (Keyword.not.spelling.toList ++ [' ', '?']) := by
    decide
  simp only [hchars, List.append_assoc, List.cons_append, List.nil_append, scan_keyword_blank,
    scan_slot]
  rfl

theorem readPredicate_compare (r : Relation) (rest : List Char) :
    readPredicate (scan n (r.symbol.toList ++ ' ' :: '?' :: rest))
      = some (.compare r n, scan (n + 1) rest) := by
  cases r <;> rfl

def listChars : List Char :=
  '(' :: (Keyword.select.spelling.toList ++ ' ' :: (Keyword.value.spelling.toList
    ++ ' ' :: (Keyword.from.spelling.toList ++ ' ' :: (Keyword.jsonEach.spelling.toList
    ++ ['(', '?', ')', ')']))))

theorem readList_listChars (rest : List Char) :
    readList (scan n (listChars ++ rest)) = some (n, scan (n + 1) rest) := by
  have hcall (r : List Char) : scan n (Keyword.jsonEach.spelling.toList ++ '(' :: r)
      = .keyword .jsonEach :: .opening :: scan n r :=
    scan_keyword _ (endsWord_cons (by decide) r)
  simp only [listChars, List.cons_append, List.append_assoc, List.nil_append, scan_opening,
    scan_slot, scan_closing, scan_keyword_blank, hcall]
  rfl

theorem readPredicate_among (rest : List Char) :
    readPredicate (scan n (Keyword.in.spelling.toList ++ ' ' :: listChars ++ rest))
      = some (.among n, scan (n + 1) rest) := by
  rw [List.append_assoc, List.cons_append, scan_keyword_blank, readPredicate, readList_listChars]
  rfl

theorem readPredicate_notAmong (rest : List Char) :
    readPredicate (scan n (Keyword.not.spelling.toList ++ ' '
      :: (Keyword.in.spelling.toList ++ ' ' :: listChars) ++ rest))
      = some (.notAmong n, scan (n + 1) rest) := by
  simp only [List.append_assoc, List.cons_append, scan_keyword_blank]
  rw [readPredicate, readList_listChars]
  rfl

def testExpr (field : Field) (slot : ℕ) : Test → Expr Atom
  | .isNull => .leaf ⟨field, .isNull⟩
  | .isNot _ => .leaf ⟨field, .isNot slot⟩
  | .compare r _ => .leaf ⟨field, .compare r slot⟩
  | .among _ => .leaf ⟨field, .among slot⟩
  | .notAmong _ => .join .or (.leaf ⟨field, .isNull⟩) (.leaf ⟨field, .notAmong slot⟩)

theorem reads_test {field : Field} (hfield : field.IsPlain) (t : Test) (hfuel : 2 ≤ fuel) :
    Reads (readNegation (fuel + 1)) EndsWord n (n + t.parameters.length)
      (t.text field.text).toList (testExpr field n t) := by
  have hnull {fuel : ℕ} : Reads (readNegation (fuel + 1)) EndsWord n n
      (field.text.toList ++ ' ' :: "IS NULL".toList) (.leaf ⟨field, .isNull⟩) :=
    reads_atom hfield fun rest hrest => readPredicate_isNull hrest
  cases t with
  | isNull =>
    have hchars : " IS NULL".toList = ' ' :: "IS NULL".toList := by decide
    rw [Test.text, String.toList_append, hchars]
    exact hnull
  | isNot v =>
    have hchars : " IS NOT ?".toList = ' ' :: "IS NOT ?".toList := by decide
    rw [Test.text, String.toList_append, hchars]
    exact reads_atom hfield fun rest _ => readPredicate_isNot rest
  | compare r v =>
    have hchars : ((Test.compare r v).text field.text).toList
        = field.text.toList ++ ' ' :: (r.symbol.toList ++ [' ', '?']) := by
      simp [Test.text]
    rw [hchars]
    refine reads_atom hfield fun rest _ => ?_
    rw [List.append_assoc]
    exact readPredicate_compare r rest
  | among list =>
    have hchars : " IN (SELECT value FROM json_each(?))".toList
        = ' ' :: (Keyword.in.spelling.toList ++ ' ' :: listChars) := by decide
    rw [Test.text, String.toList_append, hchars]
    exact reads_atom hfield fun rest _ => readPredicate_among rest
  | notAmong list =>
    obtain ⟨fuel, rfl⟩ := Nat.exists_eq_add_of_le' (Nat.le_of_succ_le hfuel)
    have hin : Reads (readNegation (fuel + 1)) EndsWord n (n + 1)
        (field.text.toList ++ ' ' :: (Keyword.not.spelling.toList ++ ' '
          :: (Keyword.in.spelling.toList ++ ' ' :: listChars))) (.leaf ⟨field, .notAmong n⟩) :=
      reads_atom hfield fun rest _ => readPredicate_notAmong rest
    have hchars : ((Test.notAmong list).text field.text).toList
        = '(' :: (field.text.toList ++ ' ' :: "IS NULL".toList ++ linked .or
          [field.text.toList ++ ' ' :: (Keyword.not.spelling.toList ++ ' '
            :: (Keyword.in.spelling.toList ++ ' ' :: listChars))] ++ [')']) := by
      have hopening : "(".toList = ['('] := by decide
      have hor : " IS NULL OR ".toList = ' ' :: "IS NULL".toList ++ link .or := by decide
      have hlist : " NOT IN (SELECT value FROM json_each(?)))".toList
          = ' ' :: (Keyword.not.spelling.toList ++ ' '
            :: (Keyword.in.spelling.toList ++ ' ' :: listChars)) ++ [')'] := by decide
      simp only [Test.text, String.toList_append, hopening, hor, hlist, linked, List.flatMap_cons,
        List.flatMap_nil, List.append_assoc, List.cons_append, List.nil_append]
    rw [hchars]
    have hfuel' : 1 < fuel + 1 := by omega
    exact hnull.join (k := .or) (.cons hin (.nil _)) hfuel'

theorem count_text_test {field : Field} (hfield : field.IsPlain) (t : Test) :
    (t.text field.text).toList.count '?' = t.parameters.length := by
  have hzero : field.text.toList.count '?' = 0 := by
    cases field with
    | column c => cases c <;> decide
    | path keys =>
      have hfront : "json_extract(meta, '".toList.count '?' = 0 := by decide
      have hback : "')".toList.count '?' = 0 := by decide
      have hpath : (Field.pathChars keys).count '?' = 0 :=
        List.count_eq_zero.mpr fun hmem => pathChars_ne hfield (by decide) (by decide) _ hmem rfl
      rw [Field.text_path, String.toList_append, String.toList_append, List.count_append,
        List.count_append, hfront, hback, String.toList_ofList, hpath]
  cases t with
  | isNull =>
    have h : " IS NULL".toList.count '?' = 0 := by decide
    rw [Test.text, String.toList_append, List.count_append, hzero, h]
    rfl
  | isNot v =>
    have h : " IS NOT ?".toList.count '?' = 1 := by decide
    rw [Test.text, String.toList_append, List.count_append, hzero, h]
    rfl
  | compare r v =>
    have hblank : " ".toList.count '?' = 0 := by decide
    have hsymbol : r.symbol.toList.count '?' = 0 := by cases r <;> decide
    have hmark : " ?".toList.count '?' = 1 := by decide
    simp only [Test.text, String.toList_append, List.count_append, hzero, hblank, hsymbol, hmark]
    rfl
  | among list =>
    have h : " IN (SELECT value FROM json_each(?))".toList.count '?' = 1 := by decide
    rw [Test.text, String.toList_append, List.count_append, hzero, h]
    rfl
  | notAmong list =>
    have hopening : "(".toList.count '?' = 0 := by decide
    have hnull : " IS NULL OR ".toList.count '?' = 0 := by decide
    have h : " NOT IN (SELECT value FROM json_each(?)))".toList.count '?' = 1 := by decide
    simp only [Test.text, String.toList_append, List.count_append, hzero, hopening, hnull, h]
    rfl

theorem length_text_test (x : String) (t : Test) : 3 ≤ (t.text x).toList.length := by
  cases t with
  | compare r v =>
    simp only [Test.text, String.toList_append, List.length_append]
    have hblank : " ".toList.length = 1 := by decide
    have hmark : " ?".toList.length = 2 := by decide
    omega
  | isNull =>
    have h : " IS NULL".toList.length = 8 := by decide
    simp only [Test.text, String.toList_append, List.length_append, h]
    omega
  | isNot v =>
    have h : " IS NOT ?".toList.length = 9 := by decide
    simp only [Test.text, String.toList_append, List.length_append, h]
    omega
  | among list | notAmong list =>
    have h : 3 ≤ " IN (SELECT value FROM json_each(?))".toList.length := by decide
    have h' : 3 ≤ " NOT IN (SELECT value FROM json_each(?)))".toList.length := by decide
    simp only [Test.text, String.toList_append, List.length_append]
    omega

theorem read_of_reads {s : String}
    (h : Reads (readNegation (s.toList.length + 1)) EndsWord 0 m s.toList e) :
    read s = some e := by
  have hpos : 0 < s.toList.length + 1 := by omega
  have hend (k : Connective) : NoLink k [] := by simp [NoLink, Scan.tokens, Scan.finish]
  have hread := (h.conjunction hpos).disjunction hpos []
    ⟨⟨by simp [EndsWord], hend .and⟩, hend .or⟩
  rw [List.append_nil] at hread
  simp only [read, hread]
  rfl

end

end Syntax
end DocumentStore
