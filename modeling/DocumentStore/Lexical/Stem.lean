import DocumentStore.Text.Utf8

/-! Porter's stemmer on the bytes of a folded word. A byte outside ASCII counts as a consonant, and
`y` is a vowel right after a consonant. -/
namespace DocumentStore.Lexical.Stem

def letter (c : Char) : UInt8 := c.toUInt8

def isPlainVowel (b : UInt8) : Bool :=
  b == letter 'a' || b == letter 'e' || b == letter 'i' || b == letter 'o' || b == letter 'u'

def isVowel (afterConsonant : Bool) (b : UInt8) : Bool :=
  isPlainVowel b || (afterConsonant && b == letter 'y')

def skipVowel (afterConsonant : Bool) : Bytes → Option Bytes
  | [] => none
  | b :: bs => if isVowel afterConsonant b then some bs else skipVowel true bs

def skipConsonant : Bytes → Option Bytes
  | [] => none
  | b :: bs => if isVowel false b then skipConsonant bs else some bs

/-- What follows the next run of vowels with a consonant after it. -/
def skipGroup (afterConsonant : Bool) (w : Bytes) : Option Bytes :=
  (skipVowel afterConsonant w).bind skipConsonant

def hasGroup (w : Bytes) : Bool := (skipGroup false w).isSome

def hasGroups (w : Bytes) : Bool := ((skipGroup false w).bind (skipGroup true)).isSome

def hasVowel : Bytes → Bool
  | [] => false
  | b :: bs => isPlainVowel b || bs.any (isVowel true)

def consonants (afterConsonant : Bool) : Bytes → List Bool
  | [] => []
  | b :: bs =>
    let c := !isVowel afterConsonant b
    c :: consonants c bs

/-- Whether a word ends in a consonant, a vowel, and a consonant other than `w`, `x` and `y`. -/
def endsShort (w : Bytes) : Bool :=
  match w.getLast? with
  | some b =>
    b != letter 'w' && b != letter 'x' && b != letter 'y'
      && (consonants false w).drop (w.length - 3) == [true, false, true]
  | none => false

/-- A suffix, what the stem before it must fulfil, and what takes its place. -/
structure Rule where
  suffix : String
  admits : Bytes → Bool
  replacement : String

def Rule.stem? (r : Rule) (w : Bytes) : Option Bytes :=
  let suffix := utf8 r.suffix
  if suffix.length < w.length ∧ suffix.isSuffixOf w then
    some (w.take (w.length - suffix.length))
  else none

/-- Applies the first rule whose suffix the word has, and tells whether the word changed. -/
def apply : List Rule → Bytes → Bytes × Bool
  | [], w => (w, false)
  | r :: rs, w =>
    match r.stem? w with
    | some stem => if r.admits stem then (stem ++ utf8 r.replacement, true) else (w, false)
    | none => apply rs w

def anyStem (_ : Bytes) : Bool := true

def dropPlural (w : Bytes) : Bytes :=
  let ends (s : String) : Bool := (utf8 s).isSuffixOf w
  let cut (n : Nat) : Bytes := w.take (w.length - n)
  if !ends "s" then w
  else if ends "es" then
    if (4 < w.length ∧ ends "sses") ∨ (3 < w.length ∧ ends "ies") then cut 2 else cut 1
  else if ends "ss" then w
  else cut 1

def pastRules : List Rule := [⟨"ed", hasVowel, ""⟩, ⟨"ing", hasVowel, ""⟩]

def restoreRules : List Rule :=
  [⟨"at", anyStem, "ate"⟩, ⟨"bl", anyStem, "ble"⟩, ⟨"iz", anyStem, "ize"⟩]

def restore (w : Bytes) : Bytes :=
  let (v, changed) := apply restoreRules w
  if changed then v
  else
    match w.reverse with
    | a :: b :: _ =>
      if a == b && !isPlainVowel a && a != letter 'l' && a != letter 's' && a != letter 'z' then
        w.dropLast
      else if hasGroup w && !hasGroups w && endsShort w then w ++ [letter 'e']
      else w
    | _ => w

/-- Cuts off the endings of the past and of the participle. -/
def dropPast (w : Bytes) : Bytes :=
  let eed : Rule := ⟨"eed", hasGroup, "ee"⟩
  if (eed.stem? w).isSome then (apply [eed] w).1
  else
    let (v, changed) := apply pastRules w
    if changed then restore v else w

def turnY (w : Bytes) : Bytes :=
  if w.getLast? == some (letter 'y') && hasVowel w.dropLast then w.dropLast ++ [letter 'i'] else w

def doubleSuffixRules : List Rule :=
  [⟨"ational", hasGroup, "ate"⟩, ⟨"tional", hasGroup, "tion"⟩, ⟨"enci", hasGroup, "ence"⟩,
    ⟨"anci", hasGroup, "ance"⟩, ⟨"izer", hasGroup, "ize"⟩, ⟨"logi", hasGroup, "log"⟩,
    ⟨"bli", hasGroup, "ble"⟩, ⟨"alli", hasGroup, "al"⟩, ⟨"entli", hasGroup, "ent"⟩,
    ⟨"eli", hasGroup, "e"⟩, ⟨"ousli", hasGroup, "ous"⟩, ⟨"ization", hasGroup, "ize"⟩,
    ⟨"ation", hasGroup, "ate"⟩, ⟨"ator", hasGroup, "ate"⟩, ⟨"alism", hasGroup, "al"⟩,
    ⟨"iveness", hasGroup, "ive"⟩, ⟨"fulness", hasGroup, "ful"⟩, ⟨"ousness", hasGroup, "ous"⟩,
    ⟨"aliti", hasGroup, "al"⟩, ⟨"iviti", hasGroup, "ive"⟩, ⟨"biliti", hasGroup, "ble"⟩]

def derivedRules : List Rule :=
  [⟨"ical", hasGroup, "ic"⟩, ⟨"ness", hasGroup, ""⟩, ⟨"icate", hasGroup, "ic"⟩,
    ⟨"iciti", hasGroup, "ic"⟩, ⟨"ful", hasGroup, ""⟩, ⟨"ative", hasGroup, ""⟩,
    ⟨"alize", hasGroup, "al"⟩]

def endsInSOrT (w : Bytes) : Bool :=
  w.getLast? == some (letter 's') || w.getLast? == some (letter 't')

def residualRules : List Rule :=
  [⟨"al", hasGroups, ""⟩, ⟨"ance", hasGroups, ""⟩, ⟨"ence", hasGroups, ""⟩, ⟨"er", hasGroups, ""⟩,
    ⟨"ic", hasGroups, ""⟩, ⟨"able", hasGroups, ""⟩, ⟨"ible", hasGroups, ""⟩, ⟨"ant", hasGroups, ""⟩,
    ⟨"ement", hasGroups, ""⟩, ⟨"ment", hasGroups, ""⟩, ⟨"ent", hasGroups, ""⟩,
    ⟨"ion", fun w => endsInSOrT w && hasGroups w, ""⟩, ⟨"ou", hasGroups, ""⟩,
    ⟨"ism", hasGroups, ""⟩, ⟨"ate", hasGroups, ""⟩, ⟨"iti", hasGroups, ""⟩, ⟨"ous", hasGroups, ""⟩,
    ⟨"ive", hasGroups, ""⟩, ⟨"ize", hasGroups, ""⟩]

def dropFinalE (w : Bytes) : Bytes :=
  let stem := w.dropLast
  if w.getLast? == some (letter 'e')
      && (hasGroups stem || (hasGroup stem && !hasGroups stem && !endsShort stem)) then stem
  else w

def dropFinalL (w : Bytes) : Bytes :=
  if (utf8 "ll").isSuffixOf w && hasGroups w.dropLast then w.dropLast else w

/-- The stem of a word of 3 to 64 bytes; any other word is its own stem. -/
def stem (w : Bytes) : Bytes :=
  if 3 ≤ w.length ∧ w.length ≤ 64 then
    let w := turnY (dropPast (dropPlural w))
    let w := (apply residualRules (apply derivedRules (apply doubleSuffixRules w).1).1).1
    dropFinalL (dropFinalE w)
  else w

end DocumentStore.Lexical.Stem
