import DocumentStore.Config.Basic
import DocumentStore.Lexical.Stem
import DocumentStore.Text.Folding
import DocumentStore.Text.Utf8
import DocumentStore.Text.Word

/-! The tokens of a text: the bytes under which they are indexed, and the characters that they
cover. -/
namespace DocumentStore.Lexical

/-- Covers the characters from `start` to before `stop`. -/
structure Token where
  term : Bytes
  start : Nat
  stop : Nat
deriving DecidableEq, Repr

/-- The bytes that a character of a word is indexed under; a mark has none. -/
def foldedBytes (c : Char) : Bytes :=
  match Text.foldPlain c with
  | some d => utf8Char d
  | none => []

/-- Words begin with a word character and go on over word characters and marks. `word` is the one
that lies before the characters at `pos`, as far as it goes. -/
def wordsFrom (pos : Nat) (word : Option Token) : List Char → List Token
  | [] => word.toList
  | c :: cs =>
    match word with
    | none =>
      if Text.isWordChar c then wordsFrom (pos + 1) (some ⟨foldedBytes c, pos, pos + 1⟩) cs
      else wordsFrom (pos + 1) none cs
    | some t =>
      if Text.isWordChar c || Text.isMark c then
        wordsFrom (pos + 1) (some ⟨t.term ++ foldedBytes c, t.start, pos + 1⟩) cs
      else t :: wordsFrom (pos + 1) none cs

def words (cs : List Char) : List Token := wordsFrom 0 none cs

def windowBytes (c : Char) : Bytes :=
  if c = '\uFFFE' ∨ c = '\uFFFF' then utf8Char '\uFFFD' else utf8Char (Text.foldCase c)

/-- Every window of three characters, from the one at `pos` on. -/
def windowsFrom (pos : Nat) : List Char → List Token
  | a :: b :: c :: cs =>
    ⟨windowBytes a ++ windowBytes b ++ windowBytes c, pos, pos + 3⟩
      :: windowsFrom (pos + 1) (b :: c :: cs)
  | _ => []

/-- The windows before the first null character. -/
def windows (cs : List Char) : List Token := windowsFrom 0 (cs.takeWhile (· ≠ '\x00'))

def tokens (kind : TokenizerKind) (cs : List Char) : List Token :=
  match kind with
  | .trigram => windows cs
  | .words => words cs
  | .porter => (words cs).map fun t => { t with term := Stem.stem t.term }

end DocumentStore.Lexical
