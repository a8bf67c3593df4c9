import DocumentStore.Lexical.Match

/-! The relevance of a text to a query: for each phrase a weight that falls with the number of
texts that hold it, times a frequency that is damped by the length of the text. The best score is
the lowest. -/
namespace DocumentStore.Lexical

/-- What scores depend on besides the text: the number of texts, the sum of their lengths, and the
number of texts that hold each phrase. -/
structure Corpus where
  size : Nat
  tokens : Nat
  holders : List Nat
deriving DecidableEq, Repr

namespace Corpus

def ofTexts (q : Query) (texts : List (List Bytes)) : Corpus where
  size := texts.length
  tokens := texts.flatten.length
  holders := q.phrases.map fun (p, inContent) =>
    if inContent then (texts.filter fun t => !(Phrase.occurrences p t).isEmpty).length else 0

def meanLength (c : Corpus) : Float := Float.ofNat c.tokens / Float.ofNat c.size

/-- A phrase that half of the texts hold has a small weight still. -/
def weight (c : Corpus) (holders : Nat) : Float :=
  let w := Float.log ((Float.ofNat c.size - Float.ofNat holders + 0.5) / (Float.ofNat holders + 0.5))
  if w ≤ 0.0 then 1e-6 else w

def saturation : Float := 1.2
def lengthShare : Float := 0.75

/-- The frequency of a phrase in a text of the given length, damped. -/
def damped (c : Corpus) (length count : Nat) : Float :=
  let f := Float.ofNat count
  (f * (saturation + 1.0))
    / (f + saturation * (1.0 - lengthShare + lengthShare * Float.ofNat length / c.meanLength))

/-- The score of a text in which the phrases occur as often as `counts` says. -/
def score (c : Corpus) (length : Nat) (counts : List Nat) : Float :=
  -1.0 * (List.zip c.holders counts).foldl
    (fun sum (holders, count) => sum + c.weight holders * c.damped length count) 0.0

end Corpus
end DocumentStore.Lexical
