import DocumentStore.Lexical.Near

/-! Whether a text matches a query, and which of its phrases it then shows.

A group whose terms are all there is present, even where it does not match; a conjunction is
present where all of its parts are, and a negation where its left side is and its right side does
not match. Only parts that are present show their phrases, with one exception: a negation whose
left side is present in no text shows its right side in the first text that has it. -/
namespace DocumentStore.Lexical

/-- The texts of an index, and those that come before the one in question. -/
structure Surroundings where
  texts : List (List Bytes)
  earlier : List (List Bytes)

namespace Query

mutual

def status (text : List Bytes) : Query → Status
  | .near n => n.status text
  | .and qs => .all (statuses text qs)
  | .or qs => .any (statuses text qs)
  | .not l r => (status text l).without (status text r)

def statuses (text : List Bytes) : List Query → List Status
  | [] => []
  | q :: qs => status text q :: statuses text qs

end

def silent (q : Query) : List (List Nat) := q.phrases.map fun _ => []

def isNowhere (texts : List (List Bytes)) (q : Query) : Bool :=
  texts.all fun t => !(q.status t).isPresent

/-- Whether a text is the first of its index in which a query is present. -/
def isFirst (s : Surroundings) (text : List Bytes) (q : Query) : Bool :=
  (q.status text).isPresent && q.isNowhere s.earlier

mutual

def shown (s : Surroundings) (text : List Bytes) : Query → List (List Nat)
  | .near n => n.positions text
  | .and qs => if (Status.all (statuses text qs)).holds then shownOf s text qs else silent (.and qs)
  | .or qs => shownOf s text qs
  | .not l r =>
    if ((status text l).without (status text r)).isPresent then shown s text l ++ shown s text r
    else if isNowhere s.texts l then shown s text l ++ shownFirst s text r
    else silent (.not l r)

def shownOf (s : Surroundings) (text : List Bytes) : List Query → List (List Nat)
  | [] => []
  | q :: qs => shown s text q ++ shownOf s text qs

/-- The positions that a text shows if it is the first that has them to show. -/
def shownFirst (s : Surroundings) (text : List Bytes) : Query → List (List Nat)
  | .near n => if isFirst s text (.near n) then n.positions text else silent (.near n)
  | .and qs =>
    if isFirst s text (.and qs) && (status text (.and qs)).isMatch then shownOf s text qs
    else silent (.and qs)
  | .or qs => shownFirstOf s text qs
  | .not l r =>
    if isNowhere s.texts l then shown s text l ++ shownFirst s text r
    else if isFirst s text (.not l r) then shown s text l ++ shown s text r
    else silent (.not l r)

def shownFirstOf (s : Surroundings) (text : List Bytes) : List Query → List (List Nat)
  | [] => []
  | q :: qs => shownFirst s text q ++ shownFirstOf s text qs

end

def positions? (q : Query) (s : Surroundings) (text : List Bytes) : Option (List (List Nat)) :=
  if (q.status text).holds then some (q.shown s text) else none

end Query
end DocumentStore.Lexical
