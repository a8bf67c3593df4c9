import DocumentStore.Lexical.Query

/-! Where phrases stand in a text, and whether they stand near each other. -/
namespace DocumentStore.Lexical

def Term.covers (t : Term) (b : Bytes) : Bool :=
  if t.isOpen then t.bytes.isPrefixOf b else t.bytes == b

namespace Phrase

def isAt : Phrase → List Bytes → Bool
  | [], _ => true
  | _ :: _, [] => false
  | t :: ts, b :: bs => t.covers b && isAt ts bs

/-- Whether a phrase may only stand at the front of the text. -/
def isLeading : Phrase → Bool
  | [] => false
  | t :: _ => t.isLeading

def occurrencesFrom (p : Phrase) (pos : Nat) : List Bytes → List Nat
  | [] => []
  | b :: bs =>
    let later := occurrencesFrom p (pos + 1) bs
    if isAt p (b :: bs) && (pos == 0 || !isLeading p) then pos :: later else later

def occurrences (p : Phrase) (text : List Bytes) : List Nat :=
  if p.isEmpty then [] else occurrencesFrom p 0 text

end Phrase

namespace Near

/-- Moves each phrase on until it does not stand more than the distance before the last one seen,
where `latest` is that one's position. The flag tells that every phrase stood well as it was. -/
def sweep (distance : Nat) (latest : Nat) :
    List (Nat × List Nat) → Option (Bool × Nat × List (Nat × List Nat))
  | [] => some (true, latest, [])
  | (_, []) :: _ => none
  | (size, p :: ps) :: rest =>
    let early (x : Nat) : Bool := decide (x + size + distance < latest)
    match (p :: ps).dropWhile early with
    | [] => none
    | x :: xs =>
      (sweep distance (max latest x) rest).map fun (stood, last, rest) =>
        (!early p && decide (p ≤ latest) && stood, last, (size, x :: xs) :: rest)

/-- Sweeps until every phrase stands still; `fuel` bounds the sweeps. -/
def settle (distance : Nat) : Nat → Nat → List (Nat × List Nat) → Option (List (Nat × List Nat))
  | 0, _, _ => none
  | fuel + 1, latest, phrases =>
    match sweep distance latest phrases with
    | none => none
    | some (true, _, phrases) => some phrases
    | some (false, latest, phrases) => settle distance fuel latest phrases

/-- Moves on the phrase whose next position comes first; there is none if every phrase stands at
its last one. -/
def advance (phrases : List (Nat × List Nat)) : Option (List (Nat × List Nat)) :=
  let next : List (Option Nat) := phrases.map fun p => p.2[1]?
  match (next.filterMap id).min? with
  | none => none
  | some first =>
    let i := next.findIdx (· == some first)
    some (phrases.mapIdx fun j p => if j = i then (p.1, p.2.drop 1) else p)

/-- Adds the positions at which the phrases stand to those found before. -/
def note (found : List (List Nat)) (phrases : List (Nat × List Nat)) : List (List Nat) :=
  List.zipWith (fun (seen : List Nat) (p : Nat × List Nat) =>
    match p.2 with
    | [] => seen
    | x :: _ => if seen.getLast? = some x then seen else seen ++ [x]) found phrases

/-- The positions at which phrases stand near each other; `fuel` bounds their number. -/
def collect (distance sweeps : Nat) :
    Nat → List (List Nat) → List (Nat × List Nat) → List (List Nat)
  | 0, found, _ => found
  | fuel + 1, found, phrases =>
    match settle distance sweeps ((phrases.head?.bind fun p => p.2.head?).getD 0) phrases with
    | none => found
    | some phrases =>
      let found := note found phrases
      match advance phrases with
      | none => found
      | some phrases => collect distance sweeps fuel found phrases

/-- Keeps the positions of phrases that stand near each other. -/
def trim (distance : Nat) (phrases : List (Nat × List Nat)) : List (List Nat) :=
  let total := (phrases.flatMap (·.2)).length
  collect distance ((total + 1) * (phrases.length + 1) + 1) (total + 1)
    (phrases.map fun _ => []) phrases

end Near

/-- Whether a text has what a part of a query looks for, and whether it has it in the right
places. -/
structure Status where
  isPresent : Bool
  isMatch : Bool
deriving DecidableEq, Repr

namespace Status

def holds (s : Status) : Bool := s.isPresent && s.isMatch

def all (ss : List Status) : Status := ⟨ss.all isPresent, ss.all isMatch⟩

def any (ss : List Status) : Status := ⟨ss.any isPresent, ss.any holds⟩

def without (l r : Status) : Status := ⟨l.isPresent && !r.holds, l.isMatch⟩

end Status

namespace Near

def hasTerms (n : Near) (text : List Bytes) : Bool :=
  n.phrases.all fun p => !p.isEmpty && p.all fun t => text.any t.covers

/-- Positions up to the first phrase that has none. -/
def untilMissing : List (List Nat) → List (List Nat)
  | [] => []
  | ps :: rest => if ps.isEmpty then [] :: rest.map fun _ => [] else ps :: untilMissing rest

/-- The positions of the phrases, near each other if every phrase has some. -/
def found (n : Near) (text : List Bytes) : List (List Nat) :=
  let each := n.phrases.map fun p => Phrase.occurrences p text
  if each.any List.isEmpty then untilMissing each
  else if n.phrases.length = 1 then each
  else trim n.distance ((n.phrases.map List.length).zip each)

def isPresent (n : Near) (text : List Bytes) : Bool := n.inContent && n.hasTerms text

def status (n : Near) (text : List Bytes) : Status :=
  if n.isPresent text then
    let each := n.phrases.map fun p => Phrase.occurrences p text
    ⟨true, !each.any List.isEmpty && !((n.found text).headD []).isEmpty⟩
  else ⟨false, false⟩

def positions (n : Near) (text : List Bytes) : List (List Nat) :=
  if n.isPresent text then n.found text else n.phrases.map fun _ => []

end Near
end DocumentStore.Lexical
