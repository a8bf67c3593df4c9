import DocumentStore.Lexical.Match
import DocumentStore.Lexical.Token
import DocumentStore.Retrieval.Request

/-! Excerpts of a text that matches: the whole text, or the tokens around the best matches, with
markers around every match. A null character ends each piece that is copied. -/
namespace DocumentStore.Lexical

/-- A phrase of the query at a position of the text. -/
structure Instance where
  position : Nat
  phrase : Nat
  size : Nat
deriving DecidableEq, Repr

namespace Instance

def insert (a : Instance) : List Instance → List Instance
  | [] => [a]
  | b :: bs => if a.position < b.position then a :: b :: bs else b :: insert a bs

/-- Ordered by position, and at one position by phrase. -/
def ofPositions (sizes : List Nat) (positions : List (List Nat)) : List Instance :=
  let one : List (List Instance) :=
    (sizes.zip positions).mapIdx fun i (size, ps) => ps.map fun p => ⟨p, i, size⟩
  one.flatten.foldl (fun sorted a => insert a sorted) []

end Instance

/-- The tokens from `first` to `last`, joined where instances overlap. -/
structure Span where
  first : Nat
  last : Nat
deriving DecidableEq, Repr

def spans : List Instance → List Span
  | [] => []
  | a :: as => go ⟨a.position, a.position + a.size - 1⟩ as
where
  go (s : Span) : List Instance → List Span
    | [] => [s]
    | a :: as =>
      let last := a.position + a.size - 1
      if a.position ≤ s.last then go ⟨s.first, max s.last last⟩ as
      else s :: go ⟨a.position, last⟩ as

/-- What has been written of a text: its characters up to `copied`, with a marker open if
`isOpen`, and the spans that are still to come. -/
structure Writing where
  written : List Char := []
  copied : Nat := 0
  isOpen : Bool := false
  ahead : List Span

structure Markers where
  opening : List Char
  closing : List Char

namespace Writing

def append (piece : List Char) (w : Writing) : Writing :=
  { w with written := w.written ++ piece.takeWhile (· ≠ '\x00') }

def copyTo (text : List Char) (stop : Nat) (w : Writing) : Writing :=
  { w.append ((text.drop w.copied).take (stop - w.copied)) with copied := stop }

def openMark (m : Markers) (w : Writing) : Writing := { w.append m.opening with isOpen := true }

def closeMark (m : Markers) (w : Writing) : Writing := { w.append m.closing with isOpen := false }

/-- Closes a marker before a token that is beyond its match. -/
def leaveMatch (m : Markers) (position : Nat) (t : Token) (w : Writing) : Writing :=
  let beyond := match w.ahead with
    | [] => true
    | s :: _ => decide (position ≤ s.first)
  if w.isOpen && beyond && decide (w.copied < t.start) then w.closeMark m else w

def enterMatch (m : Markers) (text : List Char) (position : Nat) (t : Token) (w : Writing) :
    Writing :=
  match w.ahead with
  | s :: _ =>
    if position = s.first ∧ w.isOpen = false then (w.copyTo text t.start).openMark m else w
  | [] => w

def finishMatch (m : Markers) (text : List Char) (position : Nat) (t : Token) (w : Writing) :
    Writing :=
  match w.ahead with
  | s :: later =>
    if position = s.last then
      let w := if w.isOpen then w else w.openMark m
      { w.copyTo text t.stop with ahead := later }
    else w
  | [] => w

/-- Closes the marker after the last token of an excerpt, and copies that token. -/
def finishRange (m : Markers) (text : List Char) (position : Nat) (t : Token) (w : Writing) :
    Writing :=
  let w :=
    if w.isOpen then
      let inside := match w.ahead with
        | s :: _ => decide (s.first ≤ position)
        | [] => false
      (if inside then w.copyTo text t.stop else w).closeMark m
    else w
  w.copyTo text t.stop

def passMatches (m : Markers) (text : List Char) (position : Nat) (t : Token) (w : Writing) :
    Writing :=
  ((w.leaveMatch m position t).enterMatch m text position t).finishMatch m text position t

def step (m : Markers) (text : List Char) (w : Writing) (item : Nat × Token) : Writing :=
  w.passMatches m text item.1 item.2

/-- Writes a token of the range from `first` to `last`, and skips any other. -/
def stepWithin (m : Markers) (text : List Char) (first last : Nat) (w : Writing)
    (item : Nat × Token) : Writing :=
  let (position, t) := item
  if position < first ∨ last < position then w
  else
    let w := if 0 < first ∧ position = first then { w with copied := t.start } else w
    let w := w.passMatches m text position t
    if position = last then w.finishRange m text position t else w

def finish (m : Markers) (w : Writing) : Writing := if w.isOpen then w.closeMark m else w

end Writing

def numbered (ts : List Token) : List (Nat × Token) := ts.mapIdx fun i t => (i, t)

def markersOf (opening closing : String) : Markers := ⟨opening.toList, closing.toList⟩

def highlighted (o : HighlightOptions) (text : List Char) (ts : List Token) (is : List Instance) :
    String :=
  let m := markersOf o.openMarker o.closeMarker
  let w := ((numbered ts).foldl (Writing.step m text) { ahead := spans is }).finish m
  String.ofList (w.copyTo text text.length).written

def isGap (c : Char) : Bool := c = ' ' || c = '\t' || c = '\n' || c = '\r'

/-- Whether there is a gap before a character of a text, and a full stop or a colon before that. -/
def followsSentence (text : List Char) (start : Nat) : Bool :=
  let before := (text.take start).reverse
  match before with
  | c :: _ =>
    isGap c && (match before.dropWhile isGap with
      | d :: _ => d = '.' || d = ':'
      | [] => false)
  | [] => false

def sentenceStarts (text : List Char) (ts : List Token) : List Nat :=
  (numbered ts).filterMap fun (i, t) =>
    if i = 0 || followsSentence text t.start then some i else none

def within (is : List Instance) (start budget : Nat) : List Instance :=
  is.filter fun a => decide (start ≤ a.position) && decide (a.position < start + budget)

/-- A thousand for each phrase in a window, and one for each time that it comes again. -/
def windowScore (is : List Instance) : Nat :=
  let phrases := is.map (·.phrase)
  1000 * phrases.eraseDups.length + (phrases.length - phrases.eraseDups.length)

/-- Where a window starts that has these instances in its middle. -/
def centred (is : List Instance) (budget length : Nat) : Nat :=
  match is.head?, is.getLast? with
  | some a, some b =>
    let covered : Int := (b.position + b.size : Nat) - (a.position : Int)
    let start : Int := (a.position : Int) - ((budget : Int) - covered).tdiv 2
    let start := if (length : Int) < start + budget then (length : Int) - budget else start
    start.toNat
  | _, _ => 0

/-- The better of two windows, each a score and a start; on a draw the first one. -/
def better (a b : Nat × Nat) : Nat × Nat := if a.1 < b.1 then b else a

/-- The windows around an instance: centred on what lies right of it, or from the start of its
sentence. -/
def windowsAt (is : List Instance) (sentences : List Nat) (budget length : Nat) (a : Instance) :
    List (Nat × Nat) :=
  let here := within is a.position budget
  let sentence :=
    match (sentences.takeWhile (· ≤ a.position)).getLast? with
    | some s =>
      if budget < length ∧ s < a.position then
        [(windowScore (within is s budget) + (if s = 0 then 120 else 100), s)]
      else []
    | none => []
  (windowScore here, centred here budget length) :: sentence

/-- The token with which the best window begins. -/
def bestStart (is : List Instance) (sentences : List Nat) (budget length : Nat) : Nat :=
  ((is.flatMap (windowsAt is sentences budget length)).foldl better (0, 0)).2

/-- The tokens of the best window with every match between markers, and an ellipsis for what is
left out before and after them. -/
def excerpted (o : SnippetOptions) (text : List Char) (ts : List Token) (is : List Instance) :
    String :=
  let m := markersOf o.openMarker o.closeMarker
  let first := bestStart is (sentenceStarts text ts) o.maxTokens ts.length
  let last := first + o.maxTokens - 1
  let start : Writing := { ahead := (spans is).dropWhile fun s => decide (s.first < first) }
  let start := if 0 < first then start.append o.ellipsis.toList else start
  let w := ((numbered ts).foldl (Writing.stepWithin m text first last) start).finish m
  let w := if ts.length - 1 ≤ last then w.copyTo text text.length else w.append o.ellipsis.toList
  String.ofList w.written

end DocumentStore.Lexical
