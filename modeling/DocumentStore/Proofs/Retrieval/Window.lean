import DocumentStore.Proofs.Filter.Value
import DocumentStore.Proofs.Json.Rereading
import DocumentStore.Retrieval.Statement

/-! The window of a vector search, which a statement is given as a text. Main statement: the text
gives back the keys and the distances. -/
namespace DocumentStore.Statement

theorem wholeOfNode?_integer (n : ℤ) : wholeOfNode? (Node.ofJson (.integer n)) = some n := by
  have hstrict := Number.wholeNumeral_strict n.natAbs
  have hread := hstrict.read_chars Number.stops_nil
  have hsign : Number.readSign (Json.integerChars n)
      = (decide (n < 0), (Number.wholeNumeral n.natAbs).chars ++ []) := by
    rw [← hstrict.readSign_signedChars, List.append_nil, Number.integerChars_eq]
  have hwhole : (Number.wholeNumeral n.natAbs).isInteger = true := rfl
  simp only [Node.ofJson, wholeOfNode?, hsign, hread, Option.bind_some, hwhole, if_true,
    Number.wholeValue_wholeNumeral]

theorem windowEntry?_ofJson (key : ℤ) {x : Float} (hx : x.isFinite = true) :
    windowEntry? (Node.ofJson (.array [.integer key, .real x])) = some (key, x) := by
  have hdistance : Cell.ofNode (Node.ofJson (.real x)) = .real x := by
    rw [Node.ofNode_ofJson, Cell.ofStored, if_pos (Json.isFinite_of_isFinite hx)]
  rw [Node.ofJson, Node.ofItems, Node.ofItems, Node.ofItems, windowEntry?, wholeOfNode?_integer,
    hdistance]

variable {window : List (ℤ × Float)}

def windowItems (window : List (ℤ × Float)) : List Json :=
  window.map fun c => .array [.integer c.1, .real c.2]

theorem nestingOfItems_windowItems (window : List (ℤ × Float)) :
    Json.nestingOfItems (windowItems window) ≤ 1 := by
  induction window with
  | nil => exact Nat.zero_le 1
  | cons c window ih =>
    have hentry : (Json.array [.integer c.1, .real c.2]).nesting = 1 := by
      simp [Json.nesting, Json.nestingOfItems]
    rw [windowItems, List.map_cons, Json.nestingOfItems, hentry]
    exact max_le le_rfl ih

theorem mapM_windowEntry? (h : ∀ c ∈ window, c.2.isFinite = true) :
    (Node.ofItems (windowItems window)).mapM windowEntry? = some window := by
  induction window with
  | nil => rfl
  | cons c window ih =>
    rw [windowItems, List.map_cons, Node.ofItems, List.mapM_cons,
      windowEntry?_ofJson c.1 (h c List.mem_cons_self)]
    have hrest := ih fun d hd => h d (List.mem_cons_of_mem _ hd)
    rw [windowItems] at hrest
    rw [hrest]
    rfl

theorem readWindow_windowText (h : ∀ c ∈ window, c.2.isFinite = true) :
    readWindow (windowText window) = some window := by
  have hdepth : (Json.array (windowItems window)).nesting ≤ Node.depthLimit := by
    have hitems := nestingOfItems_windowItems window
    have hlimit : 2 ≤ Node.depthLimit := by decide
    rw [Json.nesting]
    omega
  have hread : Node.read (windowText window)
      = some (.array (Node.ofItems (windowItems window))) := by
    rw [windowText, Node.read_text]
    exact if_pos hdepth
  rw [readWindow, hread]
  exact mapM_windowEntry? h

end DocumentStore.Statement
