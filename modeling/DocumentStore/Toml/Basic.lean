/-! TOML values and the rules by which the sections of a document add up to one table. A table is
given in one place only: a section may go on with a table that other sections have merely passed
through, a dotted key with one that dotted keys have made, and nothing with an inline table. -/
namespace DocumentStore.Toml

/-- Where a table comes from. -/
inductive Origin where
  | inline | header | passed | dotted
deriving DecidableEq, Repr

inductive Item where
  | string (s : String)
  | integer (n : Int)
  | real (x : Float)
  | bool (b : Bool)
  | moment (text : String)
  | list (items : List Item)
  | table (origin : Origin) (entries : List (String × Item))
  | tables (all : List (List (String × Item)))

abbrev Entries := List (String × Item)

namespace Entries

def find? (key : String) (es : Entries) : Option Item :=
  (List.find? (fun e => e.1 == key) es).map (·.2)

def replace (key : String) (v : Item) (es : Entries) : Entries :=
  es.map fun e => if e.1 == key then (key, v) else e

def erase (key : String) (es : Entries) : Entries := es.filter fun e => e.1 != key

end Entries

def Origin.admits (into key : Origin) : Bool :=
  match into with
  | .inline => false
  | .header => key != .dotted
  | .passed | .dotted => true

/-- Changes the table at the end of a path. Tables that are missing on the way get the origin of
the path, and a list of tables stands for its last one. -/
def changeAt (origin : Origin) (change : Origin → Entries → Option Entries) :
    List String → Origin → Entries → Option Entries
  | [], here, es => change here es
  | k :: ks, _, es =>
    match es.find? k with
    | none =>
      (changeAt origin change ks origin []).map fun sub => es ++ [(k, .table origin sub)]
    | some (.table into sub) =>
      if into.admits origin then
        (changeAt origin change ks into sub).map fun sub => es.replace k (.table into sub)
      else none
    | some (.tables all) =>
      match all.getLast? with
      | none => none
      | some sub =>
        (changeAt origin change ks .header sub).map fun sub =>
          es.replace k (.tables (all.dropLast ++ [sub]))
    | some _ => none

/-- A key with its dotted path, and the value under it. -/
structure Pair where
  path : List String
  key : String
  value : Item

/-- Adds a pair, whose path must end in a table made by dotted keys. -/
def addPair (es : Entries) (p : Pair) : Option Entries :=
  let insert (here : Origin) (es : Entries) : Option Entries :=
    if (here == .dotted) == p.path.isEmpty then none
    else if (es.find? p.key).isSome then none
    else some (es ++ [(p.key, p.value)])
  changeAt .dotted insert p.path .header es

def addPairs (es : Entries) (ps : List Pair) : Option Entries := ps.foldlM addPair es

inductive Header where
  | table (path : List String) (key : String)
  | listed (path : List String) (key : String)

/-- The pairs under one header. -/
structure Section where
  header : Header
  pairs : List Pair

def addSection (es : Entries) (s : Section) : Option Entries :=
  match s.header with
  | .table path key =>
    let add (_ : Origin) (es : Entries) : Option Entries :=
      match es.find? key with
      | none => (addPairs [] s.pairs).map fun sub => es ++ [(key, .table .header sub)]
      | some (.table .passed sub) =>
        (addPairs sub s.pairs).map fun sub => es.erase key ++ [(key, .table .header sub)]
      | some _ => none
    changeAt .passed add path .header es
  | .listed path key =>
    let add (_ : Origin) (es : Entries) : Option Entries :=
      match es.find? key with
      | none => (addPairs [] s.pairs).map fun sub => es ++ [(key, .tables [sub])]
      | some (.tables all) =>
        (addPairs [] s.pairs).map fun sub => es.replace key (.tables (all ++ [sub]))
      | some _ => none
    changeAt .passed add path .header es

end DocumentStore.Toml
