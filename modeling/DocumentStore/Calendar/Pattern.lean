import DocumentStore.Calendar.Date
import DocumentStore.Text.Blank

/-! Reading a date and time by a pattern, item by item from left to right. A loose number may have
blanks before it and fewer digits than its width; an exact one has just its width. -/
namespace DocumentStore.Calendar

/-- The numbers of a date and time. -/
inductive Part where
  | year | month | day | hour | minute | second
deriving DecidableEq, Repr

inductive Item where
  | literal (c : Char)
  | oneOf (cs : List Char)
  | blanks
  | exact (part : Part)
  | loose (part : Part)
  /-- A point and digits, or nothing. -/
  | fraction
  /-- A sign, hours, minutes, and any colons and blanks between. -/
  | offset
  /-- `Z`, or a sign, hours, one colon and minutes. -/
  | zone
deriving DecidableEq, Repr

/-- What has been read. -/
structure Moment where
  date : Date := ⟨0, 1, 1⟩
  hour : Nat := 0
  minute : Nat := 0
  second : Nat := 0
  /-- Seconds east of the prime meridian. -/
  offset : Option Int := none
deriving DecidableEq, Repr

def Part.width : Part → Nat
  | .year => 4
  | _ => 2

/-- The numbers that a part may hold, whatever the other parts are. -/
def Part.admits : Part → Int → Bool
  | .year, n => decide (-0x80000000 ≤ n) && decide (n < 0x80000000)
  | .month, n => decide (1 ≤ n) && decide (n ≤ 12)
  | .day, n => decide (1 ≤ n) && decide (n ≤ 31)
  | .hour, n => decide (0 ≤ n) && decide (n ≤ 23)
  | .minute, n => decide (0 ≤ n) && decide (n ≤ 59)
  | .second, n => decide (0 ≤ n) && decide (n ≤ 60)

def Moment.set (m : Moment) : Part → Int → Moment
  | .year, n => { m with date := { m.date with year := n } }
  | .month, n => { m with date := { m.date with month := n.toNat } }
  | .day, n => { m with date := { m.date with day := n.toNat } }
  | .hour, n => { m with hour := n.toNat }
  | .minute, n => { m with minute := n.toNat }
  | .second, n => { m with second := n.toNat }

def numberOfDigits (ds : List Char) : Nat := ds.foldl (fun n d => n * 10 + (d.toNat - 48)) 0

def skipBlanks (cs : List Char) : List Char := cs.dropWhile Text.isBlank

def readDigits (width : Nat) (cs : List Char) : Option (Nat × List Char) :=
  let ds := (cs.take width).takeWhile Char.isDigit
  if ds.isEmpty then none else some (numberOfDigits ds, cs.drop ds.length)

def readAllDigits (cs : List Char) : Option (Nat × List Char) :=
  let ds := cs.takeWhile Char.isDigit
  if ds.isEmpty then none else some (numberOfDigits ds, cs.dropWhile Char.isDigit)

def readLoose (part : Part) (cs : List Char) : Option (Int × List Char) :=
  match part, skipBlanks cs with
  | .year, '-' :: r => (readAllDigits r).map fun p => (-(p.1 : Int), p.2)
  | .year, '+' :: r => (readAllDigits r).map fun p => ((p.1 : Int), p.2)
  | _, r => (readDigits part.width r).map fun p => ((p.1 : Int), p.2)

def readExact (part : Part) (cs : List Char) : Option (Int × List Char) :=
  let ds := cs.take part.width
  if ds.length = part.width ∧ ds.all Char.isDigit then
    some ((numberOfDigits ds : Int), cs.drop part.width)
  else none

/-- Sets a part to the number read for it, if it admits the number. -/
def assign (m : Moment) (part : Part) : Option (Int × List Char) → Option (Moment × List Char)
  | some (n, r) => if part.admits n then some (m.set part n, r) else none
  | none => none

/-- A plus, a hyphen or a minus sign; whether it was one of the last two. -/
def readSign : List Char → Option (Bool × List Char)
  | '+' :: r => some (false, r)
  | '-' :: r => some (true, r)
  | '−' :: r => some (true, r)
  | _ => none

/-- Sign, hours, what `separate` takes away, and minutes. -/
def readOffset (separate : List Char → Option (List Char)) (cs : List Char) :
    Option (Int × List Char) := do
  let (negative, r) ← readSign cs
  let hours ← readExact .hour r
  let r ← separate hours.2
  let minutes ← readExact .minute r
  if 60 ≤ minutes.1 then none
  else
    let n := 3600 * hours.1 + 60 * minutes.1
    some (if negative then -n else n, minutes.2)

def Item.read (m : Moment) : Item → List Char → Option (Moment × List Char)
  | .literal c, d :: r => if c = d then some (m, r) else none
  | .literal _, [] => none
  | .oneOf cs, d :: r => if cs.contains d then some (m, r) else none
  | .oneOf _, [] => none
  | .blanks, r => some (m, skipBlanks r)
  | .exact part, r => assign m part (readExact part r)
  | .loose part, r => assign m part (readLoose part r)
  | .fraction, '.' :: r => (readAllDigits r).map fun p => (m, p.2)
  | .fraction, r => some (m, r)
  | .offset, r =>
    (readOffset (fun r => some (r.dropWhile fun c => c = ':' ∨ Text.isBlank c)) (skipBlanks r)).map
      fun p => ({ m with offset := some p.1 }, p.2)
  | .zone, r =>
    match r with
    | 'Z' :: r | 'z' :: r => some ({ m with offset := some 0 }, r)
    | r =>
      (readOffset (fun
        | ':' :: r => some r
        | _ => none) r).map fun p => ({ m with offset := some p.1 }, p.2)

def readItems (m : Moment) : List Item → List Char → Option (Moment × List Char)
  | [], r => some (m, r)
  | i :: is, r =>
    match i.read m r with
    | some (m, r) => readItems m is r
    | none => none

namespace Moment

/-- Whether the calendar has the moment, also when it is moved to the prime meridian. -/
def valid (m : Moment) : Bool :=
  m.date.valid &&
    match m.offset with
    | none => true
    | some offset =>
      let utc := secondOfDay m.hour m.minute m.second - offset
      decide (-86400 < offset) && decide (offset < 86400)
        && !(m.date.isFirst && decide (utc < 0))
        && !(m.date.isLast && decide (86400 ≤ utc))

end Moment

def readMoment (items : List Item) (cs : List Char) : Option Moment :=
  match readItems {} items cs with
  | some (m, []) => if m.valid then some m else none
  | _ => none

end DocumentStore.Calendar
