import ShapeContracts.Calendar
import ShapeContracts.Unicode.Property

/-!
The two text formats of timestamps. A `date-time` has an optional fraction and an offset, and is
normalised to UTC with three digits of the fraction, the others dropped. An `http-date` is already
canonical: it names the weekday and the month, has no fraction and is in GMT.
-/
namespace ShapeContracts

inductive TimestampError where
  | dateTime (text : String)
  | httpDate (text : String)
  deriving DecidableEq, Repr

def TimestampError.message : TimestampError → String
  | .dateTime text => String.join ["Invalid RFC3339 date-time timestamp: ", text]
  | .httpDate text => String.join ["Invalid IMF-fixdate timestamp: ", text]

namespace Timestamp

def digit? (c : Char) : Option Nat := if c.isDigit then some (c.toNat - 48) else none

def digits? : Nat → Nat → List Char → Option (Nat × List Char)
  | 0, value, cs => some (value, cs)
  | _ + 1, _, [] => none
  | n + 1, value, c :: rest => do
    let d ← digit? c
    digits? n (value * 10 + d) rest

def expect? (c : Char) : List Char → Option (List Char)
  | d :: rest => if d = c then some rest else none
  | [] => none

def padded (width n : Nat) : List Char :=
  let ds := Nat.toDigits 10 n
  List.replicate (width - ds.length) '0' ++ ds

def readDate? (cs : List Char) : Option (Date × List Char) := do
  let (year, cs) ← digits? 4 0 cs
  let cs ← expect? '-' cs
  let (month, cs) ← digits? 2 0 cs
  let cs ← expect? '-' cs
  let (day, cs) ← digits? 2 0 cs
  some (⟨year, month, day⟩, cs)

def readClock? (cs : List Char) : Option (Clock × List Char) := do
  let (hour, cs) ← digits? 2 0 cs
  let cs ← expect? ':' cs
  let (minute, cs) ← digits? 2 0 cs
  let cs ← expect? ':' cs
  let (second, cs) ← digits? 2 0 cs
  some (⟨hour, minute, second⟩, cs)

/--
Milliseconds of an optional fraction. The first three digits are ASCII; any further one is dropped
and may be a decimal digit of any script.
-/
def readFraction? : List Char → Option (Nat × List Char)
  | '.' :: cs =>
    let (ds, rest) := cs.span Unicode.isDecimalDigit
    let kept := ds.take 3
    if ds.isEmpty then none
    else (digits? kept.length 0 kept).map
      (fun (value, _) => (value * Nat.pow 10 (3 - kept.length), rest))
  | cs => some (0, cs)

def readOffset? : List Char → Option (Int × List Char)
  | 'Z' :: rest => some (0, rest)
  | c :: cs => do
    if c ≠ '+' ∧ c ≠ '-' then none
    let (hour, cs) ← digits? 2 0 cs
    let cs ← expect? ':' cs
    let (minute, cs) ← digits? 2 0 cs
    if 24 ≤ hour ∨ 60 ≤ minute then none
    let offset : Int := hour * 60 + minute
    some (if c = '-' then -offset else offset, cs)
  | [] => none

structure Local where
  date : Date
  clock : Clock
  milli : Nat
  offset : Int
  deriving DecidableEq, Repr

def readLocal? (cs : List Char) : Option Local := do
  let (date, cs) ← readDate? cs
  let cs ← expect? 'T' cs
  let (clock, cs) ← readClock? cs
  let (milli, cs) ← readFraction? cs
  let (offset, cs) ← readOffset? cs
  if cs.isEmpty then some ⟨date, clock, milli, offset⟩ else none

abbrev Local.Valid (l : Local) : Prop :=
  l.date.Valid ∧ l.clock.hour < 24 ∧ l.clock.minute < 60 ∧ l.clock.second < 60

def Local.toUtc (l : Local) : Local :=
  let minutes := (l.clock.minutes : Int) - l.offset
  let date :=
    if minutes < 0 then l.date.previousDay
    else if 1440 ≤ minutes then l.date.nextDay
    else l.date
  let minute := (minutes % 1440).toNat
  ⟨date, ⟨minute / 60, minute % 60, l.clock.second⟩, l.milli, 0⟩

def renderYear (year : Int) : List Char :=
  if 0 ≤ year ∧ year ≤ 9999 then padded 4 year.toNat
  else (if year < 0 then '-' else '+') :: padded 4 year.natAbs

def Local.render (l : Local) : List Char :=
  renderYear l.date.year ++ '-' :: (padded 2 l.date.month ++ '-' :: (padded 2 l.date.day
    ++ 'T' :: (padded 2 l.clock.hour ++ ':' :: (padded 2 l.clock.minute
    ++ ':' :: (padded 2 l.clock.second ++ '.' :: (padded 3 l.milli ++ ['Z']))))))

def normalize (text : String) : Except TimestampError String :=
  match readLocal? text.toList with
  | some l => if l.Valid then .ok (String.ofList l.toUtc.render) else .error (.dateTime text)
  | none => .error (.dateTime text)

def isDateTime (text : String) : Bool := (normalize text).isOk

def readName? (names : List String) (cs : List Char) : Option (Nat × List Char) :=
  (names.zipIdx.find? (fun (name, _) => name.toList.isPrefixOf cs)).map
    (fun (name, i) => (i, cs.drop name.length))

structure Dated where
  weekday : Nat
  date : Date
  clock : Clock
  deriving DecidableEq, Repr

def readDated? (cs : List Char) : Option Dated := do
  let (weekday, cs) ← readName? weekdayNames cs
  let cs ← expect? ',' cs
  let cs ← expect? ' ' cs
  let (day, cs) ← digits? 2 0 cs
  let cs ← expect? ' ' cs
  let (month, cs) ← readName? monthNames cs
  let cs ← expect? ' ' cs
  let (year, cs) ← digits? 4 0 cs
  let cs ← expect? ' ' cs
  let (clock, cs) ← readClock? cs
  if cs = " GMT".toList then some ⟨weekday, ⟨year, month + 1, day⟩, clock⟩ else none

abbrev Dated.Valid (d : Dated) : Prop :=
  d.date.Valid ∧ d.date.weekday = d.weekday
    ∧ d.clock.hour < 24 ∧ d.clock.minute < 60 ∧ d.clock.second ≤ 60

def checkHttpDate (text : String) : Except TimestampError Unit :=
  match readDated? text.toList with
  | some d => if d.Valid then .ok () else .error (.httpDate text)
  | none => .error (.httpDate text)

def isHttpDate (text : String) : Bool := (checkHttpDate text).isOk

end Timestamp
end ShapeContracts
