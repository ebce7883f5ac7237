/-!
Dates of the proleptic Gregorian calendar and times of day. Moving a time by an offset below one
day changes the date by at most one day, which `nextDay` and `previousDay` say without counting.
-/
namespace ShapeContracts

structure Date where
  year : Int
  month : Nat
  day : Nat
  deriving DecidableEq, Repr

/-- A time of day; second 60 is a leap second. -/
structure Clock where
  hour : Nat
  minute : Nat
  second : Nat
  deriving DecidableEq, Repr

namespace Date

def isLeapYear (year : Int) : Bool := year % 4 == 0 && (year % 100 != 0 || year % 400 == 0)

def daysInMonth (year : Int) (month : Nat) : Nat :=
  match month with
  | 1 | 3 | 5 | 7 | 8 | 10 | 12 => 31
  | 4 | 6 | 9 | 11 => 30
  | 2 => if isLeapYear year then 29 else 28
  | _ => 0

abbrev Valid (d : Date) : Prop := 1 ≤ d.day ∧ d.day ≤ daysInMonth d.year d.month

def nextDay (d : Date) : Date :=
  if d.day < daysInMonth d.year d.month then { d with day := d.day + 1 }
  else if d.month < 12 then ⟨d.year, d.month + 1, 1⟩
  else ⟨d.year + 1, 1, 1⟩

def previousDay (d : Date) : Date :=
  if 1 < d.day then { d with day := d.day - 1 }
  else if 1 < d.month then ⟨d.year, d.month - 1, daysInMonth d.year (d.month - 1)⟩
  else ⟨d.year - 1, 12, 31⟩

def daysBeforeMonth (year : Int) : Nat → Nat
  | 0 => 0
  | month + 1 => daysBeforeMonth year month + daysInMonth year month

def daysBeforeYear (year : Int) : Int :=
  365 * year + (year + 3) / 4 - (year + 99) / 100 + (year + 399) / 400

def ordinal (d : Date) : Int :=
  daysBeforeYear d.year + daysBeforeMonth d.year d.month + d.day - 1

def weekday (d : Date) : Nat := ((d.ordinal + 5) % 7).toNat

theorem Valid.month {d : Date} (h : d.Valid) : 1 ≤ d.month ∧ d.month ≤ 12 := by
  rcases d with ⟨year, month, day⟩
  obtain ⟨h1, h2⟩ := h
  simp only at h1 h2 ⊢
  unfold daysInMonth at h2
  split at h2 <;> omega

theorem daysInMonthBound {year : Int} {month : Nat} (h : 1 ≤ month ∧ month ≤ 12) :
    28 ≤ daysInMonth year month := by
  unfold daysInMonth
  split <;> first | omega | (split <;> omega) | skip
  rename_i h1 h2 h3 h4 h5 h6 h7 h8 h9 h10 h11 h12
  exfalso
  have : month ≠ 1 ∧ month ≠ 2 ∧ month ≠ 3 ∧ month ≠ 4 ∧ month ≠ 5 ∧ month ≠ 6 ∧ month ≠ 7
      ∧ month ≠ 8 ∧ month ≠ 9 ∧ month ≠ 10 ∧ month ≠ 11 ∧ month ≠ 12 := by simp_all
  omega

end Date

namespace Clock

def minutes (c : Clock) : Nat := c.hour * 60 + c.minute

end Clock

def weekdayNames : List String := ["Mon", "Tue", "Wed", "Thu", "Fri", "Sat", "Sun"]

def monthNames : List String :=
  ["Jan", "Feb", "Mar", "Apr", "May", "Jun", "Jul", "Aug", "Sep", "Oct", "Nov", "Dec"]

end ShapeContracts
