import ShapeContracts.Binary64

/-!
Decimal text of binary64 numbers: the fewest significant digits that read back, taken from the
two neighbours of the number on each decimal grid, and reading a significand with a power of ten.
-/
namespace ShapeContracts

structure Decimal where
  coefficient : Nat
  exponent : Int
  deriving DecidableEq, Repr

namespace Decimal

def ratio (d : Decimal) : Nat × Nat :=
  match d.exponent with
  | .ofNat k => (d.coefficient * Nat.pow 10 k * Binary64.one, 1)
  | .negSucc k => (d.coefficient * Binary64.one, Nat.pow 10 (k + 1))

def units (d : Decimal) : Nat := Binary64.nearest d.ratio.1 d.ratio.2

def digits (d : Decimal) : List Char := Nat.toDigits 10 d.coefficient

def magnitude (d : Decimal) : Int := d.exponent + d.digits.length - 1

def trim (d : Decimal) : Decimal :=
  if h : d.coefficient ≠ 0 ∧ d.coefficient % 10 = 0 then
    trim ⟨d.coefficient / 10, d.exponent + 1⟩
  else d
termination_by d.coefficient
decreasing_by omega

def positional (d : Decimal) : List Char × List Char :=
  match d.exponent with
  | .ofNat k => (d.digits ++ List.replicate k '0', [])
  | .negSucc k =>
    let places := k + 1
    if d.digits.length ≤ places then
      (['0'], List.replicate (places - d.digits.length) '0' ++ d.digits)
    else d.digits.splitAt (d.digits.length - places)

end Decimal

namespace Binary64

inductive Tie where
  | even
  | up
  deriving DecidableEq, Repr

def magnitude (units : Nat) : Int :=
  if one ≤ units then (Nat.toDigits 10 (units / one)).length - 1
  else -((Nat.toDigits 10 ((one + units - 1) / units - 1)).length : Int)

def steps (units : Nat) : Int → Nat × Nat
  | .ofNat k => (units, one * Nat.pow 10 k)
  | .negSucc k => (units * Nat.pow 10 (k + 1), one)

def Tie.prefersAbove (tie : Tie) (p q : Nat) : Bool :=
  q < 2 * (p % q) || (2 * (p % q) == q && (tie == .up || (p / q) % 2 == 1))

/-- The neighbour on the grid of `10 ^ exponent` that reads back, the nearer one if both do. -/
def onGrid? (tie : Tie) (units : Nat) (exponent : Int) : Option Decimal :=
  let s := steps units exponent
  let below : Decimal := ⟨s.1 / s.2, exponent⟩
  let above : Decimal := ⟨s.1 / s.2 + 1, exponent⟩
  if above.units == units && (tie.prefersAbove s.1 s.2 || below.units != units) then some above
  else if below.units == units then some below
  else none

def shortest (tie : Tie) (units : Nat) : Decimal :=
  let e := magnitude units
  ((List.range 17).findSome? (fun (p : Nat) => onGrid? tie units (e - p))).elim ⟨units, 0⟩ Decimal.trim

def decimal (tie : Tie) (x : Binary64) : Decimal :=
  if x.units = 0 then ⟨0, 0⟩ else shortest tie x.units

def sign (x : Binary64) : List Char := if x.negative then ['-'] else []

def plain (x : Binary64) : String :=
  let (whole, fraction) := (x.decimal .up).positional
  String.ofList (x.sign ++ whole ++ if fraction.isEmpty then [] else '.' :: fraction)

def powerOfTen? (k : Nat) : Option Binary64 := ofRatio? false (Nat.pow 10 k) 1

/--
`x` times a power of ten in one rounded step, or for a smaller power than `10 ^ -308` after
rounded divisions by `10 ^ 308`. None is a number beyond the format.
-/
def scale? (x : Binary64) (exponent : Int) : Option Binary64 :=
  if exponent.natAbs ≤ 308 then do
    let power ← powerOfTen? exponent.natAbs
    if 0 ≤ exponent then x.mul? power else x.div? power
  else if x.units = 0 then some x
  else if 0 ≤ exponent then none
  else do
    let power ← powerOfTen? 308
    let y ← x.div? power
    scale? y (exponent + 308)
termination_by exponent.natAbs
decreasing_by omega

def ofDecimal? (negative : Bool) (significand : Nat) (exponent : Int) : Option Binary64 := do
  let x ← ofRatio? false significand 1
  let y ← x.scale? exponent
  some (if negative then y.neg else y)

end Binary64
end ShapeContracts
