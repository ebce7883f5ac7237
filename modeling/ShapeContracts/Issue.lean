import ShapeContracts.Json.Printer

/-!
Issues of validation: where a value fails, how, and why. Bounds are inclusive.
-/
namespace ShapeContracts

inductive PathSegment where
  | key (name : String)
  | index (i : Nat)
  deriving DecidableEq, Repr

def PathSegment.text : PathSegment → String
  | key name => name
  | index i => toString i

inductive IssueCode where
  | invalidType
  | invalidFormat
  | invalidValue
  | tooSmall
  | tooBig
  | custom
  deriving DecidableEq, Repr

def IssueCode.name : IssueCode → String
  | invalidType => "invalid_type"
  | invalidFormat => "invalid_format"
  | invalidValue => "invalid_value"
  | tooSmall => "too_small"
  | tooBig => "too_big"
  | custom => "custom"

structure Issue where
  path : List PathSegment
  code : IssueCode
  message : String
  deriving DecidableEq, Repr

namespace Issue

def new (code : IssueCode) (message : String) : Issue := ⟨[], code, message⟩

def extend (i : Issue) (segment : PathSegment) : Issue := { i with path := i.path ++ [segment] }

def within (i : Issue) (segment : PathSegment) : Issue := { i with path := segment :: i.path }

def pathText (i : Issue) : String := ".".intercalate (i.path.map PathSegment.text)

def display (i : Issue) : String :=
  if i.path.isEmpty then i.message else i.pathText ++ ": " ++ i.message

def belowLength? (length min : Nat) : Option Issue :=
  if length < min then
    some (new .tooSmall (String.join ["Too small: expected length >= ", toString min]))
  else none

def aboveLength? (length max : Nat) : Option Issue :=
  if max < length then
    some (new .tooBig (String.join ["Too big: expected length <= ", toString max]))
  else none

def belowValue? (value min : Binary64) : Option Issue :=
  if value.lt min then
    some (new .tooSmall (String.join ["Too small: expected number >= ", min.plain]))
  else none

def aboveValue? (value max : Binary64) : Option Issue :=
  if max.lt value then
    some (new .tooBig (String.join ["Too big: expected number <= ", max.plain]))
  else none

def firstRepeat? (seen : List String) : List String → Nat → Option Nat
  | [], _ => none
  | text :: rest, i =>
    if text ∈ seen then some i else firstRepeat? (text :: seen) rest (i + 1)

/-- Items are the same when their texts are; the second of two is the one that is reported. -/
def repeatedItem? (items : List Json) : Option Issue :=
  (firstRepeat? [] (items.map Json.render) 0).map
    (fun i => extend (new .custom "Duplicate items are not allowed.") (.index i))

end Issue
end ShapeContracts
