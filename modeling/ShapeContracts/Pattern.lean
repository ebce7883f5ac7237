import ShapeContracts.Unicode.Property

/-!
Regular expressions over characters, with assertions on the place between two of them. Matching
works on sets of places: the bits of a number say which places of the text are in the set.
-/
namespace ShapeContracts

inductive Assertion where
  | textStart
  | textEnd
  | lineStart
  | lineEnd
  | returnLineStart
  | returnLineEnd
  /-- Assertions on the words at both sides, told apart by a class of word characters. -/
  | word (isWord : Char → Bool) (holds : Bool → Bool → Bool)

namespace Assertion

def holds (before after : Option Char) : Assertion → Bool
  | textStart => before.isNone
  | textEnd => after.isNone
  | lineStart => before.isNone || before == some '\n'
  | lineEnd => after.isNone || after == some '\n'
  | returnLineStart =>
    before.isNone || before == some '\n' || (before == some '\r' && after != some '\n')
  | returnLineEnd =>
    after.isNone || after == some '\r' || (after == some '\n' && before != some '\r')
  | word isWord rule => rule (before.any isWord) (after.any isWord)

end Assertion

inductive Pattern where
  | empty
  | char (accepts : Char → Bool)
  | assertion (a : Assertion)
  | cat (p q : Pattern)
  | alt (p q : Pattern)
  | repeated (p : Pattern) (min : Nat) (max : Option Nat)

namespace Pattern

instance : Inhabited Pattern := ⟨.empty⟩

def never : Pattern := .char (fun _ => false)

def catAll (ps : List Pattern) : Pattern := ps.foldr .cat .empty

def altAll : List Pattern → Pattern
  | [] => never
  | [p] => p
  | p :: ps => .alt p (altAll ps)

/-- Places before a character of the set; the first character of the text is the lowest bit. -/
def charPlaces (accepts : Char → Bool) : List Char → Nat
  | [] => 0
  | c :: rest => (accepts c).toNat + 2 * charPlaces accepts rest

def assertedPlaces (a : Assertion) (before : Option Char) : List Char → Nat
  | [] => (a.holds before none).toNat
  | c :: rest => (a.holds before (some c)).toNat + 2 * assertedPlaces a (some c) rest

def steps (step : Nat → Nat) : Nat → Nat → Nat
  | 0, places => places
  | n + 1, places => if places = 0 then 0 else steps step n (step places)

def stepsUpTo (step : Nat → Nat) : Nat → Nat → Nat
  | 0, places => places
  | n + 1, places =>
    let more := places ||| step places
    if more = places then places else stepsUpTo step n more

inductive Placed where
  | empty
  | char (places : Nat)
  | assertion (places : Nat)
  | cat (p q : Placed)
  | alt (p q : Placed)
  | repeated (p : Placed) (min extra : Nat)

/--
A pattern on a text. More steps than the text has characters reach no new place, which bounds a
repetition without an upper bound.
-/
def place (text : List Char) : Pattern → Placed
  | empty => .empty
  | char accepts => .char (charPlaces accepts text)
  | assertion a => .assertion (assertedPlaces a none text)
  | cat p q => .cat (p.place text) (q.place text)
  | alt p q => .alt (p.place text) (q.place text)
  | repeated p min max =>
    .repeated (p.place text) min (match max with
      | some max => max - min
      | none => text.length)

def Placed.reach : Placed → Nat → Nat
  | empty, places => places
  | char here, places => (places &&& here) <<< 1
  | assertion here, places => places &&& here
  | cat p q, places => q.reach (p.reach places)
  | alt p q, places => p.reach places ||| q.reach places
  | repeated p min extra, places => stepsUpTo p.reach extra (steps p.reach min places)

def reach (text : List Char) (p : Pattern) (places : Nat) : Nat := (p.place text).reach places

def isFoundIn (p : Pattern) (text : List Char) : Bool :=
  reach text p (Nat.pow 2 (text.length + 1) - 1) != 0

def matchesAll (p : Pattern) (text : List Char) : Bool :=
  (reach text p 1).testBit text.length

end Pattern
end ShapeContracts
