import ShapeContracts.Pattern.Escape

/-!
Bracketed character classes: literals, ranges, escapes, nested classes, and the operators between
them, which bind weaker than writing items side by side and associate to the left.
-/
namespace ShapeContracts.Pattern

inductive SetOperator where
  | intersection
  | difference
  | symmetricDifference
  deriving DecidableEq, Repr

def SetOperator.apply (op : SetOperator) (s t : CharSet) : CharSet := fun c =>
  match op with
  | intersection => s c && t c
  | difference => s c && !t c
  | symmetricDifference => s c != t c

structure Items where
  left : Option (CharSet × SetOperator)
  set : CharSet

namespace Items

def empty : Items := ⟨none, fun _ => false⟩

def add (items : Items) (s : CharSet) : Items := { items with set := items.set.union s }

/-- The set of all items; operands are closed under case before the operator joins them. -/
def result (f : Flags) (items : Items) : CharSet :=
  match items.left with
  | none => items.set
  | some (s, op) => op.apply (f.fold s) (f.fold items.set)

def operator (f : Flags) (op : SetOperator) (items : Items) : Items :=
  ⟨some (items.result f, op), fun _ => false⟩

end Items

def asciiClass? (f : Flags) (cs : List Char) : Option (CharSet × List Char) := do
  let (negated, cs) ← match cs with
    | ':' :: '^' :: rest => some (true, rest)
    | ':' :: rest => some (false, rest)
    | _ => none
  let name := cs.takeWhile (· ≠ ':')
  match cs.dropWhile (· ≠ ':') with
  | ':' :: ']' :: rest =>
    let s ← CharSet.ofAsciiName? (String.ofList name)
    some ((f.fold s).negateIf negated, rest)
  | _ => none

def following? (f : Flags) (cs : List Char) : Option Char :=
  if f.verbose then
    match (cs.drop 1).dropWhile Unicode.isWhiteSpace with
    | '#' :: rest => (rest.dropWhile Unicode.isWhiteSpace).head?
    | rest => rest.head?
  else (cs.drop 1).head?

def readClassAtom (f : Flags) : List Char → Except SyntaxError (Atom × List Char)
  | [] => throw .unclosedClass
  | '\\' :: rest => readEscape f rest
  | c :: rest => pure (.literal c, rest)

def literalSet (f : Flags) (c : Char) : Except SyntaxError CharSet :=
  if !f.unicode && 0x80 ≤ c.toNat then throw .beyondAscii else pure (.single c)

def atomSet (f : Flags) : Atom → Except SyntaxError CharSet
  | .literal c => literalSet f c
  | .set s => f.check s
  | .assertion _ => throw .invalidEscape

def atomLiteral : Atom → Except SyntaxError Char
  | .literal c => pure c
  | _ => throw .invalidRange

def readItem (f : Flags) (cs : List Char) : Except SyntaxError (CharSet × List Char) := do
  let (first, rest) ← readClassAtom f cs
  let rest := skip f rest
  match rest with
  | [] => throw .unclosedClass
  | '-' :: after =>
    if following? f rest = some ']' ∨ following? f rest = some '-' then
      pure (← atomSet f first, rest)
    else
      let after := skip f after
      let (last, rest) ← readClassAtom f after
      let lo ← atomLiteral first
      let hi ← atomLiteral last
      if hi < lo then throw .invalidRange
      let _ ← literalSet f hi
      pure (.range lo hi, rest)
  | _ => pure (← atomSet f first, rest)

def readHyphens (f : Flags) : Nat → Items → List Char → Items × List Char
  | fuel + 1, items, '-' :: rest => readHyphens f fuel (items.add (.single '-')) (skip f rest)
  | _, items, cs => (items, cs)

def openClass (f : Flags) (cs : List Char) : Bool × Items × List Char :=
  let cs := skip f cs
  let (negated, cs) := match cs with
    | '^' :: rest => (true, skip f rest)
    | cs => (false, cs)
  match readHyphens f cs.length .empty cs with
  | (items, ']' :: rest) =>
    if cs.head? = some ']' then (negated, items.add (.single ']'), skip f rest)
    else (negated, items, ']' :: rest)
  | (items, rest) => (negated, items, rest)

def readItems (f : Flags) : Nat → List (Bool × Items) → Bool → Items → List Char → Except SyntaxError (CharSet × List Char)
  | 0, _, _, _, _ => throw .unclosedClass
  | fuel + 1, outer, negated, items, cs =>
    match skip f cs with
    | [] => throw .unclosedClass
    | '[' :: rest =>
      match asciiClass? f rest with
      | some (s, rest) => do
        let s ← f.check s
        readItems f fuel outer negated (items.add s) rest
      | none =>
        let (inner, first, rest) := openClass f rest
        readItems f fuel ((negated, items) :: outer) inner first rest
    | ']' :: rest => do
      let s ← f.check ((f.fold (items.result f)).negateIf negated)
      match outer with
      | [] => pure (s, rest)
      | (negated, items) :: outer => readItems f fuel outer negated (items.add s) rest
    | '&' :: '&' :: rest =>
      readItems f fuel outer negated (items.operator f .intersection) rest
    | '-' :: '-' :: rest =>
      readItems f fuel outer negated (items.operator f .difference) rest
    | '~' :: '~' :: rest =>
      readItems f fuel outer negated (items.operator f .symmetricDifference) rest
    | c :: rest => do
      let (s, rest) ← readItem f (c :: rest)
      readItems f fuel outer negated (items.add s) rest

def readClass (f : Flags) (cs : List Char) : Except SyntaxError (CharSet × List Char) :=
  let (negated, items, rest) := openClass f cs
  readItems f (rest.length + 1) [] negated items rest

end ShapeContracts.Pattern
