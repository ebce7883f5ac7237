import ShapeContracts.Pattern.Bracket

/-!
Reading a pattern. Open groups stand on a stack; each remembers the flags that hold after it.
-/
namespace ShapeContracts.Pattern

structure Frame where
  flags : Flags
  branches : List Pattern
  /-- Pieces of the current alternative, the last one first; setting flags is none. -/
  pieces : List (Option Pattern)

namespace Frame

def start (f : Flags) : Frame := ⟨f, [], []⟩

def push (frame : Frame) (p : Pattern) : Frame := { frame with pieces := some p :: frame.pieces }

def branch (frame : Frame) : Pattern := catAll (frame.pieces.reverse.filterMap id)

def nextBranch (frame : Frame) : Frame :=
  { frame with branches := frame.branches ++ [frame.branch], pieces := [] }

def pattern (frame : Frame) : Pattern := altAll (frame.branches ++ [frame.branch])

def repeatLast (frame : Frame) (min : Nat) (max : Option Nat) : Except SyntaxError Frame :=
  match frame.pieces with
  | some p :: rest => pure { frame with pieces := some (.repeated p min max) :: rest }
  | _ => throw .nothingToRepeat

end Frame

structure Groups where
  current : Frame
  outer : List Frame
  names : List (List Char)

namespace Groups

def start : Groups := ⟨.start .standard, [], []⟩

def flags (g : Groups) : Flags := g.current.flags

def push (g : Groups) (p : Pattern) : Groups := { g with current := g.current.push p }

def openGroup (g : Groups) (f : Flags) : Groups :=
  { g with current := .start f, outer := g.current :: g.outer }

def setFlags (g : Groups) (f : Flags) : Groups :=
  { g with current := { g.current with flags := f, pieces := none :: g.current.pieces } }

def closeGroup (g : Groups) : Except SyntaxError Groups :=
  match g.outer with
  | [] => throw .unopenedGroup
  | frame :: outer => pure { g with current := frame.push g.current.pattern, outer := outer }

def finish (g : Groups) : Except SyntaxError Pattern :=
  match g.outer with
  | [] => pure g.current.pattern
  | _ => throw .unclosedGroup

end Groups

def readFlags : List Char → Bool → Flags → List Char → Except SyntaxError ((Flags × List Char) × List Char)
  | _, _, _, [] => throw .invalidFlags
  | seen, on, f, c :: rest =>
    if c = ':' ∨ c = ')' then
      if seen.head? = some '-' then throw .invalidFlags else pure ((f, seen), c :: rest)
    else if seen.contains c then throw .invalidFlags
    else if c = '-' then readFlags (c :: seen) false f rest
    else match f.set? c on with
    | some f => readFlags (c :: seen) on f rest
    | none => throw .invalidFlags

def isNameStart (c : Char) : Bool := c == '_' || Unicode.isAlphabetic c

def isNamePart (c : Char) : Bool :=
  c == '_' || c == '.' || c == '[' || c == ']' || Unicode.isAlphanumeric c

def readName (cs : List Char) : Except SyntaxError (List Char × List Char) :=
  match cs.takeWhile (· ≠ '>'), cs.dropWhile (· ≠ '>') with
  | c :: name, _ :: rest =>
    if isNameStart c && name.all isNamePart then pure (c :: name, rest) else throw .invalidGroupName
  | _, _ => throw .invalidGroupName

def openNamed (g : Groups) (cs : List Char) : Except SyntaxError (Groups × List Char) := do
  let (name, rest) ← readName cs
  if name ∈ g.names then throw .invalidGroupName
  pure ({ g.openGroup g.flags with names := name :: g.names }, rest)

def readOpening (g : Groups) (cs : List Char) : Except SyntaxError (Groups × List Char) :=
  match skip g.flags cs with
  | '?' :: '=' :: _ | '?' :: '!' :: _ | '?' :: '<' :: '=' :: _ | '?' :: '<' :: '!' :: _ =>
    throw .lookaround
  | '?' :: 'P' :: '<' :: rest | '?' :: '<' :: rest => openNamed g rest
  | '?' :: rest => do
    match ← readFlags [] true g.flags rest with
    | ((f, _), ':' :: rest) => pure (g.openGroup f, rest)
    | ((f, seen), _ :: rest) =>
      if seen.isEmpty then throw .nothingToRepeat else pure (g.setFlags f, rest)
    | (_, []) => throw .invalidFlags
  | rest => pure (g.openGroup g.flags, rest)

def readDigits (f : Flags) : Nat → List Char → List Char → List Char × List Char
  | fuel + 1, taken, c :: rest =>
    if c.isDigit then readDigits f fuel (c :: taken) (skip f rest) else (taken.reverse, c :: rest)
  | _, taken, cs => (taken.reverse, cs)

def largestCount : Nat := 4294967295

def readCount (f : Flags) (cs : List Char) : Except SyntaxError (Nat × List Char) :=
  let cs := cs.dropWhile Unicode.isWhiteSpace
  let (digits, rest) := readDigits f cs.length [] cs
  let rest := match rest with
    | c :: _ => if Unicode.isWhiteSpace c then skip f (rest.dropWhile Unicode.isWhiteSpace) else rest
    | [] => []
  let n := digits.foldl (fun n c => n * 10 + (c.toNat - 48)) 0
  if digits.isEmpty ∨ largestCount < n then throw .invalidRepetition else pure (n, rest)

def readCounts (f : Flags) (cs : List Char) : Except SyntaxError ((Nat × Option Nat) × List Char) := do
  let (min, rest) ← readCount f (skip f cs)
  match rest with
  | '}' :: rest => pure ((min, some min), rest)
  | ',' :: rest =>
    match skip f rest with
    | '}' :: rest => pure ((min, none), rest)
    | rest =>
      let (max, rest) ← readCount f rest
      match rest with
      | '}' :: rest => if max < min then throw .invalidRepetition else pure ((min, some max), rest)
      | _ => throw .invalidRepetition
  | _ => throw .invalidRepetition

def dropLazyMark : List Char → List Char
  | '?' :: rest => rest
  | cs => cs

def repeatLast (g : Groups) (min : Nat) (max : Option Nat) (rest : List Char) : Except SyntaxError (Groups × List Char) := do
  let frame ← g.current.repeatLast min max
  pure ({ g with current := frame }, dropLazyMark rest)

def ofAtom (f : Flags) : Atom → Except SyntaxError Pattern
  | .literal c => pure (.char (f.fold (.single c)))
  | .set s => return .char (← f.check s)
  | .assertion a => pure (.assertion a)

def readToken (g : Groups) (c : Char) (rest : List Char) : Except SyntaxError (Groups × List Char) :=
  match c with
  | '(' => readOpening g rest
  | ')' => return (← g.closeGroup, rest)
  | '|' => pure ({ g with current := g.current.nextBranch }, rest)
  | '[' => do
    let (s, rest) ← readClass g.flags rest
    pure (g.push (.char s), rest)
  | '?' => repeatLast g 0 (some 1) rest
  | '*' => repeatLast g 0 none rest
  | '+' => repeatLast g 1 none rest
  | '{' => do
    let ((min, max), rest) ← readCounts g.flags rest
    repeatLast g min max (skip g.flags rest)
  | '.' => return (g.push (.char (← g.flags.dot)), rest)
  | '^' => pure (g.push (.assertion g.flags.caret), rest)
  | '$' => pure (g.push (.assertion g.flags.dollar), rest)
  | '\\' => do
    let (atom, rest) ← readEscape g.flags rest
    pure (g.push (← ofAtom g.flags atom), rest)
  | c => pure (g.push (.char (g.flags.fold (.single c))), rest)

def readTokens : Nat → Groups → List Char → Except SyntaxError Pattern
  | fuel, g, cs =>
    match fuel, skip g.flags cs with
    | _, [] => g.finish
    | 0, _ => throw .unclosedGroup
    | fuel + 1, c :: rest => do
      let (g, rest) ← readToken g c rest
      readTokens fuel g rest

def parse (text : String) : Except SyntaxError Pattern :=
  readTokens text.length .start text.toList

end ShapeContracts.Pattern
