import ShapeContracts.Pattern.CharSet

/-!
The pieces that patterns are written with: flags, blanks and comments in verbose mode, whole
numbers, and what a backslash introduces.
-/
namespace ShapeContracts.Pattern

inductive SyntaxError where
  | unclosedGroup
  | unopenedGroup
  | unclosedClass
  | nothingToRepeat
  | invalidRepetition
  | invalidEscape
  | invalidFlags
  | invalidGroupName
  | invalidRange
  | unknownProperty
  | lookaround
  | backreference
  | beyondAscii
  deriving DecidableEq, Repr

def SyntaxError.message : SyntaxError → String
  | unclosedGroup => "a group is not closed"
  | unopenedGroup => "a closing parenthesis has no group"
  | unclosedClass => "a character class is not closed"
  | nothingToRepeat => "a repetition has nothing to repeat"
  | invalidRepetition => "a repetition count is not valid"
  | invalidEscape => "an escape is not valid"
  | invalidFlags => "group flags are not valid"
  | invalidGroupName => "a group name is not valid"
  | invalidRange => "a range in a character class is not valid"
  | unknownProperty => "a character property is not known"
  | lookaround => "lookaround is not supported"
  | backreference => "backreferences are not supported"
  | beyondAscii => "a set outside Unicode mode is not ASCII"

structure Flags where
  foldCase : Bool
  multiLine : Bool
  dotAll : Bool
  verbose : Bool
  returns : Bool
  unicode : Bool
  deriving DecidableEq, Repr

namespace Flags

def standard : Flags := ⟨false, false, false, false, false, true⟩

def set? (f : Flags) (letter : Char) (on : Bool) : Option Flags :=
  match letter with
  | 'i' => some { f with foldCase := on }
  | 'm' => some { f with multiLine := on }
  | 's' => some { f with dotAll := on }
  | 'x' => some { f with verbose := on }
  | 'R' => some { f with returns := on }
  | 'u' => some { f with unicode := on }
  | 'U' => some f
  | _ => none

def fold (f : Flags) (s : CharSet) : CharSet := if f.foldCase then s.folded f.unicode else s

/-- Outside Unicode mode a set may hold ASCII alone; every other character stands for the rest. -/
def check (f : Flags) (s : CharSet) : Except SyntaxError CharSet :=
  if !f.unicode && s '\x80' then throw .beyondAscii else pure s

def dot (f : Flags) : Except SyntaxError CharSet :=
  if !f.unicode then throw .beyondAscii
  else if f.dotAll then pure (fun _ => true)
  else if f.returns then pure (fun c => c != '\n' && c != '\r')
  else pure (fun c => c != '\n')

def caret (f : Flags) : Assertion :=
  if f.multiLine then (if f.returns then .returnLineStart else .lineStart) else .textStart

def dollar (f : Flags) : Assertion :=
  if f.multiLine then (if f.returns then .returnLineEnd else .lineEnd) else .textEnd

def word (f : Flags) (holds : Bool → Bool → Bool) : Assertion := .word (CharSet.word f.unicode) holds

end Flags

def skipVerbose : Bool → List Char → List Char
  | _, [] => []
  | true, c :: rest => skipVerbose (c != '\n') rest
  | false, c :: rest =>
    if Unicode.isWhiteSpace c then skipVerbose false rest
    else if c = '#' then skipVerbose true rest
    else c :: rest

def skip (f : Flags) (cs : List Char) : List Char := if f.verbose then skipVerbose false cs else cs

def hexValue? (c : Char) : Option Nat :=
  if c.isDigit then some (c.toNat - 48)
  else if 'a' ≤ c ∧ c ≤ 'f' then some (c.toNat - 87)
  else if 'A' ≤ c ∧ c ≤ 'F' then some (c.toNat - 55)
  else none

def charOfCode? (n : Nat) : Option Char := if n.isValidChar then some (Char.ofNat n) else none

def readHexDigits (f : Flags) : Nat → Nat → List Char → Except SyntaxError (Nat × List Char)
  | 0, value, cs => pure (value, cs)
  | _ + 1, _, [] => throw .invalidEscape
  | n + 1, value, c :: rest =>
    match hexValue? c with
    | some d => readHexDigits f n (value * 16 + d) (skip f rest)
    | none => throw .invalidEscape

def readBraced (f : Flags) : Nat → List Char → List Char → Except SyntaxError (List Char × List Char)
  | 0, _, _ => throw .invalidEscape
  | fuel + 1, taken, cs =>
    match skip f cs with
    | [] => throw .invalidEscape
    | '}' :: rest => pure (taken.reverse, rest)
    | c :: rest => readBraced f fuel (c :: taken) rest

def readCode (f : Flags) (letter : Char) (cs : List Char) : Except SyntaxError (Char × List Char) :=
  match skip f cs with
  | [] => throw .invalidEscape
  | '{' :: rest => do
    let (digits, rest) ← readBraced f (rest.length + 1) [] rest
    match digits.mapM hexValue? with
    | some (d :: ds) =>
      match charOfCode? ((d :: ds).foldl (fun n d => n * 16 + d) 0) with
      | some c => pure (c, skip f rest)
      | none => throw .invalidEscape
    | _ => throw .invalidEscape
  | cs => do
    let (value, rest) ← readHexDigits f (if letter = 'x' then 2 else if letter = 'u' then 4 else 8) 0 cs
    if letter = 'x' && !f.unicode && 0x80 ≤ value then throw .beyondAscii
    match charOfCode? value with
    | some c => pure (c, rest)
    | none => throw .invalidEscape

def cutAt (separator : List Char) : List Char → Option (List Char × List Char)
  | [] => none
  | c :: rest =>
    if separator.isPrefixOf (c :: rest) then some ([], (c :: rest).drop separator.length)
    else (cutAt separator rest).map (fun (a, b) => (c :: a, b))

def propertySet? (name : List Char) : Option CharSet :=
  match cutAt ['!', '='] name with
  | some (n, v) => (CharSet.ofNameValue? n v).map CharSet.complement
  | none =>
    match (cutAt [':'] name).orElse fun _ => cutAt ['='] name with
    | some (n, v) => CharSet.ofNameValue? n v
    | none => CharSet.ofName? name

def readProperty (f : Flags) (negated : Bool) (cs : List Char) : Except SyntaxError (CharSet × List Char) := do
  let (name, rest) ← match skip f cs with
    | [] => throw .invalidEscape
    | '{' :: rest => readBraced f (rest.length + 1) [] rest
    | '\\' :: _ => throw .unknownProperty
    | c :: rest => pure ([c], skip f rest)
  if !f.unicode then throw .beyondAscii
  match propertySet? name with
  | some s => pure ((f.fold s).negateIf negated, rest)
  | none => throw .unknownProperty

inductive Atom where
  | literal (c : Char)
  | set (s : CharSet)
  | assertion (a : Assertion)

def isEscapable (c : Char) : Bool :=
  c.toNat < 128 && !c.isAlphanum && c != '<' && c != '>'

def boundaryRule? : String → Option (Bool → Bool → Bool)
  | "start" => some (fun before after => !before && after)
  | "end" => some (fun before after => before && !after)
  | "start-half" => some (fun before _ => !before)
  | "end-half" => some (fun _ after => !after)
  | _ => none

def isBoundaryLetter (c : Char) : Bool := c.isAlpha || c == '-'

def readBoundaryName (f : Flags) : Nat → List Char → List Char → List Char × List Char
  | 0, taken, cs => (taken.reverse, cs)
  | fuel + 1, taken, cs =>
    match cs with
    | c :: rest =>
      if isBoundaryLetter c then readBoundaryName f fuel (c :: taken) (skip f rest)
      else (taken.reverse, cs)
    | [] => (taken.reverse, [])

def readBoundary (f : Flags) (cs : List Char) : Except SyntaxError (Atom × List Char) :=
  let plain : Atom := .assertion (f.word (fun before after => before != after))
  match cs with
  | '{' :: rest =>
    match skip f rest with
    | [] => throw .invalidRepetition
    | c :: _ =>
      if isBoundaryLetter c then
        match readBoundaryName f rest.length [] (skip f rest) with
        | (name, '}' :: rest) =>
          match boundaryRule? (String.ofList name) with
          | some rule => pure (.assertion (f.word rule), rest)
          | none => throw .invalidEscape
        | _ => throw .invalidEscape
      else pure (plain, cs)
  | _ => pure (plain, cs)

def readEscape (f : Flags) : List Char → Except SyntaxError (Atom × List Char)
  | [] => throw .invalidEscape
  | c :: rest =>
    if c.isDigit then throw .backreference
    else if c = 'x' ∨ c = 'u' ∨ c = 'U' then do
      let (d, rest) ← readCode f c rest
      pure (.literal d, rest)
    else if c = 'p' ∨ c = 'P' then do
      let (s, rest) ← readProperty f (c == 'P') rest
      pure (.set s, rest)
    else match CharSet.ofLetter? f.unicode c with
    | some s => pure (.set s, rest)
    | none =>
      if isEscapable c then pure (.literal c, rest)
      else match c with
      | 'a' => pure (.literal '\x07', rest)
      | 'f' => pure (.literal '\x0c', rest)
      | 't' => pure (.literal '\t', rest)
      | 'n' => pure (.literal '\n', rest)
      | 'r' => pure (.literal '\r', rest)
      | 'v' => pure (.literal '\x0b', rest)
      | 'A' => pure (.assertion .textStart, rest)
      | 'z' => pure (.assertion .textEnd, rest)
      | 'b' => readBoundary f rest
      | 'B' => pure (.assertion (f.word (fun before after => before == after)), rest)
      | '<' => pure (.assertion (f.word (fun before after => !before && after)), rest)
      | '>' => pure (.assertion (f.word (fun before after => before && !after)), rest)
      | _ => throw .invalidEscape

end ShapeContracts.Pattern
