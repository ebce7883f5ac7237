/-!
A place in a YAML text, and the classes of characters that the format tells apart.
-/
namespace ShapeContracts.Yaml

structure Cursor where
  rest : List Char
  index : Nat
  line : Nat
  column : Nat

def isAllowed (c : Char) : Bool :=
  let n := c.toNat
  n == 0x09 || n == 0x0A || n == 0x0D || (0x20 ≤ n && n ≤ 0x7E) || n == 0x85
    || (0xA0 ≤ n && n ≤ 0xD7FF) || (0xE000 ≤ n && n ≤ 0xFFFD && n != 0xFEFF) || 0x10000 ≤ n

def isBlank (c : Char) : Bool := c == ' ' || c == '\t'

def isBreak (c : Char) : Bool :=
  c == '\n' || c == '\r' || c == '\u0085' || c == '\u2028' || c == '\u2029'

def isAnchorLetter (c : Char) : Bool := c.isAlphanum || c == '_' || c == '-'

namespace Cursor

def ofText (cs : List Char) : Cursor := ⟨cs, 0, 0, 0⟩

def peek (k : Cursor) (n : Nat) : Option Char := k.rest[n]?

def head (k : Cursor) : Option Char := k.rest.head?

def skip (k : Cursor) : Cursor :=
  match k.rest with
  | [] => k
  | _ :: rest => ⟨rest, k.index + 1, k.line, k.column + 1⟩

def skipMany (k : Cursor) (n : Nat) : Cursor := n.repeat skip k

def takeLine (k : Cursor) : List Char × Cursor :=
  match k.rest with
  | '\r' :: '\n' :: rest => (['\n'], ⟨rest, k.index + 2, k.line + 1, 0⟩)
  | c :: rest =>
    if c == '\n' || c == '\r' || c == '\u0085' then (['\n'], ⟨rest, k.index + 1, k.line + 1, 0⟩)
    else if isBreak c then ([c], ⟨rest, k.index + 1, k.line + 1, 0⟩)
    else ([], k)
  | [] => ([], k)

def atEnd (k : Cursor) : Bool := k.rest.isEmpty

def is (k : Cursor) (n : Nat) (p : Char → Bool) : Bool := (k.peek n).any p

def atBlank (k : Cursor) (n : Nat) : Bool := k.is n isBlank

def atBreak (k : Cursor) (n : Nat) : Bool := k.is n isBreak

def atBlankOrEnd (k : Cursor) (n : Nat) : Bool :=
  match k.peek n with
  | none => true
  | some c => isBlank c || isBreak c

def atBreakOrEnd (k : Cursor) (n : Nat) : Bool :=
  match k.peek n with
  | none => true
  | some c => isBreak c

def atDocumentMark (k : Cursor) : Bool :=
  k.column == 0 && k.atBlankOrEnd 3 &&
    match k.rest with
    | '-' :: '-' :: '-' :: _ => true
    | '.' :: '.' :: '.' :: _ => true
    | _ => false

def takeLineRest (k : Cursor) : List Char × Cursor :=
  let cs := k.rest.takeWhile (fun c => !isBreak c)
  (cs, k.skipMany cs.length)

end Cursor
end ShapeContracts.Yaml
