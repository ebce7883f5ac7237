import ShapeContracts.Json
import ShapeContracts.Binary64.Decimal

/-!
Reading JSON text. The reader keeps repeated names of an object, refuses more than 127 levels, and
is strict: no lone surrogate escapes, no raw control characters, nothing after the value.
-/
namespace ShapeContracts.Json

def maxDepth : Nat := 127

def isBlank (c : Char) : Bool := c == ' ' || c == '\n' || c == '\t' || c == '\r'

def skipBlanks (cs : List Char) : List Char := cs.dropWhile isBlank

def digit? (c : Char) : Option Nat := if c.isDigit then some (c.toNat - 48) else none

def hexDigit? (c : Char) : Option Nat :=
  if c.isDigit then some (c.toNat - 48)
  else if 'a' ≤ c ∧ c ≤ 'f' then some (c.toNat - 87)
  else if 'A' ≤ c ∧ c ≤ 'F' then some (c.toNat - 55)
  else none

def codeUnit? : List Char → Option (Nat × List Char)
  | a :: b :: c :: d :: rest => do
    let a ← hexDigit? a
    let b ← hexDigit? b
    let c ← hexDigit? c
    let d ← hexDigit? d
    some (((a * 16 + b) * 16 + c) * 16 + d, rest)
  | _ => none

def isHighSurrogate (n : Nat) : Bool := 0xD800 ≤ n && n < 0xDC00

def isLowSurrogate (n : Nat) : Bool := 0xDC00 ≤ n && n < 0xE000

def escapedUnit? (cs : List Char) : Option (Char × List Char) := do
  let (first, rest) ← codeUnit? cs
  if isLowSurrogate first then none
  else if isHighSurrogate first then
    match rest with
    | '\\' :: 'u' :: more =>
      let (second, rest) ← codeUnit? more
      if isLowSurrogate second then
        some (Char.ofNat (0x10000 + (first - 0xD800) * 0x400 + (second - 0xDC00)), rest)
      else none
    | _ => none
  else some (Char.ofNat first, rest)

def escaped? : List Char → Option (Char × List Char)
  | '"' :: rest => some ('"', rest)
  | '\\' :: rest => some ('\\', rest)
  | '/' :: rest => some ('/', rest)
  | 'b' :: rest => some ('\x08', rest)
  | 'f' :: rest => some ('\x0c', rest)
  | 'n' :: rest => some ('\n', rest)
  | 'r' :: rest => some ('\r', rest)
  | 't' :: rest => some ('\t', rest)
  | 'u' :: rest => escapedUnit? rest
  | _ => none

def readString : Nat → List Char → Option (List Char × List Char)
  | 0, _ => none
  | _ + 1, [] => none
  | fuel + 1, c :: rest =>
    if c = '"' then some ([], rest)
    else if c = '\\' then do
      let (x, rest) ← escaped? rest
      let (s, rest) ← readString fuel rest
      some (x :: s, rest)
    else if c.toNat < 0x20 then none
    else do
      let (s, rest) ← readString fuel rest
      some (c :: s, rest)

def natOfDigits (n : Nat) (ds : List Char) : Nat := ds.foldl (fun n c => n * 10 + (c.toNat - 48)) n

def largestSignificand : Nat := 18446744073709551615

/--
A significand of at most 64 bits and what was not taken: the digits after the first one that would
overflow are left over.
-/
def takeSignificand : Nat → List Char → Nat × List Char
  | n, [] => (n, [])
  | n, c :: rest =>
    let next := n * 10 + (c.toNat - 48)
    if next ≤ largestSignificand then takeSignificand next rest else (n, c :: rest)

structure Literal where
  negative : Bool
  whole : List Char
  fraction : Option (List Char)
  exponent : Option (Bool × List Char)
  deriving DecidableEq

def readExponent (cs : List Char) : Option ((Bool × List Char) × List Char) :=
  let (negative, cs) := match cs with
    | '+' :: r => (false, r)
    | '-' :: r => (true, r)
    | r => (false, r)
  match cs.span Char.isDigit with
  | ([], _) => none
  | (ds, rest) => some ((negative, ds), rest)

def readLiteral (cs : List Char) : Option (Literal × List Char) := do
  let (negative, cs) := match cs with
    | '-' :: r => (true, r)
    | r => (false, r)
  let (whole, cs) := cs.span Char.isDigit
  if whole.isEmpty || (whole.length > 1 && whole.head? == some '0') then none else
  let (fraction, cs) ← match cs with
    | '.' :: r =>
      match r.span Char.isDigit with
      | ([], _) => none
      | (ds, r) => some (some ds, r)
    | r => some (none, r)
  let (exponent, cs) ← match cs with
    | 'e' :: r => (readExponent r).map (fun (e, r) => (some e, r))
    | 'E' :: r => (readExponent r).map (fun (e, r) => (some e, r))
    | r => some (none, r)
  some (⟨negative, whole, fraction, exponent⟩, cs)

namespace Literal

def exponentValue (l : Literal) : Int :=
  match l.exponent with
  | none => 0
  | some (negative, ds) => if negative then -(natOfDigits 0 ds : Int) else natOfDigits 0 ds

def float? (l : Literal) : Option Binary64 :=
  let (significand, dropped) := takeSignificand 0 l.whole
  let (significand, places) := match l.fraction with
    | none => (significand, 0)
    | some ds =>
      let (n, rest) := takeSignificand significand ds
      (n, ds.length - rest.length)
  Binary64.ofDecimal? l.negative significand (dropped.length - (places : Int) + l.exponentValue)

def number? (l : Literal) : Option Number :=
  let n := natOfDigits 0 l.whole
  let signed : Int := if l.negative then -(n : Int) else n
  if l.fraction.isNone ∧ l.exponent.isNone ∧ ¬(l.negative ∧ n = 0)
      ∧ Number.minWhole ≤ signed ∧ signed ≤ Number.maxWhole then some (.whole signed)
  else l.float?.map .float

end Literal

def readNumber (cs : List Char) : Option (Json × List Char) := do
  let (literal, rest) ← readLiteral cs
  let n ← literal.number?
  some (.number n, rest)

mutual

def readValue (limit : Nat) : Nat → Nat → List Char → Option (Json × List Char)
  | 0, _, _ => none
  | fuel + 1, depth, cs =>
    match skipBlanks cs with
    | 'n' :: 'u' :: 'l' :: 'l' :: rest => some (.null, rest)
    | 't' :: 'r' :: 'u' :: 'e' :: rest => some (.bool true, rest)
    | 'f' :: 'a' :: 'l' :: 's' :: 'e' :: rest => some (.bool false, rest)
    | '"' :: rest => do
      let (s, rest) ← readString limit rest
      some (.string (String.ofList s), rest)
    | '[' :: rest =>
      match depth with
      | 0 => none
      | depth + 1 =>
        match skipBlanks rest with
        | ']' :: rest => some (.array [], rest)
        | rest => do
          let (item, rest) ← readValue limit fuel depth rest
          let (items, rest) ← readItems limit fuel depth rest
          some (.array (item :: items), rest)
    | '{' :: rest =>
      match depth with
      | 0 => none
      | depth + 1 =>
        match skipBlanks rest with
        | '}' :: rest => some (.object [], rest)
        | rest => do
          let (member, rest) ← readMember limit fuel depth rest
          let (members, rest) ← readMembers limit fuel depth rest
          some (.object (member :: members), rest)
    | rest => readNumber rest

def readItems (limit : Nat) : Nat → Nat → List Char → Option (List Json × List Char)
  | 0, _, _ => none
  | fuel + 1, depth, cs =>
    match skipBlanks cs with
    | ']' :: rest => some ([], rest)
    | ',' :: rest => do
      let (item, rest) ← readValue limit fuel depth rest
      let (items, rest) ← readItems limit fuel depth rest
      some (item :: items, rest)
    | _ => none

def readMember (limit : Nat) : Nat → Nat → List Char → Option ((String × Json) × List Char)
  | 0, _, _ => none
  | fuel + 1, depth, cs =>
    match skipBlanks cs with
    | '"' :: rest => do
      let (name, rest) ← readString limit rest
      match skipBlanks rest with
      | ':' :: rest =>
        let (value, rest) ← readValue limit fuel depth rest
        some ((String.ofList name, value), rest)
      | _ => none
    | _ => none

def readMembers (limit : Nat) : Nat → Nat → List Char → Option (List (String × Json) × List Char)
  | 0, _, _ => none
  | fuel + 1, depth, cs =>
    match skipBlanks cs with
    | '}' :: rest => some ([], rest)
    | ',' :: rest => do
      let (member, rest) ← readMember limit fuel depth rest
      let (members, rest) ← readMembers limit fuel depth rest
      some (member :: members, rest)
    | _ => none

end

def parseRaw? (text : String) : Option Json :=
  let cs := text.toList
  match readValue (cs.length + 1) (cs.length + 1) maxDepth cs with
  | some (j, rest) => if (skipBlanks rest).isEmpty then some j else none
  | none => none

def parse? (text : String) : Option Json := (parseRaw? text).map settle

end ShapeContracts.Json
