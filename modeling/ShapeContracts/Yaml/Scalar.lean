import ShapeContracts.Yaml.Cursor

/-!
Texts of the scalar styles: plain, quoted and block scalars, with their rules for line breaks.
A step count bounds every loop; each step consumes a character or ends the loop.
-/
namespace ShapeContracts.Yaml

structure Gap where
  blanks : List Char
  leadingBreak : List Char
  trailingBreaks : List Char
  broken : Bool

namespace Gap

def empty : Gap := ⟨[], [], [], false⟩

/-- A single line feed becomes a blank, and the first of several is dropped. -/
def text (g : Gap) : List Char :=
  if !g.broken then g.blanks
  else if g.leadingBreak.head? == some '\n' then
    if g.trailingBreaks.isEmpty then [' '] else g.trailingBreaks
  else g.leadingBreak ++ g.trailingBreaks

def addBreak (g : Gap) (b : List Char) : Gap :=
  if g.broken then { g with trailingBreaks := g.trailingBreaks ++ b }
  else { g with blanks := [], leadingBreak := b, broken := true }

end Gap

/-- Blanks and line breaks; a tab left of `indent` after a break is refused. -/
def takeGap (indent : Option Nat) : Nat → Gap → Cursor → Option (Gap × Cursor)
  | 0, g, k => some (g, k)
  | fuel + 1, g, k =>
    match k.head with
    | none => some (g, k)
    | some c =>
      if isBlank c then
        if g.broken && c == '\t' && indent.any (fun n => k.column < n) then none
        else
          let g := if g.broken then g else { g with blanks := g.blanks ++ [c] }
          takeGap indent fuel g k.skip
      else if isBreak c then
        let (b, k) := k.takeLine
        takeGap indent fuel (g.addBreak b) k
      else some (g, k)

def hexValue? (cs : List Char) : Option Nat :=
  cs.foldlM (fun n c =>
    if c.isDigit then some (n * 16 + (c.toNat - 48))
    else if 'a' ≤ c ∧ c ≤ 'f' then some (n * 16 + (c.toNat - 87))
    else if 'A' ≤ c ∧ c ≤ 'F' then some (n * 16 + (c.toNat - 55))
    else none) 0

def escapeCode (width : Nat) (k : Cursor) : Option (Char × Cursor) := do
  let cs := k.rest.take width
  if cs.length < width then none
  let n ← hexValue? cs
  if (0xD800 ≤ n ∧ n ≤ 0xDFFF) ∨ 0x10FFFF < n then none
  some (Char.ofNat n, k.skipMany width)

def escape? (k : Cursor) : Option (Char × Cursor) := do
  let c ← k.head
  let k := k.skip
  match c with
  | '0' => some ('\x00', k)
  | 'a' => some ('\x07', k)
  | 'b' => some ('\x08', k)
  | 't' | '\t' => some ('\t', k)
  | 'n' => some ('\n', k)
  | 'v' => some ('\x0b', k)
  | 'f' => some ('\x0c', k)
  | 'r' => some ('\r', k)
  | 'e' => some ('\x1b', k)
  | ' ' | '"' | '/' | '\\' => some (c, k)
  | 'N' => some ('\u0085', k)
  | '_' => some ('\u00a0', k)
  | 'L' => some ('\u2028', k)
  | 'P' => some ('\u2029', k)
  | 'x' => escapeCode 2 k
  | 'u' => escapeCode 4 k
  | 'U' => escapeCode 8 k
  | _ => none

def takeQuotedRun (single : Bool) : Nat → List Char → Cursor → Option (List Char × Bool × Cursor)
  | 0, acc, k => some (acc.reverse, false, k)
  | fuel + 1, acc, k =>
    match k.head with
    | none => some (acc.reverse, false, k)
    | some c =>
      if isBlank c || isBreak c then some (acc.reverse, false, k)
      else if single && c == '\'' && k.is 1 (· == '\'') then
        takeQuotedRun single fuel ('\'' :: acc) (k.skipMany 2)
      else if c == (if single then '\'' else '"') then some (acc.reverse, false, k)
      else if !single && c == '\\' && k.atBreak 1 then
        some (acc.reverse, true, k.skip.takeLine.2)
      else if !single && c == '\\' then do
        let (x, k) ← escape? k.skip
        takeQuotedRun single fuel (x :: acc) k
      else takeQuotedRun single fuel (c :: acc) k.skip

def takeQuoted (single : Bool) : Nat → List Char → Cursor → Option (List Char × Cursor)
  | 0, _, _ => none
  | fuel + 1, acc, k =>
    if k.atDocumentMark || k.atEnd then none
    else do
      let (run, escapedBreak, k) ← takeQuotedRun single (k.rest.length + 1) [] k
      if k.head == some (if single then '\'' else '"') && !escapedBreak then
        some (acc ++ run, k.skip)
      else
        let (gap, k) ← takeGap none (k.rest.length + 1) { Gap.empty with broken := escapedBreak } k
        if k.head == some (if single then '\'' else '"') then some (acc ++ run ++ gap.text, k.skip)
        else takeQuoted single fuel (acc ++ run ++ gap.text) k

def endsPlain (inFlow : Bool) (k : Cursor) (c : Char) : Bool :=
  (c == ':' && k.atBlankOrEnd 1)
    || (inFlow && (c == ',' || c == '[' || c == ']' || c == '{' || c == '}'))

/-- A run of a plain scalar; in a flow collection a colon before another indicator is refused. -/
def takePlainRun (inFlow : Bool) : Nat → List Char → Cursor → Option (List Char × Cursor)
  | 0, acc, k => some (acc.reverse, k)
  | fuel + 1, acc, k =>
    match k.head with
    | none => some (acc.reverse, k)
    | some c =>
      if isBlank c || isBreak c then some (acc.reverse, k)
      else if inFlow && c == ':' && k.is 1 (fun d => [',', '?', '[', ']', '{', '}'].contains d) then
        none
      else if endsPlain inFlow k c then some (acc.reverse, k)
      else takePlainRun inFlow fuel (c :: acc) k.skip

def takePlain (inFlow : Bool) (indent : Nat) :
    Nat → List Char → Gap → Cursor → Option (List Char × Bool × Cursor)
  | 0, acc, g, k => some (acc, g.broken, k)
  | fuel + 1, acc, g, k =>
    if k.atDocumentMark || k.head == some '#' then some (acc, g.broken, k)
    else do
      let (run, k) ← takePlainRun inFlow (k.rest.length + 1) [] k
      let (acc, g) := if run.isEmpty then (acc, g) else (acc ++ g.text ++ run, Gap.empty)
      if !(k.atBlank 0 || k.atBreak 0) then some (acc, g.broken, k)
      else
        let (g, k) ← takeGap (some indent) (k.rest.length + 1) g k
        if !inFlow && k.column < indent then some (acc, g.broken, k)
        else takePlain inFlow indent fuel acc g k

inductive Chomping where
  | strip
  | clip
  | keep
  deriving DecidableEq

def blockHeader? (k : Cursor) : Option (Chomping × Nat × Cursor) :=
  let sign? (c : Char) : Option Chomping :=
    if c == '+' then some .keep else if c == '-' then some .strip else none
  let digit (k : Cursor) : Option (Nat × Cursor) :=
    match k.head with
    | some c => if c == '0' then none else if c.isDigit then some (c.toNat - 48, k.skip) else some (0, k)
    | none => some (0, k)
  match k.head.bind sign? with
  | some chomping => (digit k.skip).map (fun (n, k) => (chomping, n, k))
  | none => do
    let (n, k) ← digit k
    if n = 0 then some (.clip, 0, k)
    else match k.head.bind sign? with
      | some chomping => some (chomping, n, k.skip)
      | none => some (.clip, n, k)

def takeEmptyLines (indent : Nat) :
    Nat → Nat → List Char → Cursor → Option (Nat × List Char × Cursor)
  | 0, widest, acc, k => some (widest, acc, k)
  | fuel + 1, widest, acc, k =>
    let inside := indent == 0 || k.column < indent
    if inside && k.is 0 (· == ' ') then takeEmptyLines indent fuel widest acc k.skip
    else
      let widest := max widest k.column
      if inside && k.is 0 (· == '\t') then none
      else if k.atBreak 0 then
        let (b, k) := k.takeLine
        takeEmptyLines indent fuel widest (acc ++ b) k
      else some (widest, acc, k)

structure BlockLines where
  text : List Char
  leadingBreak : List Char
  trailingBreaks : List Char
  leadingBlank : Bool

def takeBlockLines (folded : Bool) (indent : Nat) :
    Nat → BlockLines → Cursor → Option (BlockLines × Cursor)
  | 0, b, k => some (b, k)
  | fuel + 1, b, k =>
    if k.column == indent && !k.atEnd then do
      let blank := k.atBlank 0
      let joined :=
        if folded && b.leadingBreak.head? == some '\n' && !b.leadingBlank && !blank then
          if b.trailingBreaks.isEmpty then [' '] else []
        else b.leadingBreak
      let (line, k) := k.takeLineRest
      let (leadingBreak, k) := k.takeLine
      let (_, trailingBreaks, k) ← takeEmptyLines indent (k.rest.length + 1) 0 [] k
      takeBlockLines folded indent fuel
        ⟨b.text ++ joined ++ b.trailingBreaks ++ line, leadingBreak, trailingBreaks, blank⟩ k
    else some (b, k)

def takeBlock (folded : Bool) (parent : Int) (k : Cursor) : Option (List Char × Cursor) := do
  let (chomping, increment, k) ← blockHeader? k
  let blanks := (k.rest.takeWhile isBlank).length
  let k := k.skipMany blanks
  let k := if k.head == some '#' then k.takeLineRest.2 else k
  if !k.atBreakOrEnd 0 then none
  let (_, k) := k.takeLine
  let known := if increment = 0 then 0 else (max parent 0).toNat + increment
  let (widest, breaks, k) ← takeEmptyLines known (k.rest.length + 1) 0 [] k
  let indent := if known = 0 then max (max widest (parent + 1).toNat) 1 else known
  let (b, k) ← takeBlockLines folded indent (k.rest.length + 1) ⟨[], [], breaks, false⟩ k
  let tail := match chomping with
    | .strip => []
    | .clip => b.leadingBreak
    | .keep => b.leadingBreak ++ b.trailingBreaks
  some (b.text ++ tail, k)

end ShapeContracts.Yaml
