import ShapeContracts.Yaml.Scalar

/-!
Tokens of a YAML text. Block structure is made explicit from columns: a deeper column opens a
block, a shallower one closes blocks. A key without `?` is found out at its colon, so the place
where it began is remembered until then; such a key stays on one line and is at most 1024
characters long.
-/
namespace ShapeContracts.Yaml

inductive Token where
  | directive
  | documentStart
  | documentEnd
  | blockSequenceStart
  | blockMappingStart
  | blockEnd
  | flowSequenceStart
  | flowSequenceEnd
  | flowMappingStart
  | flowMappingEnd
  | blockEntry
  | flowEntry
  | key
  | value
  | alias (name : String)
  | anchor (name : String)
  | tag
  | scalar (plain : Bool) (text : String)
  deriving DecidableEq, Repr

structure KeyMark where
  required : Bool
  position : Nat
  index : Nat
  line : Nat
  column : Nat

structure Scanner where
  cursor : Cursor
  tokens : Array Token
  /-- Columns of the open blocks, innermost first. -/
  indents : List Nat
  /-- One place per open flow collection, innermost first, and one for the block context. -/
  keys : List (Option KeyMark)
  keyAllowed : Bool

namespace Scanner

def start (cs : List Char) : Scanner := ⟨.ofText cs, #[], [], [none], true⟩

def indent (s : Scanner) : Int :=
  match s.indents with
  | [] => -1
  | n :: _ => n

def inFlow (s : Scanner) : Bool := s.keys.length > 1

def emit (s : Scanner) (t : Token) : Scanner := { s with tokens := s.tokens.push t }

def moveTo (s : Scanner) (k : Cursor) : Scanner := { s with cursor := k }

def unroll (s : Scanner) (column : Int) : Scanner :=
  if s.inFlow then s
  else
    let closed := s.indents.takeWhile (fun (n : Nat) => decide (column < (n : Int)))
    { s with
      tokens := closed.foldl (fun ts _ => ts.push .blockEnd) s.tokens
      indents := s.indents.drop closed.length }

def roll (s : Scanner) (column position : Nat) (t : Token) : Scanner :=
  if s.inFlow || (column : Int) ≤ s.indent then s
  else
    { s with
      tokens := (s.tokens.toList.take position ++ t :: s.tokens.toList.drop position).toArray
      indents := column :: s.indents }

def dropKey (s : Scanner) : Option Scanner :=
  match s.keys with
  | some mark :: rest => if mark.required then none else some { s with keys := none :: rest }
  | _ => some s

def saveKey (s : Scanner) : Option Scanner :=
  if s.keyAllowed then do
    let s ← s.dropKey
    let k := s.cursor
    let mark : KeyMark :=
      ⟨!s.inFlow && s.indent == (k.column : Int), s.tokens.size, k.index, k.line, k.column⟩
    some { s with keys := some mark :: s.keys.drop 1 }
  else some s

def dropStaleKeys (s : Scanner) : Option Scanner := do
  let keys ← s.keys.mapM (fun key =>
    match key with
    | some mark =>
      if mark.line < s.cursor.line ∨ mark.index + 1024 < s.cursor.index then
        if mark.required then none else some none
      else some (some mark)
    | none => some none)
  some { s with keys }

def skipSpace : Nat → Scanner → Scanner
  | 0, s => s
  | fuel + 1, s =>
    let k := s.cursor
    if k.is 0 (· == ' ') || (k.is 0 (· == '\t') && (s.inFlow || !s.keyAllowed)) then
      skipSpace fuel (s.moveTo k.skip)
    else if k.is 0 (· == '#') then skipSpace fuel (s.moveTo k.takeLineRest.2)
    else if k.atBreak 0 then
      skipSpace fuel { s with cursor := k.takeLine.2, keyAllowed := s.keyAllowed || !s.inFlow }
    else s

def documentMark (s : Scanner) (t : Token) : Option Scanner := do
  let s ← (s.unroll (-1)).dropKey
  some (({ s with keyAllowed := false }.moveTo (s.cursor.skipMany 3)).emit t)

def openFlow (s : Scanner) (t : Token) : Option Scanner := do
  let s ← s.saveKey
  some (({ s with keys := none :: s.keys, keyAllowed := true }.moveTo s.cursor.skip).emit t)

def closeFlow (s : Scanner) (t : Token) : Option Scanner := do
  let s ← s.dropKey
  let keys := if s.inFlow then s.keys.drop 1 else s.keys
  some (({ s with keys, keyAllowed := false }.moveTo s.cursor.skip).emit t)

def flowEntry (s : Scanner) : Option Scanner := do
  let s ← s.dropKey
  some (({ s with keyAllowed := true }.moveTo s.cursor.skip).emit .flowEntry)

def blockEntry (s : Scanner) : Option Scanner := do
  if !s.inFlow && !s.keyAllowed then none
  let s ← (s.roll s.cursor.column s.tokens.size .blockSequenceStart).dropKey
  some (({ s with keyAllowed := true }.moveTo s.cursor.skip).emit .blockEntry)

def explicitKey (s : Scanner) : Option Scanner := do
  if !s.inFlow && !s.keyAllowed then none
  let s ← (s.roll s.cursor.column s.tokens.size .blockMappingStart).dropKey
  some (({ s with keyAllowed := !s.inFlow }.moveTo s.cursor.skip).emit .key)

def insertAt (ts : Array Token) (position : Nat) (t : Token) : Array Token :=
  (ts.toList.take position ++ t :: ts.toList.drop position).toArray

def mappingValue (s : Scanner) : Option Scanner :=
  match s.keys with
  | some mark :: rest =>
    let s := { s with tokens := insertAt s.tokens mark.position .key }
    let s := s.roll mark.column mark.position .blockMappingStart
    some (({ s with keys := none :: rest, keyAllowed := false }.moveTo s.cursor.skip).emit .value)
  | _ =>
    if !s.inFlow && !s.keyAllowed then none
    else
      let s := s.roll s.cursor.column s.tokens.size .blockMappingStart
      some (({ s with keyAllowed := !s.inFlow }.moveTo s.cursor.skip).emit .value)

def anchorName (s : Scanner) (make : String → Token) : Option Scanner := do
  let s ← s.saveKey
  let k := s.cursor.skip
  let name := k.rest.takeWhile isAnchorLetter
  let k := k.skipMany name.length
  if name.isEmpty then none
  if !(k.atBlankOrEnd 0 || k.is 0 (fun c => ['?', ':', ',', ']', '}', '%', '@', '\x60'].contains c)) then
    none
  some (({ s with keyAllowed := false }.moveTo k).emit (make (String.ofList name)))

def tag (s : Scanner) : Option Scanner := do
  let s ← s.saveKey
  let text := s.cursor.rest.takeWhile
    (fun c => !isBlank c && !isBreak c && !(s.inFlow && (c == ',' || c == ']' || c == '}')))
  some (({ s with keyAllowed := false }.moveTo (s.cursor.skipMany text.length)).emit .tag)

def block (s : Scanner) (folded : Bool) : Option Scanner := do
  let s ← s.dropKey
  let (text, k) ← takeBlock folded s.indent s.cursor.skip
  some (({ s with keyAllowed := true }.moveTo k).emit (.scalar false (String.ofList text)))

def quoted (s : Scanner) (single : Bool) : Option Scanner := do
  let s ← s.saveKey
  let k := s.cursor.skip
  let (text, k) ← takeQuoted single (k.rest.length + 1) [] k
  some (({ s with keyAllowed := false }.moveTo k).emit (.scalar false (String.ofList text)))

def plain (s : Scanner) : Option Scanner := do
  let s ← s.saveKey
  let k := s.cursor
  let (text, broken, k) ← takePlain s.inFlow (s.indent + 1).toNat (k.rest.length + 1) [] .empty k
  some (({ s with keyAllowed := broken }.moveTo k).emit (.scalar true (String.ofList text)))

def directive (s : Scanner) : Option Scanner := do
  let s ← (s.unroll (-1)).dropKey
  some (({ s with keyAllowed := false }.moveTo s.cursor.takeLineRest.2).emit .directive)

def indicators : List Char :=
  [',', '[', ']', '{', '}', '#', '&', '*', '!', '|', '>', '\'', '"', '%', '@', '\x60']

def beginsPlain (s : Scanner) (c : Char) : Bool :=
  if c == '-' then !s.cursor.atBlank 1
  else if c == '?' || c == ':' then !s.inFlow && !s.cursor.atBlankOrEnd 1
  else !indicators.contains c && !isBlank c

def next (s : Scanner) (c : Char) : Option Scanner :=
  let k := s.cursor
  if k.column == 0 && c == '%' then s.directive
  else if k.atDocumentMark then s.documentMark (if c == '-' then .documentStart else .documentEnd)
  else if c == '[' then s.openFlow .flowSequenceStart
  else if c == '{' then s.openFlow .flowMappingStart
  else if c == ']' then s.closeFlow .flowSequenceEnd
  else if c == '}' then s.closeFlow .flowMappingEnd
  else if c == ',' then s.flowEntry
  else if c == '-' && k.atBlankOrEnd 1 then s.blockEntry
  else if c == '?' && (s.inFlow || k.atBlankOrEnd 1) then s.explicitKey
  else if c == ':' && (s.inFlow || k.atBlankOrEnd 1) then s.mappingValue
  else if c == '*' then s.anchorName .alias
  else if c == '&' then s.anchorName .anchor
  else if c == '!' then s.tag
  else if c == '|' && !s.inFlow then s.block false
  else if c == '>' && !s.inFlow then s.block true
  else if c == '\'' then s.quoted true
  else if c == '"' then s.quoted false
  else if s.beginsPlain c then s.plain
  else none

def run : Nat → Scanner → Option Scanner
  | 0, _ => none
  | fuel + 1, s => do
    let s := skipSpace (s.cursor.rest.length + 1) s
    let s ← s.dropStaleKeys
    let s := s.unroll s.cursor.column
    match s.cursor.head with
    | none => (s.unroll (-1)).dropKey
    | some c =>
      let s ← s.next c
      run fuel s

end Scanner

def tokens? (text : String) : Option (List Token) :=
  let cs := text.toList
  let cs := if cs.head? == some '\uFEFF' then cs.drop 1 else cs
  if cs.all isAllowed then (Scanner.run (cs.length + 2) (.start cs)).map (fun s => s.tokens.toList)
  else none

end ShapeContracts.Yaml
